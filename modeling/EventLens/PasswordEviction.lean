import EventLens.PasswordRecord

/-!
Who stays signed in after a password was set. Every operation that sets a
password then drops the sessions of the user, one that changes it sparing the
session it came with. A login reads the password first and opens its session
later, and looks at nothing in between.
-/

namespace EventLens.Auth

open Programs Contract

/-- Of the sessions opened with an older password, those that set the password
have left none but their own. -/
def PasswordStore.Evicted (s : PasswordStore) (evictions : List Eviction) : Prop :=
  ∀ e ∈ evictions, ∀ session ∈ s.sessions, session.userId = e.userId →
    session.verified < e.revision →
    some session.id = e.kept

/-- No operation has set a newer password than the one verified and has already
dropped the sessions. -/
def Unevicted (userId : String) (verified : ℕ) (evictions : List Eviction) : Prop :=
  ∀ e ∈ evictions, e.userId = userId → e.revision ≤ verified

instance (userId : String) (verified : ℕ) (evictions : List Eviction) :
    Decidable (Unevicted userId verified evictions) :=
  inferInstanceAs (Decidable (∀ e ∈ evictions, _ → _))

/-- A session is opened while the password it was verified against is in force,
or its successors are still to drop the sessions. -/
def OpensInTime (p : PasswordPool) (_t : PasswordThread) (e : PasswordEvent) : Prop :=
  match e.1 with
  | .createSession userId _ _ verified => Unevicted userId verified p.state.evictions
  | _ => True

instance (p : PasswordPool) (t : PasswordThread) (e : PasswordEvent) :
    Decidable (OpensInTime p t e) := by
  obtain ⟨o, r⟩ := e
  cases o <;> dsimp only [OpensInTime] <;> infer_instance

/-! The invariant. -/

/-- Those who are through with the sessions are on record, and have left none. -/
structure Evicting (S : Multiset Record) (s : PasswordStore) : Prop where
  evicted : s.Evicted s.evictions
  recorded : ∀ g ∈ S, ∀ e, g.1 = some e → e ∈ s.evictions
  changed : ∀ change ∈ s.changed, change.eviction ∈ s.evictions

section Steps

variable {g : Record} {N : Multiset Record} {s : PasswordStore}

def PasswordOp.opens : PasswordOp → Bool
  | .createSession _ _ _ _ | .deleteForUser _ => true
  | _ => false

theorem eviction_same {o : PasswordOp} {r : PasswordRes o} (ho : o.opens = false) :
    (g.note ⟨o, r⟩).1 = g.1 := by
  cases o with
  | deleteForUser e => cases ho
  | _ => rfl

/-- Statements on other tables. -/
theorem sessions_same {o : PasswordOp} (r : PasswordRes o) (ho : o.opens = false) :
    (passwordHandler o r s).2.sessions = s.sessions ∧
    (passwordHandler o r s).2.evictions = s.evictions ∧
      (passwordHandler o r s).2.changed = s.changed := by
  cases o with
  | createSession userId token expiresAt verified => cases ho
  | deleteForUser e => cases ho
  | redeem tokenHash now =>
    simp only [passwordHandler, PasswordStore.redeem]
    split <;> exact ⟨rfl, rfl, rfl⟩
  | createToken row =>
    simp only [passwordHandler, PasswordStore.createToken]
    split <;> exact ⟨rfl, rfl, rfl⟩
  | _ => exact ⟨rfl, rfl, rfl⟩

theorem evicting_createSession (h : Evicting (g ::ₘ N) s) {userId token : String}
    {expiresAt verified : ℕ}
    (hopens : Unevicted userId verified s.evictions) :
    Evicting (g ::ₘ N) (s.createSession userId token expiresAt verified) := by
  refine ⟨fun e he session hsession huser holder => ?_, h.recorded, h.changed⟩
  rcases List.mem_append.mp hsession with hsession | hnew
  · exact h.evicted e he session hsession huser holder
  · cases List.mem_singleton.mp hnew
    exact absurd (hopens e he huser.symm) (Nat.not_le_of_lt holder)

theorem evicting_deleteForUser (h : Evicting (g ::ₘ N) s) (e : Eviction) :
    Evicting (g.note ⟨.deleteForUser e, ()⟩ ::ₘ N) (s.deleteForUser e) := by
  refine ⟨fun e' he' session hsession huser holder => ?_, fun g' hg' e' he' => ?_,
    fun change hchange => ?_⟩
  · obtain ⟨hsession, hspared⟩ := List.mem_filter.mp hsession
    rcases List.mem_append.mp he' with he' | he'
    · exact h.evicted e' he' session hsession huser holder
    · cases List.mem_singleton.mp he'
      exact (of_decide_eq_true hspared).resolve_left (not_not_intro huser)
  · rcases Multiset.mem_cons.mp hg' with rfl | hg'
    · cases he'
      exact List.mem_append_right _ (List.mem_singleton_self _)
    · exact List.mem_append_left _ (h.recorded g' (Multiset.mem_cons_of_mem hg') e' he')
  · exact List.mem_append_left _ (h.changed change hchange)

theorem evicting_other (h : Evicting (g ::ₘ N) s) {o : PasswordOp} (r : PasswordRes o)
    (ho : o.opens = false) :
    Evicting (g.note ⟨o, (passwordHandler o r s).1⟩ ::ₘ N) (passwordHandler o r s).2 := by
  obtain ⟨hsessions, hevictions, hchanged⟩ := sessions_same (s := s) r ho
  refine ⟨?_, fun g' hg' e he => ?_, ?_⟩
  · rw [PasswordStore.Evicted, hsessions, hevictions]
    exact h.evicted
  · rw [hevictions]
    rcases Multiset.mem_cons.mp hg' with rfl | hg'
    · rw [eviction_same ho] at he
      exact h.recorded g (Multiset.mem_cons_self ..) e he
    · exact h.recorded g' (Multiset.mem_cons_of_mem hg') e he
  · rw [hchanged, hevictions]
    exact h.changed

variable {compareBcrypt : String → String → Bool} {hashSha256 : String → Digest}
  {sessionTtlDays : ℕ}

theorem preserves_evicting :
    Preserves (passwordServer compareBcrypt hashSha256 sessionTtlDays) OpensInTime recording
      (fun _ => (none, none)) (fun _ => Done) Evicting where
  accept c N s s' h hs := by
    obtain rfl := accept_same hs
    refine ⟨h.evicted, fun g hg e he => ?_, h.changed⟩
    rcases Multiset.mem_cons.mp hg with rfl | hg
    · cases he
    · exact h.recorded g hg e he
  perform p t N o r hnotes h hpermit hopens := by
    refine ⟨trivial, ?_⟩
    cases ho : o.opens with
    | false => exact evicting_other h r ho
    | true =>
      cases o with
      | createSession userId token expiresAt verified => exact evicting_createSession h hopens
      | deleteForUser e => exact evicting_deleteForUser h e
      | _ => cases ho
  release c value g again N s s' h hpost hs := by
    have hrecorded : ∀ g ∈ N, ∀ e, g.1 = some e → e ∈ s.evictions :=
      fun g hg e he => h.recorded g (Multiset.mem_cons_of_mem hg) e he
    obtain rfl | ⟨change, rfl, rfl⟩ := release_cases hs
    · exact ⟨h.evicted, hrecorded, h.changed⟩
    · refine ⟨h.evicted, hrecorded, fun change' hchange => ?_⟩
      rcases List.mem_append.mp hchange with hchange | hchange
      · exact h.changed change' hchange
      · cases List.mem_singleton.mp hchange
        exact h.recorded g (Multiset.mem_cons_self ..) _ (hpost change rfl).1

/-- As long as sessions are opened in time, whoever has set a password has left
no session that was opened with an older one, but their own. -/
theorem evicted_inTime {s : PasswordStore} (hfresh : s.evictions = [] ∧ s.changed = [])
    {p : PasswordPool}
    (h : (passwordServer compareBcrypt hashSha256 sessionTtlDays).Reaches OpensInTime ⟨[], s⟩ p) :
    p.state.Evicted (p.state.changed.map PasswordChange.eviction) := by
  obtain ⟨hevictions, hchanged⟩ := hfresh
  have hstart : Evicting 0 s := by
    refine ⟨fun e he => ?_, fun g hg => absurd hg (Multiset.notMem_zero _),
      fun change hchange => ?_⟩
    · rw [hevictions] at he
      exact absurd he List.not_mem_nil
    · rw [hchanged] at hchange
      exact absurd hchange List.not_mem_nil
  obtain ⟨-, hinv⟩ := h.invariant password_follows preserves_evicting rfl hstart
  intro e he
  obtain ⟨change, hchange, rfl⟩ := List.mem_map.mp he
  exact hinv.evicted _ (hinv.changed change hchange)

end Steps

/-! The old password is verified before it is changed, and its session opened after. -/

def willing : (o : PasswordOp) → PasswordRes o
  | .hashBcrypt password => password
  | .randomBytesAsText _ => "random"
  | .createToken _ | .sendEmail _ _ _ => true
  | .now | .invalidateForUser _ _ => (0 : ℕ)
  | .getByEmail _ | .getById _ | .updatePassword _ _ | .getMembership _ _ | .redeem _ _ => none
  | .createSession _ _ _ _ | .deleteForUser _ => ()

def moves (i count : ℕ) : List (Move PasswordCall PasswordOp PasswordRes) :=
  List.replicate count (.perform i willing)

def annsAccount : PasswordStore :=
  { accounts := [{ id := "ann", email := "ann@atelier", password := "old" }]
    members := [⟨"atelier", "ann", .owner⟩]
    sessions :=
      [{ id := "own", userId := "ann", token := "one" }, { id := "else", userId := "ann", token :=
      "two" }] }

def annLogsIn (password : String) : Move PasswordCall PasswordOp PasswordRes :=
  .start (.login ⟨"ann@atelier", password⟩)

def annChanges : Move PasswordCall PasswordOp PasswordRes :=
  .start (.changePassword ⟨"ann", some "own", "old", "new"⟩)

def lateSession : List (Move PasswordCall PasswordOp PasswordRes) :=
  annLogsIn "old" :: moves 0 1 ++ annChanges :: moves 1 6 ++ .leave 1 false ::
    moves 0 3 ++ [.leave 0 false]

abbrev plainServer := passwordServer (fun typed stored => typed = stored) id 30

theorem not_evicted :
    ¬ ∀ compareBcrypt hashSha256 sessionTtlDays (s : PasswordStore) (p : PasswordPool),
    s.evictions = [] ∧ s.changed = [] →
      (passwordServer compareBcrypt hashSha256 sessionTtlDays).Reaches (fun _ _ _ => True)
      ⟨[], s⟩ p →
      p.threads = [] → p.state.Evicted (p.state.changed.map PasswordChange.eviction) := by
  intro h
  let p := (plainServer.play (fun _ _ _ => True) lateSession ⟨[], annsAccount⟩).get
    (by decide +kernel)
  have hreached : plainServer.Reaches (fun _ _ _ => True) ⟨[], annsAccount⟩ p :=
    Server.Reaches.start.play lateSession (Option.some_get _).symm
  have hempty : p.threads.length = 0 := by decide +kernel
  have hleft := h _ id 30 annsAccount p ⟨rfl, rfl⟩ hreached (List.length_eq_zero_iff.mp hempty)
  have hchanged : p.state.changed = [⟨⟨"ann", 1, some "own"⟩, some ⟨"ann", 0⟩⟩] := by decide +kernel
  have hsession : ({ id := "0", userId := "ann", token := "random", expiresAt := some 2592000000 } :
      LoginSession) ∈ p.state.sessions := by decide +kernel
  rw [hchanged] at hleft
  exact absurd (hleft _ (List.mem_singleton_self _) _ hsession rfl Nat.zero_lt_one) (by decide)

def inTime : List (Move PasswordCall PasswordOp PasswordRes) :=
  annLogsIn "old" :: moves 0 4 ++ .leave 0 false :: annChanges :: moves 0 6 ++ .leave 0 false ::
    annLogsIn "new" :: moves 0 4 ++ [.leave 0 false]

theorem evicted_inTime_ann :
    ∃ p, plainServer.play OpensInTime inTime ⟨[], annsAccount⟩ = some p ∧
      p.state.sessions.map (fun session => session.id) = ["own", "1"] ∧
      p.state.Evicted (p.state.changed.map PasswordChange.eviction) := by
  have hrun : (plainServer.play OpensInTime inTime ⟨[], annsAccount⟩).map
      (fun p => p.state.sessions.map (fun session => session.id)) = some ["own", "1"] := by
    decide +kernel
  obtain ⟨p, hplay, hsessions⟩ := Option.map_eq_some_iff.mp hrun
  exact ⟨p, hplay, hsessions, evicted_inTime ⟨rfl, rfl⟩ (Server.Reaches.start.play inTime hplay)⟩

end EventLens.Auth

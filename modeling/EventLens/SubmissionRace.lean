import EventLens.SubmissionRecord

/-!
Submissions of one guest side by side. Each writes the row, clears the selfies
and inserts its own in statements of their own; the row written last decides
the name and the link. The selfies are those of the same submission as long as
no earlier one clears them again, and none inserts between the clearing and the
insertion of the last.
-/

namespace EventLens.Submissions

open Programs Contract Selfies SubmissionStore

/-- The row has the name, the token and the primary selfie of the submission. -/
def Guest.FromSubmission (g : Guest) (m : Made) : Prop :=
  m.participantId = g.id ∧ g.name = m.dto.name ∧ g.phone = m.dto.phone ∧
    g.galleryToken = m.dto.galleryToken ∧ g.selfieKey = m.dto.selfieKey ∧
      m.keys.head? = some m.dto.selfieKey

namespace SubmissionStore

variable (s : SubmissionStore)

/-- Row and selfies of a guest come from one submission, the selfies in order. -/
def Unmixed : Prop :=
  ∀ g ∈ s.guests, g.deleted = false →
    ∃ m ∈ s.made, g.FromSubmission m ∧ s.selfiesOf g.id = selfieRows g.id m.keys

/-- The selfies of the submission that wrote the row are there. -/
def stored (g : Guest) : Bool :=
  (s.made[g.serial]?).any (fun m => s.selfiesOf g.id = selfieRows g.id m.keys)

/-- Every guest's row is that of its last submission, with the selfies; there
are no other selfies but whole sets. -/
structure Ready : Prop where
  fresh : ∀ g ∈ s.guests, g.id < s.nextGuest
  last : ∀ g ∈ s.guests, g.deleted = false → ∃ m, s.made[g.serial]? = some m ∧ g.FromSubmission m
  stored : ∀ g ∈ s.guests, g.deleted = false → s.stored g = true
  sets : ∀ id, s.selfiesOf id = [] ∨ ∃ keys, keys ≠ [] ∧ s.selfiesOf id = selfieRows id keys

end SubmissionStore

/-- Nobody clears the selfies of a later submission, and the last submission
finds none when it inserts. -/
def InTurn (p : SubmitPool) (_t : SubmitThread) (e : SubmitEvent) : Prop :=
  match e.1 with
  | .deleteSelfies id serial => ∀ g ∈ p.state.guests, g.id = id → g.deleted = false →
      g.serial = serial ∨ p.state.stored g = false
  | .insertSelfies id serial keys => ∀ g ∈ p.state.guests, g.id = id → g.deleted = false →
      g.serial = serial → p.state.free id keys.length = true
  | _ => True

instance (p : SubmitPool) (t : SubmitThread) (e : SubmitEvent) : Decidable (InTurn p t e) := by
  obtain ⟨o, r⟩ := e
  cases o <;> dsimp only [InTurn] <;> infer_instance

/-! How far a submission is. -/

inductive Progress
  | begun
  | written (id : ParticipantId) (serial : ℕ) (keys : List SelfieKey)
  | cleared (id : ParticipantId) (serial : ℕ) (keys : List SelfieKey)
  | over
deriving DecidableEq

namespace Progress

def note : Progress → SubmitEvent → Progress
  | .begun, ⟨.upsert _ keys, g⟩ => .written (g : Guest).id (g : Guest).serial keys
  | .written id serial keys, ⟨.deleteSelfies _ _, _⟩ => .cleared id serial keys
  | .cleared _ _ _, ⟨.insertSelfies _ _ _, _⟩ => .over
  | g, _ => g

def Permits : Progress → SubmitOp → Prop
  | .begun, .upsert dto keys => keys.head? = some dto.selfieKey
  | .begun, .deleteSelfies _ _ | .begun, .insertSelfies _ _ _ | .begun, .queue _ => False
  | .begun, _ => True
  | .written id serial _, .deleteSelfies id' serial' => id' = id ∧ serial' = serial
  | .cleared id serial keys, .insertSelfies id' serial' keys' =>
    id' = id ∧ serial' = serial ∧ keys' = keys
  | .over, .queue _ => True
  | _, _ => False

/-- The selfies that a submission still owes. -/
def owes : Progress → Option (ParticipantId × ℕ × List SelfieKey)
  | .written id serial keys | .cleared id serial keys => some (id, serial, keys)
  | _ => none

end Progress

def progress : Contract SubmitOp SubmitRes Progress where
  note := Progress.note
  expects _ _ := True
  permits := Progress.Permits

section Follows

theorem putFiles_follows (files : List (StagedUpload × SelfieKey)) :
    progress.Follows (putFiles files).run (fun _ g => g = .begun) .begun := by
  induction files with
  | nil => rfl
  | cons file files ih =>
    refine ⟨trivial, fun r _ => ?_⟩
    cases r with
    | error e => rfl
    | ok _ => exact ih

theorem storeSelfies_follows {dto : Submission} (orgId eventId : String)
    (hstaged : dto.staged ≠ []) :
    progress.Follows (storeSelfies dto orgId eventId).run (fun _ g => g.owes = none) .begun := by
  refine ⟨trivial, fun token _ => ⟨trivial, fun uuid _ => ?_⟩⟩
  have hhead : ∃ key keys, selfieKeys orgId eventId uuid 0 dto.staged = key :: keys := by
    cases hcase : dto.staged with
    | nil => exact absurd hcase hstaged
    | cons file files => exact ⟨_, _, rfl⟩
  obtain ⟨key, keys, hkeys⟩ := hhead
  refine (follows_attempt _ _ _ _ _).mpr (follows_mono _ ?_ _ _ (putFiles_follows _))
  intro r g hg
  subst hg
  cases r with
  | error e => rfl
  | ok _ =>
    have hsome : selfieKeys orgId eventId uuid 0 dto.staged ≠ [] :=
      hkeys ▸ List.cons_ne_nil key keys
    refine ⟨?_, fun guest _ => ⟨⟨rfl, rfl⟩, fun _ _ => ?_⟩⟩
    · change List.head? (selfieKeys orgId eventId uuid 0 dto.staged) =
        some (List.headD (selfieKeys orgId eventId uuid 0 dto.staged) _)
      rw [hkeys]
      rfl
    · change progress.Follows
        (ExceptT.run ((if selfieKeys orgId eventId uuid 0 dto.staged = [] then _
        else _ : SubmitAttempt Unit) >>= _)) _ _
      rw [if_neg hsome]
      refine ⟨⟨rfl, rfl, rfl⟩, fun r _ => ?_⟩
      cases r with
      | error e => rfl
      | ok _ => exact ⟨trivial, fun _ _ => ⟨trivial, fun _ _ => rfl⟩⟩

theorem submitSelfie_follows (dto : Submission) :
    progress.Follows (submitSelfie dto).run (fun _ g => g.owes = none) .begun := by
  rw [submitSelfie, validate]
  by_cases hstaged : dto.staged = []
  · rw [if_pos hstaged]
    rfl
  rw [if_neg hstaged]
  split
  · rfl
  · refine ⟨trivial, fun event _ => ?_⟩
    cases event with
    | error e => rfl
    | ok event =>
      refine ⟨trivial, fun byIp _ => ?_⟩
      cases byIp with
      | false => rfl
      | true =>
        refine ⟨trivial, fun byEmail _ => ?_⟩
        cases byEmail with
        | false => rfl
        | true => exact storeSelfies_follows event.1 event.2 hstaged

end Follows

/-! The invariant. -/

/-- The last submission of each guest has its selfies stored, or owes them. -/
structure Settling (S : Multiset Progress) (s : SubmissionStore) : Prop where
  fresh : ∀ g ∈ s.guests, g.id < s.nextGuest
  last : ∀ g ∈ s.guests, g.deleted = false → ∃ m, s.made[g.serial]? = some m ∧ g.FromSubmission m
  owed : ∀ p ∈ S, ∀ id serial keys, p.owes = some (id, serial, keys) →
    keys ≠ [] ∧ ∃ m, s.made[serial]? = some m ∧ m.keys = keys
  sets : ∀ id, s.selfiesOf id = [] ∨ ∃ keys, keys ≠ [] ∧ s.selfiesOf id = selfieRows id keys
  settled : ∀ g ∈ s.guests, g.deleted = false →
    s.stored g = true ∨ ∃ p ∈ S, ∃ keys, p.owes = some (g.id, g.serial, keys)

section Steps

variable {p : Progress} {N : Multiset Progress} {s s' : SubmissionStore} {k : ParticipantId}

theorem selfieRows_ne {id : ParticipantId} {keys : List SelfieKey} (h : keys ≠ []) :
    selfieRows id keys ≠ [] := by
  cases keys with
  | nil => exact absurd rfl h
  | cons key keys => exact List.cons_ne_nil _ _

theorem selfiesOf_deleteSelfies (id k : ParticipantId) :
    (s.deleteSelfies id).selfiesOf k = if k = id then [] else s.selfiesOf k := by
  rw [selfiesOf, deleteSelfies, List.filter_filter]
  split
  · rename_i hid
    refine List.filter_eq_nil_iff.mpr fun row _ hrow => ?_
    obtain ⟨hown, hother⟩ := Bool.and_eq_true_iff.mp hrow
    exact of_decide_eq_true hother ((of_decide_eq_true hown).trans hid)
  · rename_i hid
    refine List.filter_congr fun row _ => ?_
    by_cases hown : row.participantId = k
    · rw [decide_eq_true hown, Bool.true_and]
      exact decide_eq_true fun hsame => hid (hown.symm.trans hsame)
    · rw [decide_eq_false hown, Bool.false_and]

theorem participantId_selfieRows {id : ParticipantId} {keys : List SelfieKey} {row : SelfieRow}
    (h : row ∈ selfieRows id keys) : row.participantId = id := by
  obtain ⟨numbered, -, rfl⟩ := List.mem_map.mp h
  rfl

theorem selfiesOf_insertSelfies (id k : ParticipantId) (keys : List SelfieKey) :
    (s.insertSelfies id keys).selfiesOf k = s.selfiesOf k ++ if k =
    id then selfieRows id keys else [] := by
  rw [selfiesOf, SubmissionStore.insertSelfies, List.filter_append, selfiesOf]
  congr 1
  split
  · rename_i hid
    refine List.filter_eq_self.mpr fun row hrow => decide_eq_true ?_
    rw [participantId_selfieRows hrow, hid]
  · rename_i hid
    refine List.filter_eq_nil_iff.mpr fun row hrow hown => hid ?_
    rw [← of_decide_eq_true hown, participantId_selfieRows hrow]

/-- Where the ordinals are free there is no set at all. -/
theorem selfiesOf_free (hsets : s.selfiesOf k = [] ∨ ∃ keys, keys ≠ [] ∧
    s.selfiesOf k = selfieRows k keys)
    {count : ℕ} (hcount : 0 < count) (hfree : s.free k count = true) : s.selfiesOf k = [] := by
  refine hsets.resolve_right fun howing => ?_
  obtain ⟨keys, hkeys, hset⟩ := howing
  cases keys with
  | nil => exact hkeys rfl
  | cons key keys =>
    have hrow : (⟨k, 0, key⟩ : SelfieRow) ∈ s.selfiesOf k := by
      rw [hset]
      exact List.mem_cons_self
    have hroom := of_decide_eq_true (List.all_eq_true.mp hfree _ (List.mem_filter.mp hrow).1)
    rcases hroom with hother | hle
    · exact hother rfl
    · exact absurd hle (Nat.not_le_of_lt hcount)

theorem stored_iff {g : Guest} {m : Made} (h : s.made[g.serial]? = some m) :
    s.stored g = true ↔ s.selfiesOf g.id = selfieRows g.id m.keys := by
  rw [stored, h]
  exact decide_eq_true_iff

theorem made_appended {made : List Made} {serial : ℕ} {m : Made} (x : Made)
    (h : made[serial]? = some m) :
    (made ++ [x])[serial]? = some m :=
  (List.getElem?_append_left (List.getElem?_eq_some_iff.mp h).1).trans h

/-- Statements on other tables. -/
theorem Settling.same {p' : Progress} (h : Settling (p ::ₘ N) s) (howes : p'.owes = p.owes)
    (hguests : s'.guests = s.guests) (hnext : s'.nextGuest = s.nextGuest) (hmade : s'.made = s.made)
    (hselfies : s'.selfies = s.selfies) : Settling (p' ::ₘ N) s' := by
  have hof : ∀ id, s'.selfiesOf id = s.selfiesOf id := by
    intro id
    rw [selfiesOf, hselfies, selfiesOf]
  have hstored : ∀ g, s'.stored g = s.stored g := by
    intro g
    rw [stored, hmade, hof, stored]
  refine ⟨?_, ?_, fun q hq id serial keys hkeys => ?_, fun id => ?_, fun g hg hlive => ?_⟩
  · rw [hguests, hnext]
    exact h.fresh
  · rw [hguests, hmade]
    exact h.last
  · rw [hmade]
    rcases Multiset.mem_cons.mp hq with rfl | hq
    · exact h.owed p (Multiset.mem_cons_self ..) id serial keys (howes ▸ hkeys)
    · exact h.owed q (Multiset.mem_cons_of_mem hq) id serial keys hkeys
  · rw [hof]
    exact h.sets id
  · rw [hguests] at hg
    rw [hstored]
    refine (h.settled g hg hlive).imp_right fun howing => ?_
    obtain ⟨q, hq, keys, hkeys⟩ := howing
    rcases Multiset.mem_cons.mp hq with rfl | hq
    · exact ⟨p', Multiset.mem_cons_self .., keys, howes.trans hkeys⟩
    · exact ⟨q, Multiset.mem_cons_of_mem hq, keys, hkeys⟩

/-- What a submission of another guest leaves as it is. -/
theorem Settling.kept (h : Settling (.begun ::ₘ N) s) {g : Guest} (hg : g ∈ s.guests)
    (hlive : g.deleted = false)
    (x : Made) (p : Progress) :
    (∃ m, (s.made ++ [x])[g.serial]? = some m ∧ g.FromSubmission m) ∧
      ({ s with made := s.made ++ [x] }.stored g = true ∨
        ∃ q ∈ p ::ₘ N, ∃ keys, q.owes = some (g.id, g.serial, keys)) := by
  obtain ⟨m, hm, hfrom⟩ := h.last g hg hlive
  have hm' := made_appended x hm
  refine ⟨⟨m, hm', hfrom⟩, ?_⟩
  rcases h.settled g hg hlive with hstored | ⟨q, hq, keys, hkeys⟩
  · exact .inl
      ((stored_iff (s := { s with made := s.made ++ [x] }) hm').mpr ((stored_iff hm).mp hstored))
  · rcases Multiset.mem_cons.mp hq with rfl | hq
    · cases hkeys
    · exact .inr ⟨q, Multiset.mem_cons_of_mem hq, keys, hkeys⟩

theorem Settling.owed_next (h : Settling (.begun ::ₘ N) s) {x : Made} {id : ParticipantId}
    (hkeys : x.keys ≠ []) :
    ∀ p ∈ Progress.written id s.made.length x.keys ::ₘ N, ∀ k serial keys,
    p.owes = some (k, serial, keys) →
      keys ≠ [] ∧ ∃ m, (s.made ++ [x])[serial]? = some m ∧ m.keys = keys := by
  intro p hp k serial keys howes
  rcases Multiset.mem_cons.mp hp with rfl | hp
  · cases howes
    exact ⟨hkeys, x, List.getElem?_concat_length, rfl⟩
  · obtain ⟨hsome, m, hm, hsame⟩ := h.owed p (Multiset.mem_cons_of_mem hp) k serial keys howes
    exact ⟨hsome, m, made_appended x hm, hsame⟩

/-- The row goes to the submission, which owes its selfies then. -/
theorem settling_upsert (h : Settling (.begun ::ₘ N) s) {dto : TokenUpsert} {keys : List SelfieKey}
    (hhead : keys.head? = some dto.selfieKey) :
    Settling (Progress.written (s.upsert dto keys).1.id (s.upsert dto keys).1.serial keys ::ₘ N)
      (s.upsert dto keys).2 := by
  have hkeys : keys ≠ [] := by
    intro hnil
    rw [hnil] at hhead
    cases hhead
  rw [upsert]
  cases hfind : s.conflicting dto with
  | some guest =>
    let x : Made := ⟨guest.id, dto, keys⟩
    have hrows : ∀ g' ∈ s.guests.map (fun row =>
        if row.id = guest.id then resubmitted dto s.made.length row else row), ∃ g ∈ s.guests,
        (g.id = guest.id ∧ g' = resubmitted dto s.made.length g) ∨ g' = g := by
      intro g' hg'
      obtain ⟨g, hg, rfl⟩ := List.mem_map.mp hg'
      refine ⟨g, hg, ?_⟩
      split
      · rename_i hid
        exact .inl ⟨hid, rfl⟩
      · exact .inr rfl
    refine ⟨fun g' hg' => ?_, fun g' hg' hlive => ?_, h.owed_next (x :=
      x) hkeys, h.sets, fun g' hg' hlive => ?_⟩
    · obtain ⟨g, hg, ⟨-, rfl⟩ | rfl⟩ := hrows g' hg'
      · exact h.fresh g hg
      · exact h.fresh g' hg
    · obtain ⟨g, hg, ⟨hid, rfl⟩ | rfl⟩ := hrows g' hg'
      · exact ⟨x, List.getElem?_concat_length, hid.symm, rfl, rfl, rfl, rfl, hhead⟩
      · exact (h.kept hg hlive x .over).1
    · obtain ⟨g, hg, ⟨hid, rfl⟩ | rfl⟩ := hrows g' hg'
      · refine .inr ⟨_, Multiset.mem_cons_self .., keys, ?_⟩
        change some (guest.id, s.made.length, keys) = some (g.id, s.made.length, keys)
        rw [hid]
      · exact (h.kept hg hlive x _).2
  | none =>
    let x : Made := ⟨s.nextGuest, dto, keys⟩
    refine ⟨fun g hg => ?_, fun g hg hlive => ?_, h.owed_next (x :=
      x) hkeys, h.sets, fun g hg hlive => ?_⟩
    · rcases List.mem_append.mp hg with hg | hg
      · exact Nat.lt_succ_of_lt (h.fresh g hg)
      · rw [List.mem_singleton.mp hg]
        exact Nat.lt_succ_self _
    · rcases List.mem_append.mp hg with hg | hg
      · exact (h.kept hg hlive x .over).1
      · rw [List.mem_singleton.mp hg]
        exact ⟨x, List.getElem?_concat_length, rfl, rfl, rfl, rfl, rfl, hhead⟩
    · rcases List.mem_append.mp hg with hg | hg
      · exact (h.kept hg hlive x _).2
      · rw [List.mem_singleton.mp hg]
        exact .inr ⟨_, Multiset.mem_cons_self .., keys, rfl⟩

/-- Clearing is for the last submission, or before its selfies are there. -/
theorem settling_deleteSelfies {id : ParticipantId} {serial : ℕ} {keys : List SelfieKey}
    (h : Settling (.written id serial keys ::ₘ N) s)
    (hturn : ∀ g ∈ s.guests, g.id = id → g.deleted = false → g.serial = serial ∨
    s.stored g = false) :
    Settling (.cleared id serial keys ::ₘ N) (s.deleteSelfies id) := by
  refine ⟨h.fresh, h.last, fun q hq k serial' keys' hkeys => ?_, fun k => ?_, fun g hg hlive => ?_⟩
  · rcases Multiset.mem_cons.mp hq with rfl | hq
    · exact h.owed (.written id serial keys) (Multiset.mem_cons_self ..) k serial' keys' hkeys
    · exact h.owed q (Multiset.mem_cons_of_mem hq) k serial' keys' hkeys
  · rw [selfiesOf_deleteSelfies]
    split
    · exact .inl rfl
    · exact h.sets k
  · have howed :
      (∃ q ∈ Progress.written id serial keys ::ₘ N, ∃ keys',
      q.owes = some (g.id, g.serial, keys')) →
        ∃ q ∈ Progress.cleared id serial keys ::ₘ N, ∃ keys',
          q.owes = some (g.id, g.serial, keys') := by
      intro howing
      obtain ⟨q, hq, keys', hkeys⟩ := howing
      rcases Multiset.mem_cons.mp hq with rfl | hq
      · exact ⟨_, Multiset.mem_cons_self .., keys', hkeys⟩
      · exact ⟨q, Multiset.mem_cons_of_mem hq, keys', hkeys⟩
    by_cases hid : g.id = id
    · rcases hturn g hg hid hlive with hlast | hmissing
      · refine .inr ⟨_, Multiset.mem_cons_self .., keys, ?_⟩
        rw [Progress.owes, hid, hlast]
      · refine .inr (howed ((h.settled g hg hlive).resolve_left ?_))
        rw [hmissing]
        exact Bool.false_ne_true
    · refine (h.settled g hg hlive).imp (fun hstored => ?_) howed
      obtain ⟨m, hm, -⟩ := h.last g hg hlive
      refine (stored_iff (s := s.deleteSelfies id) hm).mpr ?_
      rw [selfiesOf_deleteSelfies, if_neg hid]
      exact (stored_iff hm).mp hstored

theorem settling_insertSelfies {id : ParticipantId} {serial : ℕ} {keys : List SelfieKey}
    (h : Settling (.cleared id serial keys ::ₘ N) s) (hfree : s.free id keys.length = true) :
    Settling (.over ::ₘ N) (s.insertSelfies id keys) := by
  obtain ⟨hkeys, m, hm, rfl⟩ := h.owed _ (Multiset.mem_cons_self ..) id serial keys rfl
  have hnone : s.selfiesOf id = [] :=
    selfiesOf_free (h.sets id) (List.length_pos_iff.mpr hkeys) hfree
  refine ⟨h.fresh, h.last, fun q hq k serial' keys' howes => ?_, fun k => ?_, fun g hg hlive => ?_⟩
  · rcases Multiset.mem_cons.mp hq with rfl | hq
    · cases howes
    · exact h.owed q (Multiset.mem_cons_of_mem hq) k serial' keys' howes
  · rw [selfiesOf_insertSelfies]
    split
    · rename_i hid
      subst hid
      rw [hnone]
      exact .inr ⟨m.keys, hkeys, rfl⟩
    · rw [List.append_nil]
      exact h.sets k
  · obtain ⟨m', hm', -, -, -, -, -, hhead⟩ := h.last g hg hlive
    have hother : g.id ≠ id ∨ g.serial ≠ serial → (s.insertSelfies id m.keys).stored g = true ∨
        ∃ q ∈ Progress.over ::ₘ N, ∃ keys', q.owes = some (g.id, g.serial, keys') := by
      intro hne
      rcases h.settled g hg hlive with hstored | ⟨q, hq, keys', howes⟩
      · have hset := (stored_iff hm').mp hstored
        refine .inl ((stored_iff (s := s.insertSelfies id m.keys) hm').mpr ?_)
        rw [selfiesOf_insertSelfies, if_neg, List.append_nil]
        · exact hset
        · intro hid
          rw [hid, hnone] at hset
          refine selfieRows_ne (fun hnil => ?_) hset.symm
          rw [hnil] at hhead
          cases hhead
      · rcases Multiset.mem_cons.mp hq with rfl | hq
        · cases howes
          exact absurd rfl (hne.resolve_left (not_not_intro rfl))
        · exact .inr ⟨q, Multiset.mem_cons_of_mem hq, keys', howes⟩
    by_cases hid : g.id = id
    · by_cases hserial : g.serial = serial
      · refine .inl ((stored_iff (s := s.insertSelfies id m.keys) hm').mpr ?_)
        rw [hserial, hm] at hm'
        cases hm'
        rw [selfiesOf_insertSelfies, if_pos hid, hid, hnone]
        rfl
      · exact hother (.inr hserial)
    · exact hother (.inl hid)

/-- A submission that is refused was not the last. -/
theorem settling_refused {id : ParticipantId} {serial : ℕ} {keys : List SelfieKey}
    (h : Settling (.cleared id serial keys ::ₘ N) s)
    (hearlier : ∀ g ∈ s.guests, g.id = id → g.deleted = false → g.serial ≠ serial) :
    Settling (.over ::ₘ N) s := by
  refine ⟨h.fresh, h.last, fun q hq k serial' keys' howes => ?_, h.sets, fun g hg hlive => ?_⟩
  · rcases Multiset.mem_cons.mp hq with rfl | hq
    · cases howes
    · exact h.owed q (Multiset.mem_cons_of_mem hq) k serial' keys' howes
  · refine (h.settled g hg hlive).imp_right fun howing => ?_
    obtain ⟨q, hq, keys', howes⟩ := howing
    rcases Multiset.mem_cons.mp hq with rfl | hq
    · cases howes
      exact absurd rfl (hearlier g hg rfl hlive)
    · exact ⟨q, Multiset.mem_cons_of_mem hq, keys', howes⟩

theorem settling_step {pool : SubmitPool} {t : SubmitThread} (h : Settling (p ::ₘ N) pool.state)
    (o : SubmitOp)
    (r : SubmitRes o) (hpermit : p.Permits o)
    (hturn : InTurn pool t ⟨o, (submitHandler o r pool.state).1⟩) :
    Settling (p.note ⟨o, (submitHandler o r pool.state).1⟩ ::ₘ N)
    (submitHandler o r pool.state).2 := by
  cases p with
  | begun =>
    cases o with
    | upsert dto keys => exact settling_upsert h hpermit
    | deleteSelfies id serial => cases hpermit
    | insertSelfies id serial keys => cases hpermit
    | queue job => cases hpermit
    | putFile stagingPath key mimeType =>
      simp only [submitHandler]
      cases r with
      | error e => exact h.same rfl rfl rfl rfl rfl
      | ok _ => exact h.same rfl rfl rfl rfl rfl
    | _ => exact h.same rfl rfl rfl rfl rfl
  | written id serial keys =>
    cases o with
    | deleteSelfies id' serial' =>
      obtain ⟨rfl, rfl⟩ := hpermit
      exact settling_deleteSelfies h hturn
    | _ => cases hpermit
  | cleared id serial keys =>
    cases o with
    | insertSelfies id' serial' keys' =>
      obtain ⟨rfl, rfl, rfl⟩ := hpermit
      simp only [submitHandler]
      split
      · rename_i hfree
        exact settling_insertSelfies h hfree
      · rename_i htaken
        exact settling_refused h fun g hg hid hlive hlast => htaken (hturn g hg hid hlive hlast)
    | _ => cases hpermit
  | «over» =>
    cases o with
    | queue job => exact h.same rfl rfl rfl rfl rfl
    | _ => cases hpermit

/-- A call that owes nothing does not matter. -/
theorem Settling.drop (h : Settling (p ::ₘ N) s) (hnone : p.owes = none) : Settling N s := by
  refine ⟨h.fresh, h.last, fun q hq => h.owed q (Multiset.mem_cons_of_mem hq), h.sets,
    fun g hg hlive => ?_⟩
  refine (h.settled g hg hlive).imp_right fun howing => ?_
  obtain ⟨q, hq, keys, hkeys⟩ := howing
  rcases Multiset.mem_cons.mp hq with rfl | hq
  · rw [hnone] at hkeys
    cases hkeys
  · exact ⟨q, hq, keys, hkeys⟩

theorem Settling.add (h : Settling N s) (hnone : p.owes = none) : Settling (p ::ₘ N) s := by
  refine ⟨h.fresh, h.last, fun q hq id serial keys hkeys => ?_, h.sets, fun g hg hlive => ?_⟩
  · rcases Multiset.mem_cons.mp hq with rfl | hq
    · rw [hnone] at hkeys
      cases hkeys
    · exact h.owed q hq id serial keys hkeys
  · refine (h.settled g hg hlive).imp_right fun howing => ?_
    obtain ⟨q, hq, hkeys⟩ := howing
    exact ⟨q, Multiset.mem_cons_of_mem hq, hkeys⟩

theorem preserves_settling :
    Preserves submitServer InTurn progress (fun _ => .begun)
    (fun _ _ g => g.owes = none) Settling where
  accept c N s s' h hs := by
    cases hs
    exact h.add rfl
  perform pool t N o r _ h hpermit hturn := ⟨trivial, settling_step h o r hpermit hturn⟩
  release c value g again N s s' h hpost hs := by
    cases hs
    exact h.drop hpost

/-- As long as no submission meddles with a later one, row and selfies of a
guest come from one submission when none is in progress. -/
theorem unmixed_inTurn {s : SubmissionStore} (hs : s.Ready) {pool : SubmitPool}
    (h : submitServer.Reaches InTurn ⟨[], s⟩ pool) (hempty : pool.threads = []) :
    pool.state.Unmixed := by
  have hstart : Settling 0 s :=
    ⟨hs.fresh, hs.last, fun q hq => absurd hq (Multiset.notMem_zero q), hs.sets,
      fun g hg hlive => .inl (hs.stored g hg hlive)⟩
  obtain ⟨-, hsettling⟩ := h.invariant submitSelfie_follows preserves_settling rfl hstart
  rw [hempty] at hsettling
  intro g hg hlive
  obtain ⟨m, hm, hfrom⟩ := hsettling.last g hg hlive
  refine ⟨m, List.mem_of_getElem? hm, hfrom, (stored_iff hm).mp ?_⟩
  refine (hsettling.settled g hg hlive).resolve_right fun howing => ?_
  obtain ⟨q, hq, -⟩ := howing
  exact absurd hq (Multiset.notMem_zero q)

end Steps

/-! The form is sent twice; the first request clears and inserts after the second. -/

def gala (name : String) : Submission :=
  { slug := "gala"
    email := "ada"
    name := name
    phone := none
    staged := [⟨"staged", "image/jpeg", 1⟩]
    clientIp := "::1" }

def willing (token : String) : (o : SubmitOp) → SubmitRes o
  | .getActiveEvent slug => .ok ("studio", slug)
  | .consumeIp _ | .consumeEmail _ _ => true
  | .generate => ⟨token, token⟩
  | .randomUUID => (0 : ℕ)
  | .putFile _ _ _ | .insertSelfies _ _ _ => .ok ()
  | .upsert _ _ => ⟨0, "", "", "", none, ⟨"", "", 0, 0⟩, ⟨"", ""⟩, false, 0⟩
  | .deleteSelfies _ _ | .queue _ => ()

abbrev SubmitMove := Move Submission SubmitOp SubmitRes

def sends (name : String) (i count : ℕ) : List SubmitMove :=
  .start (gala name) :: List.replicate count (.perform i (willing name))

def goesOn (i count : ℕ) : List SubmitMove := List.replicate count (.perform i (willing ""))

def overtaken : List SubmitMove :=
  sends "Ada" 0 7 ++ sends "Ada L." 1 11 ++ .leave 1 false :: goesOn 0 4 ++ [.leave 0 false]

theorem ready_empty : ({} : SubmissionStore).Ready :=
  ⟨by decide, fun g hg => absurd hg List.not_mem_nil, fun g hg => absurd hg List.not_mem_nil,
    fun _ => .inl rfl⟩

theorem not_unmixed : ¬ ∀ (s : SubmissionStore) (pool : SubmitPool), s.Ready →
    submitServer.Reaches (fun _ _ _ => True) ⟨[], s⟩ pool → pool.threads = [] →
    pool.state.Unmixed := by
  intro h
  let p := (submitServer.play (fun _ _ _ => True) overtaken ⟨[], {}⟩).get (by decide +kernel)
  have hreached : submitServer.Reaches (fun _ _ _ => True) ⟨[], {}⟩ p :=
    Server.Reaches.start.play overtaken (Option.some_get _).symm
  have hempty : p.threads.length = 0 := by decide +kernel
  have hunmixed := h {} p ready_empty hreached (List.length_eq_zero_iff.mp hempty)
  have hrow : p.state.guests.map (fun g => (g.id, g.deleted, g.selfieKey)) =
      [(0, false, ⟨"studio", "gala", 1, 0⟩)] := by decide +kernel
  have hselfies : p.state.selfiesOf 0 = [⟨0, 0, ⟨"studio", "gala", 0, 0⟩⟩] := by decide +kernel
  obtain ⟨g, hguest, hcolumns⟩ := List.mem_map.mp (hrow ▸ List.mem_singleton_self _)
  obtain ⟨hid, hrest⟩ := Prod.mk.inj hcolumns
  obtain ⟨hlive, hsecond⟩ := Prod.mk.inj hrest
  obtain ⟨m, -, ⟨-, -, -, -, hkey, hhead⟩, hset⟩ := hunmixed g hguest hlive
  rw [hid, hselfies] at hset
  have hfirst : m.keys.head? = some ⟨"studio", "gala", 0, 0⟩ := by
    cases hkeys : m.keys with
    | nil =>
      rw [hkeys] at hset
      cases hset
    | cons key keys =>
      rw [hkeys] at hset
      have hone := (List.cons.inj hset).1
      exact congrArg some (congrArg SelfieRow.storageKey hone).symm
  rw [hhead, ← hkey, hsecond] at hfirst
  exact absurd (Option.some.inj hfirst) (by decide)

/-- The second request starts in between, and clears after the first has inserted. -/
def overlapping : List SubmitMove :=
  sends "Ada" 0 7 ++ sends "Ada L." 1 7 ++ goesOn 0 4 ++ .leave 0 false ::
    goesOn 0 4 ++ [.leave 0 false]

theorem unmixed_inTurn_overlapping :
    ∃ p, submitServer.play InTurn overlapping ⟨[], {}⟩ = some p ∧
      p.state.selfiesOf 0 = [⟨0, 0, ⟨"studio", "gala", 1, 0⟩⟩] ∧ p.state.Unmixed := by
  let p := (submitServer.play InTurn overlapping ⟨[], {}⟩).get (by decide +kernel)
  have hplay : submitServer.play InTurn overlapping ⟨[], {}⟩ = some p := (Option.some_get _).symm
  have hempty : p.threads.length = 0 := by decide +kernel
  exact ⟨p, hplay, by decide +kernel,
    unmixed_inTurn ready_empty (Server.Reaches.start.play overlapping hplay)
      (List.length_eq_zero_iff.mp hempty)⟩

end EventLens.Submissions

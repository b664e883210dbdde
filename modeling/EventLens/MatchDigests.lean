import EventLens.ParticipantStages
import Mathlib.Data.Multiset.Count

/-!
Digests about new matches. A digest counts the matches since the last mail,
sends, and notes the time of sending in statements of their own; one that runs
too early is skipped, and a request is dropped while a digest is there. What
concerns one participant is kept apart as notices: the matches, the mails that
counted them, the last notification and the digests waiting or running.
-/

namespace EventLens.Selfies

open Programs Contract

/-- The time a digest counts from. -/
def sinceOf (p : Participant) : Option Date :=
  p.notifiedFirstAt.map (fun first => p.lastNotifiedAt.getD first)

def lastOf (s : ParticipantStore) (k : ParticipantId) : Option Date := (s.getById k).bind sinceOf

/-- What concerns the mails about one participant's matches. -/
structure Notices where
  last : Date
  rows : List MatchRow
  mails : List (List MatchRow)
  queued : ℕ
  held : ℕ
  clock : Date

def noticesOf (k : ParticipantId) (s : ParticipantStore) : Notices where
  last := (lastOf s k).getD 0
  rows := s.matchRows.filter (fun r => r.participantId = k)
  mails := (s.emails.filter (fun e => e.participantId = k ∧ e.template = .galleryUpdate)).map
    EmailRow.counted
  queued := s.jobs.count (.sendDigest k)
  held := s.held.count k
  clock := s.clock

/-- The matches that a digest would count. -/
def Notices.pending (n : Notices) : List MatchRow := n.rows.filter (fun r => n.last < r.createdAt)

theorem pending_eq (k : ParticipantId) (s : ParticipantStore) :
    s.matchesSince k (some (noticesOf k s).last) = (noticesOf k s).pending := by
  rw [ParticipantStore.matchesSince, Notices.pending, noticesOf, List.filter_filter]
  refine List.filter_congr fun r _ => ?_
  simp [Bool.and_comm]

namespace Stage

/-- A job of matching has found new matches and is still to ask for a digest. -/
def owes : Stage → Option ParticipantId
  | .matched p inserted (some _) => if 0 < inserted then some p.id else none
  | .announcing p (some _) => some p.id
  | _ => none

/-- A digest is still to count. -/
def uncounted : Stage → Option ParticipantId
  | .loading id | .throttling id _ | .due id _ => some id
  | _ => none

/-- A digest has counted all that is to be counted. -/
def Covers (k : ParticipantId) (n : Notices) : Stage → Prop
  | .counted id rows | .sent id rows | .stamping id rows _ => id = k ∧ ∀ m ∈ n.pending, m ∈ rows
  | _ => False

/-- A match of this time is not lost to the digest: the digest is still to
count, or has noted an earlier time. -/
def Admits (k : ParticipantId) (t : Date) : Stage → Prop
  | .counted id _ | .sent id _ => id ≠ k
  | .stamping id _ sentAt => id = k → sentAt < t
  | _ => True

instance (k : ParticipantId) (n : Notices) (g : Stage) : Decidable (g.Covers k n) := by
  unfold Covers
  split <;> infer_instance

instance (k : ParticipantId) (t : Date) (g : Stage) : Decidable (g.Admits k t) := by
  unfold Admits
  split <;> infer_instance

end Stage

/-- Nobody submits or is erased, events exist, sends succeed, and no first mail
to this participant is noted. -/
def Domain (k : ParticipantId) : ParticipantEvent → Prop
  | ⟨.upsert _, _⟩ | ⟨.deleteParticipant _, _⟩ | ⟨.scrub _, _⟩ | ⟨.deleteEmails _, _⟩ => False
  | ⟨.update id dto, _⟩ => id = k → dto.notifiedFirstAt = none
  | ⟨.eventExists _, r⟩ | ⟨.send _ _ _, r⟩ => (r : Bool) = true
  | _ => True

/-- All matches that are to be counted were there before. -/
def Settled (before : List MatchRow) (n : Notices) : Prop := ∀ m ∈ n.pending, m ∈ before

/-- New matches of the participant come after the last notification, while no
digest has counted and not yet noted an earlier time; and a job that asks for no
digest inserts them only while another is going to. -/
def InsertsInTime (k : ParticipantId) (inProgress : List Stage) (n : Notices) (after : After)
    (t : Date) : Prop :=
  n.last < t ∧ (∀ g ∈ inProgress, g.Admits k t) ∧
    (after = none → 0 < n.queued ∨ ∃ g ∈ inProgress, g.uncounted = some k ∨ g.owes = some k)

/-- A request for a digest is dropped only when a digest is still to count, or
has counted everything, or another job is going to ask. -/
def DropsInTime (before : List MatchRow) (k : ParticipantId) (inProgress : List Stage)
    (n : Notices) :
    Prop :=
  Settled before n ∨ (∃ g ∈ inProgress, g.uncounted = some k ∨ g.Covers k n) ∨
    2 ≤ inProgress.countP (fun g => g.owes = some k)

/-- A digest is skipped as too early only when nothing is to be counted, or a
job is going to ask for another. -/
def SkipsInTime (before : List MatchRow) (k : ParticipantId) (inProgress : List Stage)
    (n : Notices) :
    Prop :=
  Settled before n ∨ ∃ g ∈ inProgress, g.owes = some k

def Stage.InTime (before : List MatchRow) (k : ParticipantId) (inProgress : List Stage)
    (n : Notices) :
    Stage → ParticipantEvent → Prop
  | .matching p _ _ _ after, ⟨.insertMatches _, r⟩ =>
    match (r : Except HttpError (Date × ℕ)) with
    | .ok (t, inserted) => p.id = k → 0 < inserted → InsertsInTime k inProgress n after t
    | .error _ => True
  | .announcing p (some _), ⟨.queue _, _⟩ =>
    p.id = k → 0 < n.held → DropsInTime before k inProgress n
  | .throttling id since, ⟨.now, t⟩ =>
    id = k → (t : Date) - since < digestThrottleMs → SkipsInTime before k inProgress n
  | _, _ => True

def InTime (before : List MatchRow) (k : ParticipantId) (p : ParticipantPool)
    (t : ParticipantThread)
    (e : ParticipantEvent) : Prop :=
  (t.past.foldl Stage.note t.call.first).InTime before k (stagesOf p) (noticesOf k p.state) e

/-- The participant has been notified before, and no digest is running. -/
structure Notified (k : ParticipantId) (s : ParticipantStore) : Prop where
  rows : ∀ p ∈ s.participants, p.id = k → p.notifiedFirstAt ≠ none
  since : ∃ t, lastOf s k = some t ∧ t ≤ s.clock ∧ ∀ e ∈ s.emails, e.participantId = k →
    e.template = .galleryUpdate → ∀ m ∈ e.counted, m.createdAt ≤ t
  past : ∀ m ∈ s.matchRows, m.participantId = k → m.createdAt ≤ s.clock
  held : k ∉ s.held
  once : s.jobs.count (.sendDigest k) ≤ 1

/-- No digest is waiting or running, and no job is going to ask for one. -/
structure AtRest (k : ParticipantId) (p : ParticipantPool) : Prop where
  queued : .sendDigest k ∉ p.state.jobs
  held : k ∉ p.state.held
  owes : ∀ g ∈ stagesOf p, g.owes ≠ some k

/-- Every match that is new since then is counted by exactly one digest, and the
last notification is later. -/
def Announced (before : List MatchRow) (k : ParticipantId) (s : ParticipantStore) : Prop :=
  ∀ m ∈ s.matchRows, m.participantId = k → m ∉ before →
    s.emails.countP (fun e => e.participantId = k ∧ e.template = .galleryUpdate ∧
      m ∈ e.counted) = 1 ∧
      ∃ t, lastOf s k = some t ∧ m.createdAt ≤ t

/-! The invariant. -/

namespace Stage

/-- A mail that counts the match has been sent, but is not yet noted. -/
def tells (k : ParticipantId) (m : MatchRow) : Stage → Bool
  | .sent id rows | .stamping id rows _ => id = k ∧ m ∈ rows
  | _ => false

def Serves (k : ParticipantId) (n : Notices) (g : Stage) : Prop :=
  g.uncounted = some k ∨ g.owes = some k ∨ g.Covers k n

/-- What a stage knows about this participant. -/
def Informed (k : ParticipantId) (n : Notices) : Stage → Prop
  | .throttling id since | .due id since => id = k → since = n.last
  | .counted id rows | .sent id rows => id = k → rows = n.pending
  | .stamping id rows sentAt => id = k → n.last ≤ sentAt ∧ sentAt ≤ n.clock ∧
      (∀ m ∈ rows, m ∈ n.rows ∧ n.last < m.createdAt ∧ m.createdAt ≤ sentAt) ∧
      ∀ m ∈ n.pending, m ∈ rows ∨ sentAt < m.createdAt
  | .refused id => id ≠ k
  | .mailing id ofDigest => ofDigest = true → id ≠ k
  | .matching p _ _ _ after | .matched p _ after | .announcing p after => ∀ todo ∈ after,
      (p.id = k → p.notifiedFirstAt ≠ none) ∧ ∀ q ∈ todo, q.id = k → q.notifiedFirstAt ≠ none
  | _ => True

end Stage

/-- Some digest is going to count what is to be counted. -/
def Served (before : List MatchRow) (k : ParticipantId) (S : Multiset Stage) (n : Notices) : Prop :=
  Settled before n ∨ 0 < n.queued ∨ ∃ g ∈ S, g.Serves k n

structure Announcing (before : List MatchRow) (first : Date) (k : ParticipantId)
    (S : Multiset Stage)
    (n : Notices) : Prop where
  since : first ≤ n.last ∧ n.last ≤ n.clock
  single : n.queued + n.held ≤ 1
  running : S.countP (fun g => g.digest = some k) = n.held
  past : ∀ m ∈ n.rows, m.createdAt ≤ n.clock
  told : ∀ counted ∈ n.mails, ∀ m ∈ counted, m ∈ n.rows ∨ m.createdAt ≤ first
  mails : ∀ m ∈ n.rows, m ∉ before → n.mails.countP (fun counted => m ∈ counted) =
    (if m.createdAt ≤ n.last then 1 else 0) + S.countP (fun g => g.tells k m)
  served : Served before k S n
  informed : ∀ g ∈ S, g.Informed k n

/-! Steps of the notices. -/

section Steps

variable {before : List MatchRow} {first : Date} {k : ParticipantId} {g j : Stage}
  {N S : Multiset Stage} {n n' : Notices} {m : MatchRow}

theorem digest_of_tells (h : g.tells k m = true) : g.digest = some k := by
  cases g with
  | sent id rows =>
    obtain rfl := (of_decide_eq_true h).1
    rfl
  | stamping id rows sentAt =>
    obtain rfl := (of_decide_eq_true h).1
    rfl
  | _ => cases h

theorem informed_other (hg : g.digest ≠ some k) (h : g.Informed k n) : g.Informed k n' := by
  cases g with
  | throttling id since => exact fun hid => absurd (congrArg some hid) hg
  | due id since => exact fun hid => absurd (congrArg some hid) hg
  | counted id rows => exact fun hid => absurd (congrArg some hid) hg
  | sent id rows => exact fun hid => absurd (congrArg some hid) hg
  | stamping id rows sentAt => exact fun hid => absurd (congrArg some hid) hg
  | _ => exact h

/-- A later time changes nothing. -/
theorem informed_tick {t : Date} (ht : n.clock ≤ t) (h : g.Informed k n) :
    g.Informed k { n with clock := t } := by
  cases g with
  | stamping id rows sentAt =>
    intro hid
    obtain ⟨hlast, hclock, hrows, hpending⟩ := h hid
    exact ⟨hlast, hclock.trans ht, hrows, hpending⟩
  | _ => exact h

theorem not_tells_of_zero (h : N.countP (fun g => g.digest = some k) = 0) (m : MatchRow) :
    N.countP (fun g => g.tells k m = true) = 0 := by
  rw [Multiset.countP_eq_zero] at h ⊢
  exact fun g hg htells => h g hg (digest_of_tells htells)

theorem countP_congr_cons {P : Stage → Prop} [DecidablePred P] (h : P j ↔ P g) :
    (j ::ₘ N).countP P = (g ::ₘ N).countP P := by
  rw [Multiset.countP_cons, Multiset.countP_cons]
  by_cases hg : P g
  · rw [if_pos hg, if_pos (h.mpr hg)]
  · rw [if_neg hg, if_neg fun hg' => hg (h.mp hg')]

/-- The participant's digest is the only one, and nothing waits. -/
theorem Announcing.alone (h : Announcing before first k (g ::ₘ N) n) (hg : g.digest = some k) :
    n.held = 1 ∧ n.queued = 0 ∧ N.countP (fun g => g.digest = some k) = 0 := by
  have hrunning := h.running
  have hsingle := h.single
  rw [Multiset.countP_cons_of_pos (p := fun g : Stage => g.digest = some k) _ hg] at hrunning
  omega

theorem Announcing.others (h : Announcing before first k (g ::ₘ N) n) (hg : g.digest = some k) :
    ∀ j ∈ N, j.digest ≠ some k :=
  Multiset.countP_eq_zero.mp (h.alone hg).2.2

/-- A step that leaves the notices as they are, but for the clock. -/
theorem Announcing.replace (h : Announcing before first k (g ::ₘ N) n) {t : Date} (ht : n.clock ≤ t)
    (hdigest : j.digest = some k ↔ g.digest = some k) (htells : ∀ m, j.tells k m = g.tells k m)
    (hserved : Served before k (j ::ₘ N) { n with clock := t })
    (hinformed : j.Informed k { n with clock := t }) :
    Announcing before first k (j ::ₘ N) { n with clock := t } where
  since := ⟨h.since.1, h.since.2.trans ht⟩
  single := h.single
  running := (countP_congr_cons hdigest).trans h.running
  past m hm := (h.past m hm).trans ht
  told := h.told
  mails m hm hnew := by
    have hsame : (j ::ₘ N).countP (fun g => g.tells k m = true) =
        (g ::ₘ N).countP (fun g => g.tells k m = true) := countP_congr_cons (by rw [htells m])
    rw [hsame]
    exact h.mails m hm hnew
  served := hserved
  informed k' hk' := by
    rcases Multiset.mem_cons.mp hk' with rfl | hk'
    · exact hinformed
    · exact informed_tick ht (h.informed k' (Multiset.mem_cons_of_mem hk'))

/-- What serves goes on serving when the stage does, or another one. -/
theorem Served.step (h : Served before k (g ::ₘ N) n) {t : Date}
    (hserves : g.Serves k n → j.Serves k n) : Served before k (j ::ₘ N) { n with clock := t } := by
  rcases h with hsettled | hqueued | ⟨server, hmem, hserver⟩
  · exact .inl hsettled
  · exact .inr (.inl hqueued)
  · rcases Multiset.mem_cons.mp hmem with rfl | hmem
    · exact .inr (.inr ⟨j, Multiset.mem_cons_self .., hserves hserver⟩)
    · exact .inr (.inr ⟨server, Multiset.mem_cons_of_mem hmem, hserver⟩)

theorem Announcing.quiet (h : Announcing before first k (g ::ₘ N) n) {t : Date} (ht : n.clock ≤ t)
    (hdigest : j.digest = some k ↔ g.digest = some k) (htells : ∀ m, j.tells k m = g.tells k m)
    (hserves : g.Serves k n → j.Serves k n) (hinformed : j.Informed k { n with clock := t }) :
    Announcing before first k (j ::ₘ N) { n with clock := t } :=
  h.replace ht hdigest htells (h.served.step hserves) hinformed

/-- Stages that have nothing to do with digests. -/
def Stage.plain : Stage → Bool
  | .matched _ _ _ | .announcing _ _ | .mailing _ true | .loading _ | .throttling _ _ | .due _ _
  | .counted _ _ | .sent _ _ | .stamping _ _ _ | .refused _ | .over _ => false
  | _ => true

theorem plain_next (todo : List Participant) : (Stage.next todo).plain = true := by
  induction todo with
  | nil => rfl
  | cons p todo ih =>
    rw [Stage.next]
    cases truthy p.selfieEmbedding with
    | none => exact ih
    | some primary => rfl

theorem plain_resume (after : After) : (Stage.resume after).plain = true := by
  cases after with
  | none => rfl
  | some todo => exact plain_next todo

theorem plain_chosen (p : Participant) (after : After) : (Stage.chosen p after).plain = true := by
  rw [Stage.chosen]
  cases truthy p.selfieEmbedding with
  | none => exact plain_resume after
  | some primary => rfl

theorem plain_facts (hg : g.plain = true) :
    g.digest = none ∧ (∀ m, g.tells k m = false) ∧ ¬ g.Serves k n := by
  cases g with
  | mailing id ofDigest =>
    cases ofDigest with
    | true => cases hg
    | false =>
      exact ⟨rfl, fun _ => rfl, by simp [Stage.Serves, Stage.uncounted, Stage.owes, Stage.Covers]⟩
  | matched p inserted after => cases hg
  | announcing p after => cases hg
  | loading id => cases hg
  | throttling id since => cases hg
  | due id since => cases hg
  | counted id rows => cases hg
  | sent id rows => cases hg
  | stamping id rows sentAt => cases hg
  | refused id => cases hg
  | «over» id => cases hg
  | _ => exact ⟨rfl, fun _ => rfl, by
    simp [Stage.Serves, Stage.uncounted, Stage.owes, Stage.Covers]⟩

theorem informed_next {todo : List Participant}
    (h : ∀ q ∈ todo, q.id = k → q.notifiedFirstAt ≠ none) : (Stage.next todo).Informed k n := by
  induction todo with
  | nil => trivial
  | cons p todo ih =>
    have htodo := fun q hq => h q (List.mem_cons_of_mem p hq)
    rw [Stage.next]
    cases truthy p.selfieEmbedding with
    | none => exact ih htodo
    | some primary =>
      rintro _ ⟨⟩
      exact ⟨h p (List.mem_cons_self ..), htodo⟩

theorem informed_resume {after : After}
    (h : ∀ todo ∈ after, ∀ q ∈ todo, q.id = k → q.notifiedFirstAt ≠ none) :
    (Stage.resume after).Informed k n := by
  cases after with
  | none => trivial
  | some todo => exact informed_next (h todo rfl)

/-- From one stage that has nothing to do with digests to another. -/
theorem Announcing.aside (h : Announcing before first k (g ::ₘ N) n) {t : Date} (ht : n.clock ≤ t)
    (hg : g.plain = true) (hg' : j.plain = true) (hinformed : j.Informed k { n with clock := t }) :
    Announcing before first k (j ::ₘ N) { n with clock := t } := by
  obtain ⟨hdigest, htells, hserves⟩ := plain_facts (k := k) (n := n) hg
  obtain ⟨hdigest', htells', -⟩ := plain_facts (k := k) (n := n) hg'
  refine h.quiet ht ?_ (fun m => (htells' m).trans (htells m).symm)
    (fun hs => absurd hs hserves) hinformed
  rw [hdigest, hdigest']

/-- New matches. -/
theorem Announcing.insert {p : Participant} {primary : Embedding}
    {selfies : Option (List ParticipantSelfie)} {found : List Search} {after : After}
    (h : Announcing before first k (.matching p primary selfies found after ::ₘ N) n) {t : Date}
    (ht : n.clock ≤ t) {added : List MatchRow} {inserted : ℕ}
    (hcreated : ∀ m ∈ added, m.createdAt = t)
    (hnew : ∀ m ∈ added, m ∉ n.rows) {L : List Stage}
    (hL : ∀ g, g ∈ L ↔ g ∈ .matching p primary selfies found after ::ₘ N) (hp : p.id = k)
    (hinserted : 0 < inserted) (hin : InsertsInTime k L n after t)
    (hinformed : (Stage.matched p inserted after).Informed k n) :
    Announcing before first k (.matched p inserted after ::ₘ N)
      { n with clock := t, rows := n.rows ++ added } := by
  obtain ⟨hlate, hallows, hasks⟩ := hin
  have hallowsN : ∀ g ∈ N, g.Admits k t :=
    fun g hg => hallows g ((hL g).mpr (Multiset.mem_cons_of_mem hg))
  have hinformedN : ∀ g ∈ N, g.Informed k n :=
    fun g hg => h.informed g (Multiset.mem_cons_of_mem hg)
  refine ⟨⟨h.since.1, h.since.2.trans ht⟩, h.single, ?_, ?_, ?_, ?_, ?_, ?_⟩
  · refine Eq.trans ?_ h.running
    exact countP_congr_cons Iff.rfl
  · intro m hm
    rcases List.mem_append.mp hm with hm | hm
    · exact (h.past m hm).trans ht
    · exact (hcreated m hm).le
  · intro counted hcounted m hm
    exact (h.told counted hcounted m hm).imp_left (List.mem_append_left _)
  · intro m hm hbefore
    have htells : (Stage.matched p inserted after ::ₘ N).countP (fun g => g.tells k m = true) =
        N.countP (fun g => g.tells k m = true) := Multiset.countP_cons_of_neg _ (by nofun)
    rw [htells]
    rcases List.mem_append.mp hm with hm | hm
    · have hmails := h.mails m hm hbefore
      rwa [Multiset.countP_cons_of_neg _ (by nofun)] at hmails
    · have hmails : n.mails.countP (fun counted => m ∈ counted) = 0 := by
        refine List.countP_eq_zero.mpr fun counted hcounted hmem => ?_
        rcases h.told counted hcounted m (of_decide_eq_true hmem) with hrow | hold
        · exact hnew m hm hrow
        · rw [hcreated m hm] at hold
          exact absurd (h.since.1.trans_lt hlate) (not_lt.mpr hold)
      have hstages : N.countP (fun g => g.tells k m = true) = 0 := by
        refine Multiset.countP_eq_zero.mpr fun g hg htells => ?_
        have hallow := hallowsN g hg
        have hinform := hinformedN g hg
        cases g with
        | sent id rows => exact hallow (of_decide_eq_true htells).1
        | stamping id rows sentAt =>
          obtain ⟨hid, hmem⟩ := of_decide_eq_true htells
          obtain ⟨-, -, hrows, -⟩ := hinform hid
          exact hnew m hm (hrows m hmem).1
        | _ => cases htells
      rw [hmails, hstages, if_neg (not_le.mpr ((hcreated m hm).symm ▸ hlate))]
  · rcases after with _ | todo
    · rcases hasks rfl with hqueued | ⟨server, hmem, hserver⟩
      · exact .inr (.inl hqueued)
      · rcases Multiset.mem_cons.mp ((hL server).mp hmem) with rfl | hmem
        · rcases hserver with hserver | hserver <;> cases hserver
        · refine .inr (.inr ⟨server, Multiset.mem_cons_of_mem hmem, ?_⟩)
          exact hserver.imp_right .inl
    · refine .inr (.inr ⟨_, Multiset.mem_cons_self .., .inr (.inl ?_)⟩)
      rw [Stage.owes, if_pos hinserted, hp]
  · intro g hg
    rcases Multiset.mem_cons.mp hg with rfl | hg
    · exact informed_other nofun hinformed
    · have hinform := hinformedN g hg
      have hallow := hallowsN g hg
      cases g with
      | counted id rows => exact fun hid => absurd hid hallow
      | sent id rows => exact fun hid => absurd hid hallow
      | stamping id rows sentAt =>
        intro hid
        obtain ⟨hlast, hclock, hrows, hpending⟩ := hinform hid
        refine ⟨hlast, hclock.trans ht, fun m hm => ?_, fun m hm => ?_⟩
        · obtain ⟨hrow, hbetween⟩ := hrows m hm
          exact ⟨List.mem_append_left _ hrow, hbetween⟩
        · obtain ⟨hrow, hafter⟩ := List.mem_filter.mp hm
          rcases List.mem_append.mp hrow with hrow | hrow
          · exact hpending m (List.mem_filter.mpr ⟨hrow, hafter⟩)
          · rw [hcreated m hrow]
            exact .inr (hallow hid)
      | _ => exact hinform

/-- A job asks for a digest: one more waits, or one is there already. -/
theorem Announcing.request {p : Participant} {todo : List Participant}
    (h : Announcing before first k (.announcing p (some todo) ::ₘ N) n) {L : List Stage}
    (hL : (L : Multiset Stage) = .announcing p (some todo) ::ₘ N) (hp : p.id = k) {queued : ℕ}
    (hqueued : 0 < n.queued ∨ 0 < n.held → queued = n.queued)
    (hdrops : 0 < n.held → DropsInTime before k L n)
    (hadded : n.queued = 0 → n.held = 0 → queued = 1) :
    Announcing before first k (.next todo ::ₘ N) { n with queued := queued } := by
  obtain ⟨hdigest, htells, -⟩ := plain_facts (k := k) (n := n) (plain_next todo)
  have hinformed := h.informed _ (Multiset.mem_cons_self ..) todo rfl
  have hsingle := h.single
  refine ⟨h.since, ?_, ?_, h.past, h.told, ?_, ?_, ?_⟩
  · change queued + n.held ≤ 1
    rcases Nat.eq_zero_or_pos n.queued with hzero | hpos
    · rcases Nat.eq_zero_or_pos n.held with hheld | hheld
      · rw [hadded hzero hheld, hheld]
      · rw [hqueued (.inr hheld)]
        exact hsingle
    · rw [hqueued (.inl hpos)]
      exact hsingle
  · refine Eq.trans ?_ h.running
    refine countP_congr_cons ?_
    rw [hdigest]
    exact Iff.rfl
  · intro m hm hnew
    refine (h.mails m hm hnew).trans (congrArg _ (countP_congr_cons ?_).symm)
    rw [htells m]
    exact Iff.rfl
  · rcases Nat.eq_zero_or_pos queued with hzero | hpos
    · have hheld : 0 < n.held := by
        by_contra hnot
        have hnone : n.held = 0 := by omega
        rcases Nat.eq_zero_or_pos n.queued with hq | hq
        · have hone := hadded hq hnone
          omega
        · have hsame := hqueued (.inl hq)
          omega
      rcases hdrops hheld with hsettled | ⟨server, hmem, hserver⟩ | hmany
      · exact .inl hsettled
      · have hmem' : server ∈ (L : Multiset Stage) := hmem
        rw [hL] at hmem'
        rcases Multiset.mem_cons.mp hmem' with rfl | hmem'
        · rcases hserver with hserver | hserver <;> cases hserver
        · refine .inr (.inr ⟨server, Multiset.mem_cons_of_mem hmem', ?_⟩)
          exact hserver.imp_right .inr
      · have hcount : 2 ≤ (.announcing p (some todo) ::ₘ N).countP (fun g => g.owes = some k) := by
          rw [← hL, Multiset.coe_countP]
          exact hmany
        have howes : (Stage.announcing p (some todo)).owes = some k := congrArg some hp
        rw [Multiset.countP_cons_of_pos (p := fun g : Stage => g.owes = some k) _ howes] at hcount
        obtain ⟨server, hmem, hserver⟩ := Multiset.countP_pos.mp (by omega :
          0 < N.countP (fun g => g.owes = some k))
        exact .inr (.inr ⟨server, Multiset.mem_cons_of_mem hmem, .inr (.inl hserver)⟩)
    · exact .inr (.inl hpos)
  · intro g hg
    rcases Multiset.mem_cons.mp hg with rfl | hg
    · exact informed_next hinformed.2
    · have hinform := h.informed g (Multiset.mem_cons_of_mem hg)
      cases g <;> exact hinform

/-- A digest counts. -/
theorem Announcing.count {since : Date}
    (h : Announcing before first k (.due k since ::ₘ N) n) :
    Announcing before first k
      ((if n.pending = [] then .over k else .counted k n.pending) ::ₘ N) n := by
  split
  · rename_i hnone
    refine h.replace (t := n.clock) le_rfl Iff.rfl (fun _ => rfl) (.inl fun m hm => ?_) trivial
    change m ∈ n.pending at hm
    rw [hnone] at hm
    exact absurd hm List.not_mem_nil
  · refine h.quiet (t := n.clock) le_rfl Iff.rfl (fun _ => rfl) (fun _ => ?_) fun _ => rfl
    exact .inr (.inr ⟨rfl, fun m hm => hm⟩)

/-- The mail of a digest is sent. -/
theorem Announcing.send {rows : List MatchRow}
    (h : Announcing before first k (.counted k rows ::ₘ N) n) :
    Announcing before first k (.sent k rows ::ₘ N) { n with mails := n.mails ++ [rows] } := by
  have hrows : rows = n.pending := h.informed _ (Multiset.mem_cons_self ..) rfl
  have hnone := not_tells_of_zero (h.alone rfl).2.2
  refine ⟨h.since, h.single, ?_, h.past, ?_, ?_, ?_, ?_⟩
  · refine Eq.trans ?_ h.running
    exact countP_congr_cons Iff.rfl
  · intro counted hcounted m hm
    rcases List.mem_append.mp hcounted with hcounted | hcounted
    · exact h.told counted hcounted m hm
    · rw [List.mem_singleton.mp hcounted, hrows] at hm
      exact .inl (List.mem_filter.mp hm).1
  · intro m hm hnew
    have hmails := h.mails m hm hnew
    rw [Multiset.countP_cons_of_neg _ (by nofun), hnone m, Nat.add_zero] at hmails
    rw [List.countP_append, hmails, List.countP_singleton, Multiset.countP_cons, hnone m,
      Nat.zero_add]
    have hmem : m ∈ rows ↔ n.last < m.createdAt := by
      rw [hrows]
      exact ⟨fun hm => of_decide_eq_true (List.mem_filter.mp hm).2,
        fun hlate => List.mem_filter.mpr ⟨hm, decide_eq_true hlate⟩⟩
    by_cases htold : m ∈ rows
    · have htells : (Stage.sent k rows).tells k m = true := decide_eq_true ⟨rfl, htold⟩
      rw [if_pos (decide_eq_true htold), if_pos htells]
    · have htells : ¬ (Stage.sent k rows).tells k m = true :=
        fun htells => htold (of_decide_eq_true htells).2
      rw [if_neg (fun htrue => htold (of_decide_eq_true htrue)), if_neg htells]
  · exact (h.served.step (t := n.clock) fun hs => .inr (.inr ⟨rfl, hrows ▸ fun m hm => hm⟩))
  · intro g hg
    rcases Multiset.mem_cons.mp hg with rfl | hg
    · exact fun _ => hrows
    · exact informed_other (h.others rfl g hg) (h.informed g (Multiset.mem_cons_of_mem hg))

/-- A digest takes the time of sending. -/
theorem Announcing.clocked {rows : List MatchRow}
    (h : Announcing before first k (.sent k rows ::ₘ N) n) {t : Date} (ht : n.clock ≤ t) :
    Announcing before first k (.stamping k rows t ::ₘ N) { n with clock := t } := by
  have hrows : rows = n.pending := h.informed _ (Multiset.mem_cons_self ..) rfl
  refine h.quiet ht Iff.rfl (fun _ => rfl) ?_ fun _ => ⟨h.since.2.trans ht, le_rfl, ?_, ?_⟩
  · exact fun _ => .inr (.inr ⟨rfl, hrows ▸ fun m hm => hm⟩)
  · intro m hm
    rw [hrows] at hm
    obtain ⟨hrow, hlate⟩ := List.mem_filter.mp hm
    exact ⟨hrow, of_decide_eq_true hlate, (h.past m hrow).trans ht⟩
  · intro m hm
    exact .inl (hrows ▸ hm)

/-- A digest notes the time of sending. -/
theorem Announcing.stamp {rows : List MatchRow} {sentAt : Date}
    (h : Announcing before first k (.stamping k rows sentAt ::ₘ N) n) :
    Announcing before first k (.over k ::ₘ N) { n with last := sentAt } := by
  obtain ⟨hlast, hclock, hrows, hpending⟩ := h.informed _ (Multiset.mem_cons_self ..) rfl
  have hnone := not_tells_of_zero (h.alone rfl).2.2
  have hlater : ∀ m ∈ ({ n with last := sentAt } : Notices).pending, m ∈ n.pending ∧ m ∉ rows := by
    intro m hm
    obtain ⟨hrow, hlate⟩ := List.mem_filter.mp hm
    have hafter : sentAt < m.createdAt := of_decide_eq_true hlate
    refine ⟨List.mem_filter.mpr ⟨hrow, decide_eq_true (hlast.trans_lt hafter)⟩, fun htold => ?_⟩
    exact absurd hafter (not_lt.mpr (hrows m htold).2.2)
  refine ⟨⟨h.since.1.trans hlast, hclock⟩, h.single, ?_, h.past, h.told, ?_, ?_, ?_⟩
  · refine Eq.trans ?_ h.running
    exact countP_congr_cons Iff.rfl
  · intro m hm hnew
    have hmails := h.mails m hm hnew
    rw [Multiset.countP_cons, hnone m, Nat.zero_add] at hmails
    rw [Multiset.countP_cons_of_neg _ (by nofun), hnone m, Nat.add_zero]
    refine hmails.trans ?_
    by_cases htold : m ∈ rows
    · have htells : (Stage.stamping k rows sentAt).tells k m = true := decide_eq_true ⟨rfl, htold⟩
      obtain ⟨-, hlate, hearly⟩ := hrows m htold
      rw [if_pos htells, if_neg (not_le.mpr hlate), if_pos hearly]
    · have htells : ¬ (Stage.stamping k rows sentAt).tells k m = true :=
        fun htells => htold (of_decide_eq_true htells).2
      rw [if_neg htells, Nat.add_zero]
      by_cases hearly : m.createdAt ≤ n.last
      · rw [if_pos hearly, if_pos (hearly.trans hlast)]
      · have hafter := (hpending m (List.mem_filter.mpr
          ⟨hm, decide_eq_true (not_le.mp hearly)⟩)).resolve_left htold
        rw [if_neg hearly, if_neg (not_le.mpr hafter)]
  · rcases h.served with hsettled | hqueued | ⟨server, hmem, hserver⟩
    · exact .inl fun m hm => hsettled m (hlater m hm).1
    · exact .inr (.inl hqueued)
    · rcases Multiset.mem_cons.mp hmem with rfl | hmem
      · rcases hserver with hserver | hserver | ⟨-, hcovers⟩
        · cases hserver
        · cases hserver
        · exact .inl fun m hm => absurd (hcovers m (hlater m hm).1) (hlater m hm).2
      · have hother := h.others rfl server hmem
        refine .inr (.inr ⟨server, Multiset.mem_cons_of_mem hmem, ?_⟩)
        rcases hserver with hserver | howes | hcovers
        · exact .inl hserver
        · exact .inr (.inl howes)
        · cases server with
          | counted id rows => exact absurd (congrArg some hcovers.1) hother
          | sent id rows => exact absurd (congrArg some hcovers.1) hother
          | stamping id rows sentAt => exact absurd (congrArg some hcovers.1) hother
          | _ => cases hcovers
  · intro g hg
    rcases Multiset.mem_cons.mp hg with rfl | hg
    · trivial
    · exact informed_other (h.others rfl g hg) (h.informed g (Multiset.mem_cons_of_mem hg))

end Steps

/-! Steps of the calls. -/

section Calls

variable {V : Services} {before : List MatchRow} {first : Date} {k : ParticipantId} {g j : Stage}
  {N S : Multiset Stage} {s s' : ParticipantStore} {n : Notices}

theorem getById_update (s : ParticipantStore) (id k : ParticipantId) (dto : ParticipantChange) :
    (s.update id dto).getById k =
    (s.getById k).map (fun p => if k = id then dto.apply p else p) := by
  have hrow : (s.update id dto).row k =
      (s.row k).map (fun p => if k = id then dto.apply p else p) := findRow_updateRow fun _ => rfl
  rw [ParticipantStore.getById, ParticipantStore.getById, hrow]
  cases s.row k with
  | none => rfl
  | some p =>
    have hdeleted : (if k = id then dto.apply p else p).deletedAt = p.deletedAt := by
      split <;> rfl
    simp only [Option.map_some, Option.filter_some, hdeleted]
    split <;> rfl

/-- An update that does not note a mail to this participant. -/
theorem lastOf_update {id : ParticipantId} {dto : ParticipantChange}
    (h : id = k → dto.notifiedFirstAt = none ∧ dto.lastNotifiedAt = none) :
    lastOf (s.update id dto) k = lastOf s k := by
  rw [lastOf, lastOf, getById_update]
  cases s.getById k with
  | none => rfl
  | some p =>
    by_cases hid : k = id
    · obtain ⟨hfirst, hlast⟩ := h hid.symm
      rw [Option.map_some, if_pos hid]
      simp [sinceOf, ParticipantChange.apply, hfirst, hlast]
    · rw [Option.map_some, if_neg hid]

theorem lastOf_stamp (sentAt : Date) (h : lastOf s k ≠ none) :
    lastOf (s.update k { lastNotifiedAt := some sentAt }) k = some sentAt := by
  rw [lastOf] at h
  rw [lastOf, getById_update]
  cases hp : s.getById k with
  | none => exact absurd (by rw [hp]; rfl) h
  | some p =>
    rw [hp] at h
    cases hfirst : p.notifiedFirstAt with
    | none => exact absurd (by simp [sinceOf, hfirst]) h
    | some notified => simp [sinceOf, ParticipantChange.apply, hfirst]

/-- Operations that concern the mails to this participant. -/
def ParticipantOp.concerns (k : ParticipantId) : ParticipantOp → Bool
  | .upsert _ | .deleteParticipant _ | .scrub _ | .deleteEmails _ | .insertMatches _ => true
  | .update id dto => id = k ∧ (dto.notifiedFirstAt ≠ none ∨ dto.lastNotifiedAt ≠ none)
  | .send id template _ => id = k ∧ template = .galleryUpdate
  | .queue job => job = .sendDigest k
  | _ => false

/-- The rows of this participant are notified, and one of them is live. -/
structure Announces (before : List MatchRow) (first : Date) (k : ParticipantId) (S : Multiset Stage)
    (s : ParticipantStore) : Prop where
  rows : ∀ p ∈ s.participants, p.id = k → p.notifiedFirstAt ≠ none
  known : lastOf s k ≠ none
  notices : Announcing before first k S (noticesOf k s)

theorem lastOf_eq (h : lastOf s k ≠ none) : lastOf s k = some (noticesOf k s).last := by
  obtain ⟨t, ht⟩ := Option.ne_none_iff_exists'.mp h
  rw [noticesOf, ht]
  rfl

theorem rows_update {id : ParticipantId} {dto : ParticipantChange}
    (h : ∀ p ∈ s.participants, p.id = k → p.notifiedFirstAt ≠ none) :
    ∀ p ∈ (s.update id dto).participants, p.id = k → p.notifiedFirstAt ≠ none := by
  intro p hp hid
  rcases mem_updateRow.mp hp with ⟨row, hrow, -, rfl⟩ | ⟨hp, -⟩
  · have hnotified := h row hrow hid
    cases hdto : dto.notifiedFirstAt with
    | none => simpa [ParticipantChange.apply, hdto] using hnotified
    | some t => simp [ParticipantChange.apply, hdto]
  · exact h p hp hid

theorem count_addJob {job : ParticipantJob} (hjob : job ≠ .sendDigest k) :
    (s.addJob job).jobs.count (.sendDigest k) = s.jobs.count (.sendDigest k) := by
  have hskip : (s.jobs ++ [job]).count (.sendDigest k) = s.jobs.count (.sendDigest k) := by
    rw [List.count_append, List.count_singleton, if_neg (by simpa using hjob), Nat.add_zero]
  cases job with
  | sendDigest id =>
    rw [ParticipantStore.addJob]
    split
    · rfl
    · exact hskip
  | _ => exact hskip

theorem noticesOf_congr {t : Date} (hlast : lastOf s' k = lastOf s k)
    (hrows : s'.matchRows.filter (fun r => r.participantId = k) =
      s.matchRows.filter (fun r => r.participantId = k))
    (hmails : s'.emails.filter (fun e => e.participantId = k ∧ e.template = .galleryUpdate) =
      s.emails.filter (fun e => e.participantId = k ∧ e.template = .galleryUpdate))
    (hqueued : s'.jobs.count (.sendDigest k) = s.jobs.count (.sendDigest k))
    (hheld : s'.held.count k = s.held.count k) (hclock : s'.clock = t) :
    noticesOf k s' = { noticesOf k s with clock := t } := by
  rw [noticesOf, noticesOf, hlast, hrows, hmails, hqueued, hheld, hclock]

/-- An operation that does not concern them changes the clock at most. -/
theorem noticesOf_op {o : ParticipantOp} (ho : o.concerns k = false) (r : ParticipantRes o)
    (h : ∀ p ∈ s.participants, p.id = k → p.notifiedFirstAt ≠ none) :
    ∃ t, s.clock ≤ t ∧
    noticesOf k (participantHandler V o r s).2 = { noticesOf k s with clock := t } ∧
      lastOf (participantHandler V o r s).2 k = lastOf s k ∧
      ∀ p ∈ (participantHandler V o r s).2.participants, p.id = k → p.notifiedFirstAt ≠ none := by
  cases o with
  | now => exact ⟨_, le_max_left .., rfl, rfl, h⟩
  | update id dto =>
    have hdto : id = k → dto.notifiedFirstAt = none ∧ dto.lastNotifiedAt = none := by
      intro hid
      have hnone := of_decide_eq_false ho
      rw [not_and, not_or, not_not, not_not] at hnone
      exact hnone hid
    exact ⟨s.clock, le_rfl, noticesOf_congr (lastOf_update hdto) rfl rfl rfl rfl rfl,
      lastOf_update hdto, rows_update h⟩
  | send id template counted =>
    have hmails : (s.emails ++ [(⟨id, template, counted⟩ : EmailRow)]).filter
        (fun e => e.participantId = k ∧ e.template = .galleryUpdate) =
        s.emails.filter (fun e => e.participantId = k ∧ e.template = .galleryUpdate) := by
      rw [List.filter_append, List.filter_singleton]
      have hother : decide (id = k ∧ template = .galleryUpdate) = false := ho
      simp only [hother]
      exact List.append_nil _
    cases r with
    | false => exact ⟨s.clock, le_rfl, rfl, rfl, h⟩
    | true => exact ⟨s.clock, le_rfl, noticesOf_congr rfl rfl hmails rfl rfl rfl, rfl, h⟩
  | queue job =>
    have hjob : job ≠ .sendDigest k := of_decide_eq_false ho
    obtain ⟨jobs, hadd, -⟩ := s.addJob_jobs job
    have hcount := count_addJob (s := s) hjob
    change ∃ t, s.clock ≤ t ∧ noticesOf k (s.addJob job) = _ ∧ lastOf (s.addJob job) k = _ ∧
      ∀ p ∈ (s.addJob job).participants, _
    rw [hadd] at hcount ⊢
    exact ⟨s.clock, le_rfl, noticesOf_congr rfl rfl rfl hcount rfl rfl, rfl, h⟩
  | putFile path key mimeType => cases r <;> exact ⟨s.clock, le_rfl, rfl, rfl, h⟩
  | writeWorkFile id ordinal key => cases r <;> exact ⟨s.clock, le_rfl, rfl, rfl, h⟩
  | detectFaces id ordinal =>
    rw [detectFaces_same]
    exact ⟨s.clock, le_rfl, rfl, rfl, h⟩
  | insertSelfies id keys =>
    by_cases hfree : s.free id keys.length = true
    · rw [participantHandler, if_pos hfree]
      exact ⟨s.clock, le_rfl, rfl, rfl, h⟩
    · rw [participantHandler, if_neg hfree]
      exact ⟨s.clock, le_rfl, rfl, rfl, h⟩
  | upsert up => cases ho
  | deleteParticipant id => cases ho
  | scrub id => cases ho
  | deleteEmails id => cases ho
  | insertMatches inserts => cases ho
  | _ => exact ⟨s.clock, le_rfl, rfl, rfl, h⟩

theorem Announces.next (h : Announces before first k S s) {o : ParticipantOp}
    (ho : o.concerns k = false) (r : ParticipantRes o) {S' : Multiset Stage}
    (hnext : ∀ t, s.clock ≤ t → Announcing before first k S' { noticesOf k s with clock := t }) :
    Announces before first k S' (participantHandler V o r s).2 := by
  obtain ⟨t, ht, hnotices, hlast, hrows⟩ := noticesOf_op (V := V) ho r h.rows
  refine ⟨hrows, ?_, ?_⟩
  · rw [hlast]
    exact h.known
  · rw [hnotices]
    exact hnext t ht

/-- The rows that an insertion adds. -/
theorem insertMatches_rows (s : ParticipantStore) (inserts : List MatchInsert) :
    ∃ added, (s.insertMatches inserts).matchRows = s.matchRows ++ added ∧
      ∀ m ∈ added, m.createdAt = s.clock ∧ m.toMatchInsert ∈ inserts ∧ m ∉ s.matchRows := by
  have hfold :
    ∀ rows : List MatchRow, ∃ added, inserts.foldl (ParticipantStore.addMatch s.clock) rows =
      rows ++ added ∧ ∀ m ∈ added, m.createdAt = s.clock ∧ m.toMatchInsert ∈ inserts ∧
        m ∉ rows := by
    induction inserts with
    | nil => exact fun rows =>
      ⟨[], (List.append_nil rows).symm, fun _ hm => absurd hm List.not_mem_nil⟩
    | cons i inserts ih =>
      intro rows
      rw [List.foldl_cons, ParticipantStore.addMatch]
      split
      · obtain ⟨added, hadded, hfacts⟩ := ih rows
        refine ⟨added, hadded, fun m hm => ?_⟩
        obtain ⟨hcreated, hmem, hnew⟩ := hfacts m hm
        exact ⟨hcreated, List.mem_cons_of_mem _ hmem, hnew⟩
      · rename_i hfresh
        obtain ⟨added, hadded, hfacts⟩ := ih (rows ++ [{ i with createdAt := s.clock }])
        refine ⟨{ i with createdAt := s.clock } :: added, by rw [hadded, List.append_assoc]; rfl,
          fun m hm => ?_⟩
        rcases List.mem_cons.mp hm with rfl | hm
        · refine ⟨rfl, List.mem_cons_self .., fun hrow => hfresh ?_⟩
          exact List.any_eq_true.mpr ⟨_, hrow, decide_eq_true ⟨rfl, rfl⟩⟩
        · obtain ⟨hcreated, hmem, hnew⟩ := hfacts m hm
          exact ⟨hcreated, List.mem_cons_of_mem _ hmem,
            fun hrow => hnew (List.mem_append_left _ hrow)⟩
  exact hfold s.matchRows

theorem informed_chosen {p : Participant} {after : After}
    (h : ∀ todo ∈ after, (p.id = k → p.notifiedFirstAt ≠ none) ∧
      ∀ q ∈ todo, q.id = k → q.notifiedFirstAt ≠ none) : (Stage.chosen p after).Informed k n := by
  rw [Stage.chosen]
  cases truthy p.selfieEmbedding with
  | none => exact informed_resume fun todo htodo => (h todo htodo).2
  | some primary => exact h

theorem Announcing.stay (h : Announcing before first k (g ::ₘ N) n) {t : Date} (ht : n.clock ≤ t) :
    Announcing before first k (g ::ₘ N) { n with clock := t } :=
  h.quiet ht Iff.rfl (fun _ => rfl) id (informed_tick ht (h.informed g (Multiset.mem_cons_self ..)))

theorem digest_of_serves (h : g.Serves k n) : g.digest = some k ∨ g.owes = some k := by
  rcases h with huncounted | howes | hcovers
  · left
    cases g with
    | loading id => exact huncounted
    | throttling id since => exact huncounted
    | due id since => exact huncounted
    | _ => cases huncounted
  · exact .inr howes
  · left
    cases g with
    | counted id rows => exact congrArg some hcovers.1
    | sent id rows => exact congrArg some hcovers.1
    | stamping id rows sentAt => exact congrArg some hcovers.1
    | _ => cases hcovers

/-- A digest of somebody else. -/
theorem Announcing.foreign (h : Announcing before first k (g ::ₘ N) n) {t : Date} (ht : n.clock ≤ t)
    {id : ParticipantId} (hid : id ≠ k) (hg : g.digest = some id) (hg' : j.digest = some id)
    (howes : g.owes = none) (hinformed : j.Informed k { n with clock := t }) :
    Announcing before first k (j ::ₘ N) { n with clock := t } := by
  have hne : ∀ {f : Stage}, f.digest = some id → f.digest ≠ some k := by
    intro f hf hk
    rw [hf] at hk
    exact hid (Option.some.inj hk)
  have htells : ∀ {f : Stage}, f.digest = some id → ∀ m, f.tells k m = false := by
    intro f hf m
    by_contra hm
    exact hne hf (digest_of_tells (Bool.eq_true_of_not_eq_false hm))
  refine h.quiet ht ⟨fun hk => absurd hk (hne hg'), fun hk => absurd hk (hne hg)⟩
    (fun m => (htells hg' m).trans (htells hg m).symm) (fun hs => ?_) hinformed
  rcases digest_of_serves hs with hk | hk
  · exact absurd hk (hne hg)
  · rw [howes] at hk
    cases hk

/-- New matches are inserted. -/
theorem Announces.inserted {L : List Stage} {p : Participant} {primary : Embedding}
    {selfies : Option (List ParticipantSelfie)} {found : List Search} {after : After}
    (h : Announces before first k (.matching p primary selfies found after ::ₘ N) s)
    (hL : (L : Multiset Stage) = .matching p primary selfies found after ::ₘ N)
    {inserts : List MatchInsert} (hown : ∀ i ∈ inserts, i.participantId = p.id)
    (r : ParticipantRes (.insertMatches inserts))
    (hin : (Stage.matching p primary selfies found after).InTime before k L (noticesOf k s)
      ⟨.insertMatches inserts, (participantHandler V (.insertMatches inserts) r s).1⟩) :
    Announces before first k ((Stage.matching p primary selfies found after).note
        ⟨.insertMatches inserts, (participantHandler V (.insertMatches inserts) r s).1⟩ ::ₘ N)
      (participantHandler V (.insertMatches inserts) r s).2 := by
  have hinformed := h.notices.informed _ (Multiset.mem_cons_self ..)
  cases r with
  | error e =>
    refine ⟨h.rows, h.known, ?_⟩
    exact h.notices.aside (t := s.clock) le_rfl rfl rfl trivial
  | ok r =>
    have ht : s.clock ≤ (s.tick r.1).clock := le_max_left ..
    obtain ⟨added, hadded, hfacts⟩ := insertMatches_rows (s.tick r.1) inserts
    have hcount : ((s.tick r.1).insertMatches inserts).matchRows.length -
        (s.tick r.1).matchRows.length = added.length := by
      rw [hadded, List.length_append]
      exact Nat.add_sub_cancel_left ..
    change Announces before first k
      (.matched p (((s.tick r.1).insertMatches inserts).matchRows.length -
      (s.tick r.1).matchRows.length) after ::ₘ N) ((s.tick r.1).insertMatches inserts)
    change p.id = k → 0 < ((s.tick r.1).insertMatches inserts).matchRows.length -
      (s.tick r.1).matchRows.length → _ at hin
    rw [hcount] at hin ⊢
    refine ⟨h.rows, h.known, ?_⟩
    have hrows :
      ((s.tick r.1).insertMatches inserts).matchRows.filter (fun m => m.participantId = k) =
        (noticesOf k s).rows ++ added.filter (fun m => m.participantId = k) := by
      rw [hadded, List.filter_append]
      rfl
    have hnotices : noticesOf k ((s.tick r.1).insertMatches inserts) =
        { noticesOf k s with
          clock := (s.tick r.1).clock
          rows := (noticesOf k s).rows ++ added.filter (fun m => m.participantId = k) } := by
      rw [← hrows]
      rfl
    have hquiet : added.filter (fun m => m.participantId = k) = [] → p.id ≠ k ∨ added.length = 0 →
        Announcing before first k (.matched p added.length after ::ₘ N)
          (noticesOf k ((s.tick r.1).insertMatches inserts)) := by
      intro hnone hother
      rw [hnotices, hnone, List.append_nil]
      refine h.notices.quiet ht Iff.rfl (fun _ => rfl) (fun hs => ?_) hinformed
      exact absurd hs (plain_facts rfl).2.2
    by_cases hp : p.id = k
    · rcases Nat.eq_zero_or_pos added.length with hzero | hpos
      · exact hquiet (by rw [List.length_eq_zero_iff.mp hzero]; rfl) (.inr hzero)
      · rw [hnotices]
        refine h.notices.insert ht ?_ ?_ (fun g => ?_) hp hpos (hin hp hpos) hinformed
        · intro m hm
          exact (hfacts m (List.mem_filter.mp hm).1).1
        · intro m hm hrow
          exact (hfacts m (List.mem_filter.mp hm).1).2.2 (List.mem_filter.mp hrow).1
        · rw [← hL]
          exact Multiset.mem_coe.symm
    · refine hquiet (List.filter_eq_nil_iff.mpr fun m hm hk => hp ?_) (.inl hp)
      exact (hown _ (hfacts m hm).2.1).symm.trans (of_decide_eq_true hk)

/-- A job asks for the announcement of new matches. -/
theorem Announces.requested {L : List Stage} {p : Participant} {after : After}
    (h : Announces before first k (.announcing p after ::ₘ N) s)
    (hL : (L : Multiset Stage) = .announcing p after ::ₘ N)
    (hin : (Stage.announcing p after).InTime before k L (noticesOf k s)
      ⟨.queue (announcement p after), ()⟩) :
    Announces before first k (.resume after ::ₘ N)
      (participantHandler V (.queue (announcement p after)) () s).2 := by
  change Announces before first k _ (s.addJob (announcement p after))
  have hinformed := h.notices.informed _ (Multiset.mem_cons_self ..)
  by_cases hjob : announcement p after = .sendDigest k
  · cases after with
    | none => cases hjob
    | some todo =>
      have hp : p.id = k := by
        rw [announcement] at hjob
        split at hjob
        · exact ParticipantJob.sendDigest.inj hjob
        · cases hjob
      rw [hjob]
      refine ⟨?_, ?_, ?_⟩
      · obtain ⟨jobs, hadd, -⟩ := s.addJob_jobs (.sendDigest k)
        rw [hadd]
        exact h.rows
      · obtain ⟨jobs, hadd, -⟩ := s.addJob_jobs (.sendDigest k)
        rw [hadd]
        exact h.known
      have hnotices : noticesOf k (s.addJob (.sendDigest k)) =
          { noticesOf k s with queued :=
            (s.addJob (.sendDigest k)).jobs.count (.sendDigest k) } := by
        obtain ⟨jobs, hadd, -⟩ := s.addJob_jobs (.sendDigest k)
        rw [hadd]
        rfl
      rw [hnotices]
      refine h.notices.request hL hp (fun hthere => ?_) (hin hp) fun hqueued hheld => ?_
      · have hmem : .sendDigest k ∈ s.jobs ∨ k ∈ s.held :=
          hthere.imp List.count_pos_iff.mp List.count_pos_iff.mp
        rw [ParticipantStore.addJob, if_pos hmem]
        rfl
      · have hnone : ¬ (.sendDigest k ∈ s.jobs ∨ k ∈ s.held) := by
          rw [not_or]
          exact ⟨List.count_eq_zero.mp hqueued, List.count_eq_zero.mp hheld⟩
        rw [ParticipantStore.addJob, if_neg hnone]
        change (s.jobs ++ [ParticipantJob.sendDigest k]).count _ = 1
        rw [List.count_append, List.count_singleton_self]
        exact congrArg (· + 1) hqueued
  · have hother : (Stage.announcing p after).owes ≠ some k := by
      intro howes
      cases after with
      | none => cases howes
      | some todo =>
        have hp : p.id = k := Option.some.inj howes
        exact hjob (by rw [announcement, if_pos ((hinformed todo rfl).1 hp), hp])
    refine h.next (V := V) (o := .queue (announcement p after)) (decide_eq_false hjob) ()
      fun t ht => ?_
    obtain ⟨hdigest, htells, -⟩ := plain_facts (k := k) (n := noticesOf k s) (plain_resume after)
    refine h.notices.quiet ht ?_ (fun m => htells m) (fun hs => ?_) ?_
    · rw [hdigest]
      exact Iff.rfl
    · rcases digest_of_serves hs with hk | hk
      · cases hk
      · exact absurd hk hother
    · exact informed_resume fun todo htodo => (hinformed todo htodo).2

theorem Announces.pass (h : Announces before first k (g ::ₘ N) s) {o : ParticipantOp}
    (ho : o.concerns k = false) (r : ParticipantRes o) (hg : g.plain = true) (hg' : j.plain = true)
    (hinformed : ∀ n : Notices, j.Informed k n) :
    Announces before first k (j ::ₘ N) (participantHandler V o r s).2 :=
  h.next ho r fun _ ht => h.notices.aside ht hg hg' (hinformed _)

theorem Announces.stay (h : Announces before first k (g ::ₘ N) s) {o : ParticipantOp}
    (ho : o.concerns k = false) (r : ParticipantRes o) :
    Announces before first k (g ::ₘ N) (participantHandler V o r s).2 :=
  h.next ho r fun _ ht => h.notices.stay ht

/-- A digest of somebody else goes on. -/
theorem Announces.foreign (h : Announces before first k (g ::ₘ N) s) {o : ParticipantOp}
    (ho : o.concerns k = false) (r : ParticipantRes o) {id : ParticipantId} (hid : id ≠ k)
    (hg : g.digest = some id) (hg' : j.digest = some id) (howes : g.owes = none)
    (hinformed : ∀ n : Notices, j.Informed k n) :
    Announces before first k (j ::ₘ N) (participantHandler V o r s).2 :=
  h.next ho r fun _ ht => h.notices.foreign ht hid hg hg' howes (hinformed _)

theorem notified_of_mem (h : Announces before first k S s) {rows : List Participant}
    (hrows : ∀ q ∈ rows, q ∈ s.participants) : ∀ q ∈ rows, q.id = k → q.notifiedFirstAt ≠ none :=
  fun q hq => h.rows q (hrows q hq)

/-- The steps of a job that embeds and matches. -/
theorem announces_matching {L : List Stage} {p : Participant} {primary : Embedding}
    {selfies : Option (List ParticipantSelfie)} {found : List Search} {after : After}
    (hL : (L : Multiset Stage) = .matching p primary selfies found after ::ₘ N)
    (h : Announces before first k (.matching p primary selfies found after ::ₘ N) s)
    {o : ParticipantOp}
    (r : ParticipantRes o)
    (hpermit : Stage.Permits V (.matching p primary selfies found after) o)
    (hin : (Stage.matching p primary selfies found after).InTime before k L (noticesOf k s)
      ⟨o, (participantHandler V o r s).1⟩) :
    Announces before first k ((Stage.matching p primary selfies found after).note
      ⟨o, (participantHandler V o r s).1⟩ ::ₘ N) (participantHandler V o r s).2 := by
  have hinformed := h.notices.informed _ (Multiset.mem_cons_self ..)
  cases o with
  | getConfig eventId => exact h.stay rfl r
  | getSelfies id => exact h.pass rfl r rfl rfl fun _ => hinformed
  | searchFaces eventId e maxDistance => exact h.pass rfl r rfl rfl fun _ => hinformed
  | insertMatches inserts =>
    cases selfies with
    | none => cases hpermit
    | some rows => exact h.inserted hL (fun i hi => (hpermit i hi).1) r hin
  | countMatches id since =>
    refine h.next rfl r fun t ht => ?_
    refine h.notices.quiet ht Iff.rfl (fun _ => rfl) (fun hs => ?_) hinformed
    exact absurd hs (plain_facts rfl).2.2
  | _ => cases hpermit

/-- The steps of a job that has matched. -/
theorem announces_matched {p : Participant} {inserted : ℕ} {after : After}
    (h : Announces before first k (.matched p inserted after ::ₘ N) s) {o : ParticipantOp}
    (r : ParticipantRes o) (hpermit : Stage.Permits V (.matched p inserted after) o) :
    Announces before first k ((Stage.matched p inserted after).note
      ⟨o, (participantHandler V o r s).1⟩ ::ₘ N) (participantHandler V o r s).2 := by
  have hinformed := h.notices.informed _ (Multiset.mem_cons_self ..)
  cases o with
  | countMatches id since => exact h.stay rfl r
  | update id dto =>
    obtain ⟨rfl, status, rfl⟩ := hpermit
    have hconcerns : (ParticipantOp.update p.id { status := some status }).concerns k = false :=
      decide_eq_false fun hboth => hboth.2.elim (absurd rfl) (absurd rfl)
    refine h.next hconcerns r fun t ht => ?_
    change Announcing before first k ((if 0 < inserted then _ else _) ::ₘ N) _
    split
    · rename_i hpos
      refine h.notices.quiet ht Iff.rfl (fun _ => rfl) (fun hs => ?_) hinformed
      rcases hs with hs | howes | hs
      · cases hs
      · cases after with
        | none => cases howes
        | some todo =>
          change (if 0 < inserted then some p.id else none) = some k at howes
          rw [if_pos hpos] at howes
          exact .inr (.inl howes)
      · cases hs
    · rename_i hnone
      obtain ⟨hdigest, htells, -⟩ := plain_facts (k := k) (n := noticesOf k s) (plain_resume after)
      refine h.notices.quiet ht ?_ (fun m => htells m) (fun hs => ?_) ?_
      · rw [hdigest]
        exact Iff.rfl
      · rcases digest_of_serves hs with hk | howes
        · cases hk
        · cases after with
          | none => cases howes
          | some todo =>
            change (if 0 < inserted then some p.id else none) = some k at howes
            rw [if_neg hnone] at howes
            cases howes
      · exact informed_resume fun todo htodo => (hinformed todo htodo).2
  | _ => cases hpermit

/-- A digest reads the participant. -/
theorem announces_loading {id : ParticipantId}
    (h : Announces before first k (.loading id ::ₘ N) s) (r : ParticipantRes (.getById id)) :
    Announces before first k ((Stage.loading id).note ⟨.getById id, s.getById id⟩ ::ₘ N)
      (participantHandler V (.getById id) r s).2 := by
  by_cases hid : id = k
  · subst hid
    have hlast := lastOf_eq h.known
    change Announces before first id (_ ::ₘ N) s
    rw [lastOf] at hlast
    obtain ⟨p, hp, hsince⟩ := Option.bind_eq_some_iff.mp hlast
    obtain ⟨notified, hnotified, hsince⟩ := Option.map_eq_some_iff.mp hsince
    have hnote : (Stage.loading id).note ⟨.getById id, s.getById id⟩ =
        .throttling id (noticesOf id s).last := by
      rw [hp, ← hsince, Stage.note_loaded, hnotified]
      rfl
    rw [hnote]
    refine ⟨h.rows, h.known, h.notices.quiet (t := (noticesOf id s).clock) le_rfl Iff.rfl
      (fun _ => rfl) (fun _ => .inl rfl) fun _ => rfl⟩
  · have hforeign := fun (j : Stage) (hg' : j.digest = some id) =>
      h.foreign (V := V) (o := .getById id) (j := j) rfl r hid rfl hg' rfl
    cases hp : s.getById id with
    | none => exact hforeign (.over id) rfl fun _ => trivial
    | some p =>
      rw [Stage.note_loaded]
      cases p.notifiedFirstAt with
      | none => exact hforeign (.mailing id true) rfl fun _ _ => hid
      | some notified => exact hforeign (.throttling id _) rfl fun _ hk => absurd hk hid

/-- A digest finds out whether it is too early. -/
theorem announces_throttling {L : List Stage} {id : ParticipantId} {since : Date}
    (hL : (L : Multiset Stage) = .throttling id since ::ₘ N)
    (h : Announces before first k (.throttling id since ::ₘ N) s) (r : ParticipantRes .now)
    (hin : (Stage.throttling id since).InTime before k L (noticesOf k s)
      ⟨.now, (participantHandler V .now r s).1⟩) :
    Announces before first k ((Stage.throttling id since).note
      ⟨.now, (participantHandler V .now r s).1⟩ ::ₘ N) (participantHandler V .now r s).2 := by
  have hinformed := h.notices.informed _ (Multiset.mem_cons_self ..)
  change Announces before first k ((if (participantHandler V .now r s).1 - since < digestThrottleMs
    then .over id else .due id since) ::ₘ N) _
  by_cases hid : id = k
  · subst hid
    split
    · rename_i hearly
      refine h.next rfl r fun t ht => ?_
      refine h.notices.replace ht Iff.rfl (fun _ => rfl) ?_ trivial
      rcases hin rfl hearly with hsettled | ⟨server, hmem, hserver⟩
      · exact .inl hsettled
      · have hmem' : server ∈ (L : Multiset Stage) := hmem
        rw [hL] at hmem'
        rcases Multiset.mem_cons.mp hmem' with rfl | hmem'
        · cases hserver
        · exact .inr (.inr ⟨server, Multiset.mem_cons_of_mem hmem', .inr (.inl hserver)⟩)
    · refine h.next rfl r fun t ht => ?_
      exact h.notices.quiet ht Iff.rfl (fun _ => rfl) (fun _ => .inl rfl) hinformed
  · split
    · exact h.foreign rfl r hid rfl rfl rfl fun _ => trivial
    · exact h.foreign rfl r hid rfl rfl rfl fun _ hk => absurd hk hid

/-- A digest counts the new matches. -/
theorem announces_due {id : ParticipantId} {since : Date}
    (h : Announces before first k (.due id since ::ₘ N) s)
    (r : ParticipantRes (.countMatches id (some since))) :
    Announces before first k ((Stage.due id since).note
      ⟨.countMatches id (some since), s.matchesSince id (some since)⟩ ::ₘ N)
      (participantHandler V (.countMatches id (some since)) r s).2 := by
  have hinformed := h.notices.informed _ (Multiset.mem_cons_self ..)
  change Announces before first k ((if s.matchesSince id (some since) = [] then .over id
    else .counted id (s.matchesSince id (some since))) ::ₘ N) s
  by_cases hid : id = k
  · subst hid
    obtain rfl : since = (noticesOf id s).last := hinformed rfl
    rw [pending_eq]
    exact ⟨h.rows, h.known, h.notices.count⟩
  · have hforeign := fun (j : Stage) (hg' : j.digest = some id) =>
      h.foreign (V := V) (o := .countMatches id (some since)) (j := j) rfl r hid rfl hg' rfl
    split
    · exact hforeign (.over id) rfl fun _ => trivial
    · exact hforeign (.counted id _) rfl fun _ hk => absurd hk hid

/-- A digest sends its mail. -/
theorem announces_counted {id : ParticipantId} {rows : List MatchRow}
    (h : Announces before first k (.counted id rows ::ₘ N) s) :
    Announces before first k (.sent id rows ::ₘ N)
      (participantHandler V (.send id .galleryUpdate rows) true s).2 := by
  by_cases hid : id = k
  · subst hid
    have hmails : noticesOf id (participantHandler V (.send id .galleryUpdate rows) true s).2 =
        { noticesOf id s with mails := (noticesOf id s).mails ++ [rows] } := by
      have hadded : (s.emails ++ [(⟨id, .galleryUpdate, rows⟩ : EmailRow)]).filter
          (fun e => e.participantId = id ∧ e.template = .galleryUpdate) =
          s.emails.filter (fun e => e.participantId = id ∧ e.template = .galleryUpdate) ++
            [⟨id, .galleryUpdate, rows⟩] := by
        rw [List.filter_append, List.filter_singleton]
        simp
      change Notices.mk _ _ (((s.emails ++ [(⟨id, .galleryUpdate, rows⟩ : EmailRow)]).filter
        (fun e => e.participantId = id ∧ e.template = .galleryUpdate)).map EmailRow.counted)
          _ _ _ = _
      rw [hadded, List.map_append]
      rfl
    refine ⟨h.rows, h.known, ?_⟩
    rw [hmails]
    exact h.notices.send
  · have hconcerns : (ParticipantOp.send id .galleryUpdate rows).concerns k = false :=
      decide_eq_false fun hboth => hid hboth.1
    exact h.foreign hconcerns true hid rfl rfl rfl fun _ hk => absurd hk hid

/-- A digest notes the time of sending. -/
theorem announces_stamping {id : ParticipantId} {rows : List MatchRow} {sentAt : Date}
    (h : Announces before first k (.stamping id rows sentAt ::ₘ N) s) :
    Announces before first k (.over id ::ₘ N)
      (participantHandler V (.update id { lastNotifiedAt := some sentAt }) () s).2 := by
  by_cases hid : id = k
  · subst hid
    have hlast := lastOf_stamp sentAt h.known
    refine ⟨rows_update h.rows, fun hnone => ?_, ?_⟩
    · exact absurd (hlast.symm.trans hnone) nofun
    have hnotices : noticesOf id (s.update id { lastNotifiedAt := some sentAt }) =
        { noticesOf id s with last := sentAt } := by
      rw [noticesOf, hlast]
      rfl
    change Announcing before first id _
      (noticesOf id (s.update id { lastNotifiedAt := some sentAt }))
    rw [hnotices]
    exact h.notices.stamp
  · have hconcerns :
      (ParticipantOp.update id { lastNotifiedAt := some sentAt }).concerns k = false :=
      decide_eq_false fun hboth => hid hboth.1
    exact h.foreign hconcerns () hid rfl rfl rfl fun _ => trivial

theorem announces_submitting {o : ParticipantOp} (r : ParticipantRes o)
    (h : Announces before first k (Stage.submitting ::ₘ N) s)
    (hpermit : Stage.Permits V (Stage.submitting) o)
    (hdomain : Domain k ⟨o, (participantHandler V o r s).1⟩) :
    Announces before first k
      ((Stage.submitting).note ⟨o, (participantHandler V o r s).1⟩ ::ₘ N)
      (participantHandler V o r s).2 := by
  cases o with
  | getActiveEvent slug => exact h.stay rfl r
  | consumeIp clientIp => exact h.stay rfl r
  | consumeEmail eventId email => exact h.stay rfl r
  | randomUUID => exact h.stay rfl r
  | putFile path key mimeType => exact h.stay rfl r
  | upsert up => cases hdomain
  | _ => cases hpermit

theorem announces_selecting {o : ParticipantOp} (r : ParticipantRes o)
    (h : Announces before first k (Stage.selecting ::ₘ N) s)
    (hpermit : Stage.Permits V (Stage.selecting) o) :
    Announces before first k
      ((Stage.selecting).note ⟨o, (participantHandler V o r s).1⟩ ::ₘ N)
      (participantHandler V o r s).2 := by
  have hnext : ∀ rows : List Participant, (∀ q ∈ rows, q ∈ s.participants) →
      ∀ n : Notices, (Stage.next rows).Informed k n :=
    fun rows hrows n => informed_next (notified_of_mem h hrows)
  cases o with
  | getMatchableByEvent eventId =>
    exact h.pass rfl r rfl (plain_next _) (hnext _ fun q hq => (List.mem_filter.mp hq).1)
  | getPendingForSweep =>
    exact h.pass rfl r rfl (plain_next _) (hnext _ fun q hq => (List.mem_filter.mp hq).1)
  | _ => cases hpermit

/-- The selfies of a participant say nothing of mails. -/
theorem announces_embedding {id : ParticipantId}
    {stored : Option (ParticipantSelfie × DetectedFace)}
    {selfies : List ParticipantSelfie} {o : ParticipantOp} (r : ParticipantRes o)
    (h : Announces before first k (Stage.embedding id stored selfies ::ₘ N) s)
    (hpermit : Stage.Permits V (Stage.embedding id stored selfies) o) :
    Announces before first k
      ((Stage.embedding id stored selfies).note ⟨o, (participantHandler V o r s).1⟩ ::ₘ N)
      (participantHandler V o r s).2 := by
  cases o with
  | makeWorkDir id => exact h.stay rfl r
  | getObject key => exact h.stay rfl r
  | writeWorkFile id ordinal key => exact h.stay rfl r
  | removeWorkDir id => exact h.stay rfl r
  | detectFaces k ordinal =>
    have hpass := fun (j : Stage) (hg' : j.plain = true) =>
      h.pass (V := V) (o := .detectFaces k ordinal) (j := j) rfl r rfl hg'
    rw [detectFaces_same] at hpass ⊢
    rcases detectFaces_cases (V := V) k ordinal r with ⟨e, hseen⟩ | ⟨faces, hseen, -⟩
    · rw [hseen]
      exact hpass .idle rfl fun _ => trivial
    · rw [hseen]
      cases selfies with
      | nil => exact hpass .idle rfl fun _ => trivial
      | cons selfie selfies =>
        exact hpass (.detected id selfie (largest faces) selfies) rfl fun _ => trivial
  | update id dto =>
    have hdto : dto.notifiedFirstAt = none ∧ dto.lastNotifiedAt = none := by
      obtain ⟨-, ⟨selfie, face, -, rfl⟩ | ⟨-, rfl⟩⟩ := hpermit
      · exact ⟨rfl, rfl⟩
      · exact ⟨rfl, rfl⟩
    have hconcerns : (ParticipantOp.update id dto).concerns k = false :=
      decide_eq_false fun hboth => hboth.2.elim (absurd hdto.1) (absurd hdto.2)
    exact h.pass hconcerns r rfl rfl fun _ => trivial
  | queue job =>
    obtain ⟨-, rfl⟩ := hpermit
    exact h.stay rfl r
  | getById id =>
    have hnote : ∀ found : Option Participant, Announces before first k
        ((Stage.embedding id stored selfies).note ⟨.getById id, found⟩ ::ₘ N) s := by
      rintro (_ | p)
      · exact h.pass (V := V) (o := .getById id) (j := Stage.idle) rfl r rfl rfl fun _ => trivial
      · exact h.pass (V := V) (o := .getById id) (j := .chosen p none) rfl r rfl
          (plain_chosen _ _) fun _ => informed_chosen nofun
    exact hnote (s.getById id)
  | _ => cases hpermit

theorem announces_mailing {id : ParticipantId} {ofDigest : Bool} {o : ParticipantOp}
    (r : ParticipantRes o)
    (h : Announces before first k (Stage.mailing id ofDigest ::ₘ N) s)
    (hpermit : Stage.Permits V (Stage.mailing id ofDigest) o)
    (hdomain : Domain k ⟨o, (participantHandler V o r s).1⟩) :
    Announces before first k
      ((Stage.mailing id ofDigest).note ⟨o, (participantHandler V o r s).1⟩ ::ₘ N)
      (participantHandler V o r s).2 := by
  cases o with
  | getById id => exact h.stay rfl r
  | eventExists eventId => exact h.stay rfl r
  | countMatches id since => exact h.stay rfl r
  | now => exact h.stay rfl r
  | send id template rows =>
    obtain ⟨-, rfl⟩ := hpermit
    have hconcerns : (ParticipantOp.send id .galleryReady rows).concerns k = false :=
      decide_eq_false fun hboth => EmailTemplate.noConfusion hboth.2
    exact h.stay hconcerns r
  | update id dto =>
    have hother : id ≠ k := by
      obtain ⟨-, t, rfl⟩ := hpermit
      exact fun hid => Option.some_ne_none t (hdomain hid)
    have hconcerns : (ParticipantOp.update id dto).concerns k = false :=
      decide_eq_false fun hboth => hother hboth.1
    exact h.stay hconcerns r
  | _ => cases hpermit

theorem announces_erasing {o : ParticipantOp} (r : ParticipantRes o)
    (h : Announces before first k (Stage.erasing ::ₘ N) s)
    (hpermit : Stage.Permits V (Stage.erasing) o)
    (hdomain : Domain k ⟨o, (participantHandler V o r s).1⟩) :
    Announces before first k
      ((Stage.erasing).note ⟨o, (participantHandler V o r s).1⟩ ::ₘ N)
      (participantHandler V o r s).2 := by
  cases o with
  | getById id => exact h.stay rfl r
  | now => exact h.stay rfl r
  | getExpiredSelfies cutoff => exact h.stay rfl r
  | listSelfieKeys ids => exact h.stay rfl r
  | queue job =>
    obtain ⟨keys, rfl⟩ := hpermit
    exact h.stay rfl r
  | deleteSelfies id => exact h.stay rfl r
  | deleteKeys keys => exact h.stay rfl r
  | deleteEmails id => cases hdomain
  | deleteParticipant id => cases hdomain
  | scrub id => cases hdomain
  | _ => cases hpermit

theorem announces_step {L : List Stage} (hL : (L : Multiset Stage) = g ::ₘ N) {o : ParticipantOp}
    (r : ParticipantRes o) (h : Announces before first k (g ::ₘ N) s)
    (hpermit : Stage.Permits V g o) (hdomain : Domain k ⟨o, (participantHandler V o r s).1⟩)
    (hin : g.InTime before k L (noticesOf k s) ⟨o, (participantHandler V o r s).1⟩) :
    Announces before first k (g.note ⟨o, (participantHandler V o r s).1⟩ ::ₘ N)
      (participantHandler V o r s).2 := by
  cases g with
  | idle =>
    cases o with
    | queue job =>
      have hconcerns : (ParticipantOp.queue job).concerns k = false := decide_eq_false (hpermit k)
      exact h.stay hconcerns r
    | removeWorkDir id => exact h.stay rfl r
    | _ => cases hpermit
  | submitting => exact announces_submitting r h hpermit hdomain
  | replacing id =>
    cases o with
    | deleteSelfies id => exact h.stay rfl r
    | insertSelfies id keys => exact h.pass rfl r rfl rfl fun _ => trivial
    | _ => cases hpermit
  | selecting => exact announces_selecting r h hpermit
  | processing id =>
    cases o with
    | getById id => exact h.stay rfl r
    | getConfig eventId => exact h.stay rfl r
    | getSelfies id => exact h.pass rfl r rfl rfl fun _ => trivial
    | _ => cases hpermit
  | embedding id stored selfies => exact announces_embedding r h hpermit
  | detected id selfie face selfies =>
    cases o with
    | setSelfieEmbedding id e => exact h.pass rfl r rfl rfl fun _ => trivial
    | _ => cases hpermit
  | matching p primary selfies found after => exact announces_matching hL h r hpermit hin
  | matched p inserted after => exact announces_matched h r hpermit
  | announcing p after =>
    cases o with
    | queue job =>
      obtain rfl : job = announcement p after := hpermit
      exact h.requested hL hin
    | _ => cases hpermit
  | mailing id ofDigest => exact announces_mailing r h hpermit hdomain
  | loading id =>
    cases o with
    | getById id' =>
      obtain rfl : id' = id := hpermit
      exact announces_loading h r
    | _ => cases hpermit
  | throttling id since =>
    cases o with
    | eventExists eventId =>
      obtain rfl : r = true := hdomain
      exact h.stay rfl true
    | now => exact announces_throttling hL h r hin
    | _ => cases hpermit
  | due id since =>
    cases o with
    | countMatches id' from? =>
      obtain ⟨rfl, rfl⟩ := hpermit
      exact announces_due h r
    | _ => cases hpermit
  | counted id rows =>
    cases o with
    | send id' template told =>
      obtain ⟨rfl, rfl, rfl⟩ := hpermit
      cases r with
      | false => cases hdomain
      | true => exact announces_counted h
    | _ => cases hpermit
  | sent id rows =>
    cases o with
    | now =>
      by_cases hid : id = k
      · subst hid
        refine ⟨h.rows, h.known, ?_⟩
        exact h.notices.clocked (le_max_left s.clock r)
      · exact h.foreign rfl r hid rfl rfl rfl fun _ hk => absurd hk hid
    | _ => cases hpermit
  | stamping id rows sentAt =>
    cases o with
    | update id' dto =>
      obtain ⟨rfl, rfl⟩ := hpermit
      exact announces_stamping h
    | _ => cases hpermit
  | refused id => cases o <;> cases hpermit
  | «over» id => cases o <;> cases hpermit
  | erasing => exact announces_erasing r h hpermit hdomain

/-! Calls begin and end. -/

theorem Announcing.add (h : Announcing before first k S n) (hdigest : g.digest ≠ some k)
    (hinformed : g.Informed k n) : Announcing before first k (g ::ₘ S) n := by
  have hsilent : ∀ m, ¬ g.tells k m = true := fun m htells => hdigest (digest_of_tells htells)
  refine ⟨h.since, h.single, ?_, h.past, h.told, ?_, ?_, ?_⟩
  · rw [Multiset.countP_cons_of_neg (p := fun g : Stage => g.digest = some k) _ hdigest]
    exact h.running
  · intro m hm hnew
    rw [Multiset.countP_cons_of_neg (p := fun g : Stage => g.tells k m = true) _ (hsilent m)]
    exact h.mails m hm hnew
  · rcases h.served with hsettled | hqueued | ⟨server, hmem, hserver⟩
    · exact .inl hsettled
    · exact .inr (.inl hqueued)
    · exact .inr (.inr ⟨server, Multiset.mem_cons_of_mem hmem, hserver⟩)
  · intro j hg'
    rcases Multiset.mem_cons.mp hg' with rfl | hg'
    · exact hinformed
    · exact h.informed j hg'

theorem Announcing.drop (h : Announcing before first k (g ::ₘ N) n) (hdigest : g.digest ≠ some k)
    (howes : g.owes ≠ some k) : Announcing before first k N n := by
  have hsilent : ∀ m, ¬ g.tells k m = true := fun m htells => hdigest (digest_of_tells htells)
  refine ⟨h.since, h.single, ?_, h.past, h.told, ?_, ?_, ?_⟩
  · have hrunning := h.running
    rwa [Multiset.countP_cons_of_neg (p :=
      fun g : Stage => g.digest = some k) _ hdigest] at hrunning
  · intro m hm hnew
    have hmails := h.mails m hm hnew
    rwa [Multiset.countP_cons_of_neg (p :=
      fun g : Stage => g.tells k m = true) _ (hsilent m)] at hmails
  · rcases h.served with hsettled | hqueued | ⟨server, hmem, hserver⟩
    · exact .inl hsettled
    · exact .inr (.inl hqueued)
    · rcases Multiset.mem_cons.mp hmem with rfl | hmem
      · rcases digest_of_serves hserver with hk | hk
        · exact absurd hk hdigest
        · exact absurd hk howes
      · exact .inr (.inr ⟨server, hmem, hserver⟩)
  · exact fun j hg' => h.informed j (Multiset.mem_cons_of_mem hg')

/-- The waiting digest starts to run. -/
theorem Announcing.begin (h : Announcing before first k S n) (hqueued : 0 < n.queued) :
    Announcing before first k (.loading k ::ₘ S)
      { n with queued := n.queued - 1, held := n.held + 1 } := by
  have hsingle := h.single
  refine ⟨h.since, ?_, ?_, h.past, h.told, ?_, ?_, ?_⟩
  · change n.queued - 1 + (n.held + 1) ≤ 1
    omega
  · rw [Multiset.countP_cons_of_pos (p := fun g : Stage => g.digest = some k) _ rfl, h.running]
  · intro m hm hnew
    rw [Multiset.countP_cons_of_neg _ (by nofun)]
    exact h.mails m hm hnew
  · exact .inr (.inr ⟨_, Multiset.mem_cons_self .., .inl rfl⟩)
  · intro g hg
    rcases Multiset.mem_cons.mp hg with rfl | hg
    · trivial
    · have hinform := h.informed g hg
      cases g <;> exact hinform

/-- The digest is over, and its id is free again. -/
theorem Announcing.leave (h : Announcing before first k (.over k ::ₘ N) n) :
    Announcing before first k N { n with held := n.held - 1 } := by
  obtain ⟨hheld, hqueued, hnone⟩ := h.alone rfl
  refine ⟨h.since, ?_, ?_, h.past, h.told, ?_, ?_, ?_⟩
  · change n.queued + (n.held - 1) ≤ 1
    omega
  · change _ = n.held - 1
    omega
  · intro m hm hnew
    have hmails := h.mails m hm hnew
    rwa [Multiset.countP_cons_of_neg _ (by nofun)] at hmails
  · rcases h.served with hsettled | hwaiting | ⟨server, hmem, hserver⟩
    · exact .inl hsettled
    · exact .inr (.inl hwaiting)
    · rcases Multiset.mem_cons.mp hmem with rfl | hmem
      · rcases hserver with hserver | hserver | hserver <;> cases hserver
      · refine .inr (.inr ⟨server, hmem, ?_⟩)
        cases server <;> exact hserver
  · intro g hg
    have hinform := h.informed g (Multiset.mem_cons_of_mem hg)
    cases g <;> exact hinform

theorem owes_of_settled (h : g.settled = true) : g.owes = none := by
  cases g with
  | matched p inserted after => cases h
  | announcing p after => cases h
  | _ => rfl

theorem count_erase_other {id : ParticipantId} (hid : id ≠ k) (jobs : List ParticipantJob) :
    (jobs.erase (.sendDigest id)).count (.sendDigest k) = jobs.count (.sendDigest k) :=
  List.count_erase_of_ne (fun heq => hid (ParticipantJob.sendDigest.inj heq).symm)

theorem announces_accept {c : ParticipantCall} (h : Announces before first k N s)
    (haccept : (participantServer V).accept c s = some s') :
    Announces before first k (c.first ::ₘ N) s' := by
  cases c with
  | sendDigest id =>
    change (if _ then _ else _) = some s' at haccept
    split at haccept
    · rename_i hmem
      cases haccept
      refine ⟨h.rows, h.known, ?_⟩
      by_cases hid : id = k
      · subst hid
        have hpos : 0 < (noticesOf id s).queued := List.count_pos_iff.mpr hmem
        have hbegin := h.notices.begin hpos
        have hnotices : noticesOf id
            { s with jobs := s.jobs.erase (.sendDigest id), held := s.held ++ [id] } =
            { noticesOf id s with
              queued := (noticesOf id s).queued - 1, held := (noticesOf id s).held + 1 } := by
          simp only [noticesOf, List.count_erase_self, List.count_append, List.count_singleton_self]
          rfl
        rw [hnotices]
        exact hbegin
      · have hnotices : noticesOf k
            { s with jobs := s.jobs.erase (.sendDigest id), held := s.held ++ [id] } =
            noticesOf k s := by
          have hheld : (s.held ++ [id]).count k = s.held.count k := by
            rw [List.count_append, List.count_singleton, if_neg (by simpa using hid), Nat.add_zero]
          exact noticesOf_congr rfl rfl rfl (count_erase_other hid s.jobs) hheld rfl
        rw [hnotices]
        exact h.notices.add (fun hk => hid (Option.some.inj hk)) trivial
    · cases haccept
  | sendGalleryEmail id =>
    cases haccept
    exact ⟨h.rows, h.known, h.notices.add nofun nofun⟩
  | _ =>
    cases haccept
    exact ⟨h.rows, h.known, h.notices.add nofun trivial⟩

/-- How a digest of this participant ends. -/
theorem over_of_post {answer : Answer} (hpost : ParticipantCall.Post (.sendDigest k) answer g)
    (hinformed : g.Informed k n) : g = .over k ∧ finished answer = true := by
  obtain ⟨hsettled, hdigest, hfinished⟩ := hpost
  cases g with
  | «over» id =>
    obtain rfl : id = k := Option.some.inj hdigest
    exact ⟨rfl, (hfinished nofun).resolve_right nofun⟩
  | refused id => exact absurd (Option.some.inj hdigest) hinformed
  | mailing id ofDigest =>
    cases ofDigest with
    | true => exact absurd (Option.some.inj hdigest) (hinformed rfl)
    | false => cases hdigest
  | loading id => cases hsettled
  | throttling id since => cases hsettled
  | due id since => cases hsettled
  | counted id rows => cases hsettled
  | sent id rows => cases hsettled
  | stamping id rows sentAt => cases hsettled
  | _ => cases hdigest

theorem announces_release {c : ParticipantCall} {answer : Answer} {again : Bool}
    (h : Announces before first k (g ::ₘ N) s) (hpost : c.Post answer g)
    (hrelease : (participantServer V).release c answer again s = some s') :
    Announces before first k N s' := by
  have hinformed := h.notices.informed g (Multiset.mem_cons_self ..)
  have howes : g.owes ≠ some k := by
    rw [owes_of_settled hpost.settled]
    nofun
  have hdrop : c.digest ≠ some k → Announcing before first k N (noticesOf k s) := by
    intro hc
    refine h.notices.drop ?_ howes
    rw [hpost.digest]
    exact hc
  cases c with
  | sendDigest id =>
    by_cases hid : id = k
    · subst hid
      obtain ⟨rfl, hfinished⟩ := over_of_post hpost hinformed
      change (if _ then _ else if _ then _ else _) = some s' at hrelease
      rw [if_pos hfinished] at hrelease
      cases hrelease
      refine ⟨h.rows, h.known, ?_⟩
      have hnotices : noticesOf id { s with held := s.held.erase id } =
          { noticesOf id s with held := (noticesOf id s).held - 1 } := by
        simp only [noticesOf, List.count_erase_self]
        rfl
      rw [hnotices]
      exact h.notices.leave
    · have hkeep := hdrop fun hk => hid (Option.some.inj hk)
      have hheld : (s.held.erase id).count k = s.held.count k :=
        List.count_erase_of_ne fun heq => hid heq.symm
      change (if _ then _ else if _ then _ else _) = some s' at hrelease
      split at hrelease
      · cases hrelease
        have hnotices : noticesOf k { s with held := s.held.erase id } = noticesOf k s :=
          noticesOf_congr rfl rfl rfl rfl hheld rfl
        exact ⟨h.rows, h.known, hnotices ▸ hkeep⟩
      split at hrelease
      · cases hrelease
        have hjobs : (s.jobs ++ [ParticipantJob.sendDigest id]).count (.sendDigest k) =
            s.jobs.count (.sendDigest k) := by
          rw [List.count_append, List.count_singleton, if_neg (by simpa using hid), Nat.add_zero]
        have hnotices : noticesOf k
            { s with jobs := s.jobs ++ [.sendDigest id], held :=
              s.held.erase id } = noticesOf k s :=
          noticesOf_congr rfl rfl rfl hjobs hheld rfl
        exact ⟨h.rows, h.known, hnotices ▸ hkeep⟩
      · cases hrelease
        exact ⟨h.rows, h.known, hkeep⟩
  | _ =>
    cases hrelease
    exact ⟨h.rows, h.known, hdrop nofun⟩

theorem preserves_announces (V : Services) (before : List MatchRow) (first : Date)
    (k : ParticipantId) : Preserves (participantServer V)
      (fun p t e => Domain k e ∧ InTime before k p t e) (stages V) ParticipantCall.first
      ParticipantCall.Post (Announces before first k) where
  accept _ _ _ _ h hs := announces_accept h hs
  perform p _ _ o r hnotes h hpermit hcond :=
    ⟨handler_expects o r, announces_step (L := stagesOf p) hnotes r h hpermit hcond.1 hcond.2⟩
  release _ _ _ _ _ _ _ h hpost hs := announces_release h hpost hs

theorem announces_start {t : Date} (h : Notified k s) (ht : lastOf s k = some t)
    (hclock : t ≤ s.clock) (htold : ∀ e ∈ s.emails, e.participantId = k →
      e.template = .galleryUpdate → ∀ m ∈ e.counted, m.createdAt ≤ t) :
    Announces s.matchRows t k 0 s := by
  have hlast : (noticesOf k s).last = t := by
    rw [noticesOf, ht]
    rfl
  have hrows : ∀ m ∈ (noticesOf k s).rows, m ∈ s.matchRows ∧ m.participantId = k := by
    intro m hm
    obtain ⟨hm, hown⟩ := List.mem_filter.mp hm
    exact ⟨hm, of_decide_eq_true hown⟩
  have hheld : (noticesOf k s).held = 0 := List.count_eq_zero.mpr h.held
  refine ⟨h.rows, by
    rw [ht]; nofun, ⟨hlast.ge, hlast.trans_le hclock⟩, ?_, hheld.symm, ?_, ?_, ?_, ?_, ?_⟩
  · rw [hheld]
    exact h.once
  · exact fun m hm => h.past m (hrows m hm).1 (hrows m hm).2
  · intro counted hcounted m hm
    obtain ⟨e, he, rfl⟩ := List.mem_map.mp hcounted
    obtain ⟨he, hboth⟩ := List.mem_filter.mp he
    obtain ⟨hown, htemplate⟩ := of_decide_eq_true hboth
    exact .inr (htold e he hown htemplate m hm)
  · exact fun m hm hnew => absurd (hrows m hm).1 hnew
  · exact .inl fun m hm => (hrows m (List.mem_filter.mp hm).1).1
  · exact fun g hg => absurd hg (Multiset.notMem_zero g)

/-- At rest everything has been counted. -/
theorem announced_of_rest {p : ParticipantPool} (rest : AtRest k p)
    (h : Announces before first k (stagesOf p : List Stage) p.state) :
    Announced before k p.state := by
  have hheld : (noticesOf k p.state).held = 0 := List.count_eq_zero.mpr rest.held
  have hqueued : (noticesOf k p.state).queued = 0 := List.count_eq_zero.mpr rest.queued
  have hnone : ∀ g ∈ ((stagesOf p : List Stage) : Multiset Stage), g.digest ≠ some k :=
    Multiset.countP_eq_zero.mp (h.notices.running.trans hheld)
  have hsettled : Settled before (noticesOf k p.state) := by
    rcases h.notices.served with hsettled | hwaiting | ⟨server, hmem, hserver⟩
    · exact hsettled
    · omega
    · rcases digest_of_serves hserver with hk | hk
      · exact absurd hk (hnone server hmem)
      · exact absurd hk (rest.owes server hmem)
  intro m hm hown hnew
  have hrow : m ∈ (noticesOf k p.state).rows := List.mem_filter.mpr ⟨hm, decide_eq_true hown⟩
  have hearly : m.createdAt ≤ (noticesOf k p.state).last := by
    by_contra hlate
    exact hnew (hsettled m (List.mem_filter.mpr ⟨hrow, decide_eq_true (not_le.mp hlate)⟩))
  refine ⟨?_, _, lastOf_eq h.known, hearly⟩
  have hmails := h.notices.mails m hrow hnew
  have hsilent :
    ((stagesOf p : List Stage) : Multiset Stage).countP (fun g => g.tells k m = true) = 0 :=
    not_tells_of_zero (h.notices.running.trans hheld) m
  rw [hsilent, if_pos hearly, noticesOf, List.countP_map, List.countP_filter] at hmails
  refine Eq.trans (List.countP_congr fun e _ => ?_) hmails
  simp [and_comm, and_assoc]

/-- As long as digests are neither early nor overtaken, no new match of a notified
participant goes unannounced. -/
theorem announced_inTime (V : Services) {p : ParticipantPool} (start : Notified k s)
    (h : (participantServer V).Reaches (fun p t e => Domain k e ∧ InTime s.matchRows k p t e)
    ⟨[], s⟩ p)
    (rest : AtRest k p) : Announced s.matchRows k p.state := by
  obtain ⟨t, ht, hclock, htold⟩ := start.since
  have hreached := (h.invariant call_follows (preserves_announces V s.matchRows t k) rfl
    (announces_start start ht hclock htold)).2
  exact announced_of_rest rest hreached

end Calls

/-! A match that is found an hour after the first mail. -/

section Decidable

variable {before : List MatchRow} {k : ParticipantId}

instance (e : ParticipantEvent) : Decidable (Domain k e) := by
  unfold Domain
  split <;> infer_instance

instance (n : Notices) : Decidable (Settled before n) := by
  unfold Settled
  infer_instance

instance (inProgress : List Stage) (n : Notices) (after : After) (t : Date) :
    Decidable (InsertsInTime k inProgress n after t) := by
  unfold InsertsInTime
  infer_instance

instance (inProgress : List Stage) (n : Notices) :
    Decidable (DropsInTime before k inProgress n) := by
  unfold DropsInTime
  infer_instance

instance (inProgress : List Stage) (n : Notices) :
    Decidable (SkipsInTime before k inProgress n) := by
  unfold SkipsInTime
  infer_instance

instance (inProgress : List Stage) (n : Notices) (g : Stage) (e : ParticipantEvent) :
    Decidable (g.InTime before k inProgress n e) := by
  unfold Stage.InTime
  split
  · split <;> infer_instance
  all_goals infer_instance

instance (p : ParticipantPool) (t : ParticipantThread) (e : ParticipantEvent) :
    Decidable (InTime before k p t e) := by
  unfold InTime
  infer_instance

end Decidable

/-- Every face is near to every embedding. -/
def lookalikes : Services where
  detect _ := []
  distance _ _ := 0
  maxDistance _ := 0
  endsAt _ := none
  active _ := true

/-- A participant who was told about the gallery at the very beginning. -/
def told : ParticipantStore where
  participants :=
    [{ id := 0
       eventId := "gala"
       email := "ada"
       name := "Ada"
       phone := none
       selfieKey := some ⟨"studio", "gala", 0, 0⟩
       selfieEmbedding := some "ada"
       status := .matched
       notifiedFirstAt := some 0
       lastNotifiedAt := some 0 }]
  nextParticipant := 1

def hours (count : ℕ) : Date := count * (60 * 60 * 1000)

/-- A rematch at this hour finds a face of the index. -/
def rematchAt (hour : ℕ) : List ParticipantMove :=
  wholeCall (willing (hours hour) [⟨"face", "asset", "indexed"⟩]) (.participantRematch "gala") 0 8

/-- The digest runs at this hour; it performs so many operations. -/
def digestAt (hour count : ℕ) : List ParticipantMove :=
  wholeCall (willing (hours hour) []) (.sendDigest 0) 0 count

theorem notified_told : Notified 0 told where
  rows _ hp _ := by
    rw [List.mem_singleton.mp hp]
    nofun
  since := ⟨0, rfl, le_rfl, fun _ he => absurd he List.not_mem_nil⟩
  past _ hm := absurd hm List.not_mem_nil
  held := List.not_mem_nil
  once := Nat.zero_le 1

/-- The digest of a match found in the first six hours is skipped. -/
theorem not_announced : ¬ ∀ V k s p, Notified k s →
    (participantServer V).Reaches (fun _ _ e => Domain k e) ⟨[], s⟩ p → AtRest k p →
      Announced s.matchRows k p.state := by
  intro h
  let p := ((participantServer lookalikes).play (fun _ _ e => Domain 0 e)
    (rematchAt 1 ++ digestAt 2 3)
    ⟨[], told⟩).get (by decide)
  have hreached : (participantServer lookalikes).Reaches (fun _ _ e => Domain 0 e) ⟨[], told⟩ p :=
    Server.Reaches.start.play _ (Option.some_get _).symm
  have hrest : AtRest 0 p := by
    constructor <;> decide
  have hmatch : ⟨⟨0, "asset", "face", 0⟩, hours 1⟩ ∈ p.state.matchRows := by decide
  obtain ⟨hcounted, -⟩ :=
    h lookalikes 0 told p notified_told hreached hrest _ hmatch rfl List.not_mem_nil
  have hnone : p.state.emails = [] := by decide
  rw [hnone] at hcounted
  exact absurd hcounted nofun

/-- The digest of the same match, seven hours after the first mail. -/
theorem announced_inTime_later :
    ∃ p, (participantServer lookalikes).play (fun p t e => Domain 0 e ∧
    InTime told.matchRows 0 p t e)
        (rematchAt 1 ++ digestAt 7 7) ⟨[], told⟩ = some p ∧
      AtRest 0 p ∧ Announced told.matchRows 0 p.state := by
  let p := ((participantServer lookalikes).play (fun p t e => Domain 0 e ∧
    InTime told.matchRows 0 p t e)
    (rematchAt 1 ++ digestAt 7 7) ⟨[], told⟩).get (by decide)
  have hplay : (participantServer lookalikes).play
      (fun p t e => Domain 0 e ∧ InTime told.matchRows 0 p t e)
      (rematchAt 1 ++ digestAt 7 7) ⟨[], told⟩ = some p := (Option.some_get _).symm
  have hrest : AtRest 0 p := by
    constructor <;> decide
  exact ⟨p, hplay, hrest,
    announced_inTime lookalikes notified_told (Server.Reaches.start.play _ hplay) hrest⟩

end EventLens.Selfies

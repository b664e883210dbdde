import EventLens.NamesConverge

/-!
Whether names follow the humans. A rename is recorded under the time it was
made at, but a claim under the time its match row was inserted at, and a later
submission leaves rows that are there as they are. As long as acts are recorded
in the order they were made in, the person carries the name given last.
-/

namespace EventLens.Names

open LastWrite

/-- A name given to a person: when it was given and when that was recorded. -/
structure Entry where
  name : String
  actedAt : ℕ
  recordedAt : ℕ
deriving DecidableEq, Repr

def ParticipantMatch.entry (m : ParticipantMatch) : Entry :=
    ⟨m.givenName, m.submittedAt, m.createdAt⟩

def Participant.submission (p : Participant) : HumanAct :=
  .submission p.id p.eventId p.name p.selfies p.submittedAt

def Entry.recorded (e : Entry) : String × ℕ := (e.name, e.recordedAt)

/-- What was done later was recorded later. -/
def InOrder (entries : List Entry) : Prop :=
  ∀ a ∈ entries, ∀ b ∈ entries, a.actedAt < b.actedAt → a.recordedAt < b.recordedAt

instance (entries : List Entry) : Decidable (InOrder entries) :=
  inferInstanceAs (Decidable (∀ a ∈ entries, ∀ b ∈ entries, _ → _))

namespace NameStore

variable (usable : String → Bool) (search : String → List ℕ) (s : NameStore)

/-- The match rows on the faces of a person. -/
def rowsOn (personId : ℕ) : List ParticipantMatch :=
  s.matchRows.filter
    (fun m => s.faces.any (fun f => f.id = m.viaFaceId ∧ f.personId = some personId))

def rowsVia (faceId : ℕ) : List ParticipantMatch :=
    s.matchRows.filter (fun m => m.viaFaceId = faceId)

def entriesOn (eventId personId : ℕ) : List Entry :=
  (s.renamesOn eventId personId).map (fun a => ⟨a.1, a.2, a.2⟩) ++
    (s.rowsOn personId).map ParticipantMatch.entry

/-- The name an act gives to the person: a rename of it, or a submission with a
selfie near one of its faces. -/
def concerning (p : Person) : HumanAct → Option (String × ℕ)
  | .rename eventId personId name time =>
    if eventId = p.eventId ∧ personId = p.id then some (name, time) else none
  | .submission _ eventId name selfies time =>
    if s.faces.any (fun f => f.id ∈ hitIds usable search selfies ∧ f.eventId = eventId ∧
      f.personId = some p.id) then
      some (name, time)
    else none

def humanActs (p : Person) : List (String × ℕ) := s.acts.filterMap (s.concerning usable search p)

/-- Whoever was given a name carries the one given last. -/
def Followed : Prop :=
  ∀ p ∈ s.persons, s.humanActs usable search p ≠ [] →
    ∃ time, (p.name, time) ∈ s.humanActs usable search p ∧ ∀ a ∈ s.humanActs usable search p,
      a.2 ≤ time

/-- Nothing has been done yet; ids are unique, and faces belong to persons of
their event. -/
structure Started : Prop where
  fresh : s.Fresh
  unique : (s.persons.map Person.id).Nodup
  clustered : ∀ f ∈ s.faces, ∀ personId, f.personId = some personId →
    ∃ p ∈ s.persons, p.id = personId ∧ p.eventId = f.eventId
  participants : s.participants = []
  matchRows : s.matchRows = []
  jobs : s.jobs = []

/-! What keeps the record in order. -/

/-- Every face that is near lies on a photo of its own, which the guest has not
been matched to through another face or for an earlier submission. -/
def NewPhotos (p : Participant) : Prop :=
  (∀ f ∈ s.hits usable search p, ∀ g ∈ s.hits usable search p, f.assetId = g.assetId → f = g) ∧
    ∀ f ∈ s.hits usable search p, ∀ m ∈ s.matchRows, m.participantId = p.id →
      m.assetId = f.assetId →
      m.viaFaceId = f.id ∧ m.submittedAt = p.submittedAt

/-- No person is matched for the first time on a photo after something newer
than the submission was recorded on it. -/
def InTime (p : Participant) : Prop :=
  ∀ f ∈ s.hits usable search p,
    (∀ m ∈ s.matchRows, ¬ (m.participantId = p.id ∧ m.assetId = f.assetId)) →
      ∀ personId ∈ f.personId, ∀ e ∈ s.entriesOn p.eventId personId, e.actedAt ≤ p.submittedAt

/-- A face that joins a person brings claims of current submissions only, in
order with those that are there. -/
def JoinsInOrder (face : AssetFace) (personId : ℕ) : Prop :=
  (∀ m ∈ s.rowsVia face.id, ∀ p ∈ s.participants, p.id = m.participantId →
    p.submittedAt = m.submittedAt) ∧
    InOrder (s.entriesOn face.eventId personId ++ (s.rowsVia face.id).map ParticipantMatch.entry)

/-- The person a face would join. -/
def joined (face : AssetFace) (found : Option ℕ) : ℕ :=
  (found.bind (fun id => (s.faceIn face.eventId id).bind AssetFace.personId)).getD s.nextPerson

def Orderly : NameStep → Prop
  | .rename _ _ _ | .backfill => True
  | .submit eventId email name _ => name ≠ "" ∧ ∀ p ∈ s.participants,
      p.eventId = eventId → p.email.toLower = email.toLower → p.id ∉ s.jobs
  | .selfieProcess participantId => ∀ p ∈ s.participants, p.id = participantId →
      s.NewPhotos usable search p ∧ s.InTime usable search p
  | .rematch participantId => ∀ p ∈ s.participants, p.id = participantId → p.embedded →
      s.NewPhotos usable search p ∧ s.InTime usable search p
  | .recognize faceId found _ => ∀ face ∈ s.faces, face.id = faceId → face.personId = none →
      s.JoinsInOrder face (s.joined face found)

/-- Every step keeps the record in order. -/
def OrderlyRun (s : NameStore) : List (ℕ × NameStep) → Prop
  | [] => True
  | m :: rest => (s.tick m.1).Orderly usable search m.2 ∧ OrderlyRun (s.step usable search m) rest

instance (p : Participant) : Decidable (s.NewPhotos usable search p) := by
  dsimp only [NewPhotos]
  infer_instance

instance (p : Participant) : Decidable (s.InTime usable search p) := by
  dsimp only [InTime]
  infer_instance

instance (face : AssetFace) (personId : ℕ) : Decidable (s.JoinsInOrder face personId) := by
  dsimp only [JoinsInOrder]
  infer_instance

instance (step : NameStep) : Decidable (s.Orderly usable search step) := by
  cases step <;> dsimp only [Orderly] <;> infer_instance

instance OrderlyRun.decide (s : NameStore) (moves : List (ℕ × NameStep)) :
    Decidable (s.OrderlyRun usable search moves) := by
  induction moves generalizing s with
  | nil => exact isTrue trivial
  | cons m rest ih => exact instDecidableAnd

end NameStore

/-! The record of a person. -/

section Entries

variable {s s' : NameStore} {eventId personId : ℕ} {e : Entry} {m : ParticipantMatch}
  {entries more : List Entry}

theorem InOrder.mono (h : InOrder entries) (hsub : ∀ a ∈ more, a ∈ entries) : InOrder more :=
  fun a ha b hb => h a (hsub a ha) b (hsub b hb)

/-- What is recorded last may be added, if it was done last. -/
theorem InOrder.extend (h : InOrder entries) {actedAt recordedAt : ℕ}
    (hlast : ∀ a ∈ entries, a.actedAt ≤ actedAt ∧ a.recordedAt < recordedAt)
    (hmore : ∀ a ∈ more, a ∈ entries ∨ a.actedAt = actedAt ∧
    a.recordedAt = recordedAt) : InOrder more := by
  intro a ha b hb hlt
  rcases hmore a ha with ha | ⟨hacted, -⟩
  · rcases hmore b hb with hb | ⟨-, hrecorded⟩
    · exact h a ha b hb hlt
    · rw [hrecorded]
      exact (hlast a ha).2
  · rcases hmore b hb with hb | ⟨hacted', -⟩
    · have hle := (hlast b hb).1
      omega
    · omega

theorem mem_rowsOn : m ∈ s.rowsOn personId ↔
    m ∈ s.matchRows ∧ ∃ f ∈ s.faces, f.id = m.viaFaceId ∧ f.personId = some personId := by
  rw [NameStore.rowsOn, List.mem_filter, List.any_eq_true]
  refine and_congr_right fun _ => exists_congr fun f => and_congr_right fun _ => ?_
  exact decide_eq_true_iff

theorem mem_entriesOn : e ∈ s.entriesOn eventId personId ↔
    (∃ a ∈ s.renamesOn eventId personId, Entry.mk a.1 a.2 a.2 = e) ∨ ∃ m ∈ s.rowsOn personId,
    m.entry = e := by
  rw [NameStore.entriesOn, List.mem_append, List.mem_map, List.mem_map]

theorem entries_kept (hrows : ∀ m ∈ s'.rowsOn personId, m ∈ s.rowsOn personId)
    (hacts : s'.acts = s.acts)
    (he : e ∈ s'.entriesOn eventId personId) : e ∈ s.entriesOn eventId personId := by
  rcases mem_entriesOn.mp he with ⟨a, ha, rfl⟩ | ⟨m, hm, rfl⟩
  · rw [NameStore.renamesOn, hacts] at ha
    exact mem_entriesOn.mpr (.inl ⟨a, ha, rfl⟩)
  · exact mem_entriesOn.mpr (.inr ⟨m, hrows m hm, rfl⟩)

/-- A claim is a match row under the name its guest has now. -/
theorem mem_claims_rows {c : String × ℕ} : c ∈ s.claimsOn personId ↔
    ∃ m ∈ s.rowsOn personId, ∃ p ∈ s.participants,
      (p.id = m.participantId ∧ p.deleted = false ∧ p.name ≠ "") ∧ (p.name, m.createdAt) = c := by
  rw [mem_claimsOn]
  constructor
  · rintro ⟨f, hf, hperson, m, hm, hvia, p, hp, hkey, hc⟩
    exact ⟨m, mem_rowsOn.mpr ⟨hm, f, hf, hvia.symm, hperson⟩, p, hp, hkey, hc⟩
  · rintro ⟨m, hm, p, hp, hkey, hc⟩
    obtain ⟨hm, f, hf, hvia, hperson⟩ := mem_rowsOn.mp hm
    exact ⟨f, hf, hperson, m, hm, hvia.symm, p, hp, hkey, hc⟩

end Entries

/-! The invariant. -/

section Invariant

variable (usable : String → Bool) (search : String → List ℕ)

/-- The tables, with all times up to `n`. -/
structure Tables (n : ℕ) (s : NameStore) : Prop where
  faces : (s.faces.map AssetFace.id).Nodup
  persons : (s.persons.map Person.id).Nodup
  participants : (s.participants.map Participant.id).Nodup
  nextPerson : ∀ p ∈ s.persons, p.id < s.nextPerson
  known : ∀ eventId personId name time, .rename eventId personId name time ∈ s.acts →
    personId < s.nextPerson
  nextParticipant : ∀ p ∈ s.participants, p.id < s.nextParticipant
  named : ∀ p ∈ s.participants, p.deleted = false ∧ p.name ≠ ""
  given : ∀ p ∈ s.participants, p.submission ∈ s.acts
  past : ∀ act ∈ s.acts, act.time ≤ n
  clustered : ∀ f ∈ s.faces, ∀ personId, f.personId = some personId →
    ∃ p ∈ s.persons, p.id = personId ∧ p.eventId = f.eventId
  rows : ∀ m ∈ s.matchRows, m.createdAt ≤ n ∧ ∃ p ∈ s.participants,
    p.id = m.participantId ∧ (m.submittedAt = p.submittedAt → m.givenName = p.name)
  claimed : ∀ m ∈ s.matchRows, ∃ eventId selfies,
    .submission m.participantId eventId m.givenName selfies m.submittedAt ∈ s.acts ∧
      ∃ f ∈ s.faces, f.id = m.viaFaceId ∧ f.eventId = eventId ∧
        f.id ∈ NameStore.hitIds usable search selfies

/-- Every face near a selfie of the submission has a match row for it. -/
def Handled (s : NameStore) : HumanAct → Prop
  | .rename _ _ _ _ => True
  | .submission participantId eventId name selfies time =>
    ∀ f ∈ s.faces, f.id ∈ NameStore.hitIds usable search selfies → f.eventId = eventId →
      ∃ m ∈ s.matchRows, m.participantId = participantId ∧ m.viaFaceId = f.id ∧
        m.submittedAt = time ∧
        m.givenName = name

/-- Every submission is the guest's current one, with its job queued, or has
been handled. -/
def Processed (s : NameStore) : Prop :=
  ∀ act ∈ s.acts, (∃ p ∈ s.participants, p.submission = act ∧ p.id ∈ s.jobs) ∨
    Handled usable search s act

/-- The name of a person is on its record, which is in order, and no rename is
newer; where a row is, its guest still has the name it was inserted under. -/
structure Naming (s : NameStore) : Prop where
  ordered : ∀ p ∈ s.persons, InOrder (s.entriesOn p.eventId p.id)
  held : ∀ p ∈ s.persons, Held ((s.entriesOn p.eventId p.id).map Entry.recorded) p.cell
  renamed : ∀ p ∈ s.persons, Covers (s.renamesOn p.eventId p.id) p.cell
  current : ∀ p ∈ s.persons, ∀ m ∈ s.rowsOn p.id,
    (∀ q ∈ s.participants, q.id = m.participantId → m.givenName = q.name) ∨
      ∃ a, p.cell = some a ∧ m.createdAt ≤ a.2

/-- No claim is newer either. -/
structure Carried (s : NameStore) : Prop where
  ordered : ∀ p ∈ s.persons, InOrder (s.entriesOn p.eventId p.id)
  held : ∀ p ∈ s.persons, Held ((s.entriesOn p.eventId p.id).map Entry.recorded) p.cell
  renamed : ∀ p ∈ s.persons, Covers (s.renamesOn p.eventId p.id) p.cell
  covered : ∀ p ∈ s.persons, Covers (s.claimsOn p.id) p.cell

structure Following (s : NameStore) : Prop where
  tables : Tables usable search s.clock s
  processed : Processed usable search s
  carried : Carried s

end Invariant

section Steps

variable {usable : String → Bool} {search : String → List ℕ} {s s' : NameStore} {n : ℕ}

/-- Each row of a person is one of its claims. -/
theorem covers_rows (h : Tables usable search n s) (hs : Carried s) {p : Person}
    (hp : p ∈ s.persons)
    {m : ParticipantMatch} (hm : m ∈ s.rowsOn p.id) : ∃ a, p.cell = some a ∧ m.createdAt ≤ a.2 := by
  obtain ⟨-, q, hq, hid, -⟩ := h.rows m (mem_rowsOn.mp hm).1
  exact hs.covered p hp _ (mem_claims_rows.mpr ⟨m, hm, q, hq, ⟨hid, h.named q hq⟩, rfl⟩)

theorem entries_past (h : Tables usable search n s) {eventId personId : ℕ} {e : Entry}
    (he : e ∈ s.entriesOn eventId personId) : e.actedAt ≤ n ∧ e.recordedAt ≤ n := by
  rcases mem_entriesOn.mp he with ⟨a, ha, rfl⟩ | ⟨m, hm, rfl⟩
  · exact ⟨(renames_past h.past ha).2, (renames_past h.past ha).2⟩
  · have hm := (mem_rowsOn.mp hm).1
    obtain ⟨eventId', selfies, hact, -⟩ := h.claimed m hm
    exact ⟨h.past _ hact, (h.rows m hm).1⟩

theorem Tables.mono (h : Tables usable search n s) {later : ℕ} (hle : n ≤ later) :
    Tables usable search later s :=
  { h with
    past := fun act hact => (h.past act hact).trans hle
    rows := fun m hm => ⟨(h.rows m hm).1.trans hle, (h.rows m hm).2⟩ }

theorem handled_kept {act : HumanAct}
    (hfaces : ∀ f' ∈ s'.faces, ∃ f ∈ s.faces, f'.id = f.id ∧ f'.eventId = f.eventId)
    (hrows : ∀ m ∈ s.matchRows, m ∈ s'.matchRows) (h : Handled usable search s act) :
    Handled usable search s' act := by
  cases act with
  | rename eventId personId name time => trivial
  | submission participantId eventId name selfies time =>
    intro f' hf' hhit hevent
    obtain ⟨f, hf, hid, hsame⟩ := hfaces f' hf'
    obtain ⟨m, hm, hrow⟩ := h f hf (hid ▸ hhit) (hsame ▸ hevent)
    rw [← hid] at hrow
    exact ⟨m, hrows m hm, hrow⟩

/-! Naming. -/

theorem tables_nameFromParticipants (h : Tables usable search n s) (eventId personId : ℕ) :
    Tables usable search n (s.nameFromParticipants eventId personId) := by
  have hkey :
    ∀ p : Person, (if p.id = personId ∧ p.eventId = eventId then p.offered (s.latestClaim personId)
      else p).id = p.id ∧
        (if p.id = personId ∧ p.eventId = eventId then p.offered (s.latestClaim personId)
      else p).eventId = p.eventId := by
    intro p
    split
    · exact offered_key _ p
    · exact ⟨rfl, rfl⟩
  refine { h with persons := ?_, nextPerson := fun p' hp' => ?_, clustered :=
    fun f hf id hid => ?_ }
  · rw [NameStore.nameFromParticipants, List.map_map]
    rw [List.map_congr_left (f := Person.id ∘ _) (g := Person.id) fun p _ => (hkey p).1]
    exact h.persons
  · obtain ⟨p, hp, rfl⟩ := List.mem_map.mp hp'
    rw [(hkey p).1]
    exact h.nextPerson p hp
  · obtain ⟨p, hp, hperson, hevent⟩ := h.clustered f hf id hid
    exact ⟨_, List.mem_map_of_mem hp, (hkey p).1.trans hperson, (hkey p).2.trans hevent⟩

theorem naming_nameFromParticipants (h : Naming s) (eventId personId : ℕ) :
    Naming (s.nameFromParticipants eventId personId) := by
  refine ⟨fun p' hp' => ?_, fun p' hp' => ?_, fun p' hp' => ?_, fun p' hp' m hm => ?_⟩
  · obtain ⟨p, hp, rfl⟩ := List.mem_map.mp hp'
    split
    · obtain ⟨hid, hevent⟩ := offered_key (s.latestClaim personId) p
      rw [hid, hevent]
      exact h.ordered p hp
    · exact h.ordered p hp
  · obtain ⟨p, hp, rfl⟩ := List.mem_map.mp hp'
    split
    · rename_i hkey
      obtain ⟨hid, hevent⟩ := offered_key (s.latestClaim personId) p
      rw [cell_offered, hid, hevent]
      refine held_offer (h.held p hp) fun a ha hnewer => ?_
      obtain ⟨m, hm, q, hq, ⟨hq', -⟩, rfl⟩ := mem_claims_rows.mp (newest_mem ha)
      rw [← hkey.1] at hm
      rcases h.current p hp m hm with hcurrent | ⟨held, hheld, hle⟩
      · refine List.mem_map.mpr ⟨m.entry, mem_entriesOn.mpr (.inr ⟨m, hm, rfl⟩), ?_⟩
        rw [← hcurrent q hq hq']
        rfl
      · rw [hheld] at hnewer
        exact absurd (of_decide_eq_true hnewer) (Nat.not_lt_of_le hle)
    · exact h.held p hp
  · obtain ⟨p, hp, rfl⟩ := List.mem_map.mp hp'
    split
    · obtain ⟨hid, hevent⟩ := offered_key (s.latestClaim personId) p
      rw [cell_offered, hid, hevent]
      exact covers_offer (h.renamed p hp) _
    · exact h.renamed p hp
  · obtain ⟨p, hp, rfl⟩ := List.mem_map.mp hp'
    have hid :
      (if p.id = personId ∧ p.eventId = eventId then p.offered (s.latestClaim personId) else p).id =
        p.id := by
      split
      · exact (offered_key _ p).1
      · rfl
    rw [hid] at hm
    rcases h.current p hp m hm with hcurrent | hcovered
    · exact .inl hcurrent
    · refine .inr ?_
      split
      · have hone : Covers [m.entry.recorded] p.cell := by
          intro b hb
          rw [List.mem_singleton.mp hb]
          exact hcovered
        rw [cell_offered]
        exact covers_offer hone _ _ (List.mem_singleton_self _)
      · exact hcovered

theorem naming_nameAll (h : Naming s) (clusters : List (ℕ × ℕ)) : Naming (s.nameAll clusters) := by
  induction clusters generalizing s with
  | nil => exact h
  | cons cluster rest ih => exact ih (naming_nameFromParticipants h cluster.1 cluster.2)

theorem tables_nameAll (h : Tables usable search n s) (clusters : List (ℕ × ℕ)) :
    Tables usable search n (s.nameAll clusters) := by
  induction clusters generalizing s with
  | nil => exact h
  | cons cluster rest ih => exact ih (tables_nameFromParticipants h cluster.1 cluster.2)

/-- Naming changes persons only. -/
theorem nameAll_same (s : NameStore) (clusters : List (ℕ × ℕ)) :
    ∃ persons, s.nameAll clusters = { s with persons := persons } := by
  induction clusters generalizing s with
  | nil => exact ⟨s.persons, rfl⟩
  | cons cluster rest ih =>
    obtain ⟨persons, hsame⟩ := ih (s.nameFromParticipants cluster.1 cluster.2)
    exact ⟨persons, hsame⟩

theorem Carried.naming (h : Tables usable search n s) (hs : Carried s) : Naming s :=
  ⟨hs.ordered, hs.held, hs.renamed, fun _ hp _ hm => .inr (covers_rows h hs hp hm)⟩

/-- Who has new claims is named. -/
theorem carried_nameAll (h : Naming s) {clusters : List (ℕ × ℕ)}
    (hlisted : ∀ p ∈ s.persons, (p.eventId, p.id) ∈ clusters ∨ Covers (s.claimsOn p.id) p.cell) :
    Carried (s.nameAll clusters) := by
  have hnaming := naming_nameAll h clusters
  refine ⟨hnaming.ordered, hnaming.held, hnaming.renamed, fun p hp => ?_⟩
  rw [claims_nameAll]
  exact covered_nameAll hlisted p hp

end Steps

end EventLens.Names

import EventLens.FaceScope

/-!
What each statement of the face pipeline does to the references between rows.
A face is of a person of its own event, a cover face lies on an asset of the
person's event, and a match names an asset and a face of the participant's
event. Rows keep their events, so what was read of them stays true.
-/

namespace EventLens.Faces

open Programs Contract

/-- The face of this id is there and lies on an asset of the event. -/
def FaceStore.FaceOf (s : FaceStore) (eventId : EventId) (f : FaceId) : Prop :=
  ∃ row ∈ s.faces, row.id = f ∧ s.eventOf row = some eventId

/-- References stay within events. -/
structure Isolated (s : FaceStore) : Prop where
  faces : ∀ f ∈ s.faces, ∀ p ∈ f.personId,
    ∃ row ∈ s.persons, row.id = p ∧ s.eventOf f = some row.eventId
  covers : ∀ p ∈ s.persons, ∀ f ∈ p.faceAssetFaceId, s.FaceOf p.eventId f
  matched : ∀ m ∈ s.matchRows, ∃ q ∈ s.participants, q.id = m.participantId ∧
    (∃ a ∈ s.assets, a.id = m.assetId ∧ a.eventId = q.eventId) ∧
      ∀ f ∈ m.viaFaceId, s.FaceOf q.eventId f

/-- Primary keys, and ids not yet given out. -/
structure Keyed (s : FaceStore) : Prop where
  assets : (s.assets.map Asset.id).Nodup
  faces : (s.faces.map AssetFace.id).Nodup
  persons : (s.persons.map Person.id).Nodup
  participants : (s.participants.map Participant.id).Nodup
  nextFace : ∀ f ∈ s.faces, f.id < s.nextFace
  nextPerson : ∀ p ∈ s.persons, p.id < s.nextPerson

section Updates

variable {s : FaceStore}

/-- Persons of faces change, within events. -/
theorem Isolated.mapFaces (h : Isolated s) {g : AssetFace → AssetFace}
    (hid : ∀ f, (g f).id = f.id ∧ (g f).assetId = f.assetId)
    (hperson : ∀ f ∈ s.faces, ∀ p ∈ (g f).personId,
      ∃ row ∈ s.persons, row.id = p ∧ s.eventOf f = some row.eventId) :
    Isolated { s with faces := s.faces.map g } := by
  have hevent : ∀ f, s.eventOf (g f) = s.eventOf f := fun f => by
    rw [FaceStore.eventOf, FaceStore.eventOf, (hid f).2]
  have hface : ∀ eventId f, s.FaceOf eventId f →
      FaceStore.FaceOf { s with faces := s.faces.map g } eventId f := by
    rintro eventId _ ⟨row, hrow, rfl, hrowEvent⟩
    exact ⟨g row, List.mem_map_of_mem hrow, (hid row).1, (hevent row).trans hrowEvent⟩
  refine ⟨fun f hf p hp => ?_, fun p hp f hf => hface _ f (h.covers p hp f hf), fun m hm => ?_⟩
  · obtain ⟨before, hbefore, rfl⟩ := List.mem_map.mp hf
    obtain ⟨row, hrow, hid', hrowEvent⟩ := hperson before hbefore p hp
    exact ⟨row, hrow, hid', (hevent before).trans hrowEvent⟩
  · obtain ⟨q, hq, hqid, hasset, hvia⟩ := h.matched m hm
    exact ⟨q, hq, hqid, hasset, fun f hf => hface _ f (hvia f hf)⟩

theorem Isolated.deletePersons (h : Isolated s) (ids : List PersonId) :
    Isolated (s.deletePersons ids) := by
  have hmapped :=
    h.mapFaces (g := fun f => { f with personId := f.personId.filter (fun p => p ∉ ids) })
    (fun _ => ⟨rfl, rfl⟩) fun f hf p hp => h.faces f hf p (Option.mem_filter_iff.mp hp).1
  refine ⟨fun f hf p hp => ?_, fun p hp => hmapped.covers p (List.mem_filter.mp hp).1,
    hmapped.matched⟩
  obtain ⟨row, hrow, hid, hevent⟩ := hmapped.faces f hf p hp
  obtain ⟨before, -, rfl⟩ := List.mem_map.mp hf
  obtain ⟨-, hkept⟩ := Option.mem_filter_iff.mp hp
  refine ⟨row, List.mem_filter.mpr ⟨hrow, ?_⟩, hid, hevent⟩
  rw [hid]
  exact hkept

theorem Isolated.removeFaces (h : Isolated s) (ids : List FaceId) :
    Isolated (s.removeFaces ids) := by
  have hface :
    ∀ eventId f, s.FaceOf eventId f → f ∉ ids → (s.removeFaces ids).FaceOf eventId f := by
    rintro eventId _ ⟨row, hrow, rfl, hevent⟩ hkept
    exact ⟨row, List.mem_filter.mpr ⟨hrow, decide_eq_true hkept⟩, rfl, hevent⟩
  refine ⟨fun f hf p hp => ?_, fun p hp f hf => ?_, fun m hm => ?_⟩
  · obtain ⟨row, hrow, hid, hevent⟩ := h.faces f (List.mem_filter.mp hf).1 p hp
    exact ⟨_, List.mem_map_of_mem hrow, hid, hevent⟩
  · obtain ⟨before, hbefore, rfl⟩ := List.mem_map.mp hp
    obtain ⟨hcover, hkept⟩ := Option.mem_filter_iff.mp hf
    exact hface _ f (h.covers before hbefore f hcover) (of_decide_eq_true hkept)
  · obtain ⟨before, hbefore, rfl⟩ := List.mem_map.mp hm
    obtain ⟨q, hq, hqid, hasset, hvia⟩ := h.matched before hbefore
    refine ⟨q, hq, hqid, hasset, fun f hf => ?_⟩
    obtain ⟨hcover, hkept⟩ := Option.mem_filter_iff.mp hf
    exact hface _ f (hvia f hcover) (of_decide_eq_true hkept)

/-- Faces of no person yet are added. -/
theorem Isolated.addFaces (h : Isolated s) {added : List AssetFace} {searches : List FaceSearch}
    (hnone : ∀ f ∈ added, f.personId = none) :
    Isolated { s with faces := s.faces ++ added, searches := searches } := by
  have hface : ∀ eventId f, s.FaceOf eventId f →
      FaceStore.FaceOf { s with faces := s.faces ++ added, searches := searches } eventId f := by
    rintro eventId _ ⟨row, hrow, rfl, hevent⟩
    exact ⟨row, List.mem_append_left _ hrow, rfl, hevent⟩
  refine ⟨fun f hf p hp => ?_, fun p hp f hf => hface _ f (h.covers p hp f hf), fun m hm => ?_⟩
  · rcases List.mem_append.mp hf with hf | hf
    · exact h.faces f hf p hp
    · rw [hnone f hf] at hp
      cases hp
  · obtain ⟨q, hq, hqid, hasset, hvia⟩ := h.matched m hm
    exact ⟨q, hq, hqid, hasset, fun f hf => hface _ f (hvia f hf)⟩

theorem Isolated.addPerson (h : Isolated s) {p : Person}
    (hcover : ∀ f ∈ p.faceAssetFaceId, s.FaceOf p.eventId f) :
    Isolated { s with persons := s.persons ++ [p], nextPerson := s.nextPerson + 1 } := by
  refine ⟨fun f hf q hq => ?_, fun q hq => ?_, h.matched⟩
  · obtain ⟨row, hrow, hid, hevent⟩ := h.faces f hf q hq
    exact ⟨row, List.mem_append_left _ hrow, hid, hevent⟩
  · rcases List.mem_append.mp hq with hq | hq
    · exact h.covers q hq
    · rw [List.mem_singleton.mp hq]
      exact hcover

theorem Isolated.mapPersons (h : Isolated s) {g : Person → Person}
    (hid : ∀ p, (g p).id = p.id ∧ (g p).eventId = p.eventId)
    (hcover : ∀ p ∈ s.persons, ∀ f ∈ (g p).faceAssetFaceId, s.FaceOf p.eventId f) :
    Isolated { s with persons := s.persons.map g } := by
  refine ⟨fun f hf p hp => ?_, fun p hp f hf => ?_, h.matched⟩
  · obtain ⟨row, hrow, hrowId, hevent⟩ := h.faces f hf p hp
    refine ⟨g row, List.mem_map_of_mem hrow, (hid row).1.trans hrowId, ?_⟩
    rw [(hid row).2]
    exact hevent
  · obtain ⟨before, hbefore, rfl⟩ := List.mem_map.mp hp
    rw [(hid before).2]
    exact hcover before hbefore f hf

/-- A match within its participant's event. -/
def MatchWithin (s : FaceStore) (m : ParticipantMatch) : Prop :=
  ∃ q ∈ s.participants, q.id = m.participantId ∧
    (∃ a ∈ s.assets, a.id = m.assetId ∧ a.eventId = q.eventId) ∧
      ∀ f ∈ m.viaFaceId, s.FaceOf q.eventId f

theorem mem_addMatch {rows : List ParticipantMatch} {inserts : List ParticipantMatch}
    {m : ParticipantMatch} (h : m ∈ inserts.foldl FaceStore.addMatch rows) :
    m ∈ rows ∨ m ∈ inserts := by
  induction inserts generalizing rows with
  | nil => exact .inl h
  | cons first inserts ih =>
    rcases ih h with hm | hm
    · unfold FaceStore.addMatch at hm
      split at hm
      · exact .inl hm
      · rcases List.mem_append.mp hm with hm | hm
        · exact .inl hm
        · exact .inr (List.mem_cons.mpr (.inl (List.mem_singleton.mp hm)))
    · exact .inr (List.mem_cons_of_mem _ hm)

theorem Isolated.addMatches (h : Isolated s) {inserts : List ParticipantMatch}
    (hwithin : ∀ m ∈ inserts, MatchWithin s m) :
    Isolated { s with matchRows := inserts.foldl FaceStore.addMatch s.matchRows } := by
  refine ⟨h.faces, h.covers, fun m hm => ?_⟩
  rcases mem_addMatch hm with hm | hm
  · exact h.matched m hm
  · exact hwithin m hm

theorem find?_map_id {α : Type} {i : α → ℕ} {g : α → α} (hid : ∀ a, i (g a) = i a) (rows : List α)
    (k : ℕ) : (rows.map g).find? (fun a => i a = k) = (rows.find? (fun a => i a = k)).map g := by
  rw [List.find?_map]
  have hsame : (fun a => decide (i a = k)) ∘ g = fun a => decide (i a = k) := by
    funext a
    rw [Function.comp_apply, hid]
  rw [hsame]

theorem eventOf_setFacesDetected (assetId : AssetId) (n : ℕ) (f : AssetFace) :
    (s.setFacesDetected assetId n).eventOf f = s.eventOf f := by
  have hid :
    ∀ a : Asset, (if a.id = assetId then { a with faceCount := some n } else a).id = a.id := by
    intro a
    split <;> rfl
  rw [FaceStore.eventOf, FaceStore.eventOf, FaceStore.asset, FaceStore.setFacesDetected,
    find?_map_id hid, Option.map_map]
  have hevent : Asset.eventId ∘ (fun a : Asset =>
      if a.id = assetId then { a with faceCount := some n } else a) = Asset.eventId := by
    funext a
    rw [Function.comp_apply]
    split <;> rfl
  rw [hevent]
  rfl

theorem Isolated.setFacesDetected (h : Isolated s) (assetId : AssetId) (n : ℕ) :
    Isolated (s.setFacesDetected assetId n) := by
  have hface :
    ∀ eventId f, s.FaceOf eventId f → (s.setFacesDetected assetId n).FaceOf eventId f := by
    rintro eventId _ ⟨row, hrow, rfl, hevent⟩
    exact ⟨row, hrow, rfl, (eventOf_setFacesDetected assetId n row).trans hevent⟩
  refine ⟨fun f hf p hp => ?_, fun p hp f hf => hface _ f (h.covers p hp f hf), fun m hm => ?_⟩
  · obtain ⟨row, hrow, hid, hevent⟩ := h.faces f hf p hp
    exact ⟨row, hrow, hid, (eventOf_setFacesDetected assetId n f).trans hevent⟩
  · obtain ⟨q, hq, hqid, ⟨a, ha, haid, haevent⟩, hvia⟩ := h.matched m hm
    refine ⟨q, hq, hqid, ⟨_, List.mem_map_of_mem ha, ?_, ?_⟩, fun f hf => hface _ f (hvia f hf)⟩
    · split
      · exact haid
      · exact haid
    · split
      · exact haevent
      · exact haevent

theorem Isolated.setMatched (h : Isolated s) (id : ParticipantId) (flag : Bool) :
    Isolated (s.setMatched id flag) := by
  refine ⟨h.faces, h.covers, fun m hm => ?_⟩
  obtain ⟨q, hq, hqid, hasset, hvia⟩ := h.matched m hm
  have hsame : ∀ q : Participant, (if q.id = id then { q with matched := flag } else q).id = q.id ∧
      (if q.id = id then { q with matched := flag } else q).eventId = q.eventId := by
    intro q
    split <;> exact ⟨rfl, rfl⟩
  refine ⟨_, List.mem_map_of_mem hq, (hsame q).1.trans hqid, ?_⟩
  rw [(hsame q).2]
  exact ⟨hasset, hvia⟩

end Updates

/-! What stays true of what was read. -/

section Facts

variable {s s' : FaceStore} {drawn : List FaceId}

/-- Rows keep their ids and events; new faces are of the ids drawn for them. -/
structure Evolves (drawn : List FaceId) (s s' : FaceStore) : Prop where
  events : ∀ a, (s'.asset a).map Asset.eventId = (s.asset a).map Asset.eventId
  assets : ∀ a ∈ s'.assets, ∃ old ∈ s.assets, old.id = a.id ∧ old.eventId = a.eventId
  faces : ∀ f ∈ s'.faces, (∃ old ∈ s.faces, old.id = f.id ∧ old.assetId = f.assetId) ∨ f.id ∈ drawn
  persons : ∀ p ∈ s'.persons,
    (∃ old ∈ s.persons, old.id = p.id ∧ old.eventId = p.eventId) ∨ p.id = s.nextPerson
  participants :
    ∀ q ∈ s'.participants, ∃ old ∈ s.participants, old.id = q.id ∧ old.eventId = q.eventId
  nextFace : s.nextFace ≤ s'.nextFace
  nextPerson : s.nextPerson ≤ s'.nextPerson

/-- What a call knows is true. -/
structure Known.Holds (k : Known) (s : FaceStore) : Prop where
  faces : ∀ f e, (f, e) ∈ k.faces →
    f < s.nextFace ∧ ∀ row ∈ s.faces, row.id = f → s.eventOf row = some e
  persons : ∀ p e, (p, e) ∈ k.persons →
    p < s.nextPerson ∧ ∀ row ∈ s.persons, row.id = p → row.eventId = e
  assets : ∀ a e, (a, e) ∈ k.assets → ∀ row ∈ s.assets, row.id = a → row.eventId = e
  participants :
    ∀ q e, (q, e) ∈ k.participants → ∀ row ∈ s.participants, row.id = q → row.eventId = e

theorem Known.Holds.mono {k : Known} (h : k.Holds s) (hs : Evolves drawn s s')
    (hfree : ∀ f e, (f, e) ∈ k.faces → f ∉ drawn) : k.Holds s' := by
  refine ⟨fun f e hf => ?_, fun p e hp => ?_, fun a e ha row hrow hid => ?_,
    fun q e hq row hrow hid => ?_⟩
  · obtain ⟨hissued, hrows⟩ := h.faces f e hf
    refine ⟨hissued.trans_le hs.nextFace, fun row hrow hid => ?_⟩
    rcases hs.faces row hrow with ⟨old, hold, holdId, hasset⟩ | hdrawn
    · have hevent := hrows old hold (holdId.trans hid)
      rw [FaceStore.eventOf, hasset] at hevent
      exact (hs.events row.assetId).trans hevent
    · rw [hid] at hdrawn
      exact absurd hdrawn (hfree f e hf)
  · obtain ⟨hissued, hrows⟩ := h.persons p e hp
    refine ⟨hissued.trans_le hs.nextPerson, fun row hrow hid => ?_⟩
    rcases hs.persons row hrow with ⟨old, hold, holdId, hevent⟩ | hnew
    · exact hevent.symm.trans (hrows old hold (holdId.trans hid))
    · exact absurd (hnew.symm.trans hid) (Nat.ne_of_gt hissued)
  · obtain ⟨old, hold, holdId, hevent⟩ := hs.assets row hrow
    exact hevent.symm.trans (h.assets a e ha old hold (holdId.trans hid))
  · obtain ⟨old, hold, holdId, hevent⟩ := hs.participants row hrow
    exact hevent.symm.trans (h.participants q e hq old hold (holdId.trans hid))

/-- What a statement does to the tables. -/
structure Moves (drawn : List FaceId) (s s' : FaceStore) : Prop where
  evolves : Evolves drawn s s'
  keyed : Keyed s'
  isolated : Isolated s'

theorem evolves_self (drawn : List FaceId) (s : FaceStore) : Evolves drawn s s where
  events _ := rfl
  assets a ha := ⟨a, ha, rfl, rfl⟩
  faces f hf := .inl ⟨f, hf, rfl, rfl⟩
  persons p hp := .inl ⟨p, hp, rfl, rfl⟩
  participants q hq := ⟨q, hq, rfl, rfl⟩
  nextFace := le_rfl
  nextPerson := le_rfl

/-- Only jobs or the next face id differ. -/
theorem moves_aside (hkeyed : Keyed s) (hisolated : Isolated s) {jobs : List FaceJob}
    {next : FaceId}
    (hnext : s.nextFace ≤ next) : Moves drawn s { s with jobs := jobs, nextFace := next } where
  evolves := { evolves_self drawn s with nextFace := hnext }
  keyed := { hkeyed with nextFace := fun f hf => (hkeyed.nextFace f hf).trans_le hnext }
  isolated := ⟨hisolated.faces, hisolated.covers, hisolated.matched⟩

theorem queueAll_jobs (items : List FaceJob) :
    ∃ jobs, s.queueAll items = { s with jobs := jobs } := by
  induction items generalizing s with
  | nil => exact ⟨s.jobs, rfl⟩
  | cons item items ih =>
    have hfirst : ∃ jobs, s.queueJob item = { s with jobs := jobs } := by
      unfold FaceStore.queueJob
      split
      · split
        · exact ⟨s.jobs, rfl⟩
        · exact ⟨_, rfl⟩
      · exact ⟨_, rfl⟩
    obtain ⟨jobs, hjobs⟩ := hfirst
    obtain ⟨jobs', hjobs'⟩ := ih (s := s.queueJob item)
    refine ⟨jobs', ?_⟩
    rw [FaceStore.queueAll, List.foldl_cons, ← FaceStore.queueAll, hjobs', hjobs]

theorem map_id_map {α : Type} {i : α → ℕ} {g : α → α} (hid : ∀ a, i (g a) = i a) (rows : List α) :
    (rows.map g).map i = rows.map i := by
  rw [List.map_map]
  exact List.map_congr_left fun a _ => hid a

theorem moves_mapFaces (hkeyed : Keyed s) {g : AssetFace → AssetFace}
    (hid : ∀ f, (g f).id = f.id ∧ (g f).assetId = f.assetId)
    (hisolated : Isolated { s with faces := s.faces.map g }) :
    Moves drawn s { s with faces := s.faces.map g } where
  evolves := { evolves_self drawn s with
    faces := fun f hf => by
      obtain ⟨before, hbefore, rfl⟩ := List.mem_map.mp hf
      exact .inl ⟨before, hbefore, (hid before).1.symm, (hid before).2.symm⟩ }
  keyed := { hkeyed with
    faces := (map_id_map (fun f => (hid f).1) s.faces).symm ▸ hkeyed.faces
    nextFace := fun f hf => by
      obtain ⟨before, hbefore, rfl⟩ := List.mem_map.mp hf
      rw [(hid before).1]
      exact hkeyed.nextFace before hbefore }
  isolated := hisolated

theorem moves_deletePersons (hkeyed : Keyed s) (hisolated : Isolated s) (ids : List PersonId) :
    Moves drawn s (s.deletePersons ids) where
  evolves := { evolves_self drawn s with
    faces := fun f hf => by
      obtain ⟨before, hbefore, rfl⟩ := List.mem_map.mp hf
      exact .inl ⟨before, hbefore, rfl, rfl⟩
    persons := fun p hp => .inl ⟨p, (List.mem_filter.mp hp).1, rfl, rfl⟩ }
  keyed := { hkeyed with
    faces := by
      have hids := map_id_map (i := AssetFace.id)
        (g := fun f => { f with personId := f.personId.filter (fun p => p ∉ ids) })
        (fun _ => rfl) s.faces
      exact hids.symm ▸ hkeyed.faces
    nextFace := fun f hf => by
      obtain ⟨before, hbefore, rfl⟩ := List.mem_map.mp hf
      exact hkeyed.nextFace before hbefore
    persons := hkeyed.persons.sublist (List.filter_sublist.map _)
    nextPerson := fun p hp => hkeyed.nextPerson p (List.mem_filter.mp hp).1 }
  isolated := hisolated.deletePersons ids

theorem mem_of_find?_id {α : Type} {id : α → ℕ} {rows : List α} {k : ℕ} {a : α}
    (h : rows.find? (fun a => id a = k) = some a) : a ∈ rows ∧ id a = k :=
  ⟨List.mem_of_find?_eq_some h, by simpa using List.find?_some h⟩

theorem FaceStore.asset_mem {id : AssetId} {a : Asset} (h : s.asset id = some a) :
    a ∈ s.assets ∧ a.id = id := mem_of_find?_id h

theorem FaceStore.face_mem {id : FaceId} {f : AssetFace} (h : s.face id = some f) :
    f ∈ s.faces ∧ f.id = id := mem_of_find?_id h

theorem FaceStore.person_mem {id : PersonId} {p : Person} (h : s.person id = some p) :
    p ∈ s.persons ∧ p.id = id := mem_of_find?_id h

/-- Rows of one id are one row. -/
theorem eq_of_id {α : Type} {id : α → ℕ} {rows : List α} (h : (rows.map id).Nodup) {a b : α}
    (ha : a ∈ rows) (hb : b ∈ rows) (hid : id a = id b) : a = b :=
  List.inj_on_of_nodup_map h ha hb hid

/-- The face and the asset of a search result, and the person it names. -/
theorem candidate_eq_some {distance : Embedding → Embedding → ℚ} {options : FaceSearchOptions}
    {f : AssetFace} {hit : FaceSearchResult}
    (h : s.candidate distance options f = some hit) :
    ∃ a embedding, s.asset f.assetId = some a ∧ s.embedding f.id = some embedding ∧
      (a.eventId = options.eventId ∧ a.deleted = false ∧ f.deleted = false ∧
        (options.hasPerson = true → f.personId ≠ none)) ∧
      hit = ⟨f.id, f.personId, f.assetId, distance embedding options.embedding⟩ := by
  unfold FaceStore.candidate at h
  obtain ⟨a, ha, h⟩ := Option.bind_eq_some_iff.mp h
  obtain ⟨embedding, hembedding, h⟩ := Option.bind_eq_some_iff.mp h
  split at h
  · rename_i hok
    cases h
    exact ⟨a, embedding, ha, hembedding, hok, rfl⟩
  · cases h

theorem FaceStore.getPerson_mem {eventId : EventId} {id : PersonId} {p : Person}
    (h : s.getPerson eventId id = some p) : p ∈ s.persons ∧ p.id = id ∧ p.eventId = eventId := by
  obtain ⟨hperson, hevent⟩ := Option.filter_eq_some_iff.mp h
  obtain ⟨hmem, hid⟩ := person_mem hperson
  exact ⟨hmem, hid, of_decide_eq_true hevent⟩

/-- Persons change, but for their ids and events. -/
theorem moves_mapPersons (hkeyed : Keyed s) {g : Person → Person}
    (hid : ∀ p, (g p).id = p.id ∧ (g p).eventId = p.eventId)
    (hisolated : Isolated { s with persons := s.persons.map g }) :
    Moves drawn s { s with persons := s.persons.map g } where
  evolves := { evolves_self drawn s with
    persons := fun p hp => by
      obtain ⟨before, hbefore, rfl⟩ := List.mem_map.mp hp
      exact .inl ⟨before, hbefore, (hid before).1.symm, (hid before).2.symm⟩ }
  keyed := { hkeyed with
    persons := (map_id_map (fun p => (hid p).1) s.persons).symm ▸ hkeyed.persons
    nextPerson := fun p hp => by
      obtain ⟨before, hbefore, rfl⟩ := List.mem_map.mp hp
      rw [(hid before).1]
      exact hkeyed.nextPerson before hbefore }
  isolated := hisolated

theorem moves_createPerson (hkeyed : Keyed s) (hisolated : Isolated s) {p : Person}
    (hid : p.id = s.nextPerson) (hcover : ∀ f ∈ p.faceAssetFaceId, s.FaceOf p.eventId f) :
    Moves drawn s { s with persons := s.persons ++ [p], nextPerson := s.nextPerson + 1 } where
  evolves := { evolves_self drawn s with
    persons := fun q hq => by
      rcases List.mem_append.mp hq with hq | hq
      · exact .inl ⟨q, hq, rfl, rfl⟩
      · rw [List.mem_singleton.mp hq]
        exact .inr hid
    nextPerson := Nat.le_succ _ }
  keyed := { hkeyed with
    persons := by
      rw [List.map_append, List.nodup_append]
      refine ⟨hkeyed.persons, List.nodup_singleton _, fun i hi j hj => ?_⟩
      obtain ⟨q, hq, rfl⟩ := List.mem_map.mp hi
      rw [List.mem_singleton.mp hj, hid]
      exact Nat.ne_of_lt (hkeyed.nextPerson q hq)
    nextPerson := fun q hq => by
      rcases List.mem_append.mp hq with hq | hq
      · exact Nat.lt_succ_of_lt (hkeyed.nextPerson q hq)
      · rw [List.mem_singleton.mp hq, hid]
        exact Nat.lt_succ_self _ }
  isolated := hisolated.addPerson hcover

/-- Faces are given a person of their event. -/
theorem moves_reassign (hkeyed : Keyed s) (hisolated : Isolated s) {ids : AssetFace → Bool}
    {personId : PersonId} (h : s.reassign ids personId = some s')
    (hevent : ∀ f ∈ s.faces, ids f = true → ∀ p ∈ s.persons, p.id = personId →
      s.eventOf f = some p.eventId) : Moves drawn s s' := by
  unfold FaceStore.reassign at h
  split at h
  · cases h
  · rename_i hfound
    cases h
    have hsame :
      ∀ f : AssetFace, (if ids f then { f with personId := some personId } else f).id = f.id ∧
        (if ids f then { f with personId := some personId } else f).assetId = f.assetId := by
      intro f
      split <;> exact ⟨rfl, rfl⟩
    refine moves_mapFaces hkeyed hsame (hisolated.mapFaces hsame fun f hf p hp => ?_)
    by_cases hpicked : ids f = true
    · rw [if_pos hpicked] at hp
      cases hp
      cases hperson : s.person personId with
      | none => exact absurd ⟨List.any_eq_true.mpr ⟨f, hf, hpicked⟩, hperson⟩ hfound
      | some row =>
        obtain ⟨hrow, hid⟩ := FaceStore.person_mem hperson
        exact ⟨row, hrow, hid, hevent f hf hpicked row hrow hid⟩
    · rw [if_neg hpicked] at hp
      exact hisolated.faces f hf p hp

theorem moves_unassign (hkeyed : Keyed s) (hisolated : Isolated s) (eventId : EventId) :
    Moves drawn s (s.unassignByEvent eventId) := by
  have hsame : ∀ f : AssetFace,
      (if f.sourceType = .machineLearning ∧
          (s.asset f.assetId).any (fun a => a.eventId = eventId ∧ a.deleted = false) then
        { f with personId := none } else f).id = f.id ∧
      (if f.sourceType = .machineLearning ∧
          (s.asset f.assetId).any (fun a => a.eventId = eventId ∧ a.deleted = false) then
        { f with personId := none } else f).assetId = f.assetId := by
    intro f
    split <;> exact ⟨rfl, rfl⟩
  refine moves_mapFaces hkeyed hsame (hisolated.mapFaces hsame fun f hf p hp => ?_)
  split at hp
  · cases hp
  · exact hisolated.faces f hf p hp

/-- Faces of ids drawn for them come in, and stored ones go. -/
theorem moves_refreshFaces (hkeyed : Keyed s) (hisolated : Isolated s)
    {facesToAdd : List AssetFace} {faceIdsToRemove : List FaceId}
    {embeddingsToAdd : List FaceSearch}
    (hadded : ∀ f ∈ facesToAdd, f.personId = none ∧ f.id ∈ drawn)
    (hdrawn : ∀ f ∈ drawn, f < s.nextFace)
    (h : s.refreshFaces facesToAdd faceIdsToRemove embeddingsToAdd = some s') :
    Moves drawn s s' := by
  unfold FaceStore.refreshFaces at h
  split at h
  · rename_i hok
    cases h
    obtain ⟨hrefs, hnodup, -, -⟩ := hok
    have hkept : ∀ f ∈ (s.removeFaces faceIdsToRemove).faces, f ∈ s.faces := fun f hf =>
      (List.mem_filter.mp hf).1
    refine ⟨?_, ?_, (hisolated.removeFaces faceIdsToRemove).addFaces fun f hf => (hadded f hf).1⟩
    · refine { evolves_self drawn s with faces := fun f hf => ?_, persons := fun p hp => ?_ }
      · rcases List.mem_append.mp hf with hf | hf
        · exact .inl ⟨f, hkept f hf, rfl, rfl⟩
        · exact .inr (hadded f hf).2
      · obtain ⟨before, hbefore, rfl⟩ := List.mem_map.mp hp
        exact .inl ⟨before, hbefore, rfl, rfl⟩
    · refine { hkeyed with
        faces := ?_, persons := ?_, nextFace := fun f hf => ?_, nextPerson := fun p hp => ?_ }
      · rw [List.map_append, List.nodup_append]
        refine ⟨hkeyed.faces.sublist (List.filter_sublist.map _), hnodup, fun i hi j hj hij => ?_⟩
        obtain ⟨f, hf, rfl⟩ := List.mem_map.mp hi
        obtain ⟨g, hg, rfl⟩ := List.mem_map.mp hj
        have hfresh := (of_decide_eq_true (List.all_eq_true.mp hrefs g hg)).2
        exact List.find?_eq_none.mp hfresh f (hkept f hf) (decide_eq_true hij)
      · have hids := map_id_map (i := Person.id)
          (g := fun p => { p with faceAssetFaceId :=
            p.faceAssetFaceId.filter (fun f => f ∉ faceIdsToRemove) })
          (fun _ => rfl) s.persons
        exact hids.symm ▸ hkeyed.persons
      · rcases List.mem_append.mp hf with hf | hf
        · exact hkeyed.nextFace f (hkept f hf)
        · exact hdrawn _ (hadded f hf).2
      · obtain ⟨before, hbefore, rfl⟩ := List.mem_map.mp hp
        exact hkeyed.nextPerson before hbefore
  · cases h

theorem moves_setFacesDetected (hkeyed : Keyed s) (hisolated : Isolated s) (assetId : AssetId)
    (n : ℕ) :
    Moves drawn s (s.setFacesDetected assetId n) := by
  have hsame :
    ∀ a : Asset, (if a.id = assetId then { a with faceCount := some n } else a).id = a.id ∧
      (if a.id = assetId then { a with faceCount := some n } else a).eventId = a.eventId := by
    intro a
    split <;> exact ⟨rfl, rfl⟩
  refine ⟨?_, ?_, hisolated.setFacesDetected assetId n⟩
  · refine { evolves_self drawn s with events := fun a => ?_, assets := fun a ha => ?_ }
    · rw [FaceStore.asset, FaceStore.setFacesDetected, find?_map_id fun a => (hsame a).1,
        Option.map_map]
      exact congrArg (fun g => Option.map g (s.asset a)) (funext fun a => (hsame a).2)
    · obtain ⟨before, hbefore, rfl⟩ := List.mem_map.mp ha
      exact ⟨before, hbefore, (hsame before).1.symm, (hsame before).2.symm⟩
  · exact { hkeyed with assets :=
      (map_id_map (fun a => (hsame a).1) s.assets).symm ▸ hkeyed.assets }

theorem moves_insertMatches (hkeyed : Keyed s) (hisolated : Isolated s)
    {inserts : List ParticipantMatch} (hwithin : ∀ m ∈ inserts, MatchWithin s m) :
    Moves drawn s { s with matchRows := inserts.foldl FaceStore.addMatch s.matchRows } where
  evolves := { evolves_self drawn s with }
  keyed := { hkeyed with }
  isolated := hisolated.addMatches hwithin

theorem moves_setMatched (hkeyed : Keyed s) (hisolated : Isolated s) (id : ParticipantId)
    (flag : Bool) :
    Moves drawn s (s.setMatched id flag) := by
  have hsame : ∀ q : Participant, (if q.id = id then { q with matched := flag } else q).id = q.id ∧
      (if q.id = id then { q with matched := flag } else q).eventId = q.eventId := by
    intro q
    split <;> exact ⟨rfl, rfl⟩
  refine ⟨?_, ?_, hisolated.setMatched id flag⟩
  · refine { evolves_self drawn s with participants := fun q hq => ?_ }
    obtain ⟨before, hbefore, rfl⟩ := List.mem_map.mp hq
    exact ⟨before, hbefore, (hsame before).1.symm, (hsame before).2.symm⟩
  · exact { hkeyed with
      participants :=
        (map_id_map (fun q => (hsame q).1) s.participants).symm ▸ hkeyed.participants }

end Facts

end EventLens.Faces

import Mathlib.Data.Int.Notation
import Mathlib.Data.List.Basic
import Mathlib.Tactic.Common

/-!
Folding persons into one. Ids arrive as text and are compared as text; the
database reads them as uuids, and one uuid has several spellings. How it reads
a text is a parameter. A call fails by throwing and keeps what it has written.
-/

namespace EventLens.People

abbrev Uuid := ℕ

inductive NameSource
  | organiser | participant
deriving DecidableEq, Repr

structure Person where
  id : Uuid
  eventId : Uuid
  name : String := ""
  nameSetAt : Option ℤ := none
  nameSource : Option NameSource := none
  isHidden : Bool := false
  faceAssetFaceId : Option Uuid := none
  thumbnailKey : String := ""
deriving DecidableEq, Repr

structure AssetFace where
  id : Uuid
  assetId : Uuid
  personId : Option Uuid := none
  deleted : Bool := false
deriving DecidableEq, Repr

inductive PersonJob
  | cleanupKeys (keys : List String)
  | personThumbnail (personId : String)
deriving DecidableEq, Repr

structure PeopleStore where
  persons : List Person := []
  faces : List AssetFace := []
  jobs : List PersonJob := []
deriving DecidableEq, Repr

inductive MergeError
  | notFound (message : String)
  | badRequest (message : String)
deriving DecidableEq, Repr

structure MergeResult where
  id : String
  mergedCount : ℕ
  facesMoved : ℕ
deriving DecidableEq, Repr

abbrev PeopleM (α : Type) : Type := ExceptT MergeError (StateM PeopleStore) α

/-- The outcome of a call and the tables it leaves. -/
def PeopleM.outcome {α : Type} (p : PeopleM α) (s : PeopleStore) :
    Except MergeError α × PeopleStore := p.run.run s

def tables : PeopleM PeopleStore := get

def write (f : PeopleStore → PeopleStore) : PeopleM Unit := modify f

section Outcome

variable {α β : Type} {s s' : PeopleStore}

@[simp] theorem outcome_pure (a : α) : (pure a : PeopleM α).outcome s = (.ok a, s) := rfl

@[simp] theorem outcome_throw (e : MergeError) :
    (throw e : PeopleM α).outcome s = (.error e, s) := rfl

@[simp] theorem outcome_tables : tables.outcome s = (.ok s, s) := rfl

@[simp] theorem outcome_write (f : PeopleStore → PeopleStore) :
    (write f).outcome s = (.ok (), f s) := rfl

theorem outcome_bind {p : PeopleM α} {f : α → PeopleM β} {a : α} (h : p.outcome s = (.ok a, s')) :
    (p >>= f).outcome s = (f a).outcome s' := by
  change (p.run.run s) = _ at h
  change ((p.run >>= ExceptT.bindCont f).run s) = _
  rw [StateT.run_bind, h]
  rfl

theorem outcome_bind_error {p : PeopleM α} {f : α → PeopleM β} {e : MergeError}
    (h : p.outcome s = (.error e, s')) : (p >>= f).outcome s = (.error e, s') := by
  change (p.run.run s) = _ at h
  change ((p.run >>= ExceptT.bindCont f).run s) = _
  rw [StateT.run_bind, h]
  rfl

theorem outcome_read {f : PeopleStore → PeopleM β} : (tables >>= f).outcome s = (f s).outcome s :=
    outcome_bind rfl

end Outcome

section Merge

variable (parse : String → Option Uuid)

/-- A uuid is in a list of texts, as the database reads them. -/
def Listed (ids : List String) (p : Uuid) : Prop := ∃ id ∈ ids, parse id = some p

instance (ids : List String) (p : Uuid) : Decidable (Listed parse ids p) := by
  unfold Listed
  infer_instance

def PeopleStore.getById (s : PeopleStore) (eventId personId : String) : Option Person :=
  s.persons.find? (fun p => parse personId = some p.id ∧ parse eventId = some p.eventId)

/-- Faces that are given up, too. -/
def facesOfPeople (s : PeopleStore) (ids : List String) : List AssetFace :=
  s.faces.filter (fun f => f.personId.any (fun p => Listed parse ids p))

def reassignFacesOfPeople (targetId : String) (sourceIds : List String) : PeopleM ℕ :=
  if sourceIds = [] then pure 0
  else do
    let s ← tables
    write fun s => { s with
      faces := s.faces.map (fun f =>
        if f.personId.any (fun p => Listed parse sourceIds p)
          then { f with personId := parse targetId } else f) }
    pure (facesOfPeople parse s sourceIds).length

/-- The faces of a person that goes lose it. -/
def deletePersons (ids : List String) : PeopleM Unit :=
  if ids = [] then pure ()
  else write fun s => { s with
      persons := s.persons.filter (fun p => ¬ Listed parse ids p.id)
      faces := s.faces.map (fun f =>
        { f with personId := f.personId.filter (fun p => ¬ Listed parse ids p) }) }

def queue (job : PersonJob) : PeopleM Unit := write fun s => { s with jobs := s.jobs ++ [job] }

/-- Every source must belong to this event. -/
def findSources (eventId : String) : List String → List Person → PeopleM (List Person)
  | [], sources => pure sources
  | id :: ids, sources => do
    match (← tables).getById parse eventId id with
    | none => throw (.notFound s!"Person {id} not found in this event")
    | some source => findSources eventId ids (sources ++ [source])

/-- Each text once, and not the target's. -/
def sourceIdsOf (personId : String) (ids : List String) : List String :=
  ids.eraseDups.filter (fun id => id ≠ personId)

def merge (eventId personId : String) (ids : List String) : PeopleM MergeResult := do
  match (← tables).getById parse eventId personId with
  | none => throw (.notFound "Person not found")
  | some target =>
    let sourceIds := sourceIdsOf personId ids
    if sourceIds = [] then throw (.badRequest "Nothing to merge")
    else do
      let sources ← findSources parse eventId sourceIds []
      let moved ← reassignFacesOfPeople parse personId sourceIds
      deletePersons parse sourceIds
      let keys := (sources.map Person.thumbnailKey).filter (fun key => key ≠ "")
      if keys ≠ [] then queue (.cleanupKeys keys)
      if target.faceAssetFaceId = none ∨ target.thumbnailKey = "" then
        queue (.personThumbnail personId)
      pure { id := personId, mergedCount := sourceIds.length, facesMoved := moved }

/-! What a merge is for. -/

/-- A person the list names beside the target. -/
def IsSource (personId : String) (ids : List String) (p : Uuid) : Prop :=
  parse personId ≠ some p ∧ Listed parse ids p

instance (personId : String) (ids : List String) (p : Uuid) :
    Decidable (IsSource parse personId ids p) := by
  unfold IsSource
  infer_instance

/-- The faces recorded for a person. -/
def PeopleStore.facesOf (s : PeopleStore) (p : Uuid) : List Uuid :=
  (s.faces.filter (fun f => f.personId = some p)).map AssetFace.id

/-- The faces of the sources move to the target, the sources go, and nothing else changes. -/
structure Conserved (personId : String) (ids : List String) (moved : ℕ) (s s' : PeopleStore) :
    Prop where
  union : ∀ t, parse personId = some t → ∀ face,
    face ∈ s'.facesOf t ↔ face ∈ s.facesOf t ∨ ∃ p, IsSource parse personId ids p ∧
      face ∈ s.facesOf p
  faces : s'.faces = s.faces.map (fun f =>
    if f.personId.any (fun p => IsSource parse personId ids p)
      then { f with personId := parse personId } else f)
  persons : s'.persons = s.persons.filter (fun p => ¬ IsSource parse personId ids p.id)
  moved : moved =
    (s.faces.filter (fun f => f.personId.any (fun p => IsSource parse personId ids p))).length

/-- A merge conserves when it succeeds, and changes nothing when it is refused. -/
def MergeSound (personId : String) (ids : List String) (s : PeopleStore) :
    Except MergeError MergeResult × PeopleStore → Prop
  | (.ok result, s') => Conserved parse personId ids result.facesMoved s s'
  | (.error _, s') => s' = s

/-- The target is there, something is left to merge, and every source is of the event. -/
def Mergeable (eventId personId : String) (ids : List String) (s : PeopleStore) : Prop :=
  (s.getById parse eventId personId).isSome = true ∧ sourceIdsOf personId ids ≠ [] ∧
    ∀ id ∈ sourceIdsOf personId ids, (s.getById parse eventId id).isSome = true

/-- The target appears in the list only in the spelling it is addressed by. -/
def OneSpelling (personId : String) (ids : List String) : Prop :=
  ∀ id ∈ ids, parse id = parse personId → id = personId

/-! The run of a merge. -/

section Runs

variable {parse} {s : PeopleStore} {eventId personId : String}

theorem findSources_found {ids : List String} (acc : List Person)
    (found : ∀ id ∈ ids, (s.getById parse eventId id).isSome = true) :
    ∃ sources, (findSources parse eventId ids acc).outcome s = (.ok sources, s) := by
  induction ids generalizing acc with
  | nil => exact ⟨acc, rfl⟩
  | cons id ids ih =>
    obtain ⟨source, hsource⟩ := Option.isSome_iff_exists.mp (found id (by simp))
    obtain ⟨sources, hrest⟩ := ih (acc ++ [source]) (fun id' hid => found id' (by simp [hid]))
    refine ⟨sources, ?_⟩
    rw [findSources, outcome_read, hsource]
    exact hrest

theorem findSources_unknown {ids : List String} (acc : List Person)
    (unknown : ∃ id ∈ ids, s.getById parse eventId id = none) :
    ∃ error, (findSources parse eventId ids acc).outcome s = (.error error, s) := by
  induction ids generalizing acc with
  | nil => simp at unknown
  | cons id ids ih =>
    rw [findSources, outcome_read]
    cases hsource : s.getById parse eventId id with
    | none => exact ⟨_, rfl⟩
    | some source =>
      have hrest : ∃ id ∈ ids, s.getById parse eventId id = none := by
        obtain ⟨other, hmem, hnone⟩ := unknown
        rcases List.mem_cons.mp hmem with rfl | hmem
        · simp [hsource] at hnone
        · exact ⟨other, hmem, hnone⟩
      exact ih (acc ++ [source]) hrest

/-- Every refusal comes before the first write. -/
theorem merge_refused {ids : List String} (h : ¬ Mergeable parse eventId personId ids s) :
    ∃ error, (merge parse eventId personId ids).outcome s = (.error error, s) := by
  rw [merge, outcome_read]
  cases htarget : s.getById parse eventId personId with
  | none => exact ⟨_, rfl⟩
  | some target =>
    by_cases hempty : sourceIdsOf personId ids = []
    · simp [hempty]
    · have hunknown : ∃ id ∈ sourceIdsOf personId ids, s.getById parse eventId id = none := by
        by_contra hall
        refine h ⟨by simp [htarget], hempty, fun id hid => ?_⟩
        by_contra hnone
        exact hall ⟨id, hid, by simpa using hnone⟩
      obtain ⟨error, herror⟩ := findSources_unknown [] hunknown
      refine ⟨error, ?_⟩
      simp only [hempty, ↓reduceIte]
      exact outcome_bind_error herror

theorem reassignFacesOfPeople_run {ids : List String} (h : ids ≠ []) :
    (reassignFacesOfPeople parse personId ids).outcome s =
      (.ok (facesOfPeople parse s ids).length,
        { s with
          faces := s.faces.map (fun f =>
            if f.personId.any (fun p => Listed parse ids p)
              then { f with personId := parse personId } else f) }) := by
  rw [reassignFacesOfPeople, if_neg h]
  rfl

theorem deletePersons_run {ids : List String} (h : ids ≠ []) :
    (deletePersons parse ids).outcome s =
      (.ok (),
        { s with
          persons := s.persons.filter (fun p => ¬ Listed parse ids p.id)
          faces := s.faces.map (fun f =>
            { f with personId := f.personId.filter (fun p => ¬ Listed parse ids p) }) }) := by
  rw [deletePersons, if_neg h]
  rfl

theorem queue_run {job : PersonJob} :
    (queue job).outcome s = (.ok (), { s with jobs := s.jobs ++ [job] }) := rfl

/-- What a merge that is not refused writes. -/
theorem merge_run {ids : List String} (h : Mergeable parse eventId personId ids s) :
    ∃ jobs, (merge parse eventId personId ids).outcome s =
      (.ok { id := personId
             mergedCount := (sourceIdsOf personId ids).length
             facesMoved := (facesOfPeople parse s (sourceIdsOf personId ids)).length },
        { persons := s.persons.filter (fun p => ¬ Listed parse (sourceIdsOf personId ids) p.id)
          faces := (s.faces.map (fun f =>
            if f.personId.any (fun p => Listed parse (sourceIdsOf personId ids) p) then
              { f with personId := parse personId }
            else f)).map (fun f =>
              { f with personId := f.personId.filter (fun p => ¬ Listed parse
                (sourceIdsOf personId ids) p) })
          jobs := jobs }) := by
  obtain ⟨hsome, hleft, hfound⟩ := h
  obtain ⟨target, htarget⟩ := Option.isSome_iff_exists.mp hsome
  obtain ⟨sources, hsources⟩ := findSources_found [] hfound
  rw [merge, outcome_read, htarget]
  simp only [hleft, ↓reduceIte]
  rw [outcome_bind hsources]
  rw [outcome_bind (reassignFacesOfPeople_run hleft), outcome_bind (deletePersons_run hleft)]
  split
  · rw [outcome_bind queue_run]
    split
    · rw [outcome_bind queue_run]
      exact ⟨_, rfl⟩
    · exact ⟨_, rfl⟩
  · split
    · rw [outcome_bind queue_run]
      exact ⟨_, rfl⟩
    · exact ⟨_, rfl⟩

/-! The sources as texts and as persons. -/

theorem mem_sourceIdsOf {ids : List String} {id : String} :
    id ∈ sourceIdsOf personId ids ↔ id ∈ ids ∧ id ≠ personId := by
  simp [sourceIdsOf, List.mem_eraseDups]

theorem listed_iff {ids : List String} (h : OneSpelling parse personId ids) (p : Uuid) :
    Listed parse (sourceIdsOf personId ids) p ↔ IsSource parse personId ids p := by
  constructor
  · rintro ⟨id, hid, hp⟩
    obtain ⟨hmem, hne⟩ := mem_sourceIdsOf.mp hid
    exact ⟨fun htarget => hne (h id hmem (hp.trans htarget.symm)), id, hmem, hp⟩
  · rintro ⟨htarget, id, hmem, hp⟩
    refine ⟨id, mem_sourceIdsOf.mpr ⟨hmem, fun heq => htarget ?_⟩, hp⟩
    rw [← heq]
    exact hp

theorem not_isSource_target {ids : List String} {t : Uuid} (ht : parse personId = some t) :
    ¬ IsSource parse personId ids t := fun h => h.1 ht

/-- Reassigned faces are not unassigned again when the target is no source. -/
theorem faces_moved {ids : List String} (h : OneSpelling parse personId ids) (f : AssetFace) :
    (fun f : AssetFace => { f with
        personId := f.personId.filter (fun p => ¬ Listed parse (sourceIdsOf personId ids) p) })
      (if f.personId.any (fun p => Listed parse (sourceIdsOf personId ids) p) then
        { f with personId := parse personId } else f) =
      if f.personId.any (fun p => IsSource parse personId ids p)
        then { f with personId := parse personId } else f := by
  obtain ⟨id, assetId, owner, deleted⟩ := f
  simp only [listed_iff h]
  cases owner with
  | none => simp
  | some p =>
    by_cases hp : IsSource parse personId ids p
    · cases ht : parse personId with
      | none => simp [hp]
      | some t =>
        have hkept : ¬ IsSource parse personId ids t := not_isSource_target ht
        simp [hp, Option.filter, hkept]
    · simp [hp, Option.filter]

theorem mem_facesOf {face p : Uuid} :
    face ∈ s.facesOf p ↔ ∃ f ∈ s.faces, f.personId = some p ∧ f.id = face := by
  simp [PeopleStore.facesOf, and_assoc]

theorem conserved_union {ids : List String} {s' : PeopleStore}
    (hfaces : s'.faces = s.faces.map (fun f =>
      if f.personId.any (fun p => IsSource parse personId ids p)
        then { f with personId := parse personId } else f))
    {t : Uuid} (ht : parse personId = some t) (face : Uuid) :
    face ∈ s'.facesOf t ↔ face ∈ s.facesOf t ∨ ∃ p, IsSource parse personId ids p ∧
    face ∈ s.facesOf p := by
  simp only [mem_facesOf, hfaces, List.mem_map]
  constructor
  · rintro ⟨f', ⟨f, hf, rfl⟩, howner, hid⟩
    cases hold : f.personId with
    | none => simp [hold] at howner
    | some p =>
      by_cases hsource : IsSource parse personId ids p
      · exact Or.inr ⟨p, hsource, f, hf, hold, by simpa [hold, hsource] using hid⟩
      · refine Or.inl ⟨f, hf, ?_, by simpa [hold, hsource] using hid⟩
        simpa [hold, hsource] using howner
  · rintro (⟨f, hf, howner, hid⟩ | ⟨p, hsource, f, hf, howner, hid⟩)
    · refine ⟨_, ⟨f, hf, rfl⟩, ?_, ?_⟩
      · have hstays : ¬ IsSource parse personId ids t := not_isSource_target ht
        simp [howner, hstays]
      · have hstays : ¬ IsSource parse personId ids t := not_isSource_target ht
        simp [howner, hstays, hid]
    · exact ⟨_, ⟨f, hf, rfl⟩, by simp [howner, hsource, ht], by simp [howner, hsource, hid]⟩

end Runs

/-- A merge conserves, or is refused and changes nothing, exactly when it is refused or
addresses its target in one spelling. -/
theorem merge_sound_iff (eventId personId : String) (ids : List String) (s : PeopleStore) :
    MergeSound parse personId ids s ((merge parse eventId personId ids).outcome s) ↔
      (Mergeable parse eventId personId ids s → OneSpelling parse personId ids) := by
  by_cases hmerge : Mergeable parse eventId personId ids s
  · obtain ⟨jobs, hrun⟩ := merge_run hmerge
    rw [hrun]
    constructor
    · intro hsound _ id hid hsame
      by_contra hne
      obtain ⟨target, htarget⟩ := Option.isSome_iff_exists.mp hmerge.1
      have hthere : target ∈ s.persons := List.mem_of_find?_eq_some htarget
      have hparse : parse personId = some target.id := by
        have hfound := List.find?_some htarget
        simp only [decide_eq_true_eq] at hfound
        exact hfound.1
      have hlisted : Listed parse (sourceIdsOf personId ids) target.id :=
        ⟨id, mem_sourceIdsOf.mpr ⟨hid, hne⟩, hsame.trans hparse⟩
      have hkept : target ∈ s.persons.filter (fun p => ¬ IsSource parse personId ids p.id) := by
        simpa using ⟨hthere, not_isSource_target hparse⟩
      rw [← hsound.persons] at hkept
      simp [hlisted] at hkept
    · intro hspelled
      have hlisted := listed_iff (hspelled hmerge)
      have hfaces : (s.faces.map (fun f =>
          if f.personId.any (fun p => Listed parse (sourceIdsOf personId ids) p) then
            { f with personId := parse personId }
          else f)).map (fun f =>
            { f with personId := f.personId.filter (fun p => ¬ Listed parse
              (sourceIdsOf personId ids) p) }) =
          s.faces.map (fun f => if f.personId.any (fun p => IsSource parse personId ids p) then
            { f with personId := parse personId } else f) := by
        rw [List.map_map]
        exact List.map_congr_left fun f _ => faces_moved (hspelled hmerge) f
      refine ⟨fun t ht face => conserved_union hfaces ht face, hfaces, ?_, ?_⟩
      · simp only [hlisted]
      · simp only [facesOfPeople, hlisted]
  · obtain ⟨error, hrun⟩ := merge_refused hmerge
    rw [hrun]
    exact ⟨fun _ h => absurd h hmerge, fun _ => rfl⟩

end Merge

/-! A target that is listed in capitals. -/

/-- The uuids of an event and of a person, the latter in both cases. -/
def readUuid (text : String) : Option Uuid :=
  if text = "7c9e6679-7425-40de-944b-e07fc1f90ae7" then some 0
  else if text = "3f2504e0-4f89-41d3-9a0c-0305e82c3301" ∨
    text = "3F2504E0-4F89-41D3-9A0C-0305E82C3301" then some 1
  else none

/-- One person with one face. -/
def onePerson : PeopleStore where
  persons := [{ id := 1, eventId := 0, name := "Ada", nameSource := some .organiser }]
  faces := [{ id := 5, assetId := 9, personId := some 1 }]

/-- The person is deleted, and the face has nobody. -/
theorem merge_unsound : ¬ MergeSound readUuid "3f2504e0-4f89-41d3-9a0c-0305e82c3301"
    ["3F2504E0-4F89-41D3-9A0C-0305E82C3301"] onePerson
    ((merge readUuid "7c9e6679-7425-40de-944b-e07fc1f90ae7" "3f2504e0-4f89-41d3-9a0c-0305e82c3301"
      ["3F2504E0-4F89-41D3-9A0C-0305E82C3301"]).outcome onePerson) := by
  intro h
  have hgone := h.persons
  revert hgone
  decide

end EventLens.People

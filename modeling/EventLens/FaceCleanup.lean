import EventLens.FaceIsolation

/-!
Recognition beside cleanup and merging. A person is founded before its face is
assigned, and cleanup and merging first say which persons go and delete them
later, so a face assigned in between loses its person again. Where nothing is
given in between to a person that is to go, every assigned face keeps one of
its event.
-/

namespace EventLens.Faces

open Programs Contract

/-- The calls that found, merge and remove persons. -/
def FaceCall.clusters : FaceCall → Bool
  | .recognizeFaces _ _ => true
  | .personCleanup => true
  | .merge _ _ _ => true
  | _ => false

def seenIn : FaceEvent → List FaceId
  | ⟨.getForRecognition faceId, .ok (some _)⟩ => [faceId]
  | _ => []

def assignedIn : FaceEvent → List FaceId
  | ⟨.reassignFaces faceIds _, .ok _⟩ => faceIds
  | _ => []

/-- The faces a call has given a person. -/
def assignedBy (t : FaceThread) : List FaceId := t.past.flatMap assignedIn

/-- What a call that returned has answered. -/
def returned (t : FaceThread) : Option FaceOutcome :=
  match t.rest with
  | .done value => some value
  | .perform _ _ => none

def Finished (p : FacePool) : Prop := ∀ t ∈ p.threads, returned t ≠ none

instance (p : FacePool) : Decidable (Finished p) := by
  unfold Finished
  infer_instance

/-- A face has a person, and that person is of the face's event. -/
def FaceStore.HasPerson (s : FaceStore) (f : FaceId) : Prop :=
  ∃ row ∈ s.faces, row.id = f ∧ ∃ person ∈ s.persons, row.personId = some person.id ∧
    s.eventOf row = some person.eventId

theorem mem_seenIn {e : FaceEvent} {f : FaceId} (h : f ∈ seenIn e) :
    ∃ face, e = ⟨.getForRecognition f, .ok (some face)⟩ := by
  unfold seenIn at h
  split at h
  · rename_i faceId face
    rw [List.mem_singleton.mp h]
    exact ⟨face, rfl⟩
  · exact absurd h List.not_mem_nil

theorem mem_assignedIn {e : FaceEvent} {f : FaceId} (h : f ∈ assignedIn e) :
    ∃ faceIds personId r, e = ⟨.reassignFaces faceIds personId, .ok r⟩ ∧ f ∈ faceIds := by
  unfold assignedIn at h
  split at h
  · rename_i faceIds personId r
    exact ⟨faceIds, personId, r, rfl, h⟩
  · exact absurd h List.not_mem_nil

/-- Every face that a successful recognition has assigned has a person. -/
def AssignedKept (p : FacePool) : Prop :=
  ∀ t ∈ p.threads, returned t = some (.ok .success) → ∀ f ∈ assignedBy t, p.state.HasPerson f

/-- Only recognition, cleanup and merging run. -/
def Clustering (_p : FacePool) (t : FaceThread) (_e : FaceEvent) : Prop := t.call.clusters = true

/-- The persons a call has listed as without faces, or has taken the faces of,
and is still to delete. A statement that fails ends the call. -/
def doomedAfter (doomed : List PersonId) : FaceEvent → List PersonId
  | ⟨_, .error _⟩ => []
  | ⟨.getAllWithoutFaces, .ok people⟩ => people.map Person.id
  | ⟨.reassignFacesOfPeople _ sourceIds, .ok _⟩ => sourceIds
  | ⟨.deletePersons _, .ok _⟩ => []
  | _ => doomed

def doomedBy (t : FaceThread) : List PersonId := t.past.foldl doomedAfter []

/-- No face is given to a person that a call is still to delete. -/
def SparesDoomed (p : FacePool) (_t : FaceThread) : FaceEvent → Prop
  | ⟨.reassignFaces _ personId, .ok _⟩ => ∀ t ∈ p.threads, personId ∉ doomedBy t
  | ⟨.reassignFacesOfPeople targetId sourceIds, .ok _⟩ =>
    ∀ row ∈ p.state.faces, row.deleted = false → row.personId.any (fun q => q ∈ sourceIds) →
      ∀ t ∈ p.threads, targetId ∉ doomedBy t
  | _ => True

instance (p : FacePool) (t : FaceThread) (e : FaceEvent) : Decidable (Clustering p t e) := by
  unfold Clustering
  infer_instance

instance (p : FacePool) (t : FaceThread) (e : FaceEvent) : Decidable (SparesDoomed p t e) := by
  unfold SparesDoomed
  split <;> infer_instance

/-! What the calls do, whatever else runs. -/

/-- The faces a call has seen, those it has assigned, and the persons it is
still to delete. -/
structure Handled where
  clusters : Bool
  seen : List FaceId := []
  assigned : List FaceId := []
  doomed : List PersonId := []

/-- Only faces seen are assigned, only persons listed or left without faces are
deleted, and no call of these takes faces away. -/
def Handled.Permits (g : Handled) : FaceOp → Prop
  | .reassignFaces faceIds _ => faceIds ⊆ g.seen
  | .reassignFacesOfPeople targetId sourceIds => targetId ∉ sourceIds
  | .deletePersons ids => ids ⊆ g.doomed
  | .refreshFaces _ _ _ => False
  | .unassignByEvent _ => False
  | _ => True

def clustering : Contract FaceOp FaceRes Handled where
  note g e :=
    { g with
      seen := g.seen ++ seenIn e
      assigned := g.assigned ++ assignedIn e
      doomed := doomedAfter g.doomed e }
  expects _ _ := True
  permits g o := g.clusters = true → g.Permits o

/-- The handler assigns faces it has seen, whatever it returns. -/
abbrev Tidy {α : Type} (p : Attempt α) (g : Handled) : Prop :=
  clustering.Follows p.run (fun _ _ => True) g

theorem tidy_call {α : Type} {o : FaceOp} {f : FaceAnswer o → Attempt α} {g : Handled}
    (hpermit : g.Permits o) (h : ∀ answer, Tidy (f answer) (clustering.note g ⟨o, .ok answer⟩)) :
    Tidy (call o >>= f) g :=
  follows_call (fun _ => hpermit) (fun answer _ => h answer) fun _ _ => trivial

theorem tidy_onlyIf {α : Type} {c : Prop} [Decidable c] {p : Attempt Unit} {f : Unit → Attempt α}
    {g : Handled} (hdone : c → Tidy (p >>= f) g) (hskipped : Tidy (f ()) g) :
    Tidy (onlyIf c p >>= f) g := by
  unfold onlyIf
  by_cases hc : c
  · rw [if_pos hc]
    exact hdone hc
  · rw [if_neg hc]
    exact hskipped

/-- Calls of the other kinds are not bound. -/
theorem follows_unbound {α : Type} (p : FaceProg α) {g : Handled} (hg : g.clusters = false) :
    clustering.Follows p (fun _ _ => True) g := by
  induction p generalizing g with
  | done value => trivial
  | perform o next ih =>
    refine ⟨fun h => ?_, fun r _ => ih r hg⟩
    rw [hg] at h
    cases h

section Handlers

variable {g : Handled}

theorem tidy_searchFaces {α : Type} {options : FaceSearchOptions}
    {f : List FaceSearchResult → Attempt α} {face : FaceId} (hseen : face ∈ g.seen)
    (h : ∀ hits g, face ∈ g.seen → Tidy (f hits) g) : Tidy (searchFaces options >>= f) g := by
  unfold searchFaces
  split
  · trivial
  · exact tidy_call trivial fun hits => h hits _ (List.mem_append_left _ hseen)

theorem tidy_choosePerson {α : Type} {face : FaceForRecognition} {embedding : Embedding}
    {config : FacialRecognitionConfig} {hits : List FaceSearchResult}
    {f : Option PersonId → Attempt α} {faceId : FaceId} (hseen : faceId ∈ g.seen)
    (h : ∀ choice g, faceId ∈ g.seen → Tidy (f choice) g) :
    Tidy (choosePerson face embedding config hits >>= f) g := by
  unfold choosePerson
  simp only [bind_assoc]
  have hrest : ∀ choice g, faceId ∈ g.seen → Tidy ((match choice with
      | some personId => pure (some personId)
      | none =>
        if config.minFaces ≤ hits.length then do
          let personId ← foundPerson face
          pure (some personId)
        else pure none) >>= f) g := by
    intro choice g hseen
    cases choice with
    | some personId => exact h (some personId) g hseen
    | none =>
      simp only
      split
      · unfold foundPerson
        simp only [bind_assoc, pure_bind]
        exact tidy_call trivial fun newPerson => tidy_call trivial fun _ =>
          h _ _ (List.mem_append_left _ (List.mem_append_left _ hseen))
      · exact h none g hseen
  unfold matchedPerson
  split
  · rw [pure_bind]
    exact hrest (some _) g hseen
  · unfold nearestPerson
    simp only [bind_assoc, pure_bind]
    exact tidy_searchFaces hseen fun found g hseen => hrest _ g hseen

theorem recognizeFaces_tidy (faceId : FaceId) (deferred : Bool) :
    Tidy (handleRecognizeFaces faceId deferred) g := by
  refine tidy_call trivial fun face => ?_
  cases face with
  | none => trivial
  | some face =>
    have hseen : faceId ∈ (clustering.note g ⟨.getForRecognition faceId, .ok (some face)⟩).seen :=
      List.mem_append_right _ (List.mem_singleton_self faceId)
    generalize clustering.note g ⟨.getForRecognition faceId, .ok (some face)⟩ = g at hseen
    simp only
    split
    · trivial
    · cases face.embedding with
      | none => trivial
      | some embedding =>
        simp only
        split
        · trivial
        · refine tidy_call trivial fun config =>
            tidy_searchFaces (List.mem_append_left _ hseen) fun hits g hseen => ?_
          split
          · trivial
          · split
            · exact tidy_call trivial fun _ => trivial
            · refine tidy_choosePerson hseen fun choice g hseen => ?_
              cases choice with
              | none => trivial
              | some personId =>
                refine tidy_call (fun f hf => ?_) fun _ => ⟨fun _ => trivial, ?_⟩
                · rw [List.mem_singleton.mp hf]
                  exact hseen
                intro r _
                cases r <;> trivial

theorem personCleanup_tidy : Tidy handlePersonCleanup g := by
  refine tidy_call trivial fun people => ?_
  split
  · trivial
  · have hrest : ∀ g : Handled, g.doomed = people.map Person.id → Tidy (do
        call (.deletePersons (people.map Person.id))
        pure JobStatus.success) g := by
      intro g hdoomed
      refine tidy_call ?_ fun _ => trivial
      change _ ⊆ g.doomed
      rw [hdoomed]
      exact List.Subset.refl _
    exact tidy_onlyIf (fun _ => tidy_call trivial fun _ => hrest _ rfl) (hrest _ rfl)

theorem findSources_tidy {α : Type} {eventId : EventId} {ids : List PersonId}
    {sources : List Person}
    {f : List Person → Attempt α} (h : ∀ sources g, Tidy (f sources) g) :
    Tidy (findSources eventId ids sources >>= f) g := by
  induction ids generalizing sources g with
  | nil => exact h sources g
  | cons id ids ih =>
    rw [findSources]
    simp only [bind_assoc]
    refine tidy_call trivial fun person => ?_
    cases person with
    | none => trivial
    | some person => exact ih

theorem merge_tidy (eventId : EventId) (personId : PersonId) (ids : List PersonId) :
    Tidy (merge eventId personId ids) g := by
  refine tidy_call trivial fun target => ?_
  cases target with
  | none => trivial
  | some target =>
    simp only
    split
    · trivial
    · have hother : personId ∉ ids.eraseDups.filter (fun id => id ≠ personId) :=
        fun hin => of_decide_eq_true (List.mem_filter.mp hin).2 rfl
      refine findSources_tidy fun sources g => tidy_call hother fun _ => ?_
      refine tidy_call (List.Subset.refl _) fun _ => ?_
      have hrest : ∀ g, Tidy (do
          onlyIf (target.faceAssetFaceId = none ∨ target.thumbnailKey = "")
            (call (.queueAll [.personThumbnail personId]))
          pure JobStatus.success) g :=
        fun g => tidy_onlyIf (fun _ => tidy_call trivial fun _ => trivial) trivial
      exact tidy_onlyIf (fun _ => tidy_call trivial fun _ => hrest _) (hrest _)

theorem call_tidy (pages : ℕ) (c : FaceCall) :
    clustering.Follows (c.prog pages) (fun _ _ => True) { clusters := c.clusters } := by
  cases c with
  | recognizeFaces faceId deferred => exact recognizeFaces_tidy faceId deferred
  | personCleanup => exact personCleanup_tidy
  | merge eventId personId ids => exact merge_tidy eventId personId ids
  | _ => exact follows_unbound _ rfl

end Handlers

/-! What becomes of the faces. -/

/-- The person of a face after an event. -/
def personAfter (e : FaceEvent) (row : AssetFace) : Option PersonId :=
  match e with
  | ⟨.reassignFaces faceIds personId, .ok _⟩ =>
    if row.id ∈ faceIds then some personId else row.personId
  | ⟨.reassignFacesOfPeople targetId sourceIds, .ok _⟩ =>
    if row.personId.any (fun q => q ∈ sourceIds) then some targetId else row.personId
  | ⟨.deletePersons ids, .ok _⟩ => row.personId.filter (fun q => q ∉ ids)
  | _ => row.personId

def faceAfter (e : FaceEvent) (row : AssetFace) : AssetFace :=
  { row with personId := personAfter e row }

section Statements

variable {s s' : FaceStore} {distance : Embedding → Embedding → ℚ}

theorem faces_same {e : FaceEvent} (he : ∀ row, personAfter e row = row.personId)
    (h : s'.faces = s.faces) : s'.faces = s.faces.map (faceAfter e) := by
  have hid : faceAfter e = id := funext fun row => by
    rw [faceAfter, he row]
    rfl
  rw [hid, List.map_id, h]

theorem faces_reassign {e : FaceEvent} {ids : AssetFace → Bool} {personId : PersonId}
    (he : ∀ row, personAfter e row = if ids row then some personId else row.personId)
    (h : s.reassign ids personId = some s') : s'.faces = s.faces.map (faceAfter e) := by
  unfold FaceStore.reassign at h
  split at h
  · cases h
  · cases h
    refine List.map_congr_left fun row _ => ?_
    rw [faceAfter, he row]
    split <;> rfl

/-- A statement of these calls keeps every face and changes its person only. -/
theorem statement_faces {o : FaceOp} {proposed answer : FaceAnswer o} {g : Handled}
    (hpermit : g.Permits o) (h : statement distance o proposed s = some (answer, s')) :
    s'.faces = s.faces.map (faceAfter ⟨o, .ok answer⟩) := by
  cases o with
  | refreshFaces facesToAdd faceIdsToRemove embeddingsToAdd => exact absurd hpermit id
  | unassignByEvent eventId => exact absurd hpermit id
  | queueAll items =>
    cases h
    obtain ⟨jobs, hjobs⟩ := queueAll_jobs (s := s) items
    rw [hjobs]
    exact faces_same (fun _ => rfl) rfl
  | createPerson eventId orgId faceId =>
    have hcreate : s.createPerson eventId orgId faceId = some (answer, s') := h
    unfold FaceStore.createPerson at hcreate
    split at hcreate
    · cases hcreate
    · cases hcreate
      exact faces_same (fun _ => rfl) rfl
  | reassignFaces faceIds personId =>
    obtain ⟨after, hafter, heq⟩ := Option.map_eq_some_iff.mp h
    cases heq
    refine faces_reassign (fun row => ?_) hafter
    by_cases hin : row.id ∈ faceIds <;> simp [personAfter, hin]
  | reassignFacesOfPeople targetId sourceIds =>
    obtain ⟨after, hafter, heq⟩ := Option.map_eq_some_iff.mp h
    cases heq
    exact faces_reassign (fun row => rfl) hafter
  | deletePersons ids =>
    cases h
    rfl
  | setCover eventId personId faceId =>
    obtain ⟨after, hafter, heq⟩ := Option.map_eq_some_iff.mp h
    cases heq
    unfold FaceStore.setCover at hafter
    split at hafter
    · cases hafter
    · cases hafter
      exact faces_same (fun _ => rfl) rfl
  | insertMatches inserts =>
    have hinsert : s.insertMatches inserts = some (answer, s') := h
    unfold FaceStore.insertMatches at hinsert
    split at hinsert
    · cases hinsert
      exact faces_same (fun _ => rfl) rfl
    · cases hinsert
  | _ =>
    cases h
    exact faces_same (fun _ => rfl) rfl

theorem getForRecognition_live {faceId : FaceId} {face : FaceForRecognition}
    (h : s.getForRecognition faceId = some face) :
    ∃ row ∈ s.faces, row.id = faceId ∧ row.deleted = false := by
  unfold FaceStore.getForRecognition at h
  obtain ⟨f, hf, h⟩ := Option.bind_eq_some_iff.mp h
  obtain ⟨a, ha, h⟩ := Option.bind_eq_some_iff.mp h
  split at h
  · rename_i hlive
    obtain ⟨hmem, rfl⟩ := FaceStore.face_mem hf
    exact ⟨f, hmem, rfl, hlive.1⟩
  · cases h

/-- A person listed as without faces has none. -/
theorem getAllWithoutFaces_bare {person : Person} (h : person ∈ s.getAllWithoutFaces)
    {row : AssetFace}
    (hrow : row ∈ s.faces) (hlive : row.deleted = false) : row.personId ≠ some person.id := by
  intro hperson
  have hnone := (List.mem_filter.mp h).2
  have hany : s.faces.any (fun f => f.personId = some person.id ∧ f.deleted = false) = true :=
    List.any_eq_true.mpr ⟨row, hrow, decide_eq_true ⟨hperson, hlive⟩⟩
  rw [hany] at hnone
  cases hnone

end Statements

/-- Faces seen are there, faces assigned have a person, and a person that is
still to be deleted has no face. -/
structure Tended (N : Multiset Handled) (s : FaceStore) : Prop where
  seen : ∀ g ∈ N, ∀ f ∈ g.seen, ∃ row ∈ s.faces, row.id = f ∧ row.deleted = false
  assigned : ∀ g ∈ N, ∀ f ∈ g.assigned,
    ∃ row ∈ s.faces, row.id = f ∧ row.deleted = false ∧ row.personId ≠ none
  bare : ∀ g ∈ N, ∀ q ∈ g.doomed, ∀ row ∈ s.faces, row.deleted = false → row.personId ≠ some q

theorem notes_handled (t : FaceThread) :
    (t.notes clustering (fun c => { clusters := c.clusters })).clusters = t.call.clusters ∧
      (t.notes clustering (fun c => { clusters := c.clusters })).assigned = assignedBy t ∧
      (t.notes clustering (fun c => { clusters := c.clusters })).doomed = doomedBy t := by
  have hfold : ∀ (es : List FaceEvent) (g : Handled),
      (es.foldl clustering.note g).clusters = g.clusters ∧
      (es.foldl clustering.note g).assigned = g.assigned ++ es.flatMap assignedIn ∧
      (es.foldl clustering.note g).doomed = es.foldl doomedAfter g.doomed := by
    intro es
    induction es with
    | nil => exact fun g => ⟨rfl, (List.append_nil _).symm, rfl⟩
    | cons e es ih =>
      intro g
      obtain ⟨hclusters, hassigned, hdoomed⟩ := ih (clustering.note g e)
      refine ⟨hclusters, hassigned.trans ?_, hdoomed⟩
      rw [List.flatMap_cons, ← List.append_assoc]
      rfl
  exact hfold t.past _

section Steps

variable {N : Multiset Handled} {g : Handled} {s s' : FaceStore}
  {distance : Embedding → Embedding → ℚ} {o : FaceOp} {proposed answer : FaceAnswer o}

/-- A call that failed is not to delete anyone. -/
theorem Tended.failed (h : Tended (g ::ₘ N) s) (o : FaceOp) (e : FaceError) :
    Tended (clustering.note g ⟨o, .error e⟩ ::ₘ N) s := by
  have hnone : seenIn ⟨o, .error e⟩ = [] ∧ assignedIn ⟨o, .error e⟩ = [] ∧
      doomedAfter g.doomed ⟨o, .error e⟩ = [] := by
    cases o <;> exact ⟨rfl, rfl, rfl⟩
  have hnote : clustering.note g ⟨o, .error e⟩ = { g with doomed := [] } := by
    simp only [clustering, hnone, List.append_nil]
  rw [hnote]
  have hme := Multiset.mem_cons_self g N
  refine ⟨fun g' hg' f hf => ?_, fun g' hg' f hf => ?_, fun g' hg' q hq => ?_⟩
  · rcases Multiset.mem_cons.mp hg' with rfl | hg'
    · exact h.seen g hme f hf
    · exact h.seen g' (Multiset.mem_cons_of_mem hg') f hf
  · rcases Multiset.mem_cons.mp hg' with rfl | hg'
    · exact h.assigned g hme f hf
    · exact h.assigned g' (Multiset.mem_cons_of_mem hg') f hf
  · rcases Multiset.mem_cons.mp hg' with rfl | hg'
    · exact absurd hq List.not_mem_nil
    · exact h.bare g' (Multiset.mem_cons_of_mem hg') q hq

/-- The persons an event gives faces to. -/
def Gives (s : FaceStore) (q : PersonId) : FaceEvent → Prop
  | ⟨.reassignFaces _ personId, .ok _⟩ => q = personId
  | ⟨.reassignFacesOfPeople targetId sourceIds, .ok _⟩ => q = targetId ∧
    ∃ row ∈ s.faces, row.deleted = false ∧ row.personId.any (fun p => p ∈ sourceIds)
  | _ => False

/-- A face that has a person afterwards had it before, unless it was given it. -/
theorem personAfter_eq_some {e : FaceEvent} {row : AssetFace} (hrow : row ∈ s.faces)
    (hlive : row.deleted = false) {q : PersonId} (h : personAfter e row = some q) :
    row.personId = some q ∨ Gives s q e := by
  unfold personAfter at h
  split at h
  · split at h
    · exact .inr (Option.some.inj h).symm
    · exact .inl h
  · split at h
    · rename_i hmoved
      exact .inr ⟨(Option.some.inj h).symm, row, hrow, hlive, hmoved⟩
    · exact .inl h
  · exact .inl (Option.filter_eq_some_iff.mp h).1
  · exact .inl h

/-- A face with a person keeps one: a deletion takes persons without faces. -/
theorem Tended.personAfter_ne_none (h : Tended (g ::ₘ N) s) (hpermit : g.Permits o)
    {row : AssetFace}
    (hrow : row ∈ s.faces) (hlive : row.deleted = false) (hperson : row.personId ≠ none) :
    personAfter ⟨o, .ok answer⟩ row ≠ none := by
  unfold personAfter
  split
  · split
    · exact Option.some_ne_none _
    · exact hperson
  · split
    · exact Option.some_ne_none _
    · exact hperson
  · rename_i ids _ heq
    cases heq
    obtain ⟨q, hq⟩ := Option.ne_none_iff_exists'.mp hperson
    have hkept : q ∉ ids := fun hin =>
      h.bare g (Multiset.mem_cons_self g N) q (hpermit hin) row hrow hlive hq
    have hfilter : row.personId.filter (fun p => p ∉ ids) = some q :=
      Option.filter_eq_some_iff.mpr ⟨hq, decide_eq_true hkept⟩
    rw [hfilter]
    exact Option.some_ne_none q
  · exact hperson

/-- The persons a call is to delete after a statement have no face: they are
those it was to delete before, or it has just listed them, or just taken their
faces. -/
theorem Tended.bare_after (h : Tended (g ::ₘ N) s) (hpermit : g.Permits o)
    (hstatement : statement distance o proposed s = some (answer, s'))
    {q : PersonId} (hq : q ∈ doomedAfter g.doomed ⟨o, .ok answer⟩)
    (hspared : q ∈ g.doomed → ¬ Gives s q ⟨o, .ok answer⟩) {row : AssetFace} (hrow : row ∈ s.faces)
    (hlive : row.deleted = false) : personAfter ⟨o, .ok answer⟩ row ≠ some q := by
  intro hafter
  unfold doomedAfter at hq
  split at hq
  · exact absurd hq List.not_mem_nil
  · rename_i people heq
    cases heq
    obtain ⟨hpeople, -⟩ := Prod.mk.inj (Option.some.inj hstatement)
    rw [← hpeople] at hq
    obtain ⟨person, hperson, rfl⟩ := List.mem_map.mp hq
    exact getAllWithoutFaces_bare hperson hrow hlive hafter
  · rename_i targetId sourceIds _ heq
    cases heq
    have hperson : (if row.personId.any (fun p => p ∈ sourceIds) then some targetId
      else row.personId) = some q := hafter
    split at hperson
    · cases hperson
      exact hpermit hq
    · rename_i hkept
      rw [hperson] at hkept
      exact hkept (decide_eq_true hq)
  · exact absurd hq List.not_mem_nil
  · rcases personAfter_eq_some hrow hlive hafter with hbefore | hgives
    · exact h.bare g (Multiset.mem_cons_self g N) q hq row hrow hlive hbefore
    · exact hspared hq hgives

/-- A statement that gives no face to a person about to go keeps the faces
assigned by the calls with a person. -/
theorem Tended.statement (h : Tended (g ::ₘ N) s) (hpermit : g.Permits o)
    (hstatement : statement distance o proposed s = some (answer, s'))
    (hspared : ∀ g' ∈ g ::ₘ N, ∀ q ∈ g'.doomed, ¬ Gives s q ⟨o, .ok answer⟩) :
    Tended (clustering.note g ⟨o, .ok answer⟩ ::ₘ N) s' := by
  have hfaces := statement_faces hpermit hstatement
  have hstays : ∀ row ∈ s.faces, faceAfter ⟨o, .ok answer⟩ row ∈ s'.faces := by
    intro row hrow
    rw [hfaces]
    exact List.mem_map_of_mem hrow
  have hseen :
    ∀ g' ∈ g ::ₘ N, ∀ f ∈ g'.seen, ∃ row ∈ s'.faces, row.id = f ∧ row.deleted = false := by
    intro g' hg' f hf
    obtain ⟨row, hrow, hid, hlive⟩ := h.seen g' hg' f hf
    exact ⟨_, hstays row hrow, hid, hlive⟩
  have hassigned : ∀ g' ∈ g ::ₘ N, ∀ f ∈ g'.assigned,
      ∃ row ∈ s'.faces, row.id = f ∧ row.deleted = false ∧ row.personId ≠ none := by
    intro g' hg' f hf
    obtain ⟨row, hrow, hid, hlive, hperson⟩ := h.assigned g' hg' f hf
    exact ⟨_, hstays row hrow, hid, hlive, h.personAfter_ne_none hpermit hrow hlive hperson⟩
  have hme := Multiset.mem_cons_self g N
  refine ⟨fun g' hg' f hf => ?_, fun g' hg' f hf => ?_, fun g' hg' q hq row' hrow' hlive => ?_⟩
  · rcases Multiset.mem_cons.mp hg' with rfl | hg'
    · rcases List.mem_append.mp hf with hf | hf
      · exact hseen g hme f hf
      · -- the face just read is there
        obtain ⟨face, heq⟩ := mem_seenIn hf
        cases heq
        obtain ⟨hfound, rfl⟩ := Prod.mk.inj (Option.some.inj hstatement)
        exact getForRecognition_live hfound
    · exact hseen g' (Multiset.mem_cons_of_mem hg') f hf
  · rcases Multiset.mem_cons.mp hg' with rfl | hg'
    · rcases List.mem_append.mp hf with hf | hf
      · exact hassigned g hme f hf
      · obtain ⟨faceIds, personId, _, heq, hin⟩ := mem_assignedIn hf
        cases heq
        obtain ⟨row, hrow, hid, hlive⟩ := h.seen g hme f (hpermit hin)
        refine ⟨_, hstays row hrow, hid, hlive, ?_⟩
        change (if row.id ∈ faceIds then some personId else row.personId) ≠ none
        rw [hid, if_pos hin]
        exact Option.some_ne_none personId
    · exact hassigned g' (Multiset.mem_cons_of_mem hg') f hf
  · rw [hfaces] at hrow'
    obtain ⟨row, hrow, rfl⟩ := List.mem_map.mp hrow'
    rcases Multiset.mem_cons.mp hg' with rfl | hg'
    · exact h.bare_after hpermit hstatement hq (hspared g hme q) hrow hlive
    · have hothers : g' ∈ g ::ₘ N := Multiset.mem_cons_of_mem hg'
      intro hafter
      rcases personAfter_eq_some hrow hlive hafter with hbefore | hgives
      · exact h.bare g' hothers q hq row hrow hlive hbefore
      · exact hspared g' hothers q hq hgives

theorem SparesDoomed.gives {p : FacePool} {t t' : FaceThread} {e : FaceEvent}
    (h : SparesDoomed p t e) (ht' : t' ∈ p.threads) {q : PersonId} (hq : q ∈ doomedBy t') :
    ¬ Gives p.state q e := by
  intro hgives
  unfold Gives at hgives
  split at hgives
  · subst hgives
    exact h t' ht' hq
  · obtain ⟨rfl, row, hrow, hlive, hmoved⟩ := hgives
    exact h row hrow hlive hmoved t' ht' hq
  · exact hgives

end Steps

theorem tended_preserved (pages : ℕ) (distance : Embedding → Embedding → ℚ) :
    Preserves (faceServer distance pages) (fun p t e => Clustering p t e ∧ SparesDoomed p t e)
      clustering (fun c => { clusters := c.clusters }) (fun _ _ _ => True) Tended where
  accept c N s s' h hs := by
    cases hs
    refine ⟨fun g hg f hf => ?_, fun g hg f hf => ?_, fun g hg q hq => ?_⟩
    · rcases Multiset.mem_cons.mp hg with rfl | hg
      · exact absurd hf List.not_mem_nil
      · exact h.seen g hg f hf
    · rcases Multiset.mem_cons.mp hg with rfl | hg
      · exact absurd hf List.not_mem_nil
      · exact h.assigned g hg f hf
    · rcases Multiset.mem_cons.mp hg with rfl | hg
      · exact absurd hq List.not_mem_nil
      · exact h.bare g hg q hq
  perform p t N o r hnotes h hpermit hP := by
    refine ⟨trivial, ?_⟩
    obtain ⟨hclusters, hspares⟩ := hP
    have hallowed := hpermit ((notes_handled t).1.trans hclusters)
    change Tended (clustering.note _ ⟨o, (faceHandler distance o r p.state).1⟩ ::ₘ N)
      (faceHandler distance o r p.state).2
    change SparesDoomed p t ⟨o, (faceHandler distance o r p.state).1⟩ at hspares
    rcases faceHandler_cases distance o r p.state with ⟨e, hfailed⟩ | ⟨_, answer, s', -, hs, hdone⟩
    · rw [hfailed]
      exact h.failed o e
    · rw [hdone] at hspares ⊢
      refine h.statement hallowed hs fun g' hg' q hq => ?_
      rw [← hnotes] at hg'
      obtain ⟨t', ht', rfl⟩ := mem_notesOf.mp hg'
      rw [(notes_handled t').2.2] at hq
      exact hspares.gives ht' hq
  release _ _ _ _ _ _ _ _ _ hs := by cases hs

/-- A face without a person, and a person without a face. -/
def strayPerson : FaceStore :=
  { assets := [{ id := 0, eventId := 7, orgId := 3 }]
    faces := [{ id := 0, assetId := 0, imageHeight := 10, imageWidth := 10, boundingBox :=
      ⟨0, 0, 4, 4⟩ }]
    searches := [{ faceId := 0, embedding := "face" }]
    persons := [{ id := 0, eventId := 7, orgId := 3 }]
    nextFace := 1
    nextPerson := 1 }

theorem strayPerson_keyed : Keyed strayPerson where
  assets := List.nodup_singleton _
  faces := List.nodup_singleton _
  persons := List.nodup_singleton _
  participants := List.nodup_nil
  nextFace := by decide
  nextPerson := by decide

theorem strayPerson_isolated : Isolated strayPerson where
  faces := by decide
  covers p hp f hf := by
    rw [List.mem_singleton.mp hp] at hf
    cases hf
  matched _ hm := absurd hm List.not_mem_nil

/-- Cleanup lists the persons once the face is recognized. -/
def cleanedAfter : List FaceMove :=
  .start (.recognizeFaces 0 false) :: advancing ⟨1, 1⟩ noFaces 0 8 ++
    .start .personCleanup :: advancing ⟨1, 1⟩ noFaces 1 2

/-- Cleanup lists the persons before the face is given the one founded for it,
and deletes them afterwards. -/
def cleanedMeanwhile : List FaceMove :=
  .start (.recognizeFaces 0 false) :: advancing ⟨1, 1⟩ noFaces 0 6 ++
    .start .personCleanup :: advancing ⟨1, 1⟩ noFaces 1 1 ++ advancing ⟨1, 1⟩ noFaces 0 2 ++
      advancing ⟨1, 1⟩ noFaces 1 1

end EventLens.Faces

import EventLens.FaceDetection

/-!
One detection of one asset, with nothing else going on and nothing failing from
outside. The loop over the detections is worked out as a function; when no two
detections take the same stored face it leaves one face for each of them, and
otherwise it offers a stored face a second embedding, which the key refuses.
-/

namespace EventLens.Faces

open Programs

abbrev FaceOracle := Oracle FaceOp FaceRes

/-- Nothing fails from outside, and the model answers these detections. -/
structure Calm (detected : DetectedFaces) (ω : FaceOracle) : Prop where
  answers : ∀ n o, ∃ answer, ω n o = .ok answer
  detects : ∀ n assetId, ω n (.detectFaces assetId) = .ok detected

section Outcomes

variable (distance : Embedding → Embedding → ℚ) {α : Type}

/-- What a handler returns and the tables it leaves. -/
def outcome (p : Attempt α) (ω : FaceOracle) (s : FaceStore) : Except FaceError α × FaceStore :=
  ((run (faceHandler distance) p.run ω s).value, (run (faceHandler distance) p.run ω s).state)

variable {distance} {detected : DetectedFaces} {ω : FaceOracle} {s s' : FaceStore} {o : FaceOp}
  {f : FaceAnswer o → Attempt α}

theorem Calm.later (h : Calm detected ω) : Calm detected (fun n => ω (n + 1)) :=
  ⟨fun n => h.answers (n + 1), fun n => h.detects (n + 1)⟩

theorem call_bind_run :
    (call o >>= f).run =
    .perform o (fun r => (ExceptT.bindCont f r : FaceProg (Except FaceError α))) := rfl

theorem outcome_ok {answer : FaceAnswer o}
    (h : faceHandler distance o (ω 0 o) s = (.ok answer, s')) :
    outcome distance (call o >>= f) ω s = outcome distance (f answer) (fun n => ω (n + 1)) s' := by
  unfold outcome
  rw [call_bind_run, run]
  simp only [h]
  rfl

/-- A statement that is done, whatever was proposed. -/
theorem outcome_step {proposed answer : FaceAnswer o} (hanswer : ω 0 o = .ok proposed)
    (h : statement distance o proposed s = some (answer, s')) :
    outcome distance (call o >>= f) ω s = outcome distance (f answer) (fun n => ω (n + 1)) s' := by
  refine outcome_ok ?_
  rw [hanswer, faceHandler, h]

/-- A statement whose answer the tables determine. -/
theorem outcome_call {answer : FaceAnswer o} (hω : Calm detected ω)
    (h : ∀ proposed, statement distance o proposed s = some (answer, s')) :
    ∃ ω', Calm detected ω' ∧
    outcome distance (call o >>= f) ω s = outcome distance (f answer) ω' s' := by
  obtain ⟨proposed, hanswer⟩ := hω.answers 0 o
  exact ⟨_, hω.later, outcome_step hanswer (h proposed)⟩

/-- A statement that is answered from outside. -/
theorem outcome_given (hω : Calm detected ω)
    (h : ∀ proposed, statement distance o proposed s = some (proposed, s)) :
    ∃ answer ω', Calm detected ω' ∧
      outcome distance (call o >>= f) ω s = outcome distance (f answer) ω' s := by
  obtain ⟨proposed, hanswer⟩ := hω.answers 0 o
  exact ⟨proposed, _, hω.later, outcome_step hanswer (h proposed)⟩

theorem outcome_detect {assetId : AssetId} {f : DetectedFaces → Attempt α} (hω : Calm detected ω) :
    ∃ ω', Calm detected ω' ∧
      outcome distance (call (.detectFaces assetId) >>= f) ω s =
      outcome distance (f detected) ω' s := by
  exact ⟨_, hω.later, outcome_step (hω.detects 0 assetId) rfl⟩

/-- A statement that a constraint refuses ends the handler. -/
theorem outcome_refused (hω : Calm detected ω)
    (h : ∀ proposed, statement distance o proposed s = none) :
    outcome distance (call o >>= f) ω s = (.error .constraint, s) := by
  obtain ⟨proposed, hanswer⟩ := hω.answers 0 o
  have hrefused : faceHandler distance o (ω 0 o) s = (.error .constraint, s) := by
    rw [hanswer, faceHandler, h proposed]
  unfold outcome
  rw [call_bind_run, run]
  simp only [hrefused]
  rfl

end Outcomes

/-! The loop as a function. -/

section Loop

variable (assetId : AssetId) (detected : DetectedFaces) (found : List AssetFace)

/-- What the loop has worked out at its end, new faces being numbered from `next`. -/
def reconciled : List DetectedFace → Reconciled → FaceId → Reconciled
  | [], acc, _ => acc
  | d :: rest, acc, next =>
    match matched detected found d with
    | some f =>
      if f.id ∈ acc.mlFaceIds then
        reconciled rest { acc with mlFaceIds := acc.mlFaceIds.erase f.id } next
      else
        reconciled rest
          { acc with embeddings :=
            acc.embeddings ++ [{ faceId := f.id, embedding := d.embedding }] } next
    | none =>
      reconciled rest
        { acc with
          facesToAdd := acc.facesToAdd ++ [newFace assetId detected d.boundingBox next]
          embeddings :=
            acc.embeddings ++ [{ faceId := next, embedding := d.embedding }] } (next + 1)

/-- The faces that the detections without a stored one become. -/
def newFaces : List DetectedFace → FaceId → List AssetFace
  | [], _ => []
  | d :: rest, next =>
    match matched detected found d with
    | some _ => newFaces rest next
    | none => newFace assetId detected d.boundingBox next :: newFaces rest (next + 1)

/-- What each detection becomes: the stored face it takes, or a new one. -/
def standIns : List DetectedFace → FaceId → List AssetFace
  | [], _ => []
  | d :: rest, next =>
    match matched detected found d with
    | some f => f :: standIns rest next
    | none => newFace assetId detected d.boundingBox next :: standIns rest (next + 1)

/-- The stored faces that the detections take, with repetitions. -/
def taken (ds : List DetectedFace) : List AssetFace := ds.filterMap (matched detected found)

/-- The faces that are stored at the start, all of them to be matched. -/
def unmatched : Reconciled where
  mlFaceIds := (found.filter (fun f => f.sourceType = .machineLearning)).map AssetFace.id

variable {assetId detected found}

theorem reconciled_cons (d : DetectedFace) (rest : List DetectedFace) (acc : Reconciled)
    (next : FaceId) : reconciled assetId detected found (d :: rest) acc next =
      match matched detected found d with
      | some f =>
        if f.id ∈ acc.mlFaceIds then
          reconciled assetId detected found rest
            { acc with mlFaceIds := acc.mlFaceIds.erase f.id } next
        else
          reconciled assetId detected found rest
            { acc with embeddings :=
              acc.embeddings ++ [{ faceId := f.id, embedding := d.embedding }] } next
      | none =>
        reconciled assetId detected found rest
          { acc with
            facesToAdd := acc.facesToAdd ++ [newFace assetId detected d.boundingBox next]
            embeddings :=
              acc.embeddings ++ [{ faceId := next, embedding := d.embedding }] } (next + 1) :=
  rfl

theorem newFaces_cons (d : DetectedFace) (rest : List DetectedFace) (next : FaceId) :
    newFaces assetId detected found (d :: rest) next =
      match matched detected found d with
      | some _ => newFaces assetId detected found rest next
      | none => newFace assetId detected d.boundingBox next ::
          newFaces assetId detected found rest (next + 1) :=
  rfl

theorem standIns_cons (d : DetectedFace) (rest : List DetectedFace) (next : FaceId) :
    standIns assetId detected found (d :: rest) next =
      match matched detected found d with
      | some f => f :: standIns assetId detected found rest next
      | none => newFace assetId detected d.boundingBox next ::
          standIns assetId detected found rest (next + 1) :=
  rfl

theorem outcome_reconcile {distance : Embedding → Embedding → ℚ} {α : Type} {ω : FaceOracle}
    {s : FaceStore}
    {f : Reconciled → Attempt α} (hω : Calm detected ω) (rest : List DetectedFace)
      (acc : Reconciled) :
    ∃ ω', Calm detected ω' ∧
      outcome distance (reconcile assetId detected found rest acc >>= f) ω s =
        outcome distance (f (reconciled assetId detected found rest acc s.nextFace)) ω'
          { s with nextFace := s.nextFace +
              (newFaces assetId detected found rest s.nextFace).length } := by
  induction rest generalizing acc ω s with
  | nil => exact ⟨ω, hω, rfl⟩
  | cons d rest ih =>
    rw [reconcile, ← matched, reconciled_cons, newFaces_cons]
    cases hmatched : matched detected found d with
    | some stored =>
      simp only
      split
      · exact ih hω _
      · exact ih hω _
    | none =>
      simp only [bind_assoc]
      have hdraw : ∀ proposed, statement distance .randomUUID proposed s =
          some (s.nextFace, { s with nextFace := s.nextFace + 1 }) := fun _ => rfl
      obtain ⟨ω₁, hω₁, hstep⟩ := outcome_call (f := fun faceId =>
        reconcile assetId detected found rest
          { acc with
            facesToAdd := acc.facesToAdd ++ [newFace assetId detected d.boundingBox faceId]
            embeddings :=
              acc.embeddings ++ [{ faceId := faceId, embedding := d.embedding }] } >>= f) hω hdraw
      obtain ⟨ω₂, hω₂, hrest⟩ := ih (s := { s with nextFace := s.nextFace + 1 }) hω₁ _
      refine ⟨ω₂, hω₂, hstep.trans (hrest.trans ?_)⟩
      simp only [List.length_cons]
      rw [Nat.add_assoc, Nat.add_comm 1]

theorem taken_cons_some {d : DetectedFace} {rest : List DetectedFace} {f : AssetFace}
    (h : matched detected found d = some f) :
    taken detected found (d :: rest) = f :: taken detected found rest := by
  simp [taken, h]

theorem taken_cons_none {d : DetectedFace} {rest : List DetectedFace}
    (h : matched detected found d = none) :
    taken detected found (d :: rest) = taken detected found rest := by
  simp [taken, h]

theorem mem_taken {f : AssetFace} {ds : List DetectedFace} :
    f ∈ taken detected found ds ↔ ∃ d ∈ ds, matched detected found d = some f := List.mem_filterMap

variable (assetId) in
/-- Detections that take different stored faces leave the others, and become new faces or
the faces they take. -/
theorem reconciled_distinct (rest : List DetectedFace) (acc : Reconciled) (next : FaceId)
    (hdistinct : ((taken detected found rest).map AssetFace.id).Nodup)
    (hthere : ∀ f ∈ taken detected found rest, f.id ∈ acc.mlFaceIds) (hleft : acc.mlFaceIds.Nodup) :
    (∀ id, id ∈ (reconciled assetId detected found rest acc next).mlFaceIds ↔
        id ∈ acc.mlFaceIds ∧ id ∉ (taken detected found rest).map AssetFace.id) ∧
      (reconciled assetId detected found rest acc next).facesToAdd =
        acc.facesToAdd ++ newFaces assetId detected found rest next ∧
      (reconciled assetId detected found rest acc next).embeddings.map FaceSearch.faceId =
        acc.embeddings.map FaceSearch.faceId ++
          (newFaces assetId detected found rest next).map AssetFace.id := by
  induction rest generalizing acc next with
  | nil =>
    exact ⟨fun id => (and_iff_left List.not_mem_nil).symm, (List.append_nil _).symm,
      (List.append_nil _).symm⟩
  | cons d rest ih =>
    rw [reconciled_cons, newFaces_cons]
    cases hmatched : matched detected found d with
    | some f =>
      rw [taken_cons_some hmatched] at hdistinct hthere
      have hf := hthere f List.mem_cons_self
      obtain ⟨hfirst, hrest⟩ := List.nodup_cons.mp hdistinct
      simp only [hf, ↓reduceIte]
      have hlater : ∀ g ∈ taken detected found rest, g.id ∈ acc.mlFaceIds.erase f.id := by
        intro g hg
        refine (hleft.mem_erase_iff).mpr ⟨fun hid => hfirst ?_,
          hthere g (List.mem_cons_of_mem _ hg)⟩
        rw [← hid]
        exact List.mem_map_of_mem hg
      obtain ⟨hids, hadd, hembeddings⟩ :=
        ih { acc with mlFaceIds := acc.mlFaceIds.erase f.id } next hrest
        hlater (hleft.erase _)
      refine ⟨fun id => ?_, hadd, hembeddings⟩
      rw [hids id, taken_cons_some hmatched, hleft.mem_erase_iff, List.map_cons,
        List.mem_cons, not_or]
      tauto
    | none =>
      rw [taken_cons_none hmatched] at hdistinct hthere
      obtain ⟨hids, hadd, hembeddings⟩ := ih
        { acc with
          facesToAdd := acc.facesToAdd ++ [newFace assetId detected d.boundingBox next]
          embeddings :=
            acc.embeddings ++ [{ faceId := next, embedding := d.embedding }] } (next + 1)
        hdistinct hthere hleft
      refine ⟨fun id => ?_, ?_, ?_⟩
      · rw [taken_cons_none hmatched]
        exact hids id
      · rw [hadd, List.append_assoc]
        rfl
      · rw [hembeddings, List.map_append, List.append_assoc]
        rfl

theorem reconciled_mono {row : FaceSearch} (rest : List DetectedFace) (acc : Reconciled)
    (next : FaceId)
    (h : row ∈ acc.embeddings) :
    row ∈ (reconciled assetId detected found rest acc next).embeddings := by
  induction rest generalizing acc next with
  | nil => exact h
  | cons d rest ih =>
    rw [reconciled_cons]
    cases matched detected found d with
    | some f =>
      simp only
      split
      · exact ih _ _ h
      · exact ih _ _ (List.mem_append_left _ h)
    | none => exact ih _ _ (List.mem_append_left _ h)

/-- A detection that takes a face already taken offers it a second embedding. -/
theorem reconciled_again (rest : List DetectedFace) (acc : Reconciled) (next : FaceId)
    (h : ∃ f ∈ taken detected found rest, f.id ∉ acc.mlFaceIds) :
    ∃ row ∈ (reconciled assetId detected found rest acc next).embeddings,
      ∃ f ∈ found, row.faceId = f.id := by
  induction rest generalizing acc next with
  | nil => simp [taken] at h
  | cons d rest ih =>
    obtain ⟨g, hg, hout⟩ := h
    rw [reconciled_cons]
    cases hmatched : matched detected found d with
    | some f =>
      rw [taken_cons_some hmatched] at hg
      simp only
      split
      · rename_i hf
        refine ih _ _ ⟨g, ?_, fun hin => hout (List.mem_of_mem_erase hin)⟩
        rcases List.mem_cons.mp hg with rfl | hg
        · exact absurd hf hout
        · exact hg
      · refine ⟨_, reconciled_mono rest _ _ (List.mem_append_right _ (List.mem_singleton_self _)),
          f, ?_, rfl⟩
        exact (matched_eq_some hmatched).1
    | none =>
      rw [taken_cons_none hmatched] at hg
      exact ih _ _ ⟨g, hg, hout⟩

variable (assetId) in
theorem reconciled_repeated (rest : List DetectedFace) (acc : Reconciled) (next : FaceId)
    (hleft : acc.mlFaceIds.Nodup) (h : ¬ ((taken detected found rest).map AssetFace.id).Nodup) :
    ∃ row ∈ (reconciled assetId detected found rest acc next).embeddings,
      ∃ f ∈ found, row.faceId = f.id := by
  induction rest generalizing acc next with
  | nil => simp [taken] at h
  | cons d rest ih =>
    rw [reconciled_cons]
    cases hmatched : matched detected found d with
    | some f =>
      rw [taken_cons_some hmatched, List.map_cons, List.nodup_cons, not_and_or, not_not] at h
      simp only
      split
      · rcases h with hagain | hlater
        · obtain ⟨g, hg, hid⟩ := List.mem_map.mp hagain
          refine reconciled_again rest _ _ ⟨g, hg, ?_⟩
          rw [hid]
          exact hleft.not_mem_erase
        · exact ih _ _ (hleft.erase _) hlater
      · refine ⟨_, reconciled_mono rest _ _ (List.mem_append_right _ (List.mem_singleton_self _)),
          f, ?_, rfl⟩
        exact (matched_eq_some hmatched).1
    | none =>
      rw [taken_cons_none hmatched] at h
      exact ih _ _ hleft h

theorem newFaces_ids (rest : List DetectedFace) (next : FaceId) :
    (newFaces assetId detected found rest next).map AssetFace.id =
      List.range' next (newFaces assetId detected found rest next).length := by
  induction rest generalizing next with
  | nil => rfl
  | cons d rest ih =>
    rw [newFaces_cons]
    cases matched detected found d with
    | some f => exact ih next
    | none =>
      simp only [List.map_cons, List.length_cons, List.range'_succ, ih (next + 1)]
      rfl

theorem newFaces_rows (rest : List DetectedFace) (next : FaceId) :
    ∀ f ∈ newFaces assetId detected found rest next, f.assetId = assetId ∧ f.deleted = false := by
  induction rest generalizing next with
  | nil => exact fun f hf => absurd hf List.not_mem_nil
  | cons d rest ih =>
    rw [newFaces_cons]
    cases matched detected found d with
    | some f => exact ih next
    | none =>
      intro f hf
      rcases List.mem_cons.mp hf with rfl | hf
      · exact ⟨rfl, rfl⟩
      · exact ih (next + 1) f hf

theorem standIns_perm (rest : List DetectedFace) (next : FaceId) :
    (standIns assetId detected found rest next).Perm
      (taken detected found rest ++ newFaces assetId detected found rest next) := by
  induction rest generalizing next with
  | nil => exact List.Perm.refl _
  | cons d rest ih =>
    rw [standIns_cons, newFaces_cons]
    cases hmatched : matched detected found d with
    | some f =>
      rw [taken_cons_some hmatched]
      exact (ih next).cons f
    | none =>
      rw [taken_cons_none hmatched]
      exact ((ih (next + 1)).cons _).trans List.perm_middle.symm

end Loop

/-! The whole handler. -/

section Handler

variable {distance : Embedding → Embedding → ℚ} {detected : DetectedFaces} {ω : FaceOracle}
  {s : FaceStore}
  {assetId : AssetId} {asset : Asset}

/-- The tables after the count is noted and the jobs are queued. -/
def concluded (assetId : AssetId) (eventId : EventId) (n : ℕ) (facesToAdd : List AssetFace)
    (s : FaceStore) :
    FaceStore :=
  if facesToAdd ≠ [] then
    (s.setFacesDetected assetId n).queueAll (facesToAdd.map (fun f => .faceRecognize f.id false) ++
      [.faceRecognizeQueueAll eventId false, .participantRematch eventId])
  else s.setFacesDetected assetId n

theorem conclude_outcome (hω : Calm detected ω) (n : ℕ) (eventId : EventId)
    (facesToAdd : List AssetFace) :
    outcome distance (do
      call (.setFacesDetected assetId n)
      onlyIf (facesToAdd ≠ []) (call (.queueAll
        (facesToAdd.map (fun f => .faceRecognize f.id false) ++
        [.faceRecognizeQueueAll eventId false, .participantRematch eventId])))
      pure JobStatus.success : Attempt JobStatus) ω s =
      (.ok .success, concluded assetId eventId n facesToAdd s) := by
  have hcount : ∀ proposed, statement distance (.setFacesDetected assetId n) proposed s =
      some ((), s.setFacesDetected assetId n) := fun _ => rfl
  obtain ⟨ω₁, hω₁, hstep⟩ := outcome_call (f := fun _ => (do
      onlyIf (facesToAdd ≠ [])
        (call (.queueAll (facesToAdd.map (fun f => .faceRecognize f.id false) ++
        [.faceRecognizeQueueAll eventId false, .participantRematch eventId])))
      pure JobStatus.success : Attempt JobStatus)) hω hcount
  refine hstep.trans ?_
  unfold onlyIf concluded
  split
  · have hqueue :
      ∀ proposed,
      statement distance (.queueAll (facesToAdd.map (fun f => .faceRecognize f.id false) ++
        [.faceRecognizeQueueAll eventId false, .participantRematch eventId])) proposed
        (s.setFacesDetected assetId n) = some ((), (s.setFacesDetected assetId n).queueAll _) :=
          fun _ => rfl
    obtain ⟨ω₂, hω₂, hlast⟩ := outcome_call (o := .queueAll _)
      (f := fun _ => (pure JobStatus.success : Attempt JobStatus)) hω₁ hqueue
    exact hlast
  · rfl

/-- What a detection that works out `result` makes of the tables. -/
def refreshed (assetId : AssetId) (eventId : EventId) (n : ℕ) (result : Reconciled)
    (s : FaceStore) :
    Except FaceError JobStatus × FaceStore :=
  if result.facesToAdd ≠ [] ∨ result.mlFaceIds ≠ [] ∨ result.embeddings ≠ [] then
    match s.refreshFaces result.facesToAdd result.mlFaceIds result.embeddings with
    | none => (.error .constraint, s)
    | some s' => (.ok .success, concluded assetId eventId n result.facesToAdd s')
  else (.ok .success, concluded assetId eventId n result.facesToAdd s)

theorem refresh_outcome (hω : Calm detected ω) (n : ℕ) (eventId : EventId) (result : Reconciled) :
    outcome distance (do
      onlyIf (result.facesToAdd ≠ [] ∨ result.mlFaceIds ≠ [] ∨ result.embeddings ≠ [])
        (call (.refreshFaces result.facesToAdd result.mlFaceIds result.embeddings))
      call (.setFacesDetected assetId n)
      onlyIf (result.facesToAdd ≠ []) (call (.queueAll
        (result.facesToAdd.map (fun f => .faceRecognize f.id false) ++
        [.faceRecognizeQueueAll eventId false, .participantRematch eventId])))
      pure JobStatus.success : Attempt JobStatus) ω s = refreshed assetId eventId n result s := by
  unfold refreshed
  rw [onlyIf]
  split
  · cases hrefresh : s.refreshFaces result.facesToAdd result.mlFaceIds result.embeddings with
    | none =>
      have hrefused : ∀ proposed, statement distance
          (.refreshFaces result.facesToAdd result.mlFaceIds result.embeddings) proposed s = none :=
            fun _ => by
        rw [statement, hrefresh]
        rfl
      exact outcome_refused hω hrefused
    | some s' =>
      have hdone : ∀ proposed, statement distance
          (.refreshFaces result.facesToAdd result.mlFaceIds result.embeddings) proposed s =
            some ((), s') := fun _ => by
        rw [statement, hrefresh]
        rfl
      obtain ⟨ω₁, hω₁, hstep⟩ := outcome_call hω hdone
      exact hstep.trans (conclude_outcome hω₁ n eventId result.facesToAdd)
  · exact conclude_outcome hω n eventId result.facesToAdd

/-- The tables once ids are drawn for the new faces. -/
def drawn (assetId : AssetId) (detected : DetectedFaces) (s : FaceStore) : FaceStore :=
  { s with nextFace := s.nextFace +
      (newFaces assetId detected (s.getByAssetId assetId) detected.faces s.nextFace).length }

theorem detect_outcome (hω : Calm detected ω) (hasset : s.getByIdUnscoped assetId = some asset)
    (hpreview : asset.hasPreview = true) :
    outcome distance (handleDetectFaces assetId) ω s =
      refreshed assetId asset.eventId detected.faces.length
        (reconciled assetId detected (s.getByAssetId assetId) detected.faces
          (unmatched (s.getByAssetId assetId)) s.nextFace) (drawn assetId detected s) := by
  have hrow : s.asset assetId = some asset := (Option.filter_eq_some_iff.mp hasset).1
  have hread :
    ∀ proposed, statement distance (.getByIdUnscoped assetId) proposed s = some (some asset, s) :=
    fun _ => by rw [statement, hasset]
  have hfiles : ∀ proposed, statement distance (.getFiles assetId) proposed s = some (true, s) :=
    fun _ => by
    simp [statement, hrow, hpreview]
  have hfaces : ∀ proposed, statement distance (.getByAssetId assetId) proposed s =
      some (s.getByAssetId assetId, s) := fun _ => rfl
  unfold handleDetectFaces
  obtain ⟨ω₁, hω₁, h₁⟩ := outcome_call hω hread
  rw [h₁]
  obtain ⟨ω₂, hω₂, h₂⟩ := outcome_call hω₁ hfiles
  simp only
  rw [h₂, if_neg (by simp)]
  obtain ⟨config, ω₃, hω₃, h₃⟩ := outcome_given (o := .getConfig asset.eventId) hω₂ (fun _ => rfl)
  rw [h₃]
  obtain ⟨_, ω₄, hω₄, h₄⟩ := outcome_given (o := .downloadToFile assetId) hω₃ (fun _ => rfl)
  rw [h₄]
  obtain ⟨ω₅, hω₅, h₅⟩ := outcome_detect hω₄
  rw [h₅]
  obtain ⟨ω₆, hω₆, h₆⟩ := outcome_call hω₅ hfaces
  rw [h₆]
  obtain ⟨ω₇, hω₇, h₇⟩ := outcome_reconcile hω₆ detected.faces (unmatched (s.getByAssetId assetId))
  exact h₇.trans (refresh_outcome hω₇ _ _ _)

end Handler

end EventLens.Faces

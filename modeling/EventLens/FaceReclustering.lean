import EventLens.FaceClustering
import EventLens.Keyset

/-!
Forced re-clustering of an event and the recognition jobs it leads to, handled
one at a time in the order of the queue. Core faces and the faces near them end
with a person, nobody loses one on the way, and no face is handled more than
twice. The search refuses windows of more than a thousand, and so does the
clustering of an event with a larger minimum of faces.
-/

namespace EventLens.Faces

open Programs Clustering

/-! What is queued. -/

/-- The event's faces without a person, in the order of their ids. -/
def FaceStore.unassigned (s : FaceStore) (eventId : EventId) : List FaceId :=
  ((s.faces.filter (fun f => (s.asset f.assetId).any (fun a => a.eventId = eventId ∧
      a.deleted = false) ∧ f.deleted = false ∧ f.personId = none ∧
      f.sourceType = .machineLearning)).map AssetFace.id).insertionSort (fun i j => i ≤ j)

section Pages

variable {s s' : FaceStore} {distance : Embedding → Embedding → ℚ}
  {config : FacialRecognitionConfig}
  {eventId : EventId} {x : FaceId}

theorem sorted_ids (ids : List FaceId) (h : ids.Nodup) :
    (ids.insertionSort (fun i j => i ≤ j)).Pairwise (fun i j => i < j) := by
  have hsorted := Nearest.sorted_keys (fun i : FaceId => i) ids
  have hdistinct : (ids.insertionSort (fun i j => i ≤ j)).Nodup :=
    (List.perm_insertionSort _ ids).nodup_iff.mpr h
  exact (hsorted.and hdistinct).imp fun hij => Nat.lt_of_le_of_ne hij.1 hij.2

theorem unassigned_sorted (hkeys : (s.faces.map AssetFace.id).Nodup) (eventId : EventId) :
    (s.unassigned eventId).Pairwise (fun i j => i < j) :=
  sorted_ids _ (hkeys.sublist (List.filter_sublist.map _))

theorem mem_unassigned {i : FaceId} : i ∈ s.unassigned eventId ↔ ∃ f ∈ s.faces, f.id = i ∧
    (s.asset f.assetId).any (fun a => a.eventId = eventId ∧ a.deleted = false) = true ∧
      f.deleted = false ∧ f.personId = none := by
  unfold FaceStore.unassigned
  rw [List.mem_insertionSort, List.mem_map]
  constructor
  · rintro ⟨f, hf, rfl⟩
    obtain ⟨hmem, hok⟩ := List.mem_filter.mp hf
    obtain ⟨hasset, hdeleted, hperson, -⟩ := of_decide_eq_true hok
    exact ⟨f, hmem, rfl, hasset, hdeleted, hperson⟩
  · rintro ⟨f, hf, rfl, hasset, hdeleted, hperson⟩
    refine ⟨f, List.mem_filter.mpr ⟨hf, decide_eq_true ⟨hasset, hdeleted, hperson, ?_⟩⟩, rfl⟩
    cases f.sourceType
    rfl

/-- A page is cut from what lies behind the cursor. -/
theorem getUnassignedFaceIds_eq (hkeys : (s.faces.map AssetFace.id).Nodup) (limit : ℕ)
    (afterId : Option FaceId) : s.getUnassignedFaceIds eventId limit afterId =
      ((s.unassigned eventId).filter (fun i => afterId.all (fun k => k < i))).take limit := by
  unfold FaceStore.getUnassignedFaceIds FaceStore.unassigned
  refine congrArg (List.take limit) ?_
  have hselect : ((s.faces.filter (fun f => (s.asset f.assetId).any (fun a => a.eventId = eventId ∧
        a.deleted = false) ∧ f.deleted = false ∧ f.personId = none ∧
        f.sourceType = .machineLearning ∧ afterId.all (fun k => k < f.id))).map AssetFace.id) =
      ((s.faces.filter (fun f => (s.asset f.assetId).any (fun a => a.eventId = eventId ∧
        a.deleted = false) ∧ f.deleted = false ∧ f.personId = none ∧
        f.sourceType = .machineLearning)).map AssetFace.id).filter
          (fun i => afterId.all (fun k => k < i)) := by
    rw [List.filter_map, List.filter_filter]
    refine congrArg (List.map AssetFace.id) (List.filter_congr fun f _ => ?_)
    simp only [Function.comp_apply, Bool.decide_and, Bool.decide_eq_true]
    ac_rfl
  rw [hselect]
  generalize hids :
    (s.faces.filter (fun f => (s.asset f.assetId).any (fun a => a.eventId = eventId ∧
        a.deleted = false) ∧ f.deleted = false ∧ f.personId = none ∧
        f.sourceType = .machineLearning)).map AssetFace.id = ids
  have hdistinct : ids.Nodup := hids ▸ hkeys.sublist (List.filter_sublist.map _)
  refine List.Perm.eq_of_pairwise (fun i j _ _ hij hji => absurd hji (Nat.lt_asymm hij))
    (sorted_ids _ (hdistinct.filter _)) ((sorted_ids _ hdistinct).filter _) ?_
  exact (List.perm_insertionSort _ _).trans ((List.perm_insertionSort _ ids).filter _).symm

/-- Nothing but recognition jobs for these faces is added. -/
structure Queues (ids : List FaceId) (s s' : FaceStore) : Prop where
  tables : ∃ jobs, s' = { s with jobs := jobs }
  recognitions : s'.recognitions = s.recognitions ++ ids.map (fun id => (id, false))

theorem queueAll_queues (s : FaceStore) (ids : List FaceId) :
    Queues ids s (s.queueAll (ids.map (fun id => .faceRecognize id false))) := by
  refine ⟨queueAll_jobs _, ?_⟩
  rw [recognitions_queueAll, List.filterMap_map]
  refine congrArg (s.recognitions ++ ·) ?_
  rw [← List.filterMap_eq_map]
  rfl

theorem Queues.trans {ids ids' : List FaceId} {s'' : FaceStore} (h : Queues ids s s')
    (h' : Queues ids' s' s'') : Queues (ids ++ ids') s s'' := by
  obtain ⟨⟨jobs, rfl⟩, hfirst⟩ := h
  obtain ⟨⟨jobs', rfl⟩, hsecond⟩ := h'
  refine ⟨⟨jobs', rfl⟩, ?_⟩
  rw [hsecond, hfirst, List.map_append, List.append_assoc]

/-- The pages queue what lies behind the cursor. -/
theorem queuePages_ends {α : Type} {f : Unit → Attempt α}
    {Q : Except FaceError α → FaceStore → Prop}
    (hkeys : (s.faces.map AssetFace.id).Nodup) (pages : ℕ) {afterId : Option FaceId}
    {rest : List FaceId}
    (hrest : (s.unassigned eventId).filter (fun i => afterId.all (fun k => k < i)) = rest)
    (hpages : rest.length < pages) (h : ∀ s', Queues rest s s' → Ends distance config (f ()) s' Q) :
    Ends distance config (queuePages eventId pages afterId >>= f) s Q := by
  induction pages generalizing s afterId rest with
  | zero => omega
  | succ pages ih =>
    rw [queuePages]
    simp only [bind_assoc]
    refine ends_call fun _ _ => ⟨_, s, rfl, ?_⟩
    rw [getUnassignedFaceIds_eq hkeys, hrest]
    have hsize : (1 : ℕ) ≤ QUEUE_ALL_PAGE_SIZE := by decide
    generalize QUEUE_ALL_PAGE_SIZE = size at hsize
    by_cases hempty : rest.take size = []
    · rw [if_pos hempty]
      have hnone : rest = [] := by
        rcases List.take_eq_nil_iff.mp hempty with hzero | hnil
        · omega
        · exact hnil
      refine h s ⟨⟨s.jobs, rfl⟩, ?_⟩
      rw [hnone]
      exact (List.append_nil _).symm
    · rw [if_neg hempty]
      simp only [bind_assoc]
      obtain ⟨pre, last, hpage⟩ := List.eq_nil_or_concat _ |>.resolve_left hempty
      rw [List.concat_eq_append] at hpage
      have hsplit : rest = pre ++ last :: rest.drop size := by
        rw [List.append_cons, ← hpage, List.take_append_drop]
      have hsorted : rest.Pairwise (fun i j => i < j) :=
        hrest ▸ (unassigned_sorted hkeys eventId).filter _
      have hnext : rest.filter (fun i => last < i) = rest.drop size := by
        rw [hsplit] at hsorted
        have hbehind := Keyset.filter_before (fun _ _ hij => Nat.lt_asymm hij) hsorted
        rwa [← hsplit] at hbehind
      have hcursor : (s.unassigned eventId).filter (fun i => (some last).all (fun k => k < i)) =
          rest.drop size := by
        rw [← hnext, ← hrest, List.filter_filter]
        refine List.filter_congr fun i hi => ?_
        have hlast :
          last ∈ (s.unassigned eventId).filter (fun i => afterId.all (fun k => k < i)) := by
          rw [hrest, hsplit]
          exact List.mem_append_right _ List.mem_cons_self
        have hbehind := (List.mem_filter.mp hlast).2
        cases afterId with
        | none => simp
        | some k =>
          simp only [Option.all_some, decide_eq_true_eq] at hbehind ⊢
          by_cases hi' : last < i
          · simp [hi', hbehind.trans hi']
          · simp [hi']
      refine ends_call fun _ _ => ⟨(), _, rfl, ?_⟩
      obtain ⟨⟨jobs, hjobs⟩, hqueued⟩ := queueAll_queues s (rest.take size)
      rw [hjobs] at hqueued ⊢
      have hlast : (rest.take size).getLast? = some last := by
        rw [hpage]
        exact List.getLast?_concat
      rw [hlast]
      refine ih (s := { s with jobs := jobs }) hkeys hcursor ?_ fun s' hs' => h s' ?_
      · have hlength := congrArg List.length hsplit
        rw [List.length_append, List.length_cons] at hlength
        omega
      · have hboth := Queues.trans ⟨⟨jobs, rfl⟩, hqueued⟩ hs'
        rwa [List.take_append_drop] at hboth

end Pages

/-! Persons are taken off the faces. -/

/-- No face of the event has a person. -/
def FaceStore.Unlabelled (s : FaceStore) (eventId : EventId) : Prop :=
  ∀ x, (s.labels eventId).label x = none

section Reset

variable {s s' : FaceStore} {distance : Embedding → Embedding → ℚ}
  {config : FacialRecognitionConfig}
  {eventId : EventId}

theorem unassign_reset (href : Referenced s) (eventId : EventId) :
    SamePhotos s (s.unassignByEvent eventId) ∧ Referenced (s.unassignByEvent eventId) ∧
      (s.unassignByEvent eventId).Unlabelled eventId := by
  have hphotos : SamePhotos s (s.unassignByEvent eventId) := by
    refine ⟨⟨_, rfl, fun f => ?_⟩, rfl, rfl⟩
    split
    · exact ⟨none, rfl⟩
    · exact ⟨f.personId, rfl⟩
  refine ⟨hphotos, fun f hf p hp => ?_, fun x => ?_⟩
  · obtain ⟨before, hbefore, rfl⟩ := List.mem_map.mp hf
    split at hp
    · cases hp
    · exact href before hbefore p hp
  · cases hx : (s.unassignByEvent eventId).clusterable eventId x with
    | none =>
      change ((s.unassignByEvent eventId).clusterable eventId x).bind _ = none
      rw [hx]
      rfl
    | some v =>
      obtain ⟨f, a, hf, ha, -, haevent, hadeleted, -⟩ := clusterable_eq_some hx
      rw [label_of_face hf hx]
      obtain ⟨hmem, -⟩ := FaceStore.face_mem hf
      obtain ⟨before, -, rfl⟩ := List.mem_map.mp hmem
      have hasset :
        (s.asset before.assetId).any (fun a => a.eventId = eventId ∧ a.deleted = false) = true := by
        have hfound : s.asset before.assetId = some a := by
          split at ha <;> exact ha
        rw [hfound]
        exact decide_eq_true ⟨haevent, hadeleted⟩
      rw [if_pos ⟨by cases before.sourceType; rfl, hasset⟩]

theorem deletePersons_reset (href : Referenced s) (hnone : s.Unlabelled eventId)
    (ids : List PersonId) :
    SamePhotos s (s.deletePersons ids) ∧ Referenced (s.deletePersons ids) ∧
      (s.deletePersons ids).Unlabelled eventId := by
  have hphotos : SamePhotos s (s.deletePersons ids) := ⟨⟨_, rfl, fun f => ⟨_, rfl⟩⟩, rfl, rfl⟩
  refine ⟨hphotos, fun f hf p hp => ?_, fun x => ?_⟩
  · obtain ⟨before, hbefore, rfl⟩ := List.mem_map.mp hf
    obtain ⟨hperson, hkept⟩ := Option.mem_filter_iff.mp hp
    obtain ⟨row, hrow, rfl⟩ := href before hbefore p hperson
    exact ⟨row, List.mem_filter.mpr ⟨hrow, hkept⟩, rfl⟩
  · cases hx : s.clusterable eventId x with
    | none =>
      change ((s.deletePersons ids).clusterable eventId x).bind _ = none
      rw [hphotos.clusterable, hx]
      rfl
    | some v =>
      have hx' : (s.deletePersons ids).clusterable eventId x = some v :=
        (hphotos.clusterable x).trans hx
      obtain ⟨f, -, hf, -⟩ := clusterable_eq_some hx
      have hbefore := hnone x
      rw [label_of_face hf hx] at hbefore
      have hface : (s.deletePersons ids).face x =
          some { f with personId := f.personId.filter (fun p => p ∉ ids) } := by
        have hfound := find?_map_id (i := AssetFace.id)
          (g := fun f => { f with personId := f.personId.filter (fun p => p ∉ ids) }) (fun _ => rfl)
          s.faces x
        exact hfound.trans (congrArg (Option.map _) hf)
      rw [label_of_face hface hx']
      simp only [hbefore]
      rfl

theorem queueAll_reset (href : Referenced s) (hnone : s.Unlabelled eventId) (items : List FaceJob)
    (hother : items.filterMap recognition = []) :
    SamePhotos s (s.queueAll items) ∧ Referenced (s.queueAll items) ∧
      (s.queueAll items).Unlabelled eventId ∧ (s.queueAll items).recognitions = s.recognitions := by
  obtain ⟨hphotos, -, hlabels⟩ := queueAll_same s eventId items
  refine ⟨hphotos, referenced_queueAll href items, fun x => ?_, ?_⟩
  · rw [hlabels]
    exact hnone x
  · rw [recognitions_queueAll, hother, List.append_nil]

/-- Cleanup leaves the faces without persons as they are. -/
theorem personCleanup_ends {α : Type} {f : JobStatus → Attempt α}
    {Q : Except FaceError α → FaceStore → Prop} (href : Referenced s) (hnone : s.Unlabelled eventId)
    (h : ∀ status s', SamePhotos s s' → Referenced s' → s'.Unlabelled eventId →
      s'.recognitions = s.recognitions → Ends distance config (f status) s' Q) :
    Ends distance config (handlePersonCleanup >>= f) s Q := by
  unfold handlePersonCleanup
  simp only [bind_assoc]
  refine ends_call fun _ _ => ⟨_, s, rfl, ?_⟩
  split
  · exact h _ s (samePhotos_aside rfl rfl rfl) href hnone rfl
  · simp only [bind_assoc, pure_bind]
    refine ends_onlyIf (fun _ => ends_call fun _ _ => ⟨(), _, rfl, ?_⟩) fun _ => ?_
    · obtain ⟨hphotos, href', hnone', hjobs⟩ := queueAll_reset href hnone
        [.cleanupKeys ((s.getAllWithoutFaces.map Person.thumbnailKey).filter (fun key => key ≠ ""))]
          rfl
      refine ends_call fun _ _ => ⟨(), _, rfl, ?_⟩
      obtain ⟨hphotos', href'', hnone''⟩ :=
        deletePersons_reset href' hnone' (s.getAllWithoutFaces.map Person.id)
      exact h _ _ (hphotos.trans hphotos') href'' hnone'' hjobs
    · refine ends_call fun _ _ => ⟨(), _, rfl, ?_⟩
      obtain ⟨hphotos, href', hnone'⟩ :=
        deletePersons_reset href hnone (s.getAllWithoutFaces.map Person.id)
      exact h _ _ hphotos href' hnone' rfl

/-- What forced re-clustering leaves to recognition: every face of the event,
once, and none of them with a person. -/
structure Requeued (eventId : EventId) (s s' : FaceStore) : Prop where
  photos : SamePhotos s s'
  referenced : Referenced s'
  unlabelled : s'.Unlabelled eventId
  queue : s'.recognitions = s.recognitions ++ (s'.unassigned eventId).map (fun x => (x, false))

theorem unassigned_length_le (s : FaceStore) (eventId : EventId) :
    (s.unassigned eventId).length ≤ s.faces.length := by
  unfold FaceStore.unassigned
  rw [List.length_insertionSort, List.length_map]
  exact List.length_filter_le _ _

theorem queueRecognizeFaces_ends (hkeys : (s.faces.map AssetFace.id).Nodup) (href : Referenced s)
    (eventId : EventId) {pages : ℕ} (hpages : s.faces.length < pages) :
    Ends distance config (handleQueueRecognizeFaces pages eventId true) s
      (fun value s' => value = .ok .success ∧ Requeued eventId s s') := by
  unfold handleQueueRecognizeFaces
  refine ends_call fun _ _ => ⟨_, s, rfl, ends_onlyIf (fun _ => ?_) fun hf => absurd rfl hf⟩
  simp only [bind_assoc, pure_bind]
  refine ends_call fun _ _ => ⟨(), _, rfl, ?_⟩
  obtain ⟨hphotos, href', hnone⟩ := unassign_reset href eventId
  refine personCleanup_ends href' hnone fun _ s₁ hphotos₁ href₁ hnone₁ hjobs₁ => ?_
  refine ends_call fun _ _ => ⟨_, s₁, rfl, ?_⟩
  have hsame := hphotos.trans hphotos₁
  have hkeys₁ : (s₁.faces.map AssetFace.id).Nodup := hsame.ids ▸ hkeys
  have hlength : (s₁.unassigned eventId).length < pages := by
    have hids := congrArg List.length hsame.ids
    rw [List.length_map, List.length_map] at hids
    have hle := unassigned_length_le s₁ eventId
    omega
  have hall :
    (s₁.unassigned eventId).filter (fun i => (none : Option FaceId).all (fun k => k < i)) =
      s₁.unassigned eventId := List.filter_eq_self.mpr fun _ _ => rfl
  refine queuePages_ends hkeys₁ pages hall hlength fun s₂ hqueued => ?_
  obtain ⟨⟨jobs, rfl⟩, hrecognitions⟩ := hqueued
  refine ends_call fun _ _ => ⟨(), _, rfl, ends_pure ⟨rfl, ?_⟩⟩
  obtain ⟨jobs', hjobs'⟩ :=
    queueAll_jobs (s := { s₁ with jobs := jobs }) [.participantRematch eventId]
  have hqueue := recognitions_queueAll [.participantRematch eventId] { s₁ with jobs := jobs }
  rw [hjobs'] at hqueue ⊢
  refine ⟨hsame.trans (samePhotos_aside rfl rfl rfl), href₁, hnone₁, ?_⟩
  rw [hqueue, hrecognitions, hjobs₁]
  exact List.append_nil _

end Reset

/-! The queue is drained. -/

/-- A recognition job with the tables before and after it. -/
structure RecognitionRun where
  faceId : FaceId
  deferred : Bool
  before : FaceStore
  value : Except FaceError JobStatus
  after : FaceStore

/-- The recognition jobs one at a time, in the order of the queue. -/
def drain (distance : Embedding → Embedding → ℚ) : ℕ → (ℕ → Oracle FaceOp FaceRes) → FaceStore →
    List RecognitionRun × FaceStore
  | 0, _, s => ([], s)
  | fuel + 1, ω, s =>
    match takeRecognition s.jobs with
    | none => ([], s)
    | some ((x, deferred), jobs) =>
      let job := run (faceHandler distance) (handleRecognizeFaces x deferred).run (ω 0)
        { s with jobs := jobs }
      let rest := drain distance fuel (fun n => ω (n + 1)) job.state
      (⟨x, deferred, s, job.value, job.state⟩ :: rest.1, rest.2)

/-- What clustering an event from scratch comes to. -/
structure Clustered (distance : Embedding → Embedding → ℚ) (config : FacialRecognitionConfig)
    (eventId : EventId) (runs : List RecognitionRun) (s : FaceStore) : Prop where
  drained : s.recognitions = []
  cores : ∀ x, s.core distance eventId config x → s.personOf x ≠ none
  fringe : ∀ x, ¬ s.core distance eventId config x →
    (∃ c, s.core distance eventId config c ∧ s.near distance eventId config.maxDistance x c) →
      s.personOf x ≠ none
  linked : ∀ x p, s.clusterable eventId x ≠ none → s.personOf x = some p →
    (∃ person ∈ s.persons, person.id = p ∧ person.faceAssetFaceId = some x) ∨
      ∃ y, y ≠ x ∧ s.near distance eventId config.maxDistance x y ∧ s.personOf y = some p
  kept : ∀ r ∈ runs, ∀ y p, r.before.personOf y = some p → r.after.personOf y = some p
  twice : ∀ x, runs.countP (fun r => r.faceId = x) ≤ 2

section Drain

variable {s s' : FaceStore} {distance : Embedding → Embedding → ℚ}
  {config : FacialRecognitionConfig}
  {eventId : EventId}

/-- Queued faces are of the event. -/
def QueuedOf (eventId : EventId) (s : FaceStore) : Prop :=
  ∀ x deferred, (x, deferred) ∈ s.recognitions →
    ∀ face, s.getForRecognition x = some face → face.eventId = eventId

theorem SamePhotos.eventOf_recognized (h : SamePhotos s s') {x : FaceId}
    {face' : FaceForRecognition}
    (hface : s'.getForRecognition x = some face') :
    ∃ face, s.getForRecognition x = some face ∧ face.eventId = face'.eventId := by
  obtain ⟨f', a, hf', ha, hfdeleted, hadeleted, rfl⟩ := getForRecognition_eq_some hface
  obtain ⟨g, hg, hsame⟩ := h.face x
  rw [hg] at hf'
  obtain ⟨f, hf, rfl⟩ := Option.map_eq_some_iff.mp hf'
  obtain ⟨p, hp⟩ := hsame f
  rw [hp] at ha hfdeleted
  have ha' : s.asset f.assetId = some a := by
    rw [FaceStore.asset, ← h.assets]
    exact ha
  have hlive : f.deleted = false := hfdeleted
  unfold FaceStore.getForRecognition
  simp [hf, ha', hlive, hadeleted]

/-- A drained queue is a run of clustering, job by job. -/
theorem drain_runs (hdist : IsDistance distance)
    (hsize : 1 ≤ config.minFaces ∧ config.minFaces ≤ 1000)
    (fuel : ℕ) {ω : ℕ → Oracle FaceOp FaceRes} (hω : ∀ n, Undisturbed config (ω n))
    (hkeys : (s.faces.map AssetFace.id).Nodup) (href : Referenced s) (hqueue : QueuedOf eventId s) :
    SamePhotos s (drain distance fuel ω s).2 ∧
      Runs (s.near distance eventId config.maxDistance)
      (s.core distance eventId config) s.recognitions
        (s.labels eventId) ((drain distance fuel ω s).1.map (fun r => (r.faceId, r.deferred)))
        (drain distance fuel ω s).2.recognitions ((drain distance fuel ω s).2.labels eventId) ∧
      (∀ r ∈ (drain distance fuel ω s).1, ∀ y p, r.before.personOf y = some p →
        r.after.personOf y = some p) ∧
      ((drain distance fuel ω s).1.length < fuel →
      (drain distance fuel ω s).2.recognitions = []) := by
  induction fuel generalizing ω s with
  | zero =>
    exact ⟨samePhotos_aside rfl rfl rfl, Runs.start _ _, fun r hr => absurd hr List.not_mem_nil,
      fun h => absurd h (Nat.lt_irrefl 0)⟩
  | succ fuel ih =>
    rw [drain]
    cases htake : takeRecognition s.jobs with
    | none =>
      exact ⟨samePhotos_aside rfl rfl rfl, Runs.start _ _, fun r hr => absurd hr List.not_mem_nil,
        fun _ => takeRecognition_none htake⟩
    | some taken =>
      obtain ⟨⟨x, deferred⟩, jobs⟩ := taken
      have hhead : s.recognitions = (x, deferred) ::
        ({ s with jobs := jobs } : FaceStore).recognitions :=
        takeRecognition_some htake
      have hevent : ∀ face, s.getForRecognition x = some face → face.eventId = eventId :=
        hqueue x deferred (hhead ▸ List.mem_cons_self)
      have hstep : StepOf distance config eventId x deferred { s with jobs := jobs } _ _ :=
        recognizeFaces_ends (s :=
          { s with jobs := jobs }) hdist hsize hkeys href hevent (ω 0) (hω 0)
      simp only
      generalize run (faceHandler distance) (handleRecognizeFaces x deferred).run (ω 0)
        { s with jobs := jobs } = job at hstep
      obtain ⟨-, ⟨added, hhandles, hadded⟩, hphotos, href', hkept⟩ := hstep
      have hphotos' : SamePhotos s job.state :=
        (samePhotos_aside rfl rfl rfl : SamePhotos s { s with jobs := jobs }).trans hphotos
      have hqueue' : QueuedOf eventId job.state := by
        intro y again hy face' hface'
        obtain ⟨face, hface, hsame⟩ := hphotos'.eventOf_recognized hface'
        rw [← hsame]
        rw [hadded] at hy
        rcases List.mem_append.mp hy with hy | hy
        · exact hqueue y again (hhead ▸ List.mem_cons_of_mem _ hy) face hface
        · cases hhandles.queuedAgain _ hy
          exact hevent face hface
      obtain ⟨hrest, hruns, hlater, hended⟩ :=
        ih (fun n => hω (n + 1)) (hphotos'.ids ▸ hkeys) href' hqueue'
      refine ⟨hphotos'.trans hrest, ?_, fun r hr => ?_, fun hlength => ?_⟩
      · rw [hphotos'.near, hphotos'.core, hadded] at hruns
        rw [hhead]
        exact Runs.next hhandles hruns
      · rcases List.mem_cons.mp hr with rfl | hr
        · exact hkept
        · exact hlater r hr
      · exact hended (Nat.lt_of_succ_lt_succ hlength)

theorem clusterable_of_core (hsize : 1 ≤ config.minFaces) {x : FaceId}
    (hcore : s.core distance eventId config x) : s.clusterable eventId x ≠ none := by
  intro hnone
  have hzero : s.faces.countP (fun f => s.near distance eventId config.maxDistance x f.id) = 0 := by
    refine List.countP_eq_zero.mpr fun f _ hnear => ?_
    obtain ⟨v, hv, -⟩ := of_decide_eq_true hnear
    rw [hnone] at hv
    cases hv
  unfold FaceStore.core at hcore
  omega

theorem label_of_clusterable {x : FaceId} (hx : s.clusterable eventId x ≠ none) :
    (s.labels eventId).label x = s.personOf x := by
  obtain ⟨v, hv⟩ := Option.ne_none_iff_exists'.mp hx
  change (s.clusterable eventId x).bind (fun _ => s.personOf x) = s.personOf x
  rw [hv]
  rfl

theorem personOf_of_label {x : FaceId} {p : PersonId} (h : (s.labels eventId).label x = some p) :
    s.personOf x = some p := by
  obtain ⟨-, -, hp⟩ := Option.bind_eq_some_iff.mp h
  exact hp

/-- Faces of the event are queued, and only they. -/
theorem Requeued.mem_unassigned (h : Requeued eventId s s') {x : FaceId}
    (hx : s'.clusterable eventId x ≠ none) : x ∈ s'.unassigned eventId := by
  obtain ⟨v, hv⟩ := Option.ne_none_iff_exists'.mp hx
  obtain ⟨f, a, hf, ha, -, haevent, hadeleted, hfdeleted⟩ := clusterable_eq_some hv
  obtain ⟨hmem, hid⟩ := FaceStore.face_mem hf
  have hlabel := h.unlabelled x
  rw [label_of_face hf hv] at hlabel
  refine Faces.mem_unassigned.mpr ⟨f, hmem, hid, ?_, hfdeleted, hlabel⟩
  rw [ha]
  exact decide_eq_true ⟨haevent, hadeleted⟩

theorem Requeued.queuedOf (h : Requeued eventId s s') (hkeys : (s.faces.map AssetFace.id).Nodup)
    (hempty : s.recognitions = []) : QueuedOf eventId s' := by
  intro x deferred hx face hface
  rw [h.queue, hempty] at hx
  obtain ⟨y, hy, heq⟩ := List.mem_map.mp hx
  obtain ⟨rfl, -⟩ := Prod.mk.inj heq
  obtain ⟨g, hg, hid, hasset, -, -⟩ := Faces.mem_unassigned.mp hy
  obtain ⟨f, a, hf, ha, -, -, rfl⟩ := getForRecognition_eq_some hface
  have hkeys' : (s'.faces.map AssetFace.id).Nodup := h.photos.ids ▸ hkeys
  obtain ⟨hmem, hfid⟩ := FaceStore.face_mem hf
  rw [eq_of_id hkeys' hg hmem (hid.trans hfid.symm), ha] at hasset
  exact (of_decide_eq_true hasset).1

/-- Before recognition nothing is done yet. -/
theorem Requeued.progress (h : Requeued eventId s s') :
    Progress (s'.near distance eventId config.maxDistance) (s'.core distance eventId config)
      (s'.unassigned eventId) (s'.unassigned eventId) [] (s'.labels eventId) := by
  refine ⟨fun x hx _ => .inl hx, fun x hx _ => .inl hx, fun x hx => absurd hx List.not_mem_nil,
    fun x p hp => ?_⟩
  rw [h.unlabelled x] at hp
  cases hp

/-- Forced re-clustering and the recognition it leads to cluster the event. -/
theorem reclustered (hdist : IsDistance distance)
    (hsize : 1 ≤ config.minFaces ∧ config.minFaces ≤ 1000)
    (hkeys : (s.faces.map AssetFace.id).Nodup)
    (href : Referenced s) (hempty : s.recognitions = []) {pages : ℕ}
    (hpages : s.faces.length < pages)
    {ω₀ : Oracle FaceOp FaceRes} (hω₀ : Undisturbed config ω₀) {fuel : ℕ}
    (hfuel : 2 * s.faces.length < fuel) {ω : ℕ → Oracle FaceOp FaceRes}
    (hω : ∀ n, Undisturbed config (ω n)) :
    (run (faceHandler distance) (handleQueueRecognizeFaces pages eventId true).run ω₀ s).value =
        .ok .success ∧
      Clustered distance config eventId
        (drain distance fuel ω
          (run (faceHandler distance)
          (handleQueueRecognizeFaces pages eventId true).run ω₀ s).state).1
        (drain distance fuel ω
          (run (faceHandler distance)
          (handleQueueRecognizeFaces pages eventId true).run ω₀ s).state).2 := by
  obtain ⟨hvalue, hrequeued⟩ := queueRecognizeFaces_ends hkeys href eventId hpages ω₀ hω₀
  refine ⟨hvalue, ?_⟩
  generalize (run (faceHandler distance)
    (handleQueueRecognizeFaces pages eventId true).run ω₀ s).state =
    s₁ at hrequeued
  have hkeys₁ : (s₁.faces.map AssetFace.id).Nodup := hrequeued.photos.ids ▸ hkeys
  obtain ⟨hphotos, hruns, hkept, hended⟩ := drain_runs hdist hsize fuel hω hkeys₁
    hrequeued.referenced (hrequeued.queuedOf hkeys hempty)
  generalize drain distance fuel ω s₁ = drained at hphotos hruns hkept hended
  have hqueue : s₁.recognitions = queued (s₁.unassigned eventId) [] := by
    rw [hrequeued.queue, hempty, queued, List.map_nil, List.append_nil, List.nil_append]
  rw [hqueue] at hruns
  have hpoints : ∀ c, s₁.core distance eventId config c → c ∈ s₁.unassigned eventId := fun c hc =>
    hrequeued.mem_unassigned (clusterable_of_core hsize.1 hc)
  obtain ⟨⟨first, second, hleft, hprogress⟩, hcount, hlength⟩ :=
    hruns.progress hpoints hrequeued.progress
  rw [List.length_map, List.length_nil] at hlength
  have hfaces : (s₁.unassigned eventId).length ≤ s.faces.length := by
    have hids := congrArg List.length hrequeued.photos.ids
    rw [List.length_map, List.length_map] at hids
    exact hids ▸ unassigned_length_le s₁ eventId
  have hdrained : drained.2.recognitions = [] := hended (by omega)
  rw [hdrained] at hleft
  obtain ⟨hfirst, hsecond⟩ := List.append_eq_nil_iff.mp hleft.symm
  rw [List.map_eq_nil_iff] at hfirst hsecond
  subst hfirst hsecond
  have hlabel : ∀ {x}, s₁.clusterable eventId x ≠ none →
      (drained.2.labels eventId).label x = drained.2.personOf x := fun hx =>
    label_of_clusterable (by rwa [hphotos.clusterable])
  have hdone : ∀ x, s₁.clusterable eventId x ≠ none → (s₁.core distance eventId config x ∨
      ∃ c, s₁.core distance eventId config c ∧ s₁.near distance eventId config.maxDistance x c) →
      drained.2.personOf x ≠ none := by
    intro x hx hclose
    rw [← hlabel hx]
    exact hprogress.finished (hrequeued.mem_unassigned hx) hclose
  refine ⟨hdrained, fun x hcore => ?_, fun x _ hc => ?_, fun x p hx hp => ?_, hkept, fun x => ?_⟩
  · rw [hphotos.core] at hcore
    exact hdone x (clusterable_of_core hsize.1 hcore) (.inl hcore)
  · rw [hphotos.core, hphotos.near] at hc
    obtain ⟨c, hccore, hnear⟩ := hc
    refine hdone x (fun hnone => ?_) (.inr ⟨c, hccore, hnear⟩)
    obtain ⟨v, hv, -⟩ := hnear
    rw [hnone] at hv
    cases hv
  · rw [← label_of_clusterable hx] at hp
    rw [hphotos.near]
    rcases hprogress.linked x p hp with hfounder | ⟨y, hne, hnear, hy⟩
    · obtain ⟨person, hperson, heq⟩ := List.mem_filterMap.mp hfounder
      obtain ⟨f, hf, hpair⟩ := Option.map_eq_some_iff.mp heq
      cases hpair
      exact .inl ⟨person, hperson, rfl, hf⟩
    · exact .inr ⟨y, hne, hnear, personOf_of_label hy⟩
  · have htwice := hcount x
    rw [List.countP_map, List.count_nil, Nat.add_zero] at htwice
    have honce : (s₁.unassigned eventId).count x ≤ 1 := by
      refine List.nodup_iff_count_le_one.mp ?_ x
      exact (unassigned_sorted hkeys₁ eventId).imp fun hij => Nat.ne_of_lt hij
    have hsame : drained.1.countP (fun r => r.faceId = x) =
        drained.1.countP
          ((fun e : FaceId × Bool => decide (e.1 = x)) ∘ fun r => (r.faceId, r.deferred)) :=
      rfl
    omega

end Drain

/-! Windows of more than a thousand are refused. -/

section Refused

variable {s : FaceStore} {distance : Embedding → Embedding → ℚ} {config : FacialRecognitionConfig}

theorem recognizeFaces_refused (hlarge : 1000 < config.minFaces) (x : FaceId) (deferred : Bool) :
    Ends distance config (handleRecognizeFaces x deferred) s (fun _ s' => s' = s) := by
  refine ends_call fun _ _ => ⟨s.getForRecognition x, s, rfl, ?_⟩
  cases s.getForRecognition x with
  | none => exact ends_pure rfl
  | some face =>
    simp only
    split
    · exact ends_pure rfl
    · cases face.embedding with
      | none => exact ends_pure rfl
      | some embedding =>
        simp only
        split
        · exact ends_pure rfl
        · refine ends_call fun answer hanswer => ⟨answer, s, rfl, ?_⟩
          cases (hanswer : answer = config)
          unfold searchFaces
          rw [if_pos (.inr hlarge)]
          exact ends_throw rfl

theorem drain_refused (hlarge : 1000 < config.minFaces) (fuel : ℕ) {ω : ℕ → Oracle FaceOp FaceRes}
    (hω : ∀ n, Undisturbed config (ω n)) : ∃ jobs, (drain distance fuel ω s).2 = { s with jobs :=
    jobs } := by
  induction fuel generalizing ω s with
  | zero => exact ⟨s.jobs, rfl⟩
  | succ fuel ih =>
    rw [drain]
    split
    · exact ⟨s.jobs, rfl⟩
    · rename_i x deferred jobs _
      have hends : Ends distance config (handleRecognizeFaces x deferred) { s with jobs := jobs }
        (fun _ s' => s' = { s with jobs := jobs }) := recognizeFaces_refused hlarge x deferred
      have hsame := hends (ω 0) (hω 0)
      obtain ⟨jobs', hrest⟩ := ih (fun n => hω (n + 1))
      refine ⟨jobs', hrest.trans ?_⟩
      rw [hsame]

end Refused

theorem succeeding_undisturbed (config : FacialRecognitionConfig) (detected : DetectedFaces) :
    Undisturbed config (fun _ => succeeding config detected) := by
  intro _ o
  cases o <;> exact ⟨_, rfl, by first | rfl | trivial⟩

theorem zero_isDistance : IsDistance (fun _ _ => 0) :=
  ⟨fun _ => rfl, fun _ _ => le_rfl, fun _ _ => rfl⟩

/-- So many faces of one embedding. -/
def crowd (n : ℕ) : FaceStore :=
  { assets := [{ id := 0, eventId := 7, orgId := 3 }]
    faces := (List.range n).map (fun i =>
      { id := i, assetId := 0, imageHeight := 10, imageWidth := 10, boundingBox := ⟨0, 0, 4, 4⟩ })
    searches := (List.range n).map (fun i => { faceId := i, embedding := "face" })
    nextFace := n }

theorem crowd_keys (n : ℕ) : ((crowd n).faces.map AssetFace.id).Nodup := by
  have hids : (crowd n).faces.map AssetFace.id = List.range n := by
    rw [crowd, List.map_map]
    exact List.map_id _
  rw [hids]
  exact List.nodup_range

theorem crowd_referenced (n : ℕ) : Referenced (crowd n) := by
  intro f hf p hp
  obtain ⟨i, -, rfl⟩ := List.mem_map.mp hf
  cases hp

theorem crowd_clusterable {n i : ℕ} (hi : i < n) : (crowd n).clusterable 7 i = some "face" := by
  have hmem :
    (⟨i, 0, none, 10, 10, ⟨0, 0, 4, 4⟩, .machineLearning, false⟩ : AssetFace) ∈ (crowd n).faces :=
    List.mem_map.mpr ⟨i, List.mem_range.mpr hi, rfl⟩
  have hembedding : (crowd n).embedding i = some "face" := by
    unfold FaceStore.embedding
    cases hrow : (crowd n).searches.find? (fun row => row.faceId = i) with
    | none =>
      have hrowMem : (⟨i, "face"⟩ : FaceSearch) ∈ (crowd n).searches :=
        List.mem_map.mpr ⟨i, List.mem_range.mpr hi, rfl⟩
      exact absurd (decide_eq_true rfl) (List.find?_eq_none.mp hrow _ hrowMem)
    | some row =>
      obtain ⟨j, -, rfl⟩ := List.mem_map.mp (List.mem_of_find?_eq_some hrow)
      rfl
  exact clusterable_of (face_of_mem (crowd_keys n) hmem) rfl hembedding ⟨rfl, rfl, rfl⟩

/-- In a crowd everyone is core, as long as it is large enough. -/
theorem crowd_core {n i : ℕ} {config : FacialRecognitionConfig} (hi : i < n)
    (hn : config.minFaces ≤ n)
    (hnear : 0 ≤ config.maxDistance) : (crowd n).core (fun _ _ => 0) 7 config i := by
  have hall : (crowd n).faces.countP
      (fun f => (crowd n).near (fun _ _ => 0) 7 config.maxDistance i f.id) = n := by
    have hlength : (crowd n).faces.length = n := by
      rw [crowd, List.length_map, List.length_range]
    refine (List.countP_eq_length.mpr fun f hf => decide_eq_true ?_).trans hlength
    obtain ⟨j, hj, rfl⟩ := List.mem_map.mp hf
    exact ⟨"face", crowd_clusterable hi, "face", crowd_clusterable (List.mem_range.mp hj), hnear⟩
  unfold FaceStore.core
  rw [hall]
  exact hn

theorem crowd_length (n : ℕ) : (crowd n).faces.length = n := by
  rw [crowd, List.length_map, List.length_range]

/-- A crowd of more than a thousand, all of them needed, stays unclustered. -/
theorem crowd_unclustered {n pages fuel : ℕ} (hn : 1000 < n) (hpages : n < pages)
    {ω₀ : Oracle FaceOp FaceRes} {ω : ℕ → Oracle FaceOp FaceRes} (hω₀ : Undisturbed ⟨1, n⟩ ω₀)
    (hω : ∀ k, Undisturbed ⟨1, n⟩ (ω k)) :
    ¬ Clustered (fun _ _ => 0) ⟨1, n⟩ 7
      (drain (fun _ _ => 0) fuel ω (run (faceHandler fun _ _ => 0)
        (handleQueueRecognizeFaces pages 7 true).run ω₀ (crowd n)).state).1
      (drain (fun _ _ => 0) fuel ω (run (faceHandler fun _ _ => 0)
        (handleQueueRecognizeFaces pages 7 true).run ω₀ (crowd n)).state).2 := by
  intro hclustered
  have hends : Ends (fun _ _ => 0) ⟨1, n⟩ (handleQueueRecognizeFaces pages 7 true) (crowd n)
      (fun value s' => value = .ok .success ∧ Requeued 7 (crowd n) s') :=
    queueRecognizeFaces_ends (crowd_keys n) (crowd_referenced n) 7 ((crowd_length n).symm ▸ hpages)
  obtain ⟨-, hrequeued⟩ := hends ω₀ hω₀
  generalize (run (faceHandler fun _ _ => 0) (handleQueueRecognizeFaces pages 7 true).run ω₀
    (crowd n)).state = s₁ at hclustered hrequeued
  have hrefused : ∃ jobs, (drain (fun _ _ => 0) fuel ω s₁).2 = { s₁ with jobs := jobs } :=
    drain_refused hn fuel hω
  obtain ⟨jobs, hsame⟩ := hrefused
  rw [hsame] at hclustered
  have hphotos : SamePhotos (crowd n) { s₁ with jobs := jobs } :=
    hrequeued.photos.trans (samePhotos_aside rfl rfl rfl)
  have hcore : FaceStore.core { s₁ with jobs := jobs } (fun _ _ => 0) 7 ⟨1, n⟩ 0 := by
    rw [hphotos.core]
    exact crowd_core (Nat.zero_lt_of_lt hn) le_rfl zero_le_one
  have hperson := hclustered.cores 0 hcore
  have hunlabelled := hrequeued.unlabelled 0
  rw [label_of_clusterable] at hunlabelled
  · exact hperson hunlabelled
  · rw [hrequeued.photos.clusterable, crowd_clusterable (Nat.zero_lt_of_lt hn)]
    exact Option.some_ne_none _

/-- Two faces that are near each other become one person. -/
theorem reclustered_couple :
    (drain (fun _ _ => 0) 5 (fun _ _ => succeeding ⟨1, 2⟩ noFaces)
        (run (faceHandler fun _ _ => 0) (handleQueueRecognizeFaces 3 7 true).run
          (fun _ => succeeding ⟨1, 2⟩ noFaces) (crowd 2)).state).2.faces.map AssetFace.personId =
      [some 0, some 0] ∧
    Clustered (fun _ _ => 0) ⟨1, 2⟩ 7
      (drain (fun _ _ => 0) 5 (fun _ _ => succeeding ⟨1, 2⟩ noFaces)
        (run (faceHandler fun _ _ => 0) (handleQueueRecognizeFaces 3 7 true).run
          (fun _ => succeeding ⟨1, 2⟩ noFaces) (crowd 2)).state).1
      (drain (fun _ _ => 0) 5 (fun _ _ => succeeding ⟨1, 2⟩ noFaces)
        (run (faceHandler fun _ _ => 0) (handleQueueRecognizeFaces 3 7 true).run
          (fun _ => succeeding ⟨1, 2⟩ noFaces) (crowd 2)).state).2 := by
  refine ⟨by
    decide, (reclustered zero_isDistance (by decide) (crowd_keys 2) (crowd_referenced 2) rfl
    (by decide) (succeeding_undisturbed _ _) (by decide) fun _ => succeeding_undisturbed _ _).2⟩

/-- With a minimum of more than a thousand faces nothing is clustered. -/
theorem not_reclustered :
    ¬ ∀ (distance : Embedding → Embedding → ℚ) (config : FacialRecognitionConfig)
    (eventId : EventId) (s : FaceStore) (pages : ℕ) (ω₀ : Oracle FaceOp FaceRes) (fuel : ℕ)
    (ω : ℕ → Oracle FaceOp FaceRes),
    IsDistance distance → 1 ≤ config.minFaces → (s.faces.map AssetFace.id).Nodup → Referenced s →
    s.recognitions = [] → s.faces.length < pages → Undisturbed config ω₀ →
    2 * s.faces.length < fuel →
    (∀ n, Undisturbed config (ω n)) →
    Clustered distance config eventId
      (drain distance fuel ω
        (run (faceHandler distance)
        (handleQueueRecognizeFaces pages eventId true).run ω₀ s).state).1
      (drain distance fuel ω
        (run (faceHandler distance)
        (handleQueueRecognizeFaces pages eventId true).run ω₀ s).state).2 := by
  intro h
  have hundisturbed := succeeding_undisturbed ⟨1, 1001⟩ noFaces
  have hlength := crowd_length 1001
  exact crowd_unclustered (by decide) (Nat.lt_succ_self 1001) hundisturbed (fun _ => hundisturbed)
    (h _ ⟨1, 1001⟩ 7 (crowd 1001) 1002 _ 2003 _ zero_isDistance (by decide) (crowd_keys 1001)
      (crowd_referenced 1001) rfl (by omega) hundisturbed (by omega) fun _ => hundisturbed)

end EventLens.Faces

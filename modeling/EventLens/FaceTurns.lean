import EventLens.FaceRows

/-!
Jobs of the face pipeline run one at a time. The database works and the
settings are fixed, so what a job does is determined by the tables, up to the
order of equal distances.
-/

namespace EventLens.Faces

open Programs

/-- The answers from outside: the settings are the given ones. -/
def Proposed (config : FacialRecognitionConfig) : (o : FaceOp) → FaceAnswer o → Prop
  | .getConfig _, answer => answer = config
  | _, _ => True

/-- No statement fails by itself. -/
def Undisturbed (config : FacialRecognitionConfig) (ω : Oracle FaceOp FaceRes) : Prop :=
  ∀ n o, ∃ answer, ω n o = .ok answer ∧ Proposed config o answer

section Ends

variable (distance : Embedding → Embedding → ℚ) (config : FacialRecognitionConfig)

/-- From these tables the handler, run alone, ends so. -/
def Ends {α : Type} (p : Attempt α) (s : FaceStore)
    (Q : Except FaceError α → FaceStore → Prop) : Prop :=
  ∀ ω, Undisturbed config ω →
    Q (run (faceHandler distance) p.run ω s).value (run (faceHandler distance) p.run ω s).state

variable {distance config} {α : Type} {s : FaceStore} {Q : Except FaceError α → FaceStore → Prop}

theorem ends_pure {a : α} (h : Q (.ok a) s) : Ends distance config (pure a) s Q := fun _ _ => h

theorem ends_throw {e : FaceError} (h : Q (.error e) s) : Ends distance config (throw e) s Q :=
  fun _ _ => h

/-- A statement that the tables let through, and the rest of the handler. -/
theorem ends_call {o : FaceOp} {f : FaceAnswer o → Attempt α}
    (h : ∀ proposed, Proposed config o proposed → ∃ answer s',
      statement distance o proposed s = some (answer, s') ∧ Ends distance config (f answer) s' Q) :
    Ends distance config (call o >>= f) s Q := by
  intro ω hω
  obtain ⟨proposed, hproposed, hfits⟩ := hω 0 o
  obtain ⟨answer, s', hstatement, hends⟩ := h proposed hfits
  have hstep : faceHandler distance o (ω 0 o) s = (.ok answer, s') := by
    rw [hproposed, faceHandler, hstatement]
  have hrest := hends (fun n => ω (n + 1)) fun n => hω (n + 1)
  have hrun :
    ∀ next : FaceRes o → FaceProg (Except FaceError α), next (.ok answer) = (f answer).run →
      Q (run (faceHandler distance) (.perform o next) ω s).value
        (run (faceHandler distance) (.perform o next) ω s).state := by
    intro next hnext
    rw [run]
    simp only [hstep, hnext]
    exact hrest
  exact hrun _ rfl

/-- A statement inside a `try`, and the rest of the handler. -/
theorem ends_swallow {o : FaceOp} {f : Unit → Attempt α}
    (h : ∀ proposed, Proposed config o proposed → ∃ answer s',
      statement distance o proposed s = some (answer, s') ∧ Ends distance config (f ()) s' Q) :
    Ends distance config (swallow (call o) >>= f) s Q := by
  intro ω hω
  obtain ⟨proposed, hproposed, hfits⟩ := hω 0 o
  obtain ⟨answer, s', hstatement, hends⟩ := h proposed hfits
  have hstep : faceHandler distance o (ω 0 o) s = (.ok answer, s') := by
    rw [hproposed, faceHandler, hstatement]
  have hrest := hends (fun n => ω (n + 1)) fun n => hω (n + 1)
  have hrun : ∀ next : FaceRes o → FaceProg (Except FaceError α), next (.ok answer) = (f ()).run →
      Q (run (faceHandler distance) (.perform o next) ω s).value
        (run (faceHandler distance) (.perform o next) ω s).state := by
    intro next hnext
    rw [run]
    simp only [hstep, hnext]
    exact hrest
  exact hrun _ rfl

theorem ends_onlyIf {c : Prop} [Decidable c] {p : Attempt Unit} {f : Unit → Attempt α}
    (hdone : c → Ends distance config (p >>= f) s Q)
    (hskipped : ¬ c → Ends distance config (f ()) s Q) :
    Ends distance config (onlyIf c p >>= f) s Q := by
  unfold onlyIf
  by_cases hc : c
  · rw [if_pos hc]
    exact hdone hc
  · rw [if_neg hc]
    exact hskipped hc

theorem Ends.mono {p : Attempt α} {Q' : Except FaceError α → FaceStore → Prop}
    (h : Ends distance config p s Q) (hQ : ∀ value s', Q value s' → Q' value s') :
    Ends distance config p s Q' := fun ω hω => hQ _ _ (h ω hω)

end Ends

/-! The queue of recognition jobs. -/

def recognition : FaceJob → Option (FaceId × Bool)
  | .faceRecognize faceId deferred => some (faceId, deferred)
  | _ => none

def FaceStore.recognitions (s : FaceStore) : List (FaceId × Bool) := s.jobs.filterMap recognition

/-- The first recognition job and the jobs without it. -/
def takeRecognition : List FaceJob → Option ((FaceId × Bool) × List FaceJob)
  | [] => none
  | job :: jobs =>
    match recognition job with
    | some first => some (first, jobs)
    | none => (takeRecognition jobs).map (fun taken => (taken.1, job :: taken.2))

theorem takeRecognition_none {jobs : List FaceJob} (h : takeRecognition jobs = none) :
    jobs.filterMap recognition = [] := by
  induction jobs with
  | nil => rfl
  | cons job jobs ih =>
    rw [takeRecognition] at h
    cases hjob : recognition job with
    | some first =>
      rw [hjob] at h
      cases h
    | none =>
      rw [hjob] at h
      rw [List.filterMap_cons, hjob]
      exact ih (Option.map_eq_none_iff.mp h)

theorem takeRecognition_some {jobs left : List FaceJob} {first : FaceId × Bool}
    (h : takeRecognition jobs = some (first, left)) :
    jobs.filterMap recognition = first :: left.filterMap recognition := by
  induction jobs generalizing left with
  | nil => cases h
  | cons job jobs ih =>
    rw [takeRecognition] at h
    cases hjob : recognition job with
    | some head =>
      rw [hjob] at h
      cases h
      rw [List.filterMap_cons, hjob]
    | none =>
      rw [hjob] at h
      obtain ⟨taken, htaken, heq⟩ := Option.map_eq_some_iff.mp h
      cases heq
      rw [List.filterMap_cons, List.filterMap_cons, hjob]
      exact ih htaken

theorem recognitions_queueAll (items : List FaceJob) (s : FaceStore) :
    (s.queueAll items).recognitions = s.recognitions ++ items.filterMap recognition := by
  induction items generalizing s with
  | nil => exact (List.append_nil _).symm
  | cons item items ih =>
    have hfirst :
      (s.queueJob item).recognitions = s.recognitions ++ [item].filterMap recognition := by
      unfold FaceStore.queueJob
      split
      · rename_i id hid
        -- a job with an id of its own is no recognition job
        have hnone : recognition item = none := by
          cases item <;> first | rfl | cases hid
        rw [List.filterMap_cons, hnone]
        split
        · exact (List.append_nil _).symm
        · rw [FaceStore.recognitions, List.filterMap_append, List.filterMap_cons, hnone]
          rfl
      · exact List.filterMap_append
    rw [FaceStore.queueAll, List.foldl_cons, ← FaceStore.queueAll, ih, hfirst, List.append_assoc,
      ← List.filterMap_append, List.singleton_append]

end EventLens.Faces

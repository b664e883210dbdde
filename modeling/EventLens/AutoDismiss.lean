import EventLens.UploadSettling

/-!
The panel while batches overlap. Only the button and the discovery of a
duplicate remove an item that is not done: the timer fires when every item is.
-/

namespace EventLens.Panel

open Tab

variable {t t' : Tab}

/-! Which items a step removes. -/

def UploadStore.Lists (s : UploadStore) (id : ℕ) : Prop := ∃ x ∈ s.items, x.id = id

theorem lists_patch {s : UploadStore} {id id' : ℕ} {changes : UploadItem → UploadItem}
    (h : s.Lists id)
    (hid : ∀ x, (changes x).id = x.id) : (s.patch id' changes).Lists id := by
  obtain ⟨x, hx, rfl⟩ := h
  rcases UploadStore.mem_patch id' changes hx with hsame | ⟨-, hpatched⟩
  · exact ⟨x, hsame, rfl⟩
  · exact ⟨changes x, hpatched, hid x⟩

theorem lists_drop {s : UploadStore} {id id' : ℕ} (h : s.Lists id) (hne : id' ≠ id) :
    (s.drop id').Lists id := by
  obtain ⟨x, hx, rfl⟩ := h
  exact ⟨x, List.mem_filter.mpr ⟨hx, decide_eq_true hne.symm⟩, rfl⟩

theorem lists_failed {id id' : ℕ} (message : String) (h : t.store.Lists id) :
    (t.failed id' message).Lists id :=
  lists_patch h fun _ => rfl

theorem lists_accepted {id : ℕ} (eventId id' : ℕ) (file : File) (result : UploadResult)
    (thumbUrl : Except String String) (h : t.store.Lists id) :
    (t.accepted eventId id' file result thumbUrl).Lists id := by
  have hdone :
    (t.store.patch id' fun item => { item with state := .done, progress := 100 }).Lists id :=
    lists_patch h fun _ => rfl
  cases thumbUrl with
  | ok url => exact hdone
  | error message => exact lists_patch hdone fun _ => rfl

theorem lists_turn {id k w : ℕ} {b : Batch} (h : t.store.Lists id) :
    (t.turn k w b).store.Lists id := by
  unfold Tab.turn
  split
  · exact lists_patch h fun _ => rfl
  · exact h

theorem lists_startWorkers {id k : ℕ} (n : ℕ) (h : t.store.Lists id) :
    (startWorkers k n t).store.Lists id := by
  induction n generalizing t with
  | zero => exact h
  | succ n ih =>
    rw [startWorkers]
    split
    · exact h
    · exact ih (lists_turn h)

theorem lists_enqueue {id eventId : ℕ} {files : List File} (h : t.store.Lists id) :
    (t.enqueue eventId files).store.Lists id := by
  unfold Tab.enqueue
  split
  · exact h
  · have hclear : t.clearTimer.store.Lists id := by
      unfold clearTimer
      split <;> exact h
    obtain ⟨x, hx, hid⟩ := hclear
    exact lists_startWorkers _ ⟨x, List.mem_append_right _ hx, hid⟩

theorem lists_element {id k : ℕ} {b : Batch} (h : t.store.Lists id) :
    (t.element k b).store.Lists id := by
  unfold element
  dsimp only
  split <;> exact h

theorem lists_settle {id k : ℕ} {b : Batch} (h : t.store.Lists id) :
    (t.settle k b).store.Lists id := by
  unfold settle
  dsimp only
  split <;> exact h

theorem hashed_lists {id k w : ℕ} {checksum : Except String String}
    (hstep : t.hashed k w checksum = some t')
    (h : t.store.Lists id) : t'.store.Lists id := by
  unfold hashed at hstep
  split at hstep
  · split at hstep <;> cases hstep
    · exact h
    · exact lists_failed _ h
  · cases hstep

theorem progressed_lists {id k w percent : ℕ} (hstep : t.progressed k w percent = some t')
    (h : t.store.Lists id) : t'.store.Lists id := by
  unfold progressed at hstep
  split at hstep
  · cases hstep
    exact lists_patch h fun _ => rfl
  · cases hstep

theorem microtask_lists {id : ℕ} (hstep : t.microtask = some t') (h : t.store.Lists id) :
    t'.store.Lists id := by
  unfold microtask at hstep
  split at hstep
  · cases hstep
  · rename_i k turn rest _
    obtain ⟨b, -, hturn⟩ := Option.map_eq_some_iff.mp hstep
    rw [← hturn]
    cases turn with
    | resume w => exact lists_turn h
    | element => exact lists_element h
    | settle => exact lists_settle h

/-- The step finds that the file of this item is in the event already. -/
def Step.FindsDuplicate (t : Tab) (id : ℕ) : Step → Prop
  | .checked k w answer =>
    ∃ b current checksum results, t.waiting k w = some (b, .checking current checksum) ∧
      b.first + current = id ∧ answer = .ok results ∧
        results.head?.map CheckResult.action = some .reject
  | .uploaded k w answer _ => ∃ b current result, t.waiting k w = some (b, .uploading current) ∧
      b.first + current = id ∧ answer = .ok result ∧ result.status = .duplicate
  | _ => False

theorem checked_lists {id k w : ℕ} {answer : Except String (List CheckResult)}
    (hstep : t.checked k w answer = some t')
    (h : t.store.Lists id) : t'.store.Lists id ∨ (Step.checked k w answer).FindsDuplicate t id := by
  unfold checked at hstep
  split at hstep
  · rename_i b current checksum hwaits
    split at hstep
    · rename_i results
      split at hstep
      · rename_i hreject
        cases hstep
        by_cases hsame : b.first + current = id
        · exact .inr ⟨b, current, checksum, results, hwaits, hsame, rfl, hreject⟩
        · exact .inl (lists_drop h hsame)
      · cases hstep
        exact .inl (lists_patch h fun _ => rfl)
    · cases hstep
      exact .inl (lists_failed _ h)
  · cases hstep

theorem uploaded_lists {id k w : ℕ} {answer : Except String UploadResult}
    {thumbUrl : Except String String}
    (hstep : t.uploaded k w answer thumbUrl = some t') (h : t.store.Lists id) :
    t'.store.Lists id ∨ (Step.uploaded k w answer thumbUrl).FindsDuplicate t id := by
  unfold uploaded at hstep
  split at hstep
  · rename_i b current hwaits
    split at hstep
    · rename_i result
      split at hstep
      · rename_i hduplicate
        cases hstep
        by_cases hsame : b.first + current = id
        · exact .inr ⟨b, current, result, hwaits, hsame, rfl, hduplicate⟩
        · exact .inl (lists_drop h hsame)
      · obtain ⟨file, -, hfinish⟩ := Option.map_eq_some_iff.mp hstep
        rw [← hfinish]
        exact .inl (lists_accepted _ _ file _ _ h)
    · cases hstep
      exact .inl (lists_failed _ h)
  · cases hstep

/-- A step removes no item but a duplicate that it finds, unless it clears the panel. -/
theorem step_lists {a : Step} (hstep : step a t = some t') {id : ℕ} (h : t.store.Lists id) :
    t'.store.Lists id ∨ a = .dismiss ∨ a.FindsDuplicate t id ∨ ∃ timer, a = .fire timer := by
  cases a with
  | enqueue eventId files =>
    cases hstep
    exact .inl (lists_enqueue h)
  | hashed k w checksum => exact .inl (hashed_lists hstep h)
  | checked k w answer =>
    rcases checked_lists hstep h with hlists | hfinds
    · exact .inl hlists
    · exact .inr (.inr (.inl hfinds))
  | progressed k w percent => exact .inl (progressed_lists hstep h)
  | uploaded k w answer thumbUrl =>
    rcases uploaded_lists hstep h with hlists | hfinds
    · exact .inl hlists
    · exact .inr (.inr (.inl hfinds))
  | microtask => exact .inl (microtask_lists hstep h)
  | dismiss => exact .inr (.inl rfl)
  | takeFresh eventId =>
    cases hstep
    exact .inl h
  | elapse ms =>
    cases hstep
    exact .inl h
  | fire timer => exact .inr (.inr (.inr ⟨timer, rfl⟩))

/-- A timer clears the panel only when everything on it is done. -/
theorem done_of_fire (h : t.Good) {timer : ℕ} (hstep : t.fire timer = some t') :
    ∀ x ∈ t.store.items, x.state = .done := by
  unfold fire at hstep
  split at hstep
  · rename_i hdue
    refine (h.cleared fun hnil => ?_).1
    rw [hnil] at hdue
    simp at hdue
  · cases hstep

/-- `uploadOne` is called with each file at most once and returns at most once,
and has returned for every file once the batch is settled. -/
structure Batch.ProcessesOnce (b : Batch) : Prop where
  begun_once : b.begun.Nodup
  begun_lt : ∀ i ∈ b.begun, i < b.files.length
  ended_once : b.ended.Nodup
  ended_begun : ∀ i ∈ b.ended, i ∈ b.begun
  all_ended : b.settled = true → ∀ i < b.files.length, i ∈ b.ended

/-- Batches overlap in any way. Each file is processed once, and the batches
come to an end by the answers and turns outstanding; only the button and the
discovery of a duplicate remove an item that is not done; and as long as a file
has not ended there is an active item. -/
theorem auto_dismiss_hides_no_work {steps : List Step} {t : Tab} (hrun : run steps {} = some t) :
    (∀ b ∈ t.batches, b.ProcessesOnce) ∧
    (∀ rest t', (∀ a ∈ rest, a.Answers) → run rest t = some t' → rest.length ≤ t.work ∧
      ((∀ a, a.Answers → step a t' = none) → ∀ b ∈ t'.batches, b.settled = true)) ∧
    (∀ a t', step a t = some t' → ∀ x ∈ t.store.items, x.state ≠ .done →
      t'.store.Lists x.id ∨ a = .dismiss ∨ a.FindsDuplicate t x.id) ∧
    (∀ b ∈ t.batches, ∀ i < b.files.length, i ∉ b.ended → t.store.hasActive = true) := by
  have hsteady := run_steady steady_start hrun
  refine ⟨fun b hb => ?_, fun rest t' hanswers hrest => ⟨?_, fun hstill b hb => ?_⟩,
    fun a t' hstep x hx hdone => ?_,
    fun b hb i hi hended => ?_⟩
  · obtain ⟨k, hk⟩ := List.mem_iff_getElem?.mp hb
    have hkeeps := hsteady.keeps hk
    exact ⟨hkeeps.begun_nodup, fun _ => hkeeps.begun_lt, hkeeps.ended_nodup,
      fun _ => hkeeps.ended_begun,
      fun hsettled _ => hkeeps.all_ended hsettled⟩
  · have hwork := run_work hsteady hanswers hrest
    omega
  · exact settled_of_still (run_steady hsteady hrest) hstill hb
  · rcases step_lists hstep ⟨x, hx, rfl⟩ with hlists | hdismiss | hfinds | ⟨timer, rfl⟩
    · exact .inl hlists
    · exact .inr (.inl hdismiss)
    · exact .inr (.inr hfinds)
    · exact absurd (done_of_fire hsteady.toGood hstep x hx) hdone
  · obtain ⟨x, hx, -, hactive⟩ := hsteady.shown b hb i hi hended
    exact List.any_eq_true.mpr ⟨x, hx, hactive⟩

/-! Two batches, one with a duplicate; when both are settled the timer is set,
and a third one clears it. -/

def galaFile (name : String) : File := { name := name, type := "image/jpeg" }

def galaAccept : Except String (List CheckResult) := .ok [{ id := "a.jpg", action := .accept }]

def galaSteps : List Step :=
  [.enqueue 1 [galaFile "a.jpg", galaFile "b.jpg"], .enqueue 2 [galaFile "c.jpg"],
    .hashed 0 0 (.ok "a1"), .hashed 1 0 (.ok "c3"), .hashed 0 1 (.ok "b2"), .checked 0 0 galaAccept,
    .checked 0 1 (.ok [{ id := "b.jpg", action := .reject }]), .microtask, .microtask,
      .checked 1 0 galaAccept,
    .uploaded 0 0 (.ok { id := "7", status := .created }) (.ok "blob:7"), .microtask, .microtask,
      .microtask,
    .progressed 1 0 50, .uploaded 1 0 (.ok { id := "8", status := .created }) (.ok "blob:8"),
      .microtask, .microtask,
    .microtask, .elapse 1000, .enqueue 1 [galaFile "d.jpg"], .elapse 4000]

def galaTab : Tab := (run galaSteps {}).getD {}

theorem auto_dismiss_hides_no_work_gala :
    galaTab.store.items.map (fun item => (item.name, item.state)) =
        [("d.jpg", .hashing), ("c.jpg", .done), ("a.jpg", .done)] ∧
      galaTab.batches.map Batch.settled = [true, true, false] ∧ galaTab.timers = [] ∧
      (∀ b ∈ galaTab.batches, b.ProcessesOnce) ∧ galaTab.store.hasActive = true := by
  have hrun : run galaSteps {} = some galaTab := by rfl
  obtain ⟨honce, -, -, hactive⟩ := auto_dismiss_hides_no_work hrun
  refine ⟨by decide, by decide, by decide, honce, ?_⟩
  obtain ⟨b, hb, hended⟩ : ∃ b ∈ galaTab.batches, 0 < b.files.length ∧ 0 ∉ b.ended := by decide
  exact hactive b hb 0 hended.1 hended.2

end EventLens.Panel

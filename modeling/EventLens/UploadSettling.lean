import EventLens.UploadOverlap
import Mathlib

/-!
Batches come to an end. An answer about a file, and every turn that follows,
leaves less to do; and where there is neither an answer nor a turn to come, all
batches are settled. So each of them settles if only its answers come.
-/

namespace EventLens.Panel

theorem sum_map_set {α : Type} {items : List α} {k : ℕ} {x : α} (hx : items[k]? = some x)
    (f : α → ℕ) :
    ∃ rest, (items.map f).sum = f x + rest ∧ ∀ y, ((items.set k y).map f).sum = f y + rest := by
  obtain ⟨hk, rfl⟩ := List.getElem?_eq_some_iff.mp hx
  refine ⟨((items.eraseIdx k).map f).sum, ?_, fun y => ?_⟩
  · have hperm := (List.getElem_cons_eraseIdx_perm hk).symm.map f
    rw [hperm.sum_eq, List.map_cons, List.sum_cons]
  · have hperm := (List.set_perm_cons_eraseIdx hk y).map f
    rw [hperm.sum_eq, List.map_cons, List.sum_cons]

/-- The steps of a worker that are left for its file. -/
def Worker.work : Worker → ℕ
  | .hashing _ => 4
  | .checking _ _ => 3
  | .uploading _ => 2
  | .resuming => 1
  | .returned => 0

/-- A worker that is at a file has more to do than its turn. -/
theorem Worker.resuming_lt {worker : Worker} {i : ℕ} (hi : worker.current? = some i) :
    Worker.resuming.work < worker.work := by
  cases worker with
  | hashing current =>
    show 1 < 4
    omega
  | checking current checksum =>
    show 1 < 3
    omega
  | uploading current =>
    show 1 < 2
    omega
  | resuming => cases hi
  | returned => cases hi

namespace Batch

/-- What a batch has yet to do: files to begin, steps of its workers, workers
that `Promise.all` has not heard of, and its own end. -/
def work (b : Batch) : ℕ :=
  5 * (b.files.length - b.cursor) + (b.workers.map Worker.work).sum +
    (b.workers.length - b.resolved) +
    if b.settled then 0 else 1

variable {b : Batch} {w : ℕ} {worker next : Worker}

theorem work_set (hw : b.workers[w]? = some worker) (ended : List ℕ)
    (hless : next.work < worker.work) :
    ({ b with workers := b.workers.set w next, ended := ended } : Batch).work < b.work := by
  obtain ⟨rest, hbefore, hafter⟩ := sum_map_set hw Worker.work
  unfold work
  dsimp only
  rw [hbefore, hafter, List.length_set]
  omega

/-- A file to begin is more than the worker that begins it. -/
theorem work_takes (hw : b.workers[w]? = some .resuming) (hmore : b.cursor < b.files.length) :
    ({ b with
      cursor := b.cursor + 1
      workers := b.workers.set w (.hashing b.cursor)
      begun := b.begun ++ [b.cursor] } : Batch).work < b.work := by
  obtain ⟨rest, hbefore, hafter⟩ := sum_map_set hw Worker.work
  have hhashing : (Worker.hashing b.cursor).work = 4 := rfl
  have hresuming : Worker.resuming.work = 1 := rfl
  unfold work
  dsimp only
  rw [hbefore, hafter, List.length_set]
  omega

theorem work_element (h : b.Keeps (some .element)) :
    ({ b with resolved := b.resolved + 1 } : Batch).work < b.work := by
  have hresolved : b.resolved + 1 = b.workers.count .returned := by simpa using h.resolved
  have hle : b.workers.count .returned ≤ b.workers.length := List.count_le_length
  unfold work
  dsimp only
  omega

theorem work_settle (hopen : b.settled = false) :
    ({ b with settled := true } : Batch).work < b.work := by
  unfold work
  simp [hopen]

end Batch

namespace Tab

def work (t : Tab) : ℕ := (t.batches.map Batch.work).sum

variable {t t' : Tab} {k w i : ℕ} {b b' : Batch} {worker : Worker}

theorem work_lt (hb : t.batches[k]? = some b) (hbatches : t'.batches = t.batches.set k b')
    (hless : b'.work < b.work) :
    t'.work < t.work := by
  obtain ⟨rest, hbefore, hafter⟩ := sum_map_set hb Batch.work
  unfold work
  rw [hbatches, hbefore, hafter]
  omega

theorem work_await (hwaits : t.waiting k w = some (b, worker)) (next : Worker) (store : UploadStore)
    (hless : next.work < worker.work) : (t.await k w b next store).work < t.work := by
  obtain ⟨-, hb, hw⟩ := waiting_spec hwaits
  exact work_lt hb rfl (Batch.work_set hw b.ended hless)

theorem work_finish (hwaits : t.waiting k w = some (b, worker)) (hi : worker.current? = some i)
    (store : UploadStore) :
    (t.finish k w i b store).work < t.work := by
  obtain ⟨-, hb, hw⟩ := waiting_spec hwaits
  exact work_lt hb rfl (Batch.work_set hw (b.ended ++ [i]) (Worker.resuming_lt hi))

theorem hashed_work {checksum : Except String String} (hstep : t.hashed k w checksum = some t') :
    t'.work < t.work := by
  unfold hashed at hstep
  split at hstep
  · rename_i hwaits
    split at hstep <;> cases hstep
    · exact work_await hwaits _ _ (Nat.lt_succ_self 3)
    · exact work_finish hwaits rfl _
  · cases hstep

theorem checked_work {answer : Except String (List CheckResult)}
    (hstep : t.checked k w answer = some t') :
    t'.work < t.work := by
  unfold checked at hstep
  split at hstep
  · rename_i hwaits
    split at hstep
    · split at hstep <;> cases hstep
      · exact work_finish hwaits rfl _
      · exact work_await hwaits _ _ (Nat.lt_succ_self 2)
    · cases hstep
      exact work_finish hwaits rfl _
  · cases hstep

theorem uploaded_work {answer : Except String UploadResult} {thumbUrl : Except String String}
    (hstep : t.uploaded k w answer thumbUrl = some t') : t'.work < t.work := by
  unfold uploaded at hstep
  split at hstep
  · rename_i hwaits
    split at hstep
    · split at hstep
      · cases hstep
        exact work_finish hwaits rfl _
      · obtain ⟨file, -, hfinish⟩ := Option.map_eq_some_iff.mp hstep
        rw [← hfinish]
        exact work_finish hwaits rfl _
    · cases hstep
      exact work_finish hwaits rfl _
  · cases hstep

theorem microtask_work (h : t.Good) (hstep : t.microtask = some t') : t'.work < t.work := by
  unfold microtask at hstep
  split at hstep
  · cases hstep
  · rename_i k turn rest hmicro
    obtain ⟨b, hb, hturn⟩ := Option.map_eq_some_iff.mp hstep
    rw [← hturn]
    obtain ⟨hphase, -⟩ := h.phase_of_cons hmicro
    have hkeeps := h.keeps hb
    rw [hphase] at hkeeps
    cases turn with
    | resume w =>
      have hw := (hkeeps.resuming w).mpr rfl
      dsimp only
      unfold Tab.turn
      split
      · rename_i hmore
        exact work_lt hb rfl (Batch.work_takes hw hmore)
      · exact work_lt hb rfl (Batch.work_set hw b.ended (Nat.lt_succ_self 0))
    | element =>
      dsimp only
      unfold element
      dsimp only
      split <;> exact work_lt hb rfl (Batch.work_element hkeeps)
    | settle =>
      dsimp only
      unfold settle
      dsimp only
      split <;> exact work_lt hb rfl (Batch.work_settle hkeeps.open_of_settle)

end Tab

/-- An answer about a file, or a turn that comes. -/
def Step.Answers : Step → Prop
  | .hashed _ _ _ | .checked _ _ _ | .uploaded _ _ _ _ | .microtask => True
  | _ => False

open Tab

variable {t t' : Tab} {a : Step}

theorem step_work (h : t.Good) (ha : a.Answers) (hstep : step a t = some t') :
    t'.work < t.work := by
  cases a with
  | hashed k w checksum => exact hashed_work hstep
  | checked k w answer => exact checked_work hstep
  | uploaded k w answer thumbUrl => exact uploaded_work hstep
  | microtask => exact microtask_work h hstep
  | enqueue | progressed | dismiss | takeFresh | elapse | fire => cases ha

/-- Only so many answers and turns come without a new batch. -/
theorem run_work {steps : List Step} (h : t.Steady) (ha : ∀ a ∈ steps, a.Answers)
    (hrun : run steps t = some t') :
    steps.length + t'.work ≤ t.work := by
  induction steps generalizing t with
  | nil =>
    cases hrun
    exact Nat.le_of_eq (Nat.zero_add _)
  | cons a rest ih =>
    obtain ⟨mid, hstep, hrest⟩ := Option.bind_eq_some_iff.mp hrun
    have hless := step_work h.toGood (ha a List.mem_cons_self) hstep
    have hmore := ih (step_steady h hstep) (fun a hmem => ha a (List.mem_cons_of_mem _ hmem)) hrest
    rw [List.length_cons]
    omega

/-- Where none is to come, every batch is settled. -/
theorem settled_of_still (h : t.Steady) (hstill : ∀ a, a.Answers → step a t = none) {b : Batch}
    (hb : b ∈ t.batches) :
    b.settled = true := by
  have hnil : t.microtasks = [] := by
    rcases h.one with hnil | ⟨k, turn, hcons, hk⟩
    · exact hnil
    · have hmicro := hstill .microtask trivial
      rw [step, microtask, hcons] at hmicro
      have hnone := Option.map_eq_none_iff.mp hmicro
      rw [List.getElem?_eq_getElem hk] at hnone
      cases hnone
  by_contra hnot
  obtain ⟨k, hk⟩ := List.mem_iff_getElem?.mp hb
  have hkeeps := h.keeps hk
  rw [phase_of_nil hnil] at hkeeps
  obtain ⟨w, worker, i, hw, hi⟩ := hkeeps.waits (h.manned b hb) (Bool.eq_false_iff.mpr hnot)
  have hwaits : t.waiting k w = some (b, worker) := by
    rw [waiting, if_neg (not_not.mpr hnil), hk, Option.bind_some, hw]
    rfl
  cases worker with
  | hashing current =>
    have hnone := hstill (.hashed k w (.error "")) trivial
    rw [step, hashed, hwaits] at hnone
    cases hnone
  | checking current checksum =>
    have hnone := hstill (.checked k w (.error "")) trivial
    rw [step, checked, hwaits] at hnone
    cases hnone
  | uploading current =>
    have hnone := hstill (.uploaded k w (.error "") (.error "")) trivial
    rw [step, uploaded, hwaits] at hnone
    cases hnone
  | resuming => cases hi
  | returned => cases hi

end EventLens.Panel

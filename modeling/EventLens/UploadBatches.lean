import EventLens.UploadPanel
import Mathlib.Data.List.Perm.Basic
import Mathlib.Tactic.Common

/-!
One batch of the upload queue by itself. Its workers share a cursor, so each of
its files is with one worker, ended or not begun. A batch goes on by at most one
turn at a time; it is settled when `Promise.all` has heard of every worker, and
every one of its files has ended then.
-/

namespace EventLens.Panel

namespace Batch

/-- The files that a worker is at. -/
def working (b : Batch) : List ℕ := b.workers.filterMap Worker.current?

/-- `phase` is the turn that the batch waits for, if it waits for one. -/
structure Keeps (b : Batch) (phase : Option Turn) : Prop where
  begun : b.begun = List.range b.cursor
  cursor_le : b.cursor ≤ b.files.length
  once : (b.ended ++ b.working).Perm (List.range b.cursor)
  exhausted : .returned ∈ b.workers → b.cursor = b.files.length
  resuming : ∀ w, b.workers[w]? = some .resuming ↔ phase = some (.resume w)
  resolved : b.resolved + (if phase = some .element then 1 else 0) = b.workers.count .returned
  settling : phase = some .settle → 0 < b.workers.length ∧ b.resolved = b.workers.length
  settled :
    b.settled = true ↔ 0 < b.workers.length ∧ b.resolved = b.workers.length ∧ phase ≠ some .settle

variable {b : Batch} {phase : Option Turn} {w i : ℕ} {worker next : Worker}

/-- What a worker is replaced by takes its place. -/
theorem workers_set (hw : b.workers[w]? = some worker) :
    ∃ rest, b.workers.Perm (worker :: rest) ∧
    ∀ next, (b.workers.set w next).Perm (next :: rest) := by
  obtain ⟨hlt, rfl⟩ := List.getElem?_eq_some_iff.mp hw
  exact ⟨b.workers.eraseIdx w, (List.getElem_cons_eraseIdx_perm hlt).symm,
    List.set_perm_cons_eraseIdx hlt⟩

theorem working_set (hw : b.workers[w]? = some worker) :
    ∃ rest, b.working.Perm (worker.current?.toList ++ rest) ∧
      ∀ next, ((b.workers.set w next).filterMap Worker.current?).Perm
      (next.current?.toList ++ rest) := by
  obtain ⟨rest, hbefore, hafter⟩ := workers_set hw
  have hcons : ∀ next : Worker, (next :: rest).filterMap Worker.current? =
      next.current?.toList ++ rest.filterMap Worker.current? := by
    intro next
    rw [List.filterMap_cons]
    cases next.current? <;> rfl
  refine ⟨rest.filterMap Worker.current?, ?_, fun next => ?_⟩
  · rw [← hcons]
    exact hbefore.filterMap _
  · rw [← hcons]
    exact (hafter next).filterMap _

theorem count_set (hw : b.workers[w]? = some worker) (hworker : worker ≠ .returned)
    (hnext : next ≠ .returned) :
    (b.workers.set w next).count .returned = b.workers.count .returned := by
  obtain ⟨rest, hbefore, hafter⟩ := workers_set hw
  rw [(hafter next).count_eq, hbefore.count_eq, List.count_cons_of_ne hworker,
    List.count_cons_of_ne hnext]

theorem mem_set_returned (hnext : next ≠ .returned) (h : .returned ∈ b.workers.set w next) :
    .returned ∈ b.workers := by
  rcases List.mem_or_eq_of_mem_set h with hmem | heq
  · exact hmem
  · exact absurd heq.symm hnext

theorem set_resuming (hw : b.workers[w]? = some worker) (w' : ℕ) :
    (b.workers.set w next)[w']? = some .resuming ↔
      w' = w ∧ next = .resuming ∨ w' ≠ w ∧ b.workers[w']? = some .resuming := by
  obtain ⟨hlt, -⟩ := List.getElem?_eq_some_iff.mp hw
  rw [List.getElem?_set]
  by_cases hsame : w = w'
  · subst hsame
    simp [hlt]
  · simp [hsame, Ne.symm hsame]

/-! What the invariant says. -/

theorem Keeps.resolved_le (h : b.Keeps phase) : b.resolved ≤ b.workers.length := by
  have hcount : b.workers.count .returned ≤ b.workers.length := List.count_le_length
  have hresolved := h.resolved
  omega

/-- Where a worker has not returned, the batch is not settled. -/
theorem Keeps.open_of_worker (h : b.Keeps phase) (hw : b.workers[w]? = some worker)
    (hworker : worker ≠ .returned) :
    b.settled = false := by
  have hcount : b.workers.count .returned ≠ b.workers.length := by
    intro hall
    exact hworker (List.count_eq_length.mp hall worker (List.mem_of_getElem? hw)).symm
  have hle : b.workers.count .returned ≤ b.workers.length := List.count_le_length
  have hresolved := h.resolved
  cases hsettled : b.settled with
  | false => rfl
  | true =>
    have hlength := (h.settled.mp hsettled).2.1
    omega

/-- Where `Promise.all` is yet to hear of a worker, it is not settled either. -/
theorem Keeps.open_of_element (h : b.Keeps (some .element)) : b.settled = false := by
  have hresolved : b.resolved + 1 = b.workers.count .returned := by simpa using h.resolved
  have hle : b.workers.count .returned ≤ b.workers.length := List.count_le_length
  cases hsettled : b.settled with
  | false => rfl
  | true =>
    have hlength := (h.settled.mp hsettled).2.1
    omega

theorem Keeps.open_of_settle (h : b.Keeps (some .settle)) : b.settled = false := by
  cases hsettled : b.settled with
  | false => rfl
  | true => exact absurd rfl (h.settled.mp hsettled).2.2

/-- The file of a worker has not ended. -/
theorem Keeps.not_ended (h : b.Keeps phase) (hw : b.workers[w]? = some worker)
    (hi : worker.current? = some i) :
    i ∉ b.ended ∧ i < b.files.length := by
  have hworking : i ∈ b.working := List.mem_filterMap.mpr ⟨worker, List.mem_of_getElem? hw, hi⟩
  have hnodup : (b.ended ++ b.working).Nodup := h.once.nodup_iff.mpr List.nodup_range
  have hlt : i < b.cursor :=
    List.mem_range.mp (h.once.mem_iff.mp (List.mem_append_right _ hworking))
  exact ⟨fun hended => (List.nodup_append.mp hnodup).2.2 i hended i hworking rfl,
    Nat.lt_of_lt_of_le hlt h.cursor_le⟩

theorem Keeps.ended_nodup (h : b.Keeps phase) : b.ended.Nodup :=
  (List.nodup_append.mp (h.once.nodup_iff.mpr List.nodup_range)).1

theorem Keeps.ended_begun (h : b.Keeps phase) (hi : i ∈ b.ended) : i ∈ b.begun := by
  rw [h.begun]
  exact h.once.mem_iff.mp (List.mem_append_left _ hi)

theorem Keeps.begun_nodup (h : b.Keeps phase) : b.begun.Nodup := by
  rw [h.begun]
  exact List.nodup_range

theorem Keeps.begun_lt (h : b.Keeps phase) (hi : i ∈ b.begun) : i < b.files.length := by
  rw [h.begun] at hi
  exact Nat.lt_of_lt_of_le (List.mem_range.mp hi) h.cursor_le

theorem Keeps.all_returned (h : b.Keeps phase) (hsettled : b.settled = true) :
    ∀ worker ∈ b.workers, worker = .returned := by
  obtain ⟨-, hlength, -⟩ := h.settled.mp hsettled
  have hcount : b.workers.count .returned ≤ b.workers.length := List.count_le_length
  have hresolved := h.resolved
  have hall : b.workers.count .returned = b.workers.length := by omega
  exact fun worker hworker => (List.count_eq_length.mp hall worker hworker).symm

/-- Every file of a settled batch has ended. -/
theorem Keeps.all_ended (h : b.Keeps phase) (hsettled : b.settled = true)
    (hi : i < b.files.length) : i ∈ b.ended := by
  have hreturned := h.all_returned hsettled
  have hworking : b.working = [] := by
    refine List.filterMap_eq_nil_iff.mpr fun worker hworker => ?_
    rw [hreturned worker hworker]
    rfl
  have hcursor : b.cursor = b.files.length := by
    obtain ⟨worker, hworker⟩ :=
      List.exists_mem_of_ne_nil _ (List.ne_nil_of_length_pos (h.settled.mp hsettled).1)
    exact h.exhausted (hreturned worker hworker ▸ hworker)
  have hall := h.once.mem_iff (a := i)
  rw [hworking, List.append_nil] at hall
  exact hall.mpr (List.mem_range.mpr (hcursor ▸ hi))

/-- A batch that is not settled and waits for no turn waits for an answer. -/
theorem Keeps.waits (h : b.Keeps none) (hmanned : 0 < b.workers.length)
    (hopen : b.settled = false) :
    ∃ (w : ℕ) (worker : Worker) (i : ℕ), b.workers[w]? = some worker ∧
    worker.current? = some i := by
  have hne : b.workers.count .returned ≠ b.workers.length := by
    intro hall
    have hresolved := h.resolved
    rw [if_neg (by simp), Nat.add_zero, hall] at hresolved
    rw [h.settled.mpr ⟨hmanned, hresolved, by simp⟩] at hopen
    cases hopen
  obtain ⟨worker, hworker, hnot⟩ : ∃ worker ∈ b.workers, ¬ .returned = worker := by
    by_contra hall
    push Not at hall
    exact hne (List.count_eq_length.mpr hall)
  obtain ⟨w, hw⟩ := List.mem_iff_getElem?.mp hworker
  cases worker with
  | hashing i => exact ⟨w, _, i, hw, rfl⟩
  | checking i checksum => exact ⟨w, _, i, hw, rfl⟩
  | uploading i => exact ⟨w, _, i, hw, rfl⟩
  | resuming => cases (h.resuming w).mp hw
  | returned => exact absurd rfl hnot

/-! What a batch does. -/

/-- Before any worker begins. -/
theorem keeps_new (eventId first : ℕ) (files : List File) :
    ({ eventId := eventId, files := files, first := first } : Batch).Keeps none := by
  refine ⟨rfl, Nat.zero_le _, List.Perm.refl _, fun hmem => (by cases hmem), fun w => ?_, rfl,
    fun hphase => (by cases hphase), ?_⟩
  · simp
  · simp

/-- A worker that is appended calls `uploadOne` at once. -/
theorem Keeps.start (h : b.Keeps none) (hopen : b.settled = false) :
    ({ b with workers :=
    b.workers ++ [.resuming] } : Batch).Keeps (some (.resume b.workers.length)) where
  begun := h.begun
  cursor_le := h.cursor_le
  once := by
    have hsame : (b.workers ++ [Worker.resuming]).filterMap Worker.current? = b.working := by
      rw [List.filterMap_append]
      exact List.append_nil _
    rw [working, hsame]
    exact h.once
  exhausted hmem := by
    rcases List.mem_append.mp hmem with hmem | hmem
    · exact h.exhausted hmem
    · cases List.mem_singleton.mp hmem
  resuming w := by
    rw [Option.some.injEq, Turn.resume.injEq]
    rcases Nat.lt_trichotomy w b.workers.length with hlt | rfl | hgt
    · rw [List.getElem?_append_left hlt]
      have hnone : ¬ b.workers[w]? = some .resuming := fun hw => by cases (h.resuming w).mp hw
      exact ⟨fun hw => absurd hw hnone, fun hw => by omega⟩
    · simp
    · rw [List.getElem?_eq_none (by simp; omega)]
      exact ⟨fun hw => (by cases hw), fun hw => by omega⟩
  resolved := by
    have hresolved := h.resolved
    rw [List.count_append]
    simpa using hresolved
  settling hphase := by cases hphase
  settled := by
    have hle := h.resolved_le
    simp only [hopen, List.length_append, List.length_singleton]
    constructor
    · intro hfalse
      cases hfalse
    · rintro ⟨-, hlength, -⟩
      omega

/-- `uploadOne` goes on to its next `await`. -/
theorem Keeps.await (h : b.Keeps none) (hw : b.workers[w]? = some worker)
    (hi : worker.current? = some i)
    (hnext : next.current? = some i) :
    ({ b with workers := b.workers.set w next } : Batch).Keeps none := by
  have hworker : worker ≠ .returned := by
    rintro rfl
    cases hi
  have hreturned : next ≠ .returned := by
    rintro rfl
    cases hnext
  have hresuming : next ≠ .resuming := by
    rintro rfl
    cases hnext
  obtain ⟨rest, hbefore, hafter⟩ := working_set hw
  rw [hi] at hbefore
  refine ⟨h.begun, h.cursor_le, ?_, fun hmem => h.exhausted (mem_set_returned hreturned hmem),
    fun w' => ?_, ?_,
    fun hphase => (by cases hphase), ?_⟩
  · have hsame := (hafter next).trans (hnext ▸ hbefore.symm)
    exact (hsame.append_left b.ended).trans h.once
  · have hnone : ¬ b.workers[w']? = some .resuming := fun hw' => by cases (h.resuming w').mp hw'
    rw [set_resuming hw]
    simp [hresuming, hnone]
  · rw [count_set hw hworker hreturned]
    exact h.resolved
  · rw [List.length_set]
    exact h.settled

/-- `uploadOne` returns. -/
theorem Keeps.finish (h : b.Keeps none) (hw : b.workers[w]? = some worker)
    (hi : worker.current? = some i) :
    ({ b with workers := b.workers.set w .resuming, ended := b.ended ++ [i] } : Batch).Keeps
      (some (.resume w)) := by
  have hworker : worker ≠ .returned := by
    rintro rfl
    cases hi
  have hreturned : Worker.resuming ≠ .returned := by decide
  obtain ⟨rest, hbefore, hafter⟩ := working_set hw
  rw [hi] at hbefore
  refine ⟨h.begun, h.cursor_le, ?_, fun hmem => h.exhausted (mem_set_returned hreturned hmem),
    fun w' => ?_, ?_,
    fun hphase => (by cases hphase), ?_⟩
  · have hleft : (b.ended ++ [i] ++ (b.workers.set w .resuming).filterMap Worker.current?).Perm
        (b.ended ++ ([i] ++ rest)) := by
      rw [List.append_assoc]
      exact ((hafter .resuming).append_left [i]).append_left b.ended
    exact (hleft.trans (hbefore.symm.append_left b.ended)).trans h.once
  · have hnone : ¬ b.workers[w']? = some .resuming := fun hw' => by cases (h.resuming w').mp hw'
    rw [set_resuming hw]
    simp [hnone, eq_comm]
  · rw [count_set hw hworker hreturned]
    simpa using h.resolved
  · rw [List.length_set]
    simpa using h.settled

/-- A worker that takes the next file. -/
theorem Keeps.takes (h : b.Keeps (some (.resume w))) (hmore : b.cursor < b.files.length) :
    ({ b with
      cursor := b.cursor + 1
      workers := b.workers.set w (.hashing b.cursor)
      begun := b.begun ++ [b.cursor] } : Batch).Keeps none := by
  have hw : b.workers[w]? = some .resuming := (h.resuming w).mpr rfl
  have hreturned : Worker.hashing b.cursor ≠ .returned := fun heq => by cases heq
  obtain ⟨rest, hbefore, hafter⟩ := working_set hw
  refine ⟨?_, hmore, ?_, fun hmem => ?_, fun w' => ?_, ?_, fun hphase => (by cases hphase), ?_⟩
  · exact (congrArg (fun begun => begun ++ [b.cursor]) h.begun).trans List.range_succ.symm
  · have hbehind : (b.ended ++ (b.workers.set w (.hashing b.cursor)).filterMap Worker.current?).Perm
        (b.ended ++ b.working ++ [b.cursor]) := by
      rw [List.append_assoc]
      refine List.Perm.append_left b.ended ((hafter (.hashing b.cursor)).trans ?_)
      exact List.perm_append_comm.trans (hbefore.symm.append_right [b.cursor])
    have hrange : List.range (b.cursor + 1) = List.range b.cursor ++ [b.cursor] := List.range_succ
    change (b.ended ++ (b.workers.set w (.hashing b.cursor)).filterMap Worker.current?).Perm
      (List.range (b.cursor + 1))
    rw [hrange]
    exact hbehind.trans (h.once.append_right [b.cursor])
  · have hexhausted := h.exhausted (mem_set_returned hreturned hmem)
    omega
  · rw [set_resuming hw]
    have hother : ∀ w', b.workers[w']? = some .resuming → w' = w := fun w' hw' => by
      cases (h.resuming w').mp hw'
      rfl
    simp only [reduceCtorEq, and_false, false_or, iff_false, not_and]
    exact fun hne hw' => hne (hother w' hw')
  · rw [count_set hw (by decide) hreturned]
    simpa using h.resolved
  · rw [List.length_set]
    simpa using h.settled

/-- A worker that finds no file left. -/
theorem Keeps.returns (h : b.Keeps (some (.resume w))) (hdone : ¬ b.cursor < b.files.length) :
    ({ b with workers := b.workers.set w .returned } : Batch).Keeps (some .element) := by
  have hw : b.workers[w]? = some .resuming := (h.resuming w).mpr rfl
  have hopen := h.open_of_worker hw (by decide)
  obtain ⟨rest, hbefore, hafter⟩ := working_set hw
  obtain ⟨others, hworkers, hset⟩ := workers_set hw
  have hcount : (b.workers.set w .returned).count .returned = b.workers.count .returned + 1 := by
    rw [(hset .returned).count_eq, hworkers.count_eq, List.count_cons_self,
      List.count_cons_of_ne (by decide)]
  have hresolved : b.resolved = b.workers.count .returned := by simpa using h.resolved
  have hle : (b.workers.set w .returned).count .returned ≤ (b.workers.set w .returned).length :=
    List.count_le_length
  refine ⟨h.begun, h.cursor_le, ?_, fun _ => ?_, fun w' => ?_, ?_,
    fun hphase => (by cases hphase), ?_⟩
  · exact (((hafter .returned).trans hbefore.symm).append_left b.ended).trans h.once
  · have hcursor := h.cursor_le
    exact Nat.le_antisymm hcursor (Nat.not_lt.mp hdone)
  · have hother : ∀ w', b.workers[w']? = some .resuming → w' = w := fun w' hw' => by
      cases (h.resuming w').mp hw'
      rfl
    rw [set_resuming hw]
    simp only [reduceCtorEq, and_false, false_or, Option.some.injEq, iff_false, not_and]
    exact fun hne hw' => hne (hother w' hw')
  · rw [if_pos rfl, hcount, ← hresolved]
  · rw [List.length_set, hcount, ← hresolved] at hle
    rw [List.length_set]
    simp only [hopen, Bool.false_eq_true, false_iff, not_and]
    omega

/-- `Promise.all` hears of a worker. -/
theorem Keeps.element (h : b.Keeps (some .element)) :
    ({ b with resolved := b.resolved + 1 } : Batch).Keeps
      (if b.resolved + 1 = b.workers.length then some .settle else none) := by
  have hnone : ∀ w, ¬ b.workers[w]? = some Worker.resuming := fun w hw => by
    cases (h.resuming w).mp hw
  have hresolved : b.resolved + 1 = b.workers.count .returned := by simpa using h.resolved
  have hle : b.workers.count .returned ≤ b.workers.length := List.count_le_length
  have hopen := h.open_of_element
  split
  · rename_i hall
    refine ⟨h.begun, h.cursor_le, h.once, h.exhausted, fun w => ?_, hresolved,
      fun _ => ⟨?_, hall⟩, ?_⟩
    · simpa using hnone w
    · change 0 < b.workers.length
      omega
    · simp [hopen]
  · rename_i hmore
    refine ⟨h.begun, h.cursor_le, h.once, h.exhausted, fun w => ?_, hresolved,
      fun hphase => (by cases hphase), ?_⟩
    · simpa using hnone w
    · simp [hopen, hmore]

/-- `enqueue` goes on after `Promise.all`. -/
theorem Keeps.settle (h : b.Keeps (some .settle)) :
    ({ b with settled := true } : Batch).Keeps none := by
  have hnone : ∀ w, ¬ b.workers[w]? = some Worker.resuming := fun w hw => by
    cases (h.resuming w).mp hw
  obtain ⟨hmanned, hlength⟩ := h.settling rfl
  refine ⟨h.begun, h.cursor_le, h.once, h.exhausted, fun w => ?_, ?_,
    fun hphase => (by cases hphase), ?_⟩
  · simpa using hnone w
  · simpa using h.resolved
  · simp [hmanned, hlength]

end Batch

end EventLens.Panel

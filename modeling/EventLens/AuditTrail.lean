import EventLens.Scrolling

/-!
The audit log and the page that shows it. The page scrolls back from the
oldest row it has and follows the newest one, both by their times, which reach
it in whole milliseconds. Scrolling visits every row once when no page ends
within a millisecond. The tail gets every row once when no more rows are
written between two polls than a poll returns, all later than the newest one
shown, and when that one was written in a whole millisecond.
-/

namespace EventLens.Audits

open Scrolling

inductive AuditCategory
  | subscription | gpu | job | auth | organization | event | retention | system
deriving DecidableEq, Repr

inductive AuditLevel
  | info | warning | error
deriving DecidableEq, Repr

/-- A row of `audit_log`; its time is in microseconds. -/
structure AuditLog where
  id : ℕ
  createdAt : ℤ
  category : AuditCategory := .system
  level : AuditLevel := .info
deriving DecidableEq, Repr

structure AuditFilter where
  category : Option AuditCategory := none
  level : Option AuditLevel := none
deriving DecidableEq, Repr

/-- `AuditQuery`. The cursors are the instants of dates. -/
structure AuditQuery extends AuditFilter where
  limit : ℕ
  before : Option ℤ := none
  after : Option ℤ := none
deriving DecidableEq, Repr

def AuditFilter.selects (filter : AuditFilter) (row : AuditLog) : Bool :=
  filter.category.all (fun category => row.category = category) ∧
    filter.level.all (fun level => row.level = level)

def AuditQuery.selects (query : AuditQuery) (row : AuditLog) : Bool :=
  query.toAuditFilter.selects row ∧ query.before.all (fun t => row.createdAt < t) ∧
    query.after.all (fun t => t < row.createdAt)

/-- An order in which the database comes across the rows of a table. -/
structure Scan where
  rows : List AuditLog → List AuditLog
  perm : ∀ table, (rows table).Perm table

/-- `AuditLogRepository.list`. Rows of one time come in the order of the scan. -/
def list (query : AuditQuery) (scan : Scan) (table : List AuditLog) : List AuditLog :=
  latest AuditLog.createdAt query.limit ((scan.rows table).filter query.selects)

/-- A time as a date: its millisecond. -/
def serialised (t : ℤ) : ℤ := t / 1000 * 1000

def maxRows : ℕ := 1000

/-- `loadFresh`. -/
def loadFresh (filter : AuditFilter) (limit : ℕ) (scan : Scan) (table : List AuditLog) :
    List AuditLog :=
  list { filter with limit := limit } scan table

/-- `loadOlder`: what it adds to the rows that are shown. -/
def loadOlder (filter : AuditFilter) (limit : ℕ) (scan : Scan) (table entries : List AuditLog) :
    List AuditLog :=
  match entries.getLast? with
  | none => []
  | some oldest =>
    list { filter with limit := limit, before := some (serialised oldest.createdAt) } scan table

/-- The newest time the page holds. -/
def newestHeld (entries : List AuditLog) : Option ℤ :=
  entries.head?.map (fun newest => serialised newest.createdAt)

/-- `tail`: what a poll returns. -/
def fresh (filter : AuditFilter) (limit : ℕ) (scan : Scan) (table entries : List AuditLog) :
    List AuditLog :=
  list { filter with limit := limit, after := newestHeld entries } scan table

/-- One page after another, each from the oldest row of the page before, until there are no more. -/
def scrollBack (filter : AuditFilter) (limit : ℕ) (scans : ℕ → Scan) (table : List AuditLog)
    (fuel : ℕ) :
    Option (List AuditLog) :=
  scroll (fun n before => list { filter with limit := limit, before := before } (scans n) table)
    (fun row => serialised row.createdAt) fuel 0 none

/-- The table and the rows shown; those that polls have returned, and those
selected by the filter that were written since the last poll. -/
structure Tail where
  table : List AuditLog
  entries : List AuditLog
  received : List AuditLog := []
  unread : List AuditLog := []
deriving DecidableEq

inductive TailStep
  | write (row : AuditLog)
  | poll (scan : Scan)

def opened (filter : AuditFilter) (limit : ℕ) (scan : Scan) (table : List AuditLog) : Tail :=
  { table := table, entries := loadFresh filter limit scan table }

def Tail.step (filter : AuditFilter) (limit : ℕ) (st : Tail) : TailStep → Tail
  | .write row =>
    { st with
      table := st.table ++ [row]
      unread := st.unread ++ [row].filter filter.selects }
  | .poll scan =>
    let rows := fresh filter limit scan st.table st.entries
    { st with
      entries := if 0 < rows.length then (rows ++ st.entries).take maxRows else st.entries
      received := st.received ++ rows
      unread := [] }

def follow (filter : AuditFilter) (limit : ℕ) (steps : List TailStep) (st : Tail) : Tail :=
  steps.foldl (Tail.step filter limit) st

/-- A poll finds no more new rows than it returns, all later than the newest row
shown; and, if it could return more, that one was written in a whole millisecond. -/
def InReach (limit : ℕ) (st : Tail) : TailStep → Prop
  | .write _ => True
  | .poll _ => st.unread.length ≤ limit ∧ ∀ newest ∈ st.entries.head?,
      (∀ row ∈ st.unread, newest.createdAt < row.createdAt) ∧
        (st.unread.length < limit → serialised newest.createdAt = newest.createdAt)

/-- Every poll of a run is in reach. -/
def AllInReach (filter : AuditFilter) (limit : ℕ) : List TailStep → Tail → Prop
  | [], _ => True
  | s :: rest, st => InReach limit st s ∧ AllInReach filter limit rest (st.step filter limit s)

instance (limit : ℕ) (st : Tail) (s : TailStep) : Decidable (InReach limit st s) := by
  cases s <;> dsimp only [InReach] <;> infer_instance

instance decidableAllInReach (filter : AuditFilter) (limit : ℕ) :
    (steps : List TailStep) → (st : Tail) → Decidable (AllInReach filter limit steps st)
  | [], _ => inferInstanceAs (Decidable True)
  | s :: rest, st =>
    have := decidableAllInReach filter limit rest (st.step filter limit s)
    inferInstanceAs
      (Decidable (InReach limit st s ∧ AllInReach filter limit rest (st.step filter limit s)))

/-- The rows a run writes that the filter selects. -/
def writtenIn (filter : AuditFilter) (steps : List TailStep) : List AuditLog :=
  steps.flatMap fun
    | .write row => [row].filter filter.selects
    | .poll _ => []

section Scroll

variable {filter : AuditFilter} {limit : ℕ} {table : List AuditLog}

theorem serialised_le (t : ℤ) : serialised t ≤ t := by
  unfold serialised
  omega

/-- The pages before a cursor hold the latest of the rows below it. -/
theorem list_serves (filter : AuditFilter) (limit : ℕ) (scans : ℕ → Scan) (table : List AuditLog) :
    Serves AuditLog.createdAt limit (table.filter filter.selects)
      (fun n before => list { filter with limit := limit, before := before } (scans n) table) := by
  intro n before
  refine ⟨_, ?_, rfl⟩
  have hperm := ((scans n).perm table).filter
    (AuditQuery.selects { filter with limit := limit, before := before })
  have hsame : table.filter (AuditQuery.selects { filter with limit := limit, before := before }) =
      (table.filter filter.selects).filter (below AuditLog.createdAt before) := by
    rw [List.filter_filter]
    refine List.filter_congr fun row _ => ?_
    simp [AuditQuery.selects, below, Bool.and_comm]
  rw [hsame] at hperm
  exact hperm

/-- The page before the oldest row shown is what loading older rows adds. -/
theorem loadOlder_eq (scan : Scan) {entries : List AuditLog} {oldest : AuditLog}
    (h : entries.getLast? = some oldest) :
    loadOlder filter limit scan table entries =
      list { filter with limit := limit, before := some (serialised oldest.createdAt) }
        scan table := by
  rw [loadOlder, h]

end Scroll

section Follow

variable {filter : AuditFilter} {limit : ℕ} {st : Tail} {s : TailStep}

/-- Of what the filter selects the newest shown is as late as all but the unread. -/
structure Caught (filter : AuditFilter) (st : Tail) : Prop where
  rows : ∃ seen, (st.table.filter filter.selects).Perm (st.unread ++ seen) ∧
    ∀ row ∈ seen, ∃ newest ∈ st.entries.head?, row.createdAt ≤ newest.createdAt

theorem opened_caught (hlimit : 1 ≤ limit) (scan : Scan) (table : List AuditLog) :
    Caught filter (opened filter limit scan table) := by
  refine ⟨table.filter filter.selects, List.Perm.refl _, fun row hrow => ?_⟩
  have hselects : AuditQuery.selects { filter with limit := limit } = filter.selects := by
    funext row
    simp [AuditQuery.selects]
  have hfound :
    row ∈ (scan.rows table).filter (AuditQuery.selects { filter with limit := limit }) := by
    rw [hselects]
    exact ((scan.perm table).filter _).mem_iff.mpr hrow
  obtain ⟨newest, hnewest, hlatest⟩ := exists_head_latest AuditLog.createdAt hlimit hfound
  exact ⟨newest, hnewest, hlatest row hfound⟩

def isLater (after : Option ℤ) (row : AuditLog) : Bool := after.all (fun t => t < row.createdAt)

theorem isLater_newestHeld {entries : List AuditLog} {row : AuditLog}
    (h : ∀ newest ∈ entries.head?, newest.createdAt < row.createdAt) :
    isLater (newestHeld entries) row = true := by
  unfold isLater newestHeld
  cases hhead : entries.head? with
  | none => rfl
  | some newest => exact decide_eq_true ((serialised_le _).trans_lt (h newest hhead))

theorem filter_after (filter : AuditFilter) (limit : ℕ) (after : Option ℤ) (rows : List AuditLog) :
    rows.filter (AuditQuery.selects { filter with limit := limit, after := after }) =
      (rows.filter filter.selects).filter (isLater after) := by
  rw [List.filter_filter]
  refine List.filter_congr fun row _ => ?_
  simp [AuditQuery.selects, isLater, Bool.and_comm]

/-- A poll in reach returns what is unread. -/
theorem fresh_perm (h : Caught filter st) {scan : Scan} (hreach : InReach limit st (.poll scan)) :
    (fresh filter limit scan st.table st.entries).Perm st.unread := by
  obtain ⟨seen, hperm, hseen⟩ := h
  obtain ⟨hfits, hnewest⟩ := hreach
  have hunread : st.unread.filter (isLater (newestHeld st.entries)) = st.unread :=
    List.filter_eq_self.mpr fun row hrow =>
      isLater_newestHeld fun newest hhead => (hnewest newest hhead).1 row hrow
  have hfound := ((((scan.perm st.table).filter filter.selects).trans hperm).filter
    (isLater (newestHeld st.entries)))
  rw [← filter_after filter limit, List.filter_append, hunread] at hfound
  refine latest_perm hfound ?_ hfits fun hless => ?_
  · intro row hrow old hold
    obtain ⟨newest, hhead, hle⟩ := hseen old (List.mem_filter.mp hold).1
    exact hle.trans_lt ((hnewest newest hhead).1 row hrow)
  · refine List.filter_eq_nil_iff.mpr fun old hold hlater => ?_
    obtain ⟨newest, hhead, hle⟩ := hseen old hold
    have hlt : serialised newest.createdAt < old.createdAt := by
      simpa [isLater, newestHeld, Option.mem_def.mp hhead] using hlater
    rw [(hnewest newest hhead).2 hless] at hlt
    omega

theorem step_caught (hlimit : 1 ≤ limit) (h : Caught filter st) (hreach : InReach limit st s) :
    Caught filter (st.step filter limit s) := by
  cases s with
  | write row =>
    obtain ⟨seen, hperm, hseen⟩ := h
    refine ⟨seen, ?_, hseen⟩
    change ((st.table ++ [row]).filter filter.selects).Perm
      (st.unread ++ [row].filter filter.selects ++ seen)
    rw [List.filter_append]
    refine (hperm.append_right _).trans ?_
    rw [List.append_assoc, List.append_assoc]
    exact List.perm_append_comm.append_left _
  | poll scan =>
    have hfresh := fresh_perm h hreach
    obtain ⟨seen, hperm, hseen⟩ := h
    obtain ⟨-, hnewest⟩ := hreach
    refine ⟨st.unread ++ seen, hperm, fun row hrow => ?_⟩
    by_cases hnone : fresh filter limit scan st.table st.entries = []
    · have hunread : st.unread = [] := by
        rw [hnone] at hfresh
        exact hfresh.symm.eq_nil
      have hsame : (st.step filter limit (.poll scan)).entries = st.entries := by
        simp [Tail.step, hnone]
      rw [hunread, List.nil_append] at hrow
      rw [hsame]
      exact hseen row hrow
    · obtain ⟨head, rest, hrows⟩ := List.exists_cons_of_ne_nil hnone
      have hhead : (st.step filter limit (.poll scan)).entries.head? = some head := by
        simp [Tail.step, hrows, maxRows]
      obtain ⟨hmem, hlatest⟩ : head ∈ _ ∧ ∀ b ∈ _, AuditLog.createdAt b ≤ AuditLog.createdAt head :=
        head_latest hlimit (by
          change (fresh filter limit scan st.table st.entries).head? = some head
          rw [hrows]
          rfl)
      have hle : ∀ u ∈ st.unread, u.createdAt ≤ head.createdAt := by
        intro u hu
        have hufresh := hfresh.mem_iff.mpr hu
        refine hlatest u ?_
        exact (perm_newestFirst _ _).mem_iff.mp (List.mem_of_mem_take hufresh)
      refine ⟨head, hhead, ?_⟩
      rcases List.mem_append.mp hrow with hu | hold
      · exact hle row hu
      · obtain ⟨newest, hshown, hbefore⟩ := hseen row hold
        have hheadUnread : head ∈ st.unread := hfresh.mem_iff.mp (hrows ▸ List.mem_cons_self)
        exact hbefore.trans ((hnewest newest hshown).1 head hheadUnread).le

/-- In reach, what has been received and what is unread is what was written. -/
theorem follow_spec (hlimit : 1 ≤ limit) {steps : List TailStep} (h : Caught filter st)
    (hreach : AllInReach filter limit steps st) :
    ((follow filter limit steps st).received ++ (follow filter limit steps st).unread).Perm
      (st.received ++ st.unread ++ writtenIn filter steps) := by
  induction steps generalizing st with
  | nil => simp [follow, writtenIn]
  | cons s rest ih =>
    obtain ⟨hs, hrest⟩ := hreach
    refine (ih (step_caught hlimit h hs) hrest).trans ?_
    cases s with
    | write row =>
      change (st.received ++ (st.unread ++ [row].filter filter.selects) ++
        writtenIn filter rest).Perm
        (st.received ++ st.unread ++ ([row].filter filter.selects ++ writtenIn filter rest))
      simp only [List.append_assoc, List.Perm.refl]
    | poll scan =>
      change (st.received ++ fresh filter limit scan st.table st.entries ++ [] ++
        writtenIn filter rest).Perm
        (st.received ++ st.unread ++ writtenIn filter rest)
      rw [List.append_nil]
      exact ((fresh_perm h hs).append_left _).append_right _

end Follow

/-- Scrolling back visits every row once exactly when at each page edge the next
row is older than the millisecond of the last one; and a tail whose polls are all
in reach has, after its last poll, received every row written since once. -/
theorem audit_log_followed (filter : AuditFilter) {limit : ℕ} (hlimit : 1 ≤ limit) :
    (∀ (table : List AuditLog) (scans : ℕ → Scan) (fuel : ℕ), table.length < fuel →
      ((∃ visited, scrollBack filter limit scans table fuel = some visited ∧
          visited.Perm (table.filter filter.selects)) ↔
        Spaced serialised limit (timesOf AuditLog.createdAt (table.filter filter.selects)))) ∧
    ∀ (table : List AuditLog) (scan last : Scan) (steps : List TailStep),
      AllInReach filter limit (steps ++ [.poll last]) (opened filter limit scan table) →
      (follow filter limit (steps ++ [.poll last]) (opened filter limit scan table)).received.Perm
        (writtenIn filter steps) := by
  refine ⟨fun table scans fuel hfuel => ?_, fun table scan last steps hreach => ?_⟩
  · have hless : (table.filter filter.selects).length < fuel :=
      (List.length_filter_le _ _).trans_lt hfuel
    exact scroll_all_iff hlimit serialised_le (list_serves filter limit scans table) hless
  · have hspec := follow_spec hlimit (opened_caught hlimit scan table) hreach
    have hunread :
        (follow filter limit (steps ++ [.poll last]) (opened filter limit scan table)).unread =
          [] := by
      rw [follow, List.foldl_append]
      rfl
    have hwritten : writtenIn filter (steps ++ [.poll last]) = writtenIn filter steps := by
      simp [writtenIn]
    rw [hunread, List.append_nil, hwritten] at hspec
    exact hspec

/-- The database comes across the rows as they were written. -/
def asWritten : Scan := ⟨id, fun _ => List.Perm.refl _⟩

/-- Seconds apart from each other. -/
def row (second : ℕ) : AuditLog := { id := second, createdAt := second * 1_000_000 }

theorem audit_log_followed_apart :
    (∃ visited, scrollBack {} 2 (fun _ => asWritten) [row 1, row 2, row 3] 4 = some visited ∧
      visited.Perm [row 1, row 2, row 3]) ∧
    (follow {} 2 [.write (row 4), .write (row 5), .poll asWritten, .write (row 6), .poll asWritten]
      (opened {} 2 asWritten [row 1, row 2, row 3])).received.Perm [row 4, row 5, row 6] := by
  obtain ⟨hscroll, htail⟩ := audit_log_followed {} (show 1 ≤ 2 by decide)
  have hspaced : Spaced serialised 2 ([3_000_000] ++ 2_000_000 :: [1_000_000]) :=
    (spaced_append rfl).mpr ⟨by simp [serialised], spaced_short (by simp)⟩
  exact ⟨(hscroll [row 1, row 2, row 3] (fun _ => asWritten) 4 (by decide)).mpr hspaced,
    htail [row 1, row 2, row 3] asWritten asWritten
      [.write (row 4), .write (row 5), .poll asWritten, .write (row 6)] (by decide)⟩

/-- Two rows of one time. -/
def twins : List AuditLog := [{ id := 0, createdAt := 0 }, { id := 1, createdAt := 0 }]

/-- Two rows written between two polls. -/
def burst : List TailStep := [.write (row 1), .write (row 2)]

theorem follow_idle {filter : AuditFilter} {limit : ℕ} {st : Tail} {s : TailStep}
    (h : st.step filter limit s = st) (n : ℕ) :
    follow filter limit (List.replicate n s) st = st := by
  induction n with
  | zero => rfl
  | succ n ih =>
    rw [List.replicate_succ, follow, List.foldl_cons, h]
    exact ih

/-- Pages of one row skip the other twin, and polls of one row lose the older row of a burst. -/
theorem not_audit_log_followed :
    (¬ ∀ (filter : AuditFilter) (limit : ℕ), 1 ≤ limit →
    ∀ (table : List AuditLog) (scans : ℕ → Scan)
      (fuel : ℕ), table.length < fuel →
      ∃ visited, scrollBack filter limit scans table fuel = some visited ∧
        visited.Perm (table.filter filter.selects)) ∧
    ¬ ∀ (filter : AuditFilter) (limit : ℕ), 1 ≤ limit → ∀ (table : List AuditLog) (scan : Scan)
      (steps : List TailStep), ∃ enough, ∀ n, enough ≤ n →
        (follow filter limit (steps ++ List.replicate n (.poll scan))
          (opened filter limit scan table)).received.Perm (writtenIn filter steps) := by
  constructor
  · intro h
    obtain ⟨visited, hscroll, hperm⟩ := h {} 1 (by decide) twins (fun _ => asWritten) 3 (by decide)
    have hone :
      scrollBack {} 1 (fun _ => asWritten) twins 3 = some [{ id := 0, createdAt := 0 }] := by decide
    rw [hone] at hscroll
    cases hscroll
    exact absurd hperm.length_eq (by decide)
  · intro h
    obtain ⟨enough, hall⟩ := h {} 1 (by decide) [] asWritten burst
    have hperm := hall (enough + 1) (Nat.le_succ enough)
    let polled := (follow {} 1 burst (opened {} 1 asWritten [])).step {} 1 (.poll asWritten)
    have hidle : polled.step {} 1 (.poll asWritten) = polled := by decide
    have hend : follow {} 1 (burst ++ List.replicate (enough + 1) (.poll asWritten))
        (opened {} 1 asWritten []) = polled := by
      rw [List.replicate_succ, follow, List.foldl_append, List.foldl_cons]
      exact follow_idle hidle enough
    rw [hend] at hperm
    exact absurd hperm.length_eq (by decide)

end EventLens.Audits

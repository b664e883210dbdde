import EventLens.ImportQueue
import Mathlib

/-!
The ledger of the work under way. Each stage weighs on the job it lists and on
the items it carries; the sums over all stages say whether a job still has a
listing to come, whether an item still has a worker to come, and whether a
job still has somebody to close it. The soundness of one job's ledger is kept
by every deed that re-points no item some work still carries.
-/

namespace EventLens.Import

open Programs

/-! Weights. -/

/-- The listing of the job is still to return. -/
def Stage.folder (j : JobId) : Stage → ℕ
  | .opening k | .listing k _ | .captured k _ _ | .promised k _ | .broken k | .created k =>
    if k = j then 1 else 0
  | _ => 0

/-- The listing is still to move the job on. -/
def Stage.lister (j : JobId) : Stage → ℕ
  | .opening k | .listing k _ | .captured k _ _ | .created k => if k = j then 1 else 0
  | _ => 0

/-- The listing has not moved the job on to importing. -/
def Stage.idle (j : JobId) : Stage → ℕ
  | .opening k | .listing k _ | .captured k _ _ | .broken k | .created k =>
    if k = j then 1 else 0
  | _ => 0

/-- A worker has the item, or will. -/
def Stage.working (x : ItemId) : Stage → ℕ
  | .starting y | .chosen y _ | .admitted y _ | .downloading y _ | .backed y =>
    if y = x then 1 else 0
  | _ => 0

/-- A worker is importing the item. -/
def Stage.fetching (x : ItemId) : Stage → ℕ
  | .downloading y _ => if y = x then 1 else 0
  | _ => 0

/-- The item is about to be queued. -/
def Stage.parked (x : ItemId) : Stage → ℕ
  | .captured _ _ ids | .promised _ ids => ids.count x
  | _ => 0

/-- The stage carries the item: its outcome is still to be written. -/
def Stage.held (x : ItemId) (s : Stage) : ℕ := s.working x + s.parked x

/-- A worker has written its outcome and may still close the job. -/
def Stage.finishing (j : JobId) : Stage → ℕ
  | .finished _ k _ | .counted _ k | .emptied _ k | .closing _ k => if k = j then 1 else 0
  | _ => 0

/-- What a stage takes for granted about the row of an item it carries. -/
structure Claim where
  item : ItemId
  job : JobId
  status : ImportItemStatus

def Stage.claims : Stage → List Claim
  | .chosen x j | .admitted x j => [⟨x, j, .pending⟩]
  | .downloading x j => [⟨x, j, .downloading⟩]
  | .captured j _ ids | .promised j ids => ids.map (fun x => ⟨x, j, .pending⟩)
  | _ => []

def total (f : Stage → ℕ) (S : Multiset Stage) : ℕ := (S.map f).sum

section Total

variable {f g : Stage → ℕ} {s : Stage} {S T : Multiset Stage}

@[simp] theorem total_zero : total f 0 = 0 := rfl

@[simp] theorem total_cons : total f (s ::ₘ S) = f s + total f S := by
  simp [total]

@[simp] theorem total_singleton : total f {s} = f s := by
  simp [total]

@[simp] theorem total_add : total f (S + T) = total f S + total f T := by
  simp [total]

theorem le_total (h : s ∈ S) : f s ≤ total f S := by
  obtain ⟨R, rfl⟩ := Multiset.exists_cons_of_mem h
  rw [total_cons]
  omega

theorem exists_of_total (h : 1 ≤ total f S) : ∃ s ∈ S, 1 ≤ f s := by
  induction S using Multiset.induction with
  | empty => simp at h
  | cons s S ih =>
    by_cases hs : 1 ≤ f s
    · exact ⟨s, Multiset.mem_cons_self s S, hs⟩
    · rw [total_cons] at h
      obtain ⟨u, hu, hfu⟩ := ih (by omega)
      exact ⟨u, Multiset.mem_cons_of_mem hu, hfu⟩

/-- Where no stage weighs anything, all together do not. -/
theorem total_eq_zero (h : ∀ s ∈ S, f s = 0) : total f S = 0 := by
  by_contra hpos
  obtain ⟨s, hs, hone⟩ := exists_of_total (Nat.pos_of_ne_zero hpos)
  rw [h s hs] at hone
  omega

theorem total_mono (h : ∀ s, f s ≤ g s) (S : Multiset Stage) : total f S ≤ total g S := by
  induction S using Multiset.induction with
  | empty => simp
  | cons s S ih =>
    have hs := h s
    rw [total_cons, total_cons]
    omega

theorem total_starting (f : Stage → ℕ) (ids : List ItemId) :
    total f (ids.map Stage.starting : List Stage) =
      (ids.map (fun x => f (.starting x))).sum := by
  simp [total, Function.comp_def]

theorem total_starting_zero (hf : ∀ x, f (.starting x) = 0) (ids : List ItemId) :
    total f (ids.map Stage.starting : List Stage) = 0 := by
  rw [total_starting]
  simp [hf]

theorem total_starting_count {x : ItemId} (hf : ∀ y, f (.starting y) = if y = x then 1 else 0)
    (ids : List ItemId) : total f (ids.map Stage.starting : List Stage) = ids.count x := by
  rw [total_starting]
  induction ids with
  | nil => rfl
  | cons y ids ih =>
    rw [List.map_cons, List.sum_cons, ih, hf, List.count_cons, Nat.add_comm]
    simp

end Total

theorem Stage.fetching_le_working (x : ItemId) (s : Stage) : s.fetching x ≤ s.working x := by
  cases s <;> simp [Stage.fetching, Stage.working]

theorem fetching_le_working (x : ItemId) (S : Multiset Stage) :
    total (Stage.fetching x) S ≤ total (Stage.working x) S :=
  total_mono (Stage.fetching_le_working x) S

theorem idle_le_folder (j : JobId) (S : Multiset Stage) :
    total (Stage.idle j) S ≤ total (Stage.folder j) S := by
  refine total_mono (fun s => ?_) S
  cases s <;> simp [Stage.idle, Stage.folder]

theorem working_le_held (x : ItemId) (S : Multiset Stage) :
    total (Stage.working x) S ≤ total (Stage.held x) S :=
  total_mono (fun s => Nat.le_add_right (s.working x) (s.parked x)) S

theorem held_of_claim {s : Stage} {c : Claim} (h : c ∈ s.claims) : 1 ≤ s.held c.item := by
  cases s <;> simp only [Stage.claims, List.mem_singleton, List.mem_map, List.not_mem_nil] at h
  case chosen x j => subst h; simp [Stage.held, Stage.working]
  case admitted x j => subst h; simp [Stage.held, Stage.working]
  case downloading x j => subst h; simp [Stage.held, Stage.working]
  case captured j p ids =>
    obtain ⟨x, hx, rfl⟩ := h
    simpa [Stage.held, Stage.working, Stage.parked] using hx
  case promised j ids =>
    obtain ⟨x, hx, rfl⟩ := h
    simpa [Stage.held, Stage.working, Stage.parked] using hx

/-! The ledger. -/

/-- Ids are given out once, and every item has its job. -/
structure Tables.WellFormed (t : Tables) : Prop where
  ids : (t.items.map ImportItem.id).Nodup
  below : ∀ i ∈ t.items, i.id < t.nextItemId
  jobIds : (t.jobs.map ImportJob.id).Nodup
  jobsBelow : ∀ job ∈ t.jobs, job.id < t.nextJobId
  parents : ∀ i ∈ t.items, t.job i.importJobId ≠ none

section Tables

variable {t : Tables} {j k : JobId}

@[simp] theorem items_updateJobs (f : ImportJob → ImportJob) :
    (t.updateJobs k f).items = t.items := rfl

@[simp] theorem items_addJob (job : NewJob) : (t.addJob job).items = t.items := rfl

theorem job_updateJobs {f : ImportJob → ImportJob} (hf : ∀ job, (f job).id = job.id) :
    (t.updateJobs k f).job j = (t.job j).map (fun job => if j = k then f job else job) :=
  findRow_updateRow hf

theorem status_updateJobs (dto : JobChange) :
    (t.updateJobs k dto.apply).status j =
      (t.status j).map (fun status => if j = k then dto.status else status) := by
  rw [Tables.status, job_updateJobs (f := dto.apply) (fun _ => rfl), Tables.status]
  cases t.job j with
  | none => rfl
  | some job =>
    simp only [Option.map_some]
    split <;> rfl

theorem bump_id (counter : Counter) (job : ImportJob) : (job.bump counter).id = job.id := by
  cases counter <;> rfl

theorem status_bump (counter : Counter) :
    (t.updateJobs k (ImportJob.bump counter)).status j = t.status j := by
  rw [Tables.status, job_updateJobs (bump_id counter), Tables.status]
  cases t.job j with
  | none => rfl
  | some job =>
    simp only [Option.map_some]
    split
    · cases counter <;> rfl
    · rfl

theorem job_addJob (job : NewJob) :
    (t.addJob job).job j =
      (t.job j).or (if j = t.nextJobId then some (job.row t.nextJobId) else none) := by
  rw [Tables.job, Tables.job, Tables.addJob, findRow, List.find?_append, findRow]
  congr 1
  by_cases hj : j = t.nextJobId
  · simp [hj, NewJob.row]
  · simp [NewJob.row, hj, Ne.symm hj]

theorem Tables.WellFormed.next_job (h : t.WellFormed) : t.job t.nextJobId = none :=
  findRow_eq_none.mpr fun job hjob hid => Nat.lt_irrefl _ (hid ▸ h.jobsBelow job hjob)

theorem Tables.WellFormed.updateJobs (h : t.WellFormed) {f : ImportJob → ImportJob}
    (hf : ∀ job, (f job).id = job.id) : (t.updateJobs k f).WellFormed where
  ids := h.ids
  below := h.below
  jobIds := by
    rw [Tables.updateJobs, map_updateRow hf]
    exact h.jobIds
  jobsBelow := by
    intro job hjob
    rcases mem_updateRow.mp hjob with ⟨job', hjob', -, rfl⟩ | ⟨hjob, -⟩
    · rw [hf]
      exact h.jobsBelow job' hjob'
    · exact h.jobsBelow job hjob
  parents := by
    intro i hi
    rw [job_updateJobs hf]
    simpa using h.parents i hi

theorem Tables.WellFormed.updateItems (h : t.WellFormed) {x : ItemId}
    {f : ImportItem → ImportItem} (hf : ∀ i, (f i).id = i.id)
    (hparent : ∀ i ∈ t.items, t.job (f i).importJobId ≠ none) : (t.updateItems x f).WellFormed where
  ids := by
    rw [Tables.updateItems, map_updateRow hf]
    exact h.ids
  below := by
    intro i hi
    rcases mem_updateRow.mp hi with ⟨i', hi', -, rfl⟩ | ⟨hi, -⟩
    · rw [hf]
      exact h.below i' hi'
    · exact h.below i hi
  jobIds := h.jobIds
  jobsBelow := h.jobsBelow
  parents := by
    intro i hi
    rcases mem_updateRow.mp hi with ⟨i', hi', -, rfl⟩ | ⟨hi, -⟩
    · exact hparent i' hi'
    · exact h.parents i hi

theorem freshRows_below {rows : List NewItem} {next : ItemId} {i : ImportItem}
    (h : i ∈ freshRows next rows) : i.id < next + rows.length := by
  induction rows generalizing next with
  | nil => cases h
  | cons n rows ih =>
    rw [List.length_cons]
    rcases List.mem_cons.mp h with rfl | h
    · exact Nat.lt_add_of_pos_right (Nat.succ_pos _)
    · have hlt := ih h
      exact Nat.lt_of_lt_of_eq hlt (Nat.add_right_comm _ _ _)

theorem freshRows_nodup (rows : List NewItem) (next : ItemId) :
    ((freshRows next rows).map ImportItem.id).Nodup := by
  induction rows generalizing next with
  | nil => exact List.nodup_nil
  | cons n rows ih =>
    rw [freshRows, List.map_cons, List.nodup_cons]
    refine ⟨?_, ih (next + 1)⟩
    intro hmem
    obtain ⟨i, hi, hid⟩ := List.mem_map.mp hmem
    obtain ⟨_, -, hle, -⟩ := mem_freshRows hi
    have hnext : i.id = next := hid
    rw [hnext] at hle
    exact Nat.not_succ_le_self next hle

theorem Tables.WellFormed.addItems (h : t.WellFormed) {rows : List NewItem}
    (hparent : ∀ n ∈ rows, t.job n.importJobId ≠ none) : (t.addItems rows).WellFormed where
  ids := by
    rw [Tables.addItems, List.map_append, List.nodup_append]
    refine ⟨h.ids, freshRows_nodup rows _, ?_⟩
    intro x hx y hy hxy
    obtain ⟨i, hi, rfl⟩ := List.mem_map.mp hx
    obtain ⟨i', hi', rfl⟩ := List.mem_map.mp hy
    obtain ⟨_, -, hle, -⟩ := mem_freshRows hi'
    exact Nat.not_lt_of_le hle (hxy ▸ h.below i hi)
  below := by
    intro i hi
    rcases List.mem_append.mp hi with hi | hi
    · exact Nat.lt_of_lt_of_le (h.below i hi) (Nat.le_add_right _ _)
    · exact freshRows_below hi
  jobIds := h.jobIds
  jobsBelow := h.jobsBelow
  parents := by
    intro i hi
    rcases List.mem_append.mp hi with hi | hi
    · exact h.parents i hi
    · obtain ⟨n, hn, -, hrow⟩ := mem_freshRows hi
      rw [hrow]
      exact hparent n hn

theorem Tables.WellFormed.addJob (h : t.WellFormed) (job : NewJob) : (t.addJob job).WellFormed where
  ids := h.ids
  below := h.below
  jobIds := by
    rw [Tables.addJob, List.map_append, List.nodup_append]
    refine ⟨h.jobIds, List.nodup_singleton _, ?_⟩
    intro x hx y hy hxy
    obtain ⟨job', hjob', rfl⟩ := List.mem_map.mp hx
    rw [List.map_singleton, List.mem_singleton] at hy
    have hlt := h.jobsBelow job' hjob'
    rw [hxy, hy] at hlt
    exact Nat.lt_irrefl _ hlt
  jobsBelow := by
    intro job' hjob'
    rcases List.mem_append.mp hjob' with hjob' | hjob'
    · exact Nat.lt_succ_of_lt (h.jobsBelow job' hjob')
    · rw [List.mem_singleton.mp hjob']
      exact Nat.lt_succ_self _
  parents := by
    intro i hi
    rw [job_addJob]
    cases hjob : t.job i.importJobId with
    | none => exact absurd hjob (h.parents i hi)
    | some job' => simp

end Tables

/-- The ledger of one job. -/
structure Sound (j : JobId) (S : Multiset Stage) (t : Tables) : Prop where
  wf : t.WellFormed
  /-- What is carried has a row. -/
  rows : ∀ x, 1 ≤ total (Stage.held x) S → ∃ i ∈ t.items, i.id = x
  jobs : ∀ k, t.job k = none → total (Stage.folder k) S = 0
  one : total (Stage.folder j) S ≤ 1
  listing : t.status j = some .listing → 1 ≤ total (Stage.lister j) S
  importing : t.status j = some .importing → total (Stage.idle j) S = 0
  /-- An item of the job is carried once at most. -/
  single : ∀ i ∈ t.items, i.importJobId = j → total (Stage.held i.id) S ≤ 1
  claims : ∀ s ∈ S, ∀ c ∈ s.claims, ∀ i ∈ t.items, i.id = c.item →
    c.job = j ∨ i.importJobId = j → i.importJobId = c.job ∧ i.status = c.status
  /-- No item of the job has a worker until its listing has returned. -/
  quiet : 1 ≤ total (Stage.folder j) S → ∀ i ∈ t.items, i.importJobId = j →
    total (Stage.working i.id) S = 0
  downloading : ∀ i ∈ t.items, i.importJobId = j → i.status = .downloading →
    1 ≤ total (Stage.fetching i.id) S
  captured : ∀ p ids, .captured j p ids ∈ S → ∀ i ∈ t.items, i.importJobId = j →
    i.status.remaining = true → i.id ∈ ids
  /-- While the job imports, every remaining item is carried. -/
  carried : t.status j = some .importing → ∀ i ∈ t.items, i.importJobId = j →
    i.status.remaining = true → 1 ≤ total (Stage.held i.id) S
  /-- While the job imports, an item remains or somebody is to close it. -/
  closing : t.status j = some .importing →
    (∃ i ∈ t.items, i.importJobId = j ∧ i.status.remaining = true) ∨
      1 ≤ total (Stage.finishing j) S

/-- Once no work is due a job is no longer listing or importing. -/
theorem Sound.settled {j : JobId} {S : Multiset Stage} {t : Tables} (h : Sound j S t)
    (hlister : total (Stage.lister j) S = 0) (hheld : ∀ x, total (Stage.held x) S = 0)
    (hfinishing : total (Stage.finishing j) S = 0) {status : ImportJobStatus}
    (hstatus : t.status j = some status) : status ≠ .listing ∧ status ≠ .importing := by
  constructor
  · rintro rfl
    have hlisting := h.listing hstatus
    omega
  · rintro rfl
    rcases h.closing hstatus with ⟨i, hi, hij, hrem⟩ | hclosing
    · have hcarried := h.carried hstatus i hi hij hrem
      have hnone := hheld i.id
      omega
    · omega

section Deeds

variable {j : JobId} {s : Stage} {R ns : Multiset Stage} {t t' : Tables}

/-- The stages `ns` bear on job `j` and on the items at most what `s` does. -/
structure Lightens (j : JobId) (s : Stage) (ns : Multiset Stage) : Prop where
  folder : ∀ k, total (Stage.folder k) ns ≤ s.folder k
  working : ∀ x, total (Stage.working x) ns ≤ s.working x
  held : ∀ x, total (Stage.held x) ns ≤ s.held x
  claims : ∀ n ∈ ns, ∀ c ∈ n.claims, c ∈ s.claims
  captured : ∀ p ids, .captured j p ids ∈ ns → s = .captured j p ids

/-- A deed that leaves the items alone and lightens its stage has to account
only for what it takes away. -/
theorem Sound.lighten (h : Sound j (s ::ₘ R) t) (hns : Lightens j s ns) (hwf : t'.WellFormed)
    (hitems : t'.items = t.items) (hjob : ∀ k, t'.job k = none → t.job k = none)
    (hlisting : t'.status j = some .listing → 1 ≤ total (Stage.lister j) (ns + R))
    (himporting : t'.status j = some .importing → total (Stage.idle j) (ns + R) = 0)
    (hdownloading : ∀ i ∈ t.items, i.importJobId = j → i.status = .downloading →
      1 ≤ total (Stage.fetching i.id) (ns + R))
    (hcarried : t'.status j = some .importing → ∀ i ∈ t.items, i.importJobId = j →
      i.status.remaining = true → 1 ≤ total (Stage.held i.id) (ns + R))
    (hclosing : t'.status j = some .importing →
      (∃ i ∈ t.items, i.importJobId = j ∧ i.status.remaining = true) ∨
        1 ≤ total (Stage.finishing j) (ns + R)) : Sound j (ns + R) t' where
  wf := hwf
  rows := by
    intro x hx
    rw [hitems]
    have hle := hns.held x
    refine h.rows x ?_
    rw [total_add] at hx
    rw [total_cons]
    omega
  jobs := by
    intro k hk
    have hle := hns.folder k
    have hzero := h.jobs k (hjob k hk)
    rw [total_cons] at hzero
    rw [total_add]
    omega
  one := by
    have hle := hns.folder j
    have hone := h.one
    rw [total_cons] at hone
    rw [total_add]
    omega
  listing := hlisting
  importing := himporting
  single := by
    intro i hi hij
    rw [hitems] at hi
    have hle := hns.held i.id
    have hsingle := h.single i hi hij
    rw [total_cons] at hsingle
    rw [total_add]
    omega
  claims := by
    intro n hn c hc i hi hci hj
    rw [hitems] at hi
    rcases Multiset.mem_add.mp hn with hn | hn
    · exact h.claims s (Multiset.mem_cons_self s R) c (hns.claims n hn c hc) i hi hci hj
    · exact h.claims n (Multiset.mem_cons_of_mem hn) c hc i hi hci hj
  quiet := by
    intro hfolder i hi hij
    rw [hitems] at hi
    have hle := hns.folder j
    have hle' := hns.working i.id
    have hquiet := h.quiet (by rw [total_add] at hfolder; rw [total_cons]; omega) i hi hij
    rw [total_cons] at hquiet
    rw [total_add]
    omega
  downloading := by
    rw [hitems]
    exact hdownloading
  captured := by
    intro p ids hmem
    rw [hitems]
    refine h.captured p ids ?_
    rcases Multiset.mem_add.mp hmem with hmem | hmem
    · rw [hns.captured p ids hmem]
      exact Multiset.mem_cons_self _ R
    · exact Multiset.mem_cons_of_mem hmem
  carried := by
    rw [hitems]
    exact hcarried
  closing := by
    rw [hitems]
    exact hclosing

/-- The stages `ns` bear on job `j` and on the items just what `s` does. -/
structure Alike (j : JobId) (s : Stage) (ns : Multiset Stage) : Prop extends Lightens j s ns where
  lister : s.lister j ≤ total (Stage.lister j) ns
  idle : total (Stage.idle j) ns ≤ s.idle j
  fetching : ∀ x, s.fetching x ≤ total (Stage.fetching x) ns
  held' : ∀ x, s.held x ≤ total (Stage.held x) ns
  finishing : s.finishing j ≤ total (Stage.finishing j) ns

theorem Sound.relabel (h : Sound j (s ::ₘ R) t) (hns : Alike j s ns) (hwf : t'.WellFormed)
    (hitems : t'.items = t.items) (hjob : ∀ k, t'.job k = none → t.job k = none)
    (hstatus : t'.status j = t.status j) : Sound j (ns + R) t' := by
  refine h.lighten hns.toLightens hwf hitems hjob ?_ ?_ ?_ ?_ ?_
  · intro hs
    have hlisting := h.listing (hstatus ▸ hs)
    have hle := hns.lister
    rw [total_cons] at hlisting
    rw [total_add]
    omega
  · intro hs
    have himporting := h.importing (hstatus ▸ hs)
    have hle := hns.idle
    rw [total_cons] at himporting
    rw [total_add]
    omega
  · intro i hi hij hd
    have hdownloading := h.downloading i hi hij hd
    have hle := hns.fetching i.id
    rw [total_cons] at hdownloading
    rw [total_add]
    omega
  · intro hs i hi hij hrem
    have hcarried := h.carried (hstatus ▸ hs) i hi hij hrem
    have hle := hns.held' i.id
    rw [total_cons] at hcarried
    rw [total_add]
    omega
  · intro hs
    refine (h.closing (hstatus ▸ hs)).imp_right fun hclosing => ?_
    have hle := hns.finishing
    rw [total_cons] at hclosing
    rw [total_add]
    omega

theorem alike_one {n : Stage} (hfolder : ∀ k, n.folder k = s.folder k)
    (hlister : s.lister j ≤ n.lister j) (hidle : n.idle j ≤ s.idle j)
    (hworking : ∀ x, n.working x = s.working x) (hparked : ∀ x, n.parked x = s.parked x)
    (hfetching : ∀ x, n.fetching x = s.fetching x) (hfinishing : s.finishing j ≤ n.finishing j)
    (hclaims : n.claims = s.claims)
    (hcaptured : ∀ p ids, n = .captured j p ids → s = .captured j p ids) : Alike j s {n} where
  folder k := by rw [total_singleton, hfolder]
  working x := by rw [total_singleton, hworking]
  held x := by rw [total_singleton, Stage.held, Stage.held, hworking, hparked]
  claims := by
    intro m hm c hc
    rw [Multiset.mem_singleton.mp hm, hclaims] at hc
    exact hc
  captured := by
    intro p ids hmem
    exact hcaptured p ids (Multiset.mem_singleton.mp hmem).symm
  lister := by rwa [total_singleton]
  idle := by rwa [total_singleton]
  fetching x := by rw [total_singleton, hfetching]
  held' x := by rw [total_singleton, Stage.held, Stage.held, hworking, hparked]
  finishing := by rwa [total_singleton]

theorem alike_self : Alike j s {s} :=
  alike_one (fun _ => rfl) (Nat.le_refl _) (Nat.le_refl _) (fun _ => rfl) (fun _ => rfl)
    (fun _ => rfl) (Nat.le_refl _) rfl (fun _ _ => id)

/-- A stage that has nothing to do with any job or item. -/
structure Idle (s : Stage) : Prop where
  folder : ∀ k, s.folder k = 0
  lister : ∀ k, s.lister k = 0
  idle : ∀ k, s.idle k = 0
  held : ∀ x, s.held x = 0
  claims : s.claims = []

theorem Idle.working (hs : Idle s) (x : ItemId) : s.working x = 0 := by
  have hheld := hs.held x
  rw [Stage.held] at hheld
  omega

theorem idle_over : Idle .over := ⟨fun _ => rfl, fun _ => rfl, fun _ => rfl, fun _ => rfl, rfl⟩

theorem Sound.add (h : Sound j R t) (hs : Idle s) : Sound j (s ::ₘ R) t where
  wf := h.wf
  rows := by
    intro x hx
    rw [total_cons, hs.held, Nat.zero_add] at hx
    exact h.rows x hx
  jobs := by
    intro k hk
    rw [total_cons, hs.folder, Nat.zero_add]
    exact h.jobs k hk
  one := by
    rw [total_cons, hs.folder, Nat.zero_add]
    exact h.one
  listing := by
    rw [total_cons, hs.lister, Nat.zero_add]
    exact h.listing
  importing := by
    rw [total_cons, hs.idle, Nat.zero_add]
    exact h.importing
  single := by
    intro i hi hij
    rw [total_cons, hs.held, Nat.zero_add]
    exact h.single i hi hij
  claims := by
    intro n hn c hc
    rcases Multiset.mem_cons.mp hn with rfl | hn
    · rw [hs.claims] at hc
      cases hc
    · exact h.claims n hn c hc
  quiet := by
    intro hone i hi hij
    rw [total_cons, hs.folder, Nat.zero_add] at hone
    rw [total_cons, hs.working, Nat.zero_add]
    exact h.quiet hone i hi hij
  downloading := by
    intro i hi hij hd
    have hdown := h.downloading i hi hij hd
    rw [total_cons]
    omega
  captured := by
    intro p ids hmem
    rcases Multiset.mem_cons.mp hmem with rfl | hmem
    · have hfolder := hs.folder j
      simp [Stage.folder] at hfolder
    · exact h.captured p ids hmem
  carried := by
    intro hstatus i hi hij hrem
    rw [total_cons, hs.held, Nat.zero_add]
    exact h.carried hstatus i hi hij hrem
  closing := by
    intro hstatus
    refine (h.closing hstatus).imp_right fun hclosing => ?_
    rw [total_cons]
    omega

/-- A stage may be given up when nothing is left to wait for. -/
theorem Sound.drop (h : Sound j (s ::ₘ R) t)
    (hlisting : t.status j = some .listing → s.lister j = 0)
    (hdownloading : ∀ i ∈ t.items, i.importJobId = j → i.status = .downloading →
      s.fetching i.id = 0)
    (hcarried : t.status j = some .importing → ∀ i ∈ t.items, i.importJobId = j →
      i.status.remaining = true → s.held i.id = 0)
    (hclosing : t.status j = some .importing →
      s.finishing j = 0 ∨ ∃ i ∈ t.items, i.importJobId = j ∧ i.status.remaining = true) :
    Sound j R t := by
  have hnone : Lightens j s 0 :=
    { folder := fun k => Nat.zero_le _
      working := fun x => Nat.zero_le _
      held := fun x => Nat.zero_le _
      claims := fun n hn => absurd hn (Multiset.notMem_zero n)
      captured := fun p ids hmem => absurd hmem (Multiset.notMem_zero _) }
  rw [← zero_add R]
  refine h.lighten hnone h.wf rfl (fun _ => id) ?_ ?_ ?_ ?_ ?_
  · intro hstatus
    have hlister := h.listing hstatus
    rw [total_cons, hlisting hstatus, Nat.zero_add] at hlister
    rwa [zero_add]
  · intro hstatus
    have hidle := h.importing hstatus
    rw [total_cons] at hidle
    rw [zero_add]
    omega
  · intro i hi hij hd
    have hdown := h.downloading i hi hij hd
    rw [total_cons, hdownloading i hi hij hd, Nat.zero_add] at hdown
    rwa [zero_add]
  · intro hstatus i hi hij hrem
    have hheld := h.carried hstatus i hi hij hrem
    rw [total_cons, hcarried hstatus i hi hij hrem, Nat.zero_add] at hheld
    rwa [zero_add]
  · intro hstatus
    rcases hclosing hstatus with hnone | hrem
    · refine (h.closing hstatus).imp_right fun hfin => ?_
      rw [total_cons, hnone, Nat.zero_add] at hfin
      rwa [zero_add]
    · exact .inl hrem

theorem exists_updateItems {x y : ItemId} {f : ImportItem → ImportItem}
    (hf : ∀ i, (f i).id = i.id) (h : ∃ i ∈ t.items, i.id = y) :
    ∃ i ∈ (t.updateItems x f).items, i.id = y := by
  obtain ⟨i, hi, rfl⟩ := h
  by_cases hx : i.id = x
  · exact ⟨f i, mem_updateRow.mpr (.inl ⟨i, hi, hx, rfl⟩), hf i⟩
  · exact ⟨i, mem_updateRow.mpr (.inr ⟨hi, hx⟩), rfl⟩

/-- A worker writes a status into the row it has claimed. -/
theorem Sound.mark {x : ItemId} {k : JobId} {status : ImportItemStatus} {dto : ItemChange}
    {n : Stage} (h : Sound j (s ::ₘ R) t) (hclaim : s.claims = [⟨x, k, status⟩])
    (hs : ∀ y, s.working y = if x = y then 1 else 0) (hparked : ∀ y, s.parked y = 0)
    (hfinishing : s.finishing j = 0) (hfolder : ∀ i, n.folder i = s.folder i)
    (hnone : s.folder j = 0) (hlister : n.lister j = s.lister j) (hidle : n.idle j = s.idle j)
    (hworking : ∀ y, n.working y ≤ s.working y) (hparked' : ∀ y, n.parked y = 0)
    (hclaims : ∀ c ∈ n.claims, c = ⟨x, k, dto.status⟩)
    (hdownloading : dto.status = .downloading → 1 ≤ n.fetching x)
    (hremaining : dto.status.remaining = true → 1 ≤ n.working x)
    (hdone : dto.status.remaining = false → 1 ≤ n.finishing k) :
    Sound j (n ::ₘ R) (t.updateItems x dto.apply) := by
  have hself : (⟨x, k, status⟩ : Claim) ∈ s.claims := by simp [hclaim]
  have hsx : s.working x = 1 := by simp [hs]
  have hrow : ∀ i ∈ t.items, i.id = x → k = j ∨ i.importJobId = j → i.importJobId = k :=
    fun i hi hix hj => (h.claims s (Multiset.mem_cons_self s R) _ hself i hi hix hj).1
  have hother : ∀ y, y ≠ x → s.working y = 0 := fun y hy => by simp [hs, Ne.symm hy]
  have halone : ∀ m ∈ R, ∀ c ∈ m.claims, c.item = x → ∀ i ∈ t.items, i.id = x →
      ¬ (c.job = j ∨ i.importJobId = j) := by
    intro m hm c hc hcx i hi hix hj
    have hjob := (h.claims m (Multiset.mem_cons_of_mem hm) c hc i hi (hix.trans hcx.symm) hj).1
    have hij : i.importJobId = j := hj.elim (fun hcj => hjob.trans hcj) id
    have hsingle := h.single i hi hij
    have hheld := held_of_claim hc
    have hle := le_total (f := Stage.held x) hm
    rw [hcx] at hheld
    rw [total_cons, hix, Stage.held, hsx] at hsingle
    omega
  refine
    { wf := h.wf.updateItems (fun _ => rfl) (fun i hi => h.wf.parents i hi)
      rows := ?_, jobs := ?_, one := ?_, listing := ?_, importing := ?_, single := ?_
      claims := ?_, quiet := ?_, downloading := ?_, captured := ?_, carried := ?_
      closing := ?_ }
  · intro y hy
    refine exists_updateItems (fun _ => rfl) (h.rows y ?_)
    have hle := hworking y
    rw [total_cons, Stage.held, hparked'] at hy
    rw [total_cons, Stage.held]
    omega
  · intro i hi
    have hjobs := h.jobs i hi
    rwa [total_cons, hfolder, ← total_cons]
  · have hone := h.one
    rwa [total_cons, hfolder, ← total_cons]
  · intro hstatus
    have hlisting := h.listing hstatus
    rwa [total_cons, hlister, ← total_cons]
  · intro hstatus
    have himporting := h.importing hstatus
    rwa [total_cons, hidle, ← total_cons]
  · intro i hi hij
    have hle := hworking i.id
    have hsingle : total (Stage.held i.id) (s ::ₘ R) ≤ 1 := by
      rcases mem_updateRow.mp hi with ⟨i', hi', -, rfl⟩ | ⟨hi, -⟩
      · exact h.single i' hi' hij
      · exact h.single i hi hij
    rw [total_cons, Stage.held] at hsingle
    rw [total_cons, Stage.held, hparked']
    omega
  · intro m hm c hc i hi hic hj
    rcases mem_updateRow.mp hi with ⟨i', hi', hix, rfl⟩ | ⟨hi, hix⟩
    · rcases Multiset.mem_cons.mp hm with rfl | hm
      · obtain rfl := hclaims c hc
        exact ⟨hrow i' hi' hix hj, rfl⟩
      · have hcx : c.item = x := hic.symm.trans hix
        exact absurd hj (halone m hm c hc hcx i' hi' hix)
    · rcases Multiset.mem_cons.mp hm with rfl | hm
      · obtain rfl := hclaims c hc
        exact absurd hic hix
      · exact h.claims m (Multiset.mem_cons_of_mem hm) c hc i hi hic hj
  · intro hone i hi hij
    rw [total_cons, hfolder, ← total_cons] at hone
    have hle := hworking i.id
    have hquiet : total (Stage.working i.id) (s ::ₘ R) = 0 := by
      rcases mem_updateRow.mp hi with ⟨i', hi', -, rfl⟩ | ⟨hi, -⟩
      · exact h.quiet hone i' hi' hij
      · exact h.quiet hone i hi hij
    rw [total_cons] at hquiet ⊢
    omega
  · intro i hi hij hstatus
    rcases mem_updateRow.mp hi with ⟨i', hi', hix, rfl⟩ | ⟨hi, hix⟩
    · have hn := hdownloading hstatus
      change 1 ≤ total (Stage.fetching i'.id) (n ::ₘ R)
      rw [total_cons, hix]
      omega
    · have hd := h.downloading i hi hij hstatus
      have hle := s.fetching_le_working i.id
      rw [hother i.id hix] at hle
      rw [total_cons] at hd ⊢
      omega
  · intro p ids hmem i hi hij hrem
    have hmem' : Stage.captured j p ids ∈ R := by
      rcases Multiset.mem_cons.mp hmem with hn | hmem
      · have hnf := hfolder j
        rw [← hn, hnone, Stage.folder, if_pos rfl] at hnf
        omega
      · exact hmem
    rcases mem_updateRow.mp hi with ⟨i', hi', hix, rfl⟩ | ⟨hi, hix⟩
    · have hle := le_total (f := Stage.folder j) hmem'
      have hquiet := h.quiet (by rw [total_cons]; simp [Stage.folder] at hle; omega) i' hi' hij
      rw [total_cons, hix, hsx] at hquiet
      omega
    · exact h.captured p ids (Multiset.mem_cons_of_mem hmem') i hi hij hrem
  · intro hstatus i hi hij hrem
    rcases mem_updateRow.mp hi with ⟨i', hi', hix, rfl⟩ | ⟨hi, hix⟩
    · have hn := hremaining hrem
      change 1 ≤ total (Stage.held i'.id) (n ::ₘ R)
      rw [total_cons, hix, Stage.held]
      omega
    · have hcarried := h.carried hstatus i hi hij hrem
      rw [total_cons, Stage.held, hother i.id hix, hparked] at hcarried
      rw [total_cons]
      omega
  · intro hstatus
    rcases h.closing hstatus with ⟨i, hi, hij, hrem⟩ | hclosing
    · by_cases hix : i.id = x
      · cases hd : dto.status.remaining with
        | true => exact .inl ⟨dto.apply i, mem_updateRow.mpr (.inl ⟨i, hi, hix, rfl⟩), hij, hd⟩
        | false =>
          have hkj : k = j := (hrow i hi hix (.inr hij)).symm.trans hij
          have hn := hdone hd
          rw [hkj] at hn
          right
          rw [total_cons]
          omega
      · exact .inl ⟨i, mem_updateRow.mpr (.inr ⟨hi, hix⟩), hij, hrem⟩
    · right
      rw [total_cons, hfinishing] at hclosing
      rw [total_cons]
      omega

theorem apply_id (dto : Repoint) (k : JobId) (i : ImportItem) : (dto.apply k i).id = i.id := by
  cases hfile : dto.file <;> simp [Repoint.apply, hfile]

theorem apply_job (dto : Repoint) (k : JobId) (i : ImportItem) :
    (dto.apply k i).importJobId = k := by
  cases hfile : dto.file <;> simp [Repoint.apply, hfile]

theorem apply_status (dto : Repoint) (k : JobId) (i : ImportItem) :
    (dto.apply k i).status = dto.status := by
  cases hfile : dto.file <;> simp [Repoint.apply, hfile]

variable {S : Multiset Stage} {k : JobId} {p : Progress}

/-- The job of a listing under way exists, and is not importing. -/
theorem Sound.listing_job (h : Sound j S t) (hmem : Stage.listing k p ∈ S) :
    t.job k ≠ none ∧ (k = j → t.status j ≠ some .importing) := by
  refine ⟨fun hnone => ?_, ?_⟩
  · have hle := le_total (f := Stage.folder k) hmem
    rw [h.jobs k hnone, Stage.folder, if_pos rfl] at hle
    omega
  · rintro rfl hstatus
    have hle := le_total (f := Stage.idle k) hmem
    rw [h.importing hstatus, Stage.idle, if_pos rfl] at hle
    omega

/-- A listing under way has not captured its items yet. -/
theorem Sound.not_captured (h : Sound j S t) (hmem : Stage.listing j p ∈ S) (p' : Progress)
    (ids : List ItemId) : Stage.captured j p' ids ∉ S := by
  intro hcap
  obtain ⟨R, rfl⟩ := Multiset.exists_cons_of_mem hmem
  have hcap' : Stage.captured j p' ids ∈ R := by
    rcases Multiset.mem_cons.mp hcap with hcap | hcap
    · cases hcap
    · exact hcap
  have hle := le_total (f := Stage.folder j) hcap'
  have hone := h.one
  rw [total_cons] at hone
  simp only [Stage.folder, if_true] at hone hle
  omega

/-- A listing re-points an item that no work carries. -/
theorem Sound.repoint {x : ItemId} {dto : Repoint} (h : Sound j S t)
    (hmem : Stage.listing k p ∈ S)
    (hstatus : dto.status = .pending ∨ dto.status = .skippedDuplicate)
    (hfree : (k = j ∨ ∃ i ∈ t.items, i.id = x ∧ i.importJobId = j) →
      total (Stage.held x) S = 0) : Sound j S (t.updateItems x (dto.apply k)) := by
  obtain ⟨hjob, hnot⟩ := h.listing_job hmem
  refine
    { wf := h.wf.updateItems (apply_id dto k) (fun i _ => by rwa [apply_job])
      rows := fun y hy => exists_updateItems (apply_id dto k) (h.rows y hy)
      jobs := h.jobs, one := h.one, listing := h.listing, importing := h.importing
      single := ?_, claims := ?_, quiet := ?_, downloading := ?_, captured := ?_, carried := ?_
      closing := ?_ }
  · intro i hi hij
    rcases mem_updateRow.mp hi with ⟨i', hi', hix, rfl⟩ | ⟨hi, -⟩
    · rw [apply_job] at hij
      rw [apply_id, hix, hfree (.inl hij)]
      omega
    · exact h.single i hi hij
  · intro s hs c hc i hi hic hj
    rcases mem_updateRow.mp hi with ⟨i', hi', hix, rfl⟩ | ⟨hi, -⟩
    · rw [apply_id] at hic
      rw [apply_job] at hj
      have hheld := held_of_claim hc
      have hle := le_total (f := Stage.held c.item) hs
      rw [← hic, hix] at hheld hle
      rcases hj with hcj | hkj
      · have hold := (h.claims s hs c hc i' hi' hic (.inl hcj)).1
        rw [hfree (.inr ⟨i', hi', hix, hold.trans hcj⟩)] at hle
        omega
      · rw [hfree (.inl hkj)] at hle
        omega
    · exact h.claims s hs c hc i hi hic hj
  · intro hone i hi hij
    rcases mem_updateRow.mp hi with ⟨i', hi', hix, rfl⟩ | ⟨hi, -⟩
    · rw [apply_job] at hij
      have hle := working_le_held x S
      rw [hfree (.inl hij)] at hle
      rw [apply_id, hix]
      omega
    · exact h.quiet hone i hi hij
  · intro i hi hij hd
    rcases mem_updateRow.mp hi with ⟨i', hi', hix, rfl⟩ | ⟨hi, -⟩
    · rw [apply_status] at hd
      rcases hstatus with hstatus | hstatus <;> rw [hstatus] at hd <;> cases hd
    · exact h.downloading i hi hij hd
  · intro p' ids hcap i hi hij hrem
    rcases mem_updateRow.mp hi with ⟨i', hi', hix, rfl⟩ | ⟨hi, -⟩
    · rw [apply_job] at hij
      subst hij
      exact absurd hcap (h.not_captured hmem p' ids)
    · exact h.captured p' ids hcap i hi hij hrem
  · intro himporting i hi hij hrem
    rcases mem_updateRow.mp hi with ⟨i', hi', hix, rfl⟩ | ⟨hi, -⟩
    · rw [apply_job] at hij
      exact absurd himporting (hnot hij)
    · exact h.carried himporting i hi hij hrem
  · intro himporting
    refine (h.closing himporting).imp_left ?_
    rintro ⟨i, hi, hij, hrem⟩
    have hix : i.id ≠ x := by
      rintro rfl
      have hcarried := h.carried himporting i hi hij hrem
      rw [hfree (.inr ⟨i, hi, rfl, hij⟩)] at hcarried
      omega
    exact ⟨i, mem_updateRow.mpr (.inr ⟨hi, hix⟩), hij, hrem⟩

/-- A listing inserts rows of its own, which nobody carries yet. -/
theorem Sound.insert {rows : List NewItem} (h : Sound j S t) (hmem : Stage.listing k p ∈ S)
    (hrows : ∀ n ∈ rows, n.importJobId = k) : Sound j S (t.addItems rows) := by
  obtain ⟨hjob, hnot⟩ := h.listing_job hmem
  have hfresh : ∀ i ∈ freshRows t.nextItemId rows,
      total (Stage.held i.id) S = 0 ∧ i.importJobId = k ∧ i.status = .pending := by
    intro i hi
    obtain ⟨n, hn, hle, hrow⟩ := mem_freshRows hi
    refine ⟨?_, ?_, ?_⟩
    · by_contra hpos
      obtain ⟨i', hi', hid⟩ := h.rows i.id (Nat.pos_of_ne_zero hpos)
      have hlt := h.wf.below i' hi'
      rw [hid] at hlt
      exact absurd hle (Nat.not_le_of_lt hlt)
    · rw [hrow]
      exact hrows n hn
    · rw [hrow]
      rfl
  refine
    { wf := h.wf.addItems (fun n hn => by rw [hrows n hn]; exact hjob)
      rows := fun y hy => ?_
      jobs := h.jobs, one := h.one, listing := h.listing, importing := h.importing
      single := ?_, claims := ?_, quiet := ?_, downloading := ?_, captured := ?_, carried := ?_
      closing := ?_ }
  · obtain ⟨i, hi, hid⟩ := h.rows y hy
    exact ⟨i, List.mem_append_left _ hi, hid⟩
  · intro i hi hij
    rcases List.mem_append.mp hi with hi | hi
    · exact h.single i hi hij
    · rw [(hfresh i hi).1]
      omega
  · intro s hs c hc i hi hic hj
    rcases List.mem_append.mp hi with hi | hi
    · exact h.claims s hs c hc i hi hic hj
    · have hheld := held_of_claim hc
      have hle := le_total (f := Stage.held c.item) hs
      rw [← hic] at hheld hle
      rw [(hfresh i hi).1] at hle
      omega
  · intro hone i hi hij
    rcases List.mem_append.mp hi with hi | hi
    · exact h.quiet hone i hi hij
    · have hle := working_le_held i.id S
      rw [(hfresh i hi).1] at hle
      omega
  · intro i hi hij hd
    rcases List.mem_append.mp hi with hi | hi
    · exact h.downloading i hi hij hd
    · rw [(hfresh i hi).2.2] at hd
      cases hd
  · intro p' ids hcap i hi hij hrem
    rcases List.mem_append.mp hi with hi | hi
    · exact h.captured p' ids hcap i hi hij hrem
    · have hkj : k = j := (hfresh i hi).2.1.symm.trans hij
      subst hkj
      exact absurd hcap (h.not_captured hmem p' ids)
  · intro himporting i hi hij hrem
    rcases List.mem_append.mp hi with hi | hi
    · exact h.carried himporting i hi hij hrem
    · exact absurd himporting (hnot ((hfresh i hi).2.1.symm.trans hij))
  · intro himporting
    refine (h.closing himporting).imp_left ?_
    rintro ⟨i, hi, hij, hrem⟩
    exact ⟨i, List.mem_append_left _ hi, hij, hrem⟩

theorem claim_of_parked {x : ItemId} (h : 1 ≤ s.parked x) :
    ∃ c ∈ s.claims, c.item = x ∧ s.folder c.job = 1 := by
  unfold Stage.parked at h
  split at h
  case h_1 k p ids =>
    have hx : x ∈ ids := List.count_pos_iff.mp h
    exact ⟨⟨x, k, .pending⟩, List.mem_map.mpr ⟨x, hx, rfl⟩, rfl, if_pos rfl⟩
  case h_2 k ids =>
    have hx : x ∈ ids := List.count_pos_iff.mp h
    exact ⟨⟨x, k, .pending⟩, List.mem_map.mpr ⟨x, hx, rfl⟩, rfl, if_pos rfl⟩
  case h_3 => omega

/-- While a listing is under way nothing carries the items of its job. -/
theorem Sound.unheld (h : Sound j (.listing j p ::ₘ R) t) {i : ImportItem} (hi : i ∈ t.items)
    (hij : i.importJobId = j) : total (Stage.held i.id) R = 0 := by
  have hone := h.one
  have hself : (Stage.listing j p).folder j = 1 := if_pos rfl
  rw [total_cons, hself] at hone
  have hquiet := h.quiet (by rw [total_cons, hself]; omega) i hi hij
  rw [total_cons] at hquiet
  refine total_eq_zero fun m hm => ?_
  by_contra hheld
  have hworking := le_total (f := Stage.working i.id) hm
  rw [Stage.held] at hheld
  obtain ⟨c, hc, hci, hfolder⟩ := claim_of_parked (s := m) (x := i.id) (by omega)
  have hjob := (h.claims m (Multiset.mem_cons_of_mem hm) c hc i hi hci.symm (.inr hij)).1
  rw [← hjob, hij] at hfolder
  have hle := le_total (f := Stage.folder j) hm
  omega

/-- A listing captures the pending items of its job, which have no worker. -/
theorem Sound.capture {ids : List ItemId} (h : Sound j (.listing k p ::ₘ R) t)
    (hids : ids = (t.items.filter
      (fun i => i.importJobId = k ∧ i.status = .pending)).map (fun i => i.id)) :
    Sound j (.captured k p ids ::ₘ R) t := by
  have hmem : ∀ x, x ∈ ids ↔ ∃ i ∈ t.items, i.id = x ∧ i.importJobId = k ∧ i.status = .pending := by
    intro x
    simp only [hids, List.mem_map, List.mem_filter, decide_eq_true_eq]
    constructor
    · rintro ⟨i, ⟨hi, hk, hp⟩, rfl⟩
      exact ⟨i, hi, rfl, hk, hp⟩
    · rintro ⟨i, hi, rfl, hk, hp⟩
      exact ⟨i, ⟨hi, hk, hp⟩, rfl⟩
  have hcount : ∀ x, ids.count x ≤ 1 := by
    intro x
    have hnodup : ids.Nodup := by
      rw [hids]
      exact h.wf.ids.sublist (List.filter_sublist.map _)
    exact List.nodup_iff_count_le_one.mp hnodup x
  have hrow : ∀ i ∈ t.items, i.id ∈ ids → i.importJobId = k ∧ i.status = .pending := by
    intro i hi hmem'
    obtain ⟨i', hi', hid, hk, hp⟩ := (hmem i.id).mp hmem'
    rw [row_unique h.wf.ids hi hi' hid.symm]
    exact ⟨hk, hp⟩
  have hheld : ∀ x, total (Stage.held x) (.captured k p ids ::ₘ R) =
      ids.count x + total (Stage.held x) R := by
    intro x
    simp [Stage.held, Stage.working, Stage.parked]
  have hheld' : ∀ x, total (Stage.held x) (.listing k p ::ₘ R) = total (Stage.held x) R := by
    intro x
    simp [Stage.held, Stage.working, Stage.parked]
  refine
    { wf := h.wf, rows := ?_, jobs := ?_, one := ?_, listing := ?_, importing := ?_, single := ?_
      claims := ?_, quiet := ?_, downloading := ?_, captured := ?_, carried := ?_
      closing := ?_ }
  · intro x hx
    by_cases hx' : x ∈ ids
    · obtain ⟨i, hi, hid, -, -⟩ := (hmem x).mp hx'
      exact ⟨i, hi, hid⟩
    · rw [hheld, List.count_eq_zero.mpr hx', Nat.zero_add, ← hheld'] at hx
      exact h.rows x hx
  · intro i hi
    simpa [Stage.folder] using h.jobs i hi
  · simpa [Stage.folder] using h.one
  · intro hstatus
    simpa [Stage.lister] using h.listing hstatus
  · intro hstatus
    simpa [Stage.idle] using h.importing hstatus
  · intro i hi hij
    rw [hheld]
    by_cases hkj : k = j
    · subst hkj
      rw [h.unheld hi hij]
      exact hcount i.id
    · have hnot : i.id ∉ ids := fun hmem' => hkj ((hrow i hi hmem').1.symm.trans hij)
      rw [List.count_eq_zero.mpr hnot, Nat.zero_add, ← hheld']
      exact h.single i hi hij
  · intro m hm c hc i hi hic hj
    rcases Multiset.mem_cons.mp hm with rfl | hm
    · obtain ⟨x, hx, rfl⟩ := List.mem_map.mp hc
      have hix : i.id = x := hic
      exact hrow i hi (hix ▸ hx)
    · exact h.claims m (Multiset.mem_cons_of_mem hm) c hc i hi hic hj
  · intro hone i hi hij
    simpa [Stage.working] using h.quiet (by simpa [Stage.folder] using hone) i hi hij
  · intro i hi hij hd
    simpa [Stage.fetching] using h.downloading i hi hij hd
  · intro p' ids' hcap i hi hij hrem
    rcases Multiset.mem_cons.mp hcap with hcap | hcap
    · cases hcap
      cases hstatus : i.status with
      | pending => exact (hmem i.id).mpr ⟨i, hi, rfl, hij, hstatus⟩
      | downloading =>
        have hfetching := h.downloading i hi hij hstatus
        have hle := working_le_held i.id R
        have hle' := fetching_le_working i.id R
        have hself : (Stage.listing j p).fetching i.id = 0 := rfl
        rw [total_cons, hself] at hfetching
        rw [h.unheld hi hij] at hle
        omega
      | done => rw [hstatus] at hrem; cases hrem
      | skippedDuplicate => rw [hstatus] at hrem; cases hrem
      | failed => rw [hstatus] at hrem; cases hrem
    · exact h.captured p' ids' (Multiset.mem_cons_of_mem hcap) i hi hij hrem
  · intro hstatus i hi hij hrem
    have hcarried := h.carried hstatus i hi hij hrem
    rw [hheld'] at hcarried
    rw [hheld]
    omega
  · intro hstatus
    simpa [Stage.finishing] using h.closing hstatus

/-- A worker claims a pending item it has read. -/
theorem Sound.choose {item : ImportItem} (h : Sound j (.starting item.id ::ₘ R) t)
    (hitem : item ∈ t.items) (hpending : item.status = .pending) :
    Sound j (.chosen item.id item.importJobId ::ₘ R) t where
  wf := h.wf
  rows := by simpa [Stage.held, Stage.working, Stage.parked] using h.rows
  jobs := by simpa [Stage.folder] using h.jobs
  one := by simpa [Stage.folder] using h.one
  listing := by simpa [Stage.lister] using h.listing
  importing := by simpa [Stage.idle] using h.importing
  single := by simpa [Stage.held, Stage.working, Stage.parked] using h.single
  claims := by
    intro m hm c hc i hi hic hj
    rcases Multiset.mem_cons.mp hm with rfl | hm
    · obtain rfl := List.mem_singleton.mp hc
      rw [row_unique h.wf.ids hi hitem hic]
      exact ⟨rfl, hpending⟩
    · exact h.claims m (Multiset.mem_cons_of_mem hm) c hc i hi hic hj
  quiet := by simpa [Stage.folder, Stage.working] using h.quiet
  downloading := by simpa [Stage.fetching] using h.downloading
  captured := by
    intro p ids hmem
    rcases Multiset.mem_cons.mp hmem with hmem | hmem
    · cases hmem
    · exact h.captured p ids (Multiset.mem_cons_of_mem hmem)
  carried := by simpa [Stage.held, Stage.working, Stage.parked] using h.carried
  closing := by simpa [Stage.finishing] using h.closing

/-- The captured items go to the queue as the listing returns. -/
theorem Sound.hand {ids : List ItemId} (h : Sound j (.promised k ids ::ₘ R) t) :
    Sound j ((.listed k ::ₘ (ids.map Stage.starting : List Stage)) + R) t := by
  have hheld : ∀ x, total (Stage.held x) ((.listed k ::ₘ (ids.map Stage.starting : List Stage)) + R)
      = total (Stage.held x) (.promised k ids ::ₘ R) := by
    intro x
    rw [total_add, total_cons, total_cons,
      total_starting_count (f := Stage.held x) (x := x) (fun y => by
        simp [Stage.held, Stage.working, Stage.parked])]
    simp [Stage.held, Stage.working, Stage.parked]
  have hworking : ∀ x,
      total (Stage.working x) ((.listed k ::ₘ (ids.map Stage.starting : List Stage)) + R) =
        ids.count x + total (Stage.working x) R := by
    intro x
    rw [total_add, total_cons, total_starting_count (f := Stage.working x) (x := x)
      (fun y => rfl)]
    simp [Stage.working]
  have hzero : ∀ f : Stage → ℕ, f (.listed k) = 0 → (∀ x, f (.starting x) = 0) →
      total f ((.listed k ::ₘ (ids.map Stage.starting : List Stage)) + R) = total f R := by
    intro f hk hx
    rw [total_add, total_cons, hk, total_starting_zero hx, Nat.zero_add]
  have hfolder := fun i => hzero (Stage.folder i) rfl (fun _ => rfl)
  have hclaim :
    ∀ n ∈ (Stage.listed k ::ₘ (ids.map Stage.starting : List Stage)), n.claims = [] := by
    intro n hn
    rcases Multiset.mem_cons.mp hn with rfl | hn
    · rfl
    · obtain ⟨x, -, rfl⟩ := List.mem_map.mp (Multiset.mem_coe.mp hn)
      rfl
  refine
    { wf := h.wf, rows := ?_, jobs := ?_, one := ?_, listing := ?_, importing := ?_, single := ?_
      claims := ?_, quiet := ?_, downloading := ?_, captured := ?_, carried := ?_
      closing := ?_ }
  · intro x hx
    rw [hheld] at hx
    exact h.rows x hx
  · intro i hi
    have hjobs := h.jobs i hi
    rw [total_cons] at hjobs
    rw [hfolder]
    omega
  · have hone := h.one
    rw [total_cons] at hone
    rw [hfolder]
    omega
  · intro hstatus
    rw [hzero (Stage.lister j) rfl (fun _ => rfl)]
    simpa [Stage.lister] using h.listing hstatus
  · intro hstatus
    rw [hzero (Stage.idle j) rfl (fun _ => rfl)]
    simpa [Stage.idle] using h.importing hstatus
  · intro i hi hij
    rw [hheld]
    exact h.single i hi hij
  · intro n hn c hc i hi hic hj
    rcases Multiset.mem_add.mp hn with hn | hn
    · rw [hclaim n hn] at hc
      cases hc
    · exact h.claims n (Multiset.mem_cons_of_mem hn) c hc i hi hic hj
  · intro hone i hi hij
    rw [hfolder] at hone
    have hle := h.one
    rw [total_cons] at hle
    have hkj : k ≠ j := by
      rintro rfl
      have hself : (Stage.promised k ids).folder k = 1 := if_pos rfl
      omega
    have hquiet := h.quiet (by rw [total_cons]; omega) i hi hij
    rw [total_cons] at hquiet
    have hnot : i.id ∉ ids := by
      intro hmem
      have hrow := h.claims _ (Multiset.mem_cons_self _ R) ⟨i.id, k, .pending⟩
        (List.mem_map.mpr ⟨i.id, hmem, rfl⟩) i hi rfl (.inr hij)
      exact hkj (hrow.1.symm.trans hij)
    rw [hworking, List.count_eq_zero.mpr hnot]
    omega
  · intro i hi hij hd
    have hdown := h.downloading i hi hij hd
    rw [hzero (Stage.fetching i.id) rfl (fun _ => rfl)]
    simpa [Stage.fetching] using hdown
  · intro p' ids' hcap
    refine h.captured p' ids' (Multiset.mem_cons_of_mem ?_)
    rcases Multiset.mem_add.mp hcap with hcap | hcap
    · rcases Multiset.mem_cons.mp hcap with hcap | hcap
      · cases hcap
      · obtain ⟨x, -, hx⟩ := List.mem_map.mp (Multiset.mem_coe.mp hcap)
        cases hx
    · exact hcap
  · intro hstatus i hi hij hrem
    rw [hheld]
    exact h.carried hstatus i hi hij hrem
  · intro hstatus
    rw [hzero (Stage.finishing j) rfl (fun _ => rfl)]
    simpa [Stage.finishing] using h.closing hstatus

/-- A new job, whose listing is to be queued. -/
theorem Sound.order (h : Sound j (.ordering ::ₘ R) t) (job : NewJob) :
    Sound j (.created t.nextJobId ::ₘ R) (t.addJob job) := by
  have hnext := h.wf.next_job
  have hold : ∀ k, (t.addJob job).job k = none → t.job k = none := by
    intro k hk
    rw [job_addJob] at hk
    exact (Option.or_eq_none_iff.mp hk).1
  have hfresh : total (Stage.folder t.nextJobId) R = 0 := by
    have hjobs := h.jobs _ hnext
    rw [total_cons] at hjobs
    omega
  have hstatus : t.nextJobId ≠ j → (t.addJob job).status j = t.status j := by
    intro hj
    rw [Tables.status, job_addJob, if_neg (Ne.symm hj), Option.or_none, Tables.status]
  have hlisting : (t.addJob job).status t.nextJobId = some .listing := by
    rw [Tables.status, job_addJob, hnext, if_pos rfl]
    rfl
  refine
    { wf := h.wf.addJob job
      rows := by simpa [Stage.held, Stage.working, Stage.parked] using h.rows
      jobs := ?_, one := ?_, listing := ?_, importing := ?_
      single := by simpa [Stage.held, Stage.working, Stage.parked] using h.single
      claims := ?_, quiet := ?_
      downloading := by simpa [Stage.fetching] using h.downloading
      captured := ?_, carried := ?_, closing := ?_ }
  · intro k hk
    have hjobs := h.jobs k (hold k hk)
    rw [total_cons] at hjobs
    rw [total_cons, Stage.folder, if_neg]
    · omega
    · rintro rfl
      rw [job_addJob, hnext, if_pos rfl] at hk
      cases hk
  · by_cases hj : t.nextJobId = j
    · rw [total_cons, ← hj, hfresh, Stage.folder, if_pos rfl]
    · simpa [Stage.folder, hj] using h.one
  · by_cases hj : t.nextJobId = j
    · intro _
      rw [total_cons, Stage.lister, if_pos hj]
      omega
    · rw [hstatus hj]
      simpa [Stage.lister, hj] using h.listing
  · by_cases hj : t.nextJobId = j
    · intro himporting
      rw [← hj, hlisting] at himporting
      cases himporting
    · rw [hstatus hj]
      simpa [Stage.idle, hj] using h.importing
  · intro n hn
    rcases Multiset.mem_cons.mp hn with rfl | hn
    · intro c hc
      cases hc
    · exact h.claims n (Multiset.mem_cons_of_mem hn)
  · by_cases hj : t.nextJobId = j
    · intro _ i hi hij
      exact absurd (by rw [hij, ← hj, hnext]) (h.wf.parents i hi)
    · simpa [Stage.folder, Stage.working, hj] using h.quiet
  · intro p' ids hcap
    rcases Multiset.mem_cons.mp hcap with hcap | hcap
    · cases hcap
    · exact h.captured p' ids (Multiset.mem_cons_of_mem hcap)
  · by_cases hj : t.nextJobId = j
    · intro himporting
      rw [← hj, hlisting] at himporting
      cases himporting
    · rw [hstatus hj]
      simpa [Stage.held, Stage.working, Stage.parked] using h.carried
  · by_cases hj : t.nextJobId = j
    · intro himporting
      rw [← hj, hlisting] at himporting
      cases himporting
    · rw [hstatus hj]
      simpa [Stage.finishing] using h.closing

/-- A stage that weighs only on its job `k`, and carries no item. -/
structure Bound (k : JobId) (s : Stage) : Prop where
  folder : ∀ i, i ≠ k → s.folder i = 0
  lister : ∀ i, i ≠ k → s.lister i = 0
  idle : ∀ i, i ≠ k → s.idle i = 0
  finishing : ∀ i, i ≠ k → s.finishing i = 0

/-- The job reaches a status of its own: neither listing nor importing. -/
theorem Sound.conclude {n : Stage} {dto : JobChange} (h : Sound j (s ::ₘ R) t)
    (hns : Lightens j s {n}) (hs : Bound k s) (hn : Bound k n)
    (hdto : dto.status ≠ .listing ∧ dto.status ≠ .importing)
    (hworking : ∀ x, s.working x = 0)
    (hheld : ∀ i ∈ t.items, i.importJobId = j → k ≠ j → s.held i.id = 0) :
    Sound j (n ::ₘ R) (t.updateJobs k dto.apply) := by
  have hstatus : ∀ status, status = .listing ∨ status = .importing →
      (t.updateJobs k dto.apply).status j = some status → k ≠ j ∧ t.status j = some status := by
    intro status hcase hsome
    rw [status_updateJobs] at hsome
    obtain ⟨old, hold, hif⟩ := Option.map_eq_some_iff.mp hsome
    split at hif
    · rw [hif] at hdto
      rcases hcase with rfl | rfl
      · exact absurd rfl hdto.1
      · exact absurd rfl hdto.2
    · rename_i hjk
      exact ⟨Ne.symm hjk, hif ▸ hold⟩
  have hjob : ∀ i, (t.updateJobs k dto.apply).job i = none → t.job i = none := by
    intro i hi
    rw [job_updateJobs (f := dto.apply) (fun _ => rfl)] at hi
    exact Option.map_eq_none_iff.mp hi
  rw [← Multiset.singleton_add]
  refine h.lighten hns (h.wf.updateJobs (fun _ => rfl)) rfl hjob ?_ ?_ ?_ ?_ ?_
  · intro hsome
    obtain ⟨hkj, hold⟩ := hstatus _ (.inl rfl) hsome
    have hlisting := h.listing hold
    rw [total_cons, hs.lister j (Ne.symm hkj)] at hlisting
    rw [total_add, total_singleton]
    omega
  · intro hsome
    obtain ⟨hkj, hold⟩ := hstatus _ (.inr rfl) hsome
    have himporting := h.importing hold
    rw [total_cons] at himporting
    rw [total_add, total_singleton, hn.idle j (Ne.symm hkj)]
    omega
  · intro i hi hij hd
    have hdown := h.downloading i hi hij hd
    have hle := s.fetching_le_working i.id
    rw [hworking] at hle
    rw [total_cons] at hdown
    rw [total_add, total_singleton]
    omega
  · intro hsome i hi hij hrem
    obtain ⟨hkj, hold⟩ := hstatus _ (.inr rfl) hsome
    have hcarried := h.carried hold i hi hij hrem
    rw [total_cons, hheld i hi hij hkj] at hcarried
    rw [total_add, total_singleton]
    omega
  · intro hsome
    obtain ⟨hkj, hold⟩ := hstatus _ (.inr rfl) hsome
    refine (h.closing hold).imp_right fun hclosing => ?_
    rw [total_cons, hs.finishing j (Ne.symm hkj)] at hclosing
    rw [total_add, total_singleton]
    omega

/-- The listing is complete and its items are about to be queued. -/
theorem Sound.fanOut {ids : List ItemId} {dto : JobChange}
    (h : Sound j (.captured k p ids ::ₘ R) t) (hids : ids ≠ [])
    (hdto : dto.status = .importing) :
    Sound j (.promised k ids ::ₘ R) (t.updateJobs k dto.apply) := by
  have hstatus : ∀ status, k ≠ j → (t.updateJobs k dto.apply).status j = some status →
      t.status j = some status := by
    intro status hkj hsome
    rw [status_updateJobs] at hsome
    obtain ⟨old, hold, hif⟩ := Option.map_eq_some_iff.mp hsome
    rw [if_neg (Ne.symm hkj)] at hif
    exact hif ▸ hold
  have hjob : ∀ i, (t.updateJobs k dto.apply).job i = none → t.job i = none := by
    intro i hi
    rw [job_updateJobs (f := dto.apply) (fun _ => rfl)] at hi
    exact Option.map_eq_none_iff.mp hi
  have hns : Lightens j (.captured k p ids) {.promised k ids} :=
    { folder := fun i => by simp [Stage.folder]
      working := fun x => by simp [Stage.working]
      held := fun x => by simp [Stage.held, Stage.working, Stage.parked]
      claims := fun n hn c hc => by rwa [Multiset.mem_singleton.mp hn] at hc
      captured := fun p' ids' hmem => by cases Multiset.mem_singleton.mp hmem }
  rw [← Multiset.singleton_add]
  refine h.lighten hns (h.wf.updateJobs (fun _ => rfl)) rfl hjob ?_ ?_ ?_ ?_ ?_
  · intro hsome
    by_cases hkj : k = j
    · rw [status_updateJobs] at hsome
      obtain ⟨old, -, hif⟩ := Option.map_eq_some_iff.mp hsome
      rw [if_pos hkj.symm, hdto] at hif
      cases hif
    · have hlisting := h.listing (hstatus _ hkj hsome)
      simpa [Stage.lister, hkj] using hlisting
  · intro hsome
    by_cases hkj : k = j
    · have hone := h.one
      have hle := idle_le_folder j R
      rw [total_cons, Stage.folder, if_pos hkj] at hone
      have hself : (Stage.promised k ids).idle j = 0 := rfl
      rw [total_add, total_singleton, hself]
      omega
    · have himporting := h.importing (hstatus _ hkj hsome)
      simpa [Stage.idle, hkj] using himporting
  · intro i hi hij hd
    simpa [Stage.fetching] using h.downloading i hi hij hd
  · intro hsome i hi hij hrem
    by_cases hkj : k = j
    · subst hkj
      have hmem := h.captured p ids (Multiset.mem_cons_self _ R) i hi hij hrem
      have hcount := List.count_pos_iff.mpr hmem
      rw [total_add, total_singleton, Stage.held, Stage.parked]
      omega
    · have hcarried := h.carried (hstatus _ hkj hsome) i hi hij hrem
      simpa [Stage.held, Stage.working, Stage.parked] using hcarried
  · intro hsome
    by_cases hkj : k = j
    · subst hkj
      obtain ⟨x, hx⟩ := List.exists_mem_of_ne_nil ids hids
      have hheld : 1 ≤ total (Stage.held x) (.captured k p ids ::ₘ R) := by
        have hcount := List.count_pos_iff.mpr hx
        rw [total_cons, Stage.held, Stage.parked]
        omega
      obtain ⟨i, hi, hid⟩ := h.rows x hheld
      obtain ⟨hrow, hpending⟩ := h.claims _ (Multiset.mem_cons_self _ R) ⟨x, k, .pending⟩
        (List.mem_map.mpr ⟨x, hx, rfl⟩) i hi hid (.inl rfl)
      refine .inl ⟨i, hi, hrow, ?_⟩
      rw [hpending]
      rfl
    · have hclosing := h.closing (hstatus _ hkj hsome)
      simpa [Stage.finishing] using hclosing

/-- A stage that carries nothing and weighs on no listing more than `s`. -/
theorem lightens_one {n : Stage} (hfolder : ∀ i, n.folder i ≤ s.folder i)
    (hheld : ∀ x, n.held x = 0) (hclaims : n.claims = [])
    (hcaptured : ∀ p ids, n ≠ .captured j p ids) : Lightens j s {n} where
  folder i := by rw [total_singleton]; exact hfolder i
  working x := by
    have hn := hheld x
    rw [Stage.held] at hn
    rw [total_singleton]
    omega
  held x := by rw [total_singleton, hheld]; exact Nat.zero_le _
  claims := by
    intro m hm c hc
    rw [Multiset.mem_singleton.mp hm, hclaims] at hc
    cases hc
  captured := by
    intro p ids hmem
    exact absurd (Multiset.mem_singleton.mp hmem).symm (hcaptured p ids)

theorem idle_stopping : Idle (.stopping k) :=
  ⟨fun _ => rfl, fun _ => rfl, fun _ => rfl, fun _ => rfl, rfl⟩

variable {V : Remote} {Q : JobId → ItemId → Prop} {K : JobId → Prop}

theorem Sound.skip (h : Sound j (.opening k ::ₘ R) t)
    (hjob : ∀ job, t.job k = some job → job.status = .cancelled) :
    Sound j ({.over} + R) t := by
  rw [Multiset.singleton_add]
  refine (h.drop ?_ (fun _ _ _ _ => rfl) (fun _ _ _ _ _ => rfl) (fun _ => .inl rfl)).add idle_over
  intro hstatus
  refine if_neg ?_
  rintro rfl
  obtain ⟨job, hsome, hlisting⟩ := Option.map_eq_some_iff.mp hstatus
  rw [hjob job hsome] at hlisting
  cases hlisting

/-- A listing fails, and its job with it. -/
theorem Sound.failListing {p : Progress} {dto : JobChange} (h : Sound j (.listing k p ::ₘ R) t)
    (hstatus : dto.status = .failed) :
    Sound j ({.broken k} + R) (t.updateJobs k dto.apply) := by
  refine h.conclude (lightens_one (fun _ => Nat.le_refl _) (fun _ => rfl) rfl (fun _ _ h => by
    cases h))
    ⟨fun i hi => if_neg (Ne.symm hi), fun i hi => if_neg (Ne.symm hi),
      fun i hi => if_neg (Ne.symm hi), fun _ _ => rfl⟩
    ⟨fun i hi => if_neg (Ne.symm hi), fun _ _ => rfl, fun i hi => if_neg (Ne.symm hi),
      fun _ _ => rfl⟩
    (by rw [hstatus]; simp) (fun _ => rfl) (fun _ _ _ _ => rfl)

theorem Sound.breakOff {ids : List ItemId} {dto : JobChange} (h : Sound j (.promised k ids ::ₘ R) t)
    (hstatus : dto.status = .failed) :
    Sound j ({.broken k} + R) (t.updateJobs k dto.apply) := by
  refine h.conclude (lightens_one (fun _ => Nat.le_refl _) (fun _ => rfl) rfl (fun _ _ h => by
    cases h))
    ⟨fun i hi => if_neg (Ne.symm hi), fun _ _ => rfl, fun _ _ => rfl, fun _ _ => rfl⟩
    ⟨fun i hi => if_neg (Ne.symm hi), fun _ _ => rfl, fun i hi => if_neg (Ne.symm hi),
      fun _ _ => rfl⟩
    (by rw [hstatus]; simp) (fun _ => rfl) ?_
  intro i hi hij hkj
  have hnot : i.id ∉ ids := by
    intro hmem
    have hrow := h.claims _ (Multiset.mem_cons_self _ R) ⟨i.id, k, .pending⟩
      (List.mem_map.mpr ⟨i.id, hmem, rfl⟩) i hi rfl (.inr hij)
    exact hkj (hrow.1.symm.trans hij)
  change 0 + ids.count i.id = 0
  rw [List.count_eq_zero.mpr hnot]

/-- An item that is passed over is carried by another worker or done. -/
theorem Sound.pass {x : ItemId} (h : Sound j (.starting x ::ₘ R) t)
    (hitem : ∀ item ∈ t.items, item.id = x → item.status ≠ .pending) :
    Sound j ({.over} + R) t := by
  rw [Multiset.singleton_add]
  refine (h.drop (fun _ => rfl) (fun _ _ _ _ => rfl) ?_ (fun _ => .inl rfl)).add idle_over
  intro _ i hi hij hrem
  have hix : x ≠ i.id := by
    rintro rfl
    have hfetching : 1 ≤ total (Stage.fetching i.id) (.starting i.id ::ₘ R) := by
      refine h.downloading i hi hij ?_
      have hnot := hitem i hi rfl
      cases hstatus : i.status <;> simp_all [ImportItemStatus.remaining]
    have hself : (Stage.starting i.id).fetching i.id = 0 := rfl
    rw [total_cons, hself] at hfetching
    have hsingle := h.single i hi hij
    have hheld : (Stage.starting i.id).held i.id = 1 := by
      simp [Stage.held, Stage.working, Stage.parked]
    rw [total_cons, hheld] at hsingle
    have hle := fetching_le_working i.id R
    have hle' := working_le_held i.id R
    omega
  simp [Stage.held, Stage.working, Stage.parked, hix]

theorem Sound.refuse {x : ItemId} (h : Sound j (.chosen x k ::ₘ R) t)
    (hjob : ∀ job, t.job k = some job → job.status = .cancelled) :
    Sound j ({.over} + R) t := by
  rw [Multiset.singleton_add]
  refine (h.drop (fun _ => rfl) (fun _ _ _ _ => rfl) ?_ (fun _ => .inl rfl)).add idle_over
  intro hstatus i hi hij hrem
  have hix : x ≠ i.id := by
    rintro rfl
    have hrow := (h.claims _ (Multiset.mem_cons_self _ R) ⟨i.id, k, .pending⟩
      (List.mem_singleton.mpr rfl) i hi rfl (.inr hij)).1
    rw [hij] at hrow
    subst hrow
    obtain ⟨job, hsome, himporting⟩ := Option.map_eq_some_iff.mp hstatus
    rw [hjob job hsome] at himporting
    cases himporting
  simp [Stage.held, Stage.working, Stage.parked, hix]

theorem Sound.count {x : ItemId} {status : ImportItemStatus} (counter : Counter)
    (h : Sound j (.finished x k status ::ₘ R) t) :
    Sound j ({.counted x k} + R) (t.updateJobs k (ImportJob.bump counter)) := by
  refine h.relabel (alike_one (fun _ => rfl) (Nat.le_refl _) (Nat.le_refl _) (fun _ => rfl)
    (fun _ => rfl) (fun _ => rfl) (Nat.le_refl _) rfl (fun _ _ h => by cases h))
    (h.wf.updateJobs (bump_id counter)) rfl ?_ (status_bump counter)
  intro i hi
  rw [job_updateJobs (bump_id counter)] at hi
  exact Option.map_eq_none_iff.mp hi

theorem Sound.more {x : ItemId} (h : Sound j (.counted x k ::ₘ R) t)
    (hsome : ∃ i ∈ t.items, i.importJobId = k ∧ i.status.remaining = true) :
    Sound j ({.over} + R) t := by
  rw [Multiset.singleton_add]
  refine (h.drop (fun _ => rfl) (fun _ _ _ _ => rfl) (fun _ _ _ _ _ => rfl) ?_).add idle_over
  intro _
  by_cases hkj : k = j
  · subst hkj
    exact .inr hsome
  · exact .inl (if_neg hkj)

theorem Sound.ignore {x : ItemId} (h : Sound j (.emptied x k ::ₘ R) t)
    (hstatus : t.status k ≠ some .importing) :
    Sound j ({.over} + R) t := by
  rw [Multiset.singleton_add]
  refine (h.drop (fun _ => rfl) (fun _ _ _ _ => rfl) (fun _ _ _ _ _ => rfl) ?_).add idle_over
  intro himporting
  refine .inl (if_neg ?_)
  rintro rfl
  exact hstatus himporting

/-- Every deed keeps the ledger of a job sound, as long as a listing re-points
to the job, or from it, only items that no work carries. -/
theorem Sound.deed (h : Sound j (s ::ₘ R) t) (hdeed : Deed V Q K s t ns t')
    (hfree : ∀ k x, Q k x → k = j ∨ (∃ i ∈ t.items, i.id = x ∧ i.importJobId = j) →
      total (Stage.held x) (s ::ₘ R) = 0) : Sound j (ns + R) t' := by
  have relabel : ∀ {n : Stage}, Alike j s {n} → Sound j ({n} + R) t := fun hn =>
    h.relabel hn h.wf rfl (fun _ => id) rfl
  cases hdeed with
  | stay => exact relabel alike_self
  | open_ | page | look | agree | empty | confirm | retry | requeue =>
    exact relabel (alike_one (fun _ => rfl) (Nat.le_refl _) (Nat.le_refl _) (fun _ => rfl)
      (fun _ => rfl) (fun _ => rfl) (Nat.le_refl _) rfl (fun _ _ h => by cases h))
  | retryBroken =>
    exact relabel (alike_one (fun _ => rfl) (Nat.zero_le _) (Nat.le_refl _) (fun _ => rfl)
      (fun _ => rfl) (fun _ => rfl) (Nat.le_refl _) rfl (fun _ _ h => by cases h))
  | skip k _ hjob => exact h.skip hjob
  | repoint k p _ x dto hstatus hwithin hmay hQ =>
    have hnext := relabel (n := .listing k (p.repointed x dto.status))
      (alike_one (fun _ => rfl) (Nat.le_refl _) (Nat.le_refl _) (fun _ => rfl)
        (fun _ => rfl) (fun _ => rfl) (Nat.le_refl _) rfl (fun _ _ h => by cases h))
    rw [Multiset.singleton_add] at hnext ⊢
    refine hnext.repoint (Multiset.mem_cons_self _ R) hstatus fun hcase => ?_
    have hzero := hfree k x hQ hcase
    rw [total_cons] at hzero ⊢
    exact hzero
  | insert k p _ rows hwithin hrows hunique =>
    have hnext := relabel
      (n := .listing k { p with settled := p.settled ++ freshRows t.nextItemId rows })
      (alike_one (fun _ => rfl) (Nat.le_refl _) (Nat.le_refl _) (fun _ => rfl)
        (fun _ => rfl) (fun _ => rfl) (Nat.le_refl _) rfl (fun _ _ h => by cases h))
    rw [Multiset.singleton_add] at hnext ⊢
    exact hnext.insert (Multiset.mem_cons_self _ R) (fun n hn => (hrows n hn).1)
  | capture k p _ ids hcomplete hids => exact h.capture hids
  | fail k p _ dto hstatus htotals => exact h.failListing hstatus
  | breakOff k ids _ dto hstatus htotals => exact h.breakOff hstatus
  | conclude k p _ dto hstatus htotals =>
    exact h.conclude (lightens_one (fun _ => Nat.zero_le _) (fun _ => rfl) rfl (fun _ _ h => by
      cases h))
      ⟨fun i hi => if_neg (Ne.symm hi), fun i hi => if_neg (Ne.symm hi),
        fun i hi => if_neg (Ne.symm hi), fun _ _ => rfl⟩
      ⟨fun _ _ => rfl, fun _ _ => rfl, fun _ _ => rfl, fun _ _ => rfl⟩
      (by rw [hstatus]; simp) (fun _ => rfl) (fun _ _ _ _ => rfl)
  | fanOut k p ids _ dto hids hstatus htotals => exact h.fanOut hids hstatus
  | hand k ids => exact h.hand
  | choose _ item hitem hpending => exact h.choose hitem hpending
  | pass x _ hitem => exact h.pass hitem
  | refuse x k _ hjob => exact h.refuse hjob
  | download x k _ dto hstatus =>
    exact h.mark rfl (fun _ => rfl) (fun _ => rfl) rfl (fun _ => rfl) rfl rfl rfl
      (fun _ => Nat.le_refl _) (fun _ => rfl)
      (fun c hc => by rw [hstatus]; exact List.mem_singleton.mp hc)
      (fun _ => by simp [Stage.fetching]) (fun _ => by simp [Stage.working])
      (fun hrem => by rw [hstatus] at hrem; cases hrem)
  | putBack x k _ dto hstatus =>
    exact h.mark rfl (fun _ => rfl) (fun _ => rfl) rfl (fun _ => rfl) rfl rfl rfl
      (fun _ => Nat.le_refl _) (fun _ => rfl) (fun c hc => by cases hc)
      (fun hd => by rw [hstatus] at hd; cases hd) (fun _ => by simp [Stage.working])
      (fun hrem => by rw [hstatus] at hrem; cases hrem)
  | finish x k _ dto hstatus =>
    exact h.mark rfl (fun _ => rfl) (fun _ => rfl) rfl (fun _ => rfl) rfl rfl rfl
      (fun _ => Nat.zero_le _) (fun _ => rfl) (fun c hc => by cases hc)
      (fun hd => by rw [hd] at hstatus; cases hstatus)
      (fun hrem => by rw [hrem] at hstatus; cases hstatus)
      (fun _ => by simp [Stage.finishing])
  | count _ k status _ counter hcounter => exact h.count counter
  | more _ k _ hsome => exact h.more hsome
  | ignore _ k _ hstatus => exact h.ignore hstatus
  | close _ k _ dto hstatus htotals =>
    exact h.conclude (lightens_one (fun _ => Nat.le_refl _) (fun _ => rfl) rfl (fun _ _ h => by
      cases h))
      ⟨fun _ _ => rfl, fun _ _ => rfl, fun _ _ => rfl, fun i hi => if_neg (Ne.symm hi)⟩
      ⟨fun _ _ => rfl, fun _ _ => rfl, fun _ _ => rfl, fun _ _ => rfl⟩
      (by rw [hstatus]; simp) (fun _ => rfl) (fun _ _ _ _ => rfl)
  | order _ job => exact h.order job
  | enqueue k _ =>
    have hnext := relabel (n := .opening k) (alike_one (fun _ => rfl) (Nat.le_refl _)
      (Nat.le_refl _) (fun _ => rfl) (fun _ => rfl) (fun _ => rfl)
        (Nat.le_refl _) rfl (fun _ _ h => by cases h))
    rw [Multiset.singleton_add] at hnext
    rw [Multiset.insert_eq_cons, Multiset.cons_add, Multiset.singleton_add]
    exact hnext.add idle_over
  | cancel k _ dto hstatus htotals hK =>
    exact h.conclude (lightens_one (fun _ => Nat.le_refl _) (fun _ => rfl) rfl (fun _ _ h => by
      cases h))
      ⟨fun _ _ => rfl, fun _ _ => rfl, fun _ _ => rfl, fun _ _ => rfl⟩
      ⟨fun _ _ => rfl, fun _ _ => rfl, fun _ _ => rfl, fun _ _ => rfl⟩
      (by rw [hstatus]; simp) (fun _ => rfl) (fun _ _ _ _ => rfl)

end Deeds

end EventLens.Import

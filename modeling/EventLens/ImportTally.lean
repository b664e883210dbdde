import EventLens.ImportLedger

/-!
The tally of one import: what each stage takes for granted about its job, and
how the counters of the job add up with the outcomes that workers have written
but not counted yet. The tally is kept by every deed of a system in which no
other job re-points the items of this one, nobody cancels it, and its listing
names each file once.
-/

namespace EventLens.Import

open Programs

/-! The job and its items. -/

def Tables.itemsOf (t : Tables) (j : JobId) : List ImportItem :=
  t.items.filter (fun i => i.importJobId = j)

def Tables.countOf (t : Tables) (j : JobId) (status : ImportItemStatus) : ℕ :=
  (t.itemsOf j).countP (fun i => i.status = status)

def ImportJob.counted (job : ImportJob) : Counter → ℕ
  | .doneFiles => job.doneFiles
  | .skippedFiles => job.skippedFiles
  | .failedFiles => job.failedFiles

/-- The columns of a job that nothing changes. -/
def ImportJob.request (job : ImportJob) : String × CloudProvider × String × Bool :=
  (job.eventId, job.provider, job.folderRemoteId, job.recursive)

/-- The columns of an item that nothing changes. -/
def ImportItem.file (i : ImportItem) : String × CloudProvider × String :=
  (i.eventId, i.provider, i.remoteId)

/-- The files of the folder of a job, when the provider answers every attempt
alike. -/
def listingOf (remote : String → Option String → RemoteListingPage) (fuel : ℕ) (job : ImportJob) :
    Option (List RemoteFile) := walk remote job.recursive fuel [] job.folderRemoteId none

/-- The listing of the job comes to an end and names each remote file once. -/
def ListedOnce (remote : String → Option String → RemoteListingPage) (fuel : ℕ) (j : JobId)
    (t : Tables) : Prop :=
  ∀ job, t.job j = some job →
    ∃ files, listingOf remote fuel job = some files ∧ (files.map (fun f => f.id)).Nodup

/-- What is known about the folder of one job. -/
def oneRemote (remote : String → Option String → RemoteListingPage) (fuel : ℕ) (j : JobId) :
    Remote where
  pages k folderId pageToken page := k = j → page = remote folderId pageToken
  listing job := if job.id = j then listingOf remote fuel job else none

theorem steady_oneRemote (remote : String → Option String → RemoteListingPage) (fuel : ℕ)
    (j : JobId) : (oneRemote remote fuel j).Steady fuel := by
  intro job files hfiles
  simp only [oneRemote] at hfiles ⊢
  split at hfiles
  · rename_i hj
    exact ⟨remote, fun _ _ _ hpage => hpage hj, hfiles⟩
  · cases hfiles

section Rows

variable {t : Tables} {j k : JobId} {x : ItemId} {i : ImportItem}

theorem mem_itemsOf : i ∈ t.itemsOf j ↔ i ∈ t.items ∧ i.importJobId = j := by
  simp [Tables.itemsOf]

theorem uniqueFiles_iff {items : List ImportItem} :
    uniqueFiles items ↔ (items.map ImportItem.file).Nodup := by
  have hsame : ∀ a b : ImportItem, ¬ a.sameFile b ↔ a.file ≠ b.file := by
    intro a b
    simp [ImportItem.sameFile, ImportItem.file]
  simp only [uniqueFiles, hsame]
  exact List.pairwise_map.symm

theorem file_apply (dto : Repoint) (k : JobId) (i : ImportItem) :
    (dto.apply k i).file = i.file := by
  cases hfile : dto.file <;> simp [Repoint.apply, ImportItem.file, hfile]

theorem files_updateItems {f : ImportItem → ImportItem} (hf : ∀ i, (f i).file = i.file) :
    (t.updateItems x f).items.map ImportItem.file = t.items.map ImportItem.file := map_updateRow hf

/-- An update that leaves the items with their jobs acts on the items of each
job alone. -/
theorem itemsOf_updateItems {f : ImportItem → ImportItem}
    (hf : ∀ i, (f i).importJobId = i.importJobId) :
    (t.updateItems x f).itemsOf j = updateRow ImportItem.id x f (t.itemsOf j) := by
  rw [Tables.itemsOf, Tables.updateItems, updateRow, List.filter_map, updateRow, Tables.itemsOf]
  refine congrArg _ (List.filter_congr fun i _ => ?_)
  simp only [Function.comp_apply]
  split
  · rw [hf]
  · rfl

/-- An update of a row outside a job, before and after, leaves its items. -/
theorem itemsOf_other {f : ImportItem → ImportItem}
    (hbefore : ∀ i ∈ t.items, i.id = x → i.importJobId ≠ j)
    (hafter : ∀ i ∈ t.items, i.id = x → (f i).importJobId ≠ j) :
    (t.updateItems x f).itemsOf j = t.itemsOf j := by
  simp only [Tables.itemsOf, Tables.updateItems, updateRow]
  generalize t.items = items at hbefore hafter
  induction items with
  | nil => rfl
  | cons a items ih =>
    have hrest := ih (fun i hi => hbefore i (List.mem_cons_of_mem a hi))
      (fun i hi => hafter i (List.mem_cons_of_mem a hi))
    by_cases hx : a.id = x
    · have hold := hbefore a List.mem_cons_self hx
      have hnew := hafter a List.mem_cons_self hx
      rw [List.map_cons, if_pos hx, List.filter_cons_of_neg (by simpa using hnew),
        List.filter_cons_of_neg (by simpa using hold)]
      exact hrest
    · rw [List.map_cons, if_neg hx, List.filter_cons, List.filter_cons, hrest]

theorem itemsOf_addItems {rows : List NewItem} :
    (t.addItems rows).itemsOf j =
      t.itemsOf j ++ (freshRows t.nextItemId rows).filter (fun i => i.importJobId = j) :=
  List.filter_append _ _

end Rows

/-! What the stages take for granted. -/

/-- The job has been moved on by its listing. -/
def Moved (j : JobId) (t : Tables) : Prop :=
  t.status j = some .importing ∨ t.status j = some .done

/-- No item of the job remains to be imported. -/
def Vacant (j : JobId) (t : Tables) : Prop := ∀ i ∈ t.itemsOf j, i.status.remaining = false

/-- The tables have the file of a row under its id. -/
def Tables.HasRow (t : Tables) (r : ImportItem) : Prop :=
  ∃ i ∈ t.items, i.id = r.id ∧ i.file = r.file

/-- What a listing has gathered is in the tables. -/
structure Gathered (j : JobId) (p : Progress) (t : Tables) : Prop where
  own : p.job.id = j
  job : ∃ job, t.job j = some job ∧ p.job.request = job.request
  known : ∀ r ∈ p.known, t.HasRow r ∧ r.eventId = p.job.eventId ∧ r.provider = p.job.provider
  settled : ∀ r ∈ p.settled, ∃ i ∈ t.itemsOf j, i.id = r.id ∧ i.remoteId = r.remoteId ∧
    i.status = r.status

/-- What a stage takes for granted about job `j`. -/
def Stage.Told (j : JobId) (t : Tables) : Stage → Prop
  | .listing k p => k = j → Gathered j p t
  | .captured k p _ => k = j →
    p.settled.length = (t.itemsOf j).length ∧ p.skips = t.countOf j .skippedDuplicate
  | .promised k _ | .listed k => k = j → Moved j t
  | .starting x | .chosen x _ | .admitted x _ | .downloading x _ | .backed x =>
    (∃ i ∈ t.itemsOf j, i.id = x) → Moved j t
  | .finished x k _ | .counted x k => k = j → Moved j t ∧ ∃ i ∈ t.itemsOf j, i.id = x
  | .emptied x k | .closing x k =>
    k = j → (Moved j t ∧ ∃ i ∈ t.itemsOf j, i.id = x) ∧ Vacant j t
  | _ => True

/-- The stage comes after the listing of the job. -/
def Stage.late (j : JobId) : Stage → ℕ
  | .listed k | .finished _ k _ | .counted _ k | .emptied _ k | .closing _ k =>
    if k = j then 1 else 0
  | _ => 0

/-- An item of the job has this final status and is not counted yet. -/
def Stage.settling (j : JobId) (status : ImportItemStatus) : Stage → ℕ
  | .finished _ k final => if k = j ∧ final = status then 1 else 0
  | _ => 0

theorem settling_le_late (j : JobId) (status : ImportItemStatus) (S : Multiset Stage) :
    total (Stage.settling j status) S ≤ total (Stage.late j) S := by
  refine total_mono (fun s => ?_) S
  cases s with
  | finished x k final =>
    by_cases hk : k = j
    · simp only [Stage.settling, Stage.late, hk, if_true]
      split <;> omega
    · simp [Stage.settling, hk]
  | _ => exact Nat.zero_le _

/-- The listing is not over: the items are as it left them, and nothing has
been counted. -/
structure Untouched (j : JobId) (t : Tables) : Prop where
  items : ∀ i ∈ t.itemsOf j, i.status = .pending ∨ i.status = .skippedDuplicate
  job : ∀ job, t.job j = some job → job.doneFiles = 0 ∧ job.failedFiles = 0

/-- The counters of the job, together with the outcomes not counted yet, are
the numbers of items of each final status. -/
def Balanced (j : JobId) (S : Multiset Stage) (t : Tables) : Prop :=
  ∀ job, t.job j = some job → job.totalFiles = (t.itemsOf j).length ∧
    ∀ status counter, status.counter = some counter →
      job.counted counter + total (Stage.settling j status) S = t.countOf j status

/-- The items of the job are files of its listing, in its event. -/
def Belonging (remote : String → Option String → RemoteListingPage) (fuel : ℕ) (j : JobId)
    (t : Tables) : Prop :=
  ∀ i ∈ t.itemsOf j, ∀ job, t.job j = some job →
    i.eventId = job.eventId ∧ i.provider = job.provider ∧
      ∀ files, listingOf remote fuel job = some files → i.remoteId ∈ files.map (fun f => f.id)

/-- The tally of one job. -/
structure Tallied (remote : String → Option String → RemoteListingPage) (fuel : ℕ) (j : JobId)
    (S : Multiset Stage) (t : Tables) (es : List (ImportCall × Verdict)) : Prop where
  sound : Sound j S t
  once : ListedOnce remote fuel j t
  unique : uniqueFiles t.items
  belonging : Belonging remote fuel j t
  told : ∀ s ∈ S, s.Told j t
  late : 1 ≤ total (Stage.late j) S ∨ t.status j = some .done ∨
    (.importFolder j, .success) ∈ es → total (Stage.folder j) S = 0
  ended : (.importFolder j, .success) ∈ es → Moved j t
  untouched : 1 ≤ total (Stage.folder j) S → Untouched j t
  vacant : t.status j = some .done → Vacant j t
  balanced : Moved j t → Balanced j S t

/-! Steps that leave the job and its items alone. -/

/-- Two tables agree about job `j`. -/
structure SameFor (j : JobId) (t t' : Tables) : Prop where
  job : t'.job j = t.job j
  items : t'.itemsOf j = t.itemsOf j
  rows : ∀ i, t.HasRow i → t'.HasRow i
  files : uniqueFiles t.items → uniqueFiles t'.items

section Same

variable {remote : String → Option String → RemoteListingPage} {fuel : ℕ} {j k : JobId}
  {t t' : Tables} {s : Stage} {S R ns : Multiset Stage} {es : List (ImportCall × Verdict)}

theorem SameFor.status (h : SameFor j t t') : t'.status j = t.status j := by
  rw [Tables.status, Tables.status, h.job]

theorem SameFor.moved (h : SameFor j t t') : Moved j t' ↔ Moved j t := by
  rw [Moved, Moved, h.status]

theorem SameFor.countOf (h : SameFor j t t') (status : ImportItemStatus) :
    t'.countOf j status = t.countOf j status := by
  rw [Tables.countOf, h.items, Tables.countOf]

theorem same_refl (j : JobId) (t : Tables) : SameFor j t t := ⟨rfl, rfl, fun _ => id, id⟩

theorem same_updateJobs {f : ImportJob → ImportJob} (hf : ∀ job, (f job).id = job.id)
    (hk : k ≠ j) : SameFor j t (t.updateJobs k f) where
  job := by
    rw [job_updateJobs hf]
    simp [Ne.symm hk]
  items := rfl
  rows _ := id
  files := id

theorem same_addJob (job : NewJob) (hj : t.nextJobId ≠ j) : SameFor j t (t.addJob job) where
  job := by rw [job_addJob, if_neg (Ne.symm hj), Option.or_none]
  items := rfl
  rows _ := id
  files := id

theorem hasRow_updateItems {x : ItemId} {f : ImportItem → ImportItem}
    (hid : ∀ i, (f i).id = i.id) (hfile : ∀ i, (f i).file = i.file) {r : ImportItem}
    (h : t.HasRow r) : (t.updateItems x f).HasRow r := by
  obtain ⟨i, hi, hir, hf⟩ := h
  by_cases hx : i.id = x
  · exact ⟨f i, mem_updateRow.mpr (.inl ⟨i, hi, hx, rfl⟩), (hid i).trans hir, (hfile i).trans hf⟩
  · exact ⟨i, mem_updateRow.mpr (.inr ⟨hi, hx⟩), hir, hf⟩

theorem unique_updateItems {x : ItemId} {f : ImportItem → ImportItem}
    (hfile : ∀ i, (f i).file = i.file) (h : uniqueFiles t.items) :
    uniqueFiles (t.updateItems x f).items := by
  rw [uniqueFiles_iff, files_updateItems hfile]
  exact uniqueFiles_iff.mp h

theorem same_updateItems {x : ItemId} {f : ImportItem → ImportItem}
    (hid : ∀ i, (f i).id = i.id) (hfile : ∀ i, (f i).file = i.file)
    (hbefore : ∀ i ∈ t.items, i.id = x → i.importJobId ≠ j)
    (hafter : ∀ i ∈ t.items, i.id = x → (f i).importJobId ≠ j) :
    SameFor j t (t.updateItems x f) where
  job := rfl
  items := itemsOf_other hbefore hafter
  rows _ := hasRow_updateItems hid hfile
  files := unique_updateItems hfile

theorem same_addItems {rows : List NewItem} (hrows : ∀ n ∈ rows, n.importJobId ≠ j)
    (hunique : uniqueFiles (t.items ++ freshRows t.nextItemId rows)) :
    SameFor j t (t.addItems rows) where
  job := rfl
  items := by
    rw [itemsOf_addItems, List.filter_eq_nil_iff.mpr, List.append_nil]
    intro i hi
    obtain ⟨n, hn, -, hrow⟩ := mem_freshRows hi
    rw [hrow]
    exact fun hj => hrows n hn (of_decide_eq_true hj)
  rows r h := by
    obtain ⟨i, hi, hir⟩ := h
    exact ⟨i, List.mem_append_left _ hi, hir⟩
  files _ := hunique

/-- What a stage takes for granted stays true while the job keeps its request
and its items and is not taken back. -/
theorem told_kept (hjob : ∀ job, t.job j = some job →
      ∃ job', t'.job j = some job' ∧ job.request = job'.request)
    (hmoved : Moved j t → Moved j t') (hitems : t'.itemsOf j = t.itemsOf j)
    (hrows : ∀ i, t.HasRow i → t'.HasRow i) (htold : s.Told j t) : s.Told j t' := by
  have hcount : ∀ status, t'.countOf j status = t.countOf j status := by
    intro status
    rw [Tables.countOf, hitems, Tables.countOf]
  cases s with
  | listing k p =>
    intro hk
    obtain ⟨hown, ⟨job, hsome, hrequest⟩, hknown, hsettled⟩ := htold hk
    obtain ⟨job', hsome', hsame⟩ := hjob job hsome
    exact
      { own := hown
        job := ⟨job', hsome', hrequest.trans hsame⟩
        known := fun r hr => ⟨hrows r (hknown r hr).1, (hknown r hr).2⟩
        settled := by rw [hitems]; exact hsettled }
  | captured k p ids =>
    intro hk
    rw [hcount, hitems]
    exact htold hk
  | promised k ids => exact fun hk => hmoved (htold hk)
  | listed k => exact fun hk => hmoved (htold hk)
  | starting x | chosen x k | admitted x k | downloading x k | backed x =>
    intro hx
    rw [hitems] at hx
    exact hmoved (htold hx)
  | finished x k final | counted x k =>
    intro hk
    rw [hitems]
    exact (htold hk).imp_left hmoved
  | emptied x k | closing x k =>
    intro hk
    rw [Vacant, hitems]
    exact (htold hk).imp_left (And.imp_left hmoved)
  | _ => trivial

theorem told_same (h : SameFor j t t') (htold : s.Told j t) : s.Told j t' :=
  told_kept (fun job hjob => ⟨job, h.job.trans hjob, rfl⟩) h.moved.mpr h.items h.rows htold

/-- The stage becomes the stages `ns`, and the job is left alone. -/
theorem Tallied.steer (h : Tallied remote fuel j (s ::ₘ R) t es) (hsame : SameFor j t t')
    (hsound : Sound j (ns + R) t') (htold : ∀ n ∈ ns, n.Told j t)
    (hfolder : total (Stage.folder j) ns ≤ s.folder j)
    (hlate : total (Stage.late j) ns ≤ s.late j ∨ total (Stage.folder j) (ns + R) = 0)
    (hsettling : ∀ status, total (Stage.settling j status) ns = s.settling j status) :
    Tallied remote fuel j (ns + R) t' es where
  sound := hsound
  once := by
    rw [ListedOnce, hsame.job]
    exact h.once
  unique := hsame.files h.unique
  belonging := by
    rw [Belonging, hsame.items, hsame.job]
    exact h.belonging
  told := by
    intro n hn
    refine told_same hsame ?_
    rcases Multiset.mem_add.mp hn with hn | hn
    · exact htold n hn
    · exact h.told n (Multiset.mem_cons_of_mem hn)
  late := by
    rw [hsame.status, total_add]
    intro hcase
    rcases hlate with hlate | hzero
    · have hzero := h.late (by rw [total_cons]; exact hcase.imp_left fun _ => by omega)
      rw [total_cons] at hzero
      rw [total_add]
      omega
    · exact hzero
  ended hmem := hsame.moved.mpr (h.ended hmem)
  untouched := by
    intro hone
    rw [total_add] at hone
    obtain ⟨hitems, hjob⟩ := h.untouched (by rw [total_cons]; omega)
    exact ⟨by rw [hsame.items]; exact hitems, by rw [hsame.job]; exact hjob⟩
  vacant := by
    rw [hsame.status, Vacant, hsame.items]
    exact h.vacant
  balanced := by
    rw [hsame.moved]
    intro hmoved job hjob
    rw [hsame.job] at hjob
    rw [hsame.items]
    obtain ⟨htotal, hcounts⟩ := h.balanced hmoved job hjob
    refine ⟨htotal, fun status counter hcounter => ?_⟩
    have hcount := hcounts status counter hcounter
    rw [total_cons, ← hsettling] at hcount
    rw [total_add, hsame.countOf]
    exact hcount

/-! Steps of the job's own listing. -/

/-- No stage is about job `j` or one of its items. -/
structure Clear (j : JobId) (R : Multiset Stage) (t : Tables) : Prop where
  folder : total (Stage.folder j) R = 0
  late : total (Stage.late j) R = 0
  working : ∀ i ∈ t.itemsOf j, total (Stage.working i.id) R = 0

theorem Clear.told (h : Clear j R t) (hs : s ∈ R) : s.Told j t := by
  have hfolder := le_total (f := Stage.folder j) hs
  have hlate := le_total (f := Stage.late j) hs
  rw [h.folder] at hfolder
  rw [h.late] at hlate
  cases s with
  | listing k p | captured k p ids | promised k ids =>
    intro hk
    simp [Stage.folder, hk] at hfolder
  | listed k | finished x k final | counted x k | emptied x k | closing x k =>
    intro hk
    simp [Stage.late, hk] at hlate
  | starting x | chosen x k | admitted x k | downloading x k | backed x =>
    rintro ⟨i, hi, rfl⟩
    have hworking := le_total (f := Stage.working i.id) hs
    rw [h.working i hi] at hworking
    simp [Stage.working] at hworking
  | _ => trivial

/-- While the listing is not over the job is neither done nor ended. -/
theorem Tallied.early (h : Tallied remote fuel j S t es) (hfolder : 1 ≤ total (Stage.folder j) S) :
    total (Stage.late j) S = 0 ∧ t.status j ≠ some .done ∧ (.importFolder j, .success) ∉ es := by
  refine ⟨?_, fun hdone => ?_, fun hmem => ?_⟩
  · by_cases hlate : 1 ≤ total (Stage.late j) S
    · have hzero := h.late (.inl hlate)
      omega
    · omega
  · have hzero := h.late (.inr (.inl hdone))
    omega
  · have hzero := h.late (.inr (.inr hmem))
    omega

theorem Tallied.clear (h : Tallied remote fuel j (s ::ₘ R) t es) (hs : s.folder j = 1) :
    Clear j R t where
  folder := by
    have hone := h.sound.one
    rw [total_cons] at hone
    omega
  late := by
    have hlate := (h.early (by rw [total_cons]; omega)).1
    rw [total_cons] at hlate
    omega
  working := by
    intro i hi
    obtain ⟨hi, hij⟩ := mem_itemsOf.mp hi
    have hquiet := h.sound.quiet (by rw [total_cons]; omega) i hi hij
    rw [total_cons] at hquiet
    omega

/-- A listing that has not moved its job on finds it unmoved. -/
theorem Tallied.unmoved (h : Tallied remote fuel j (s ::ₘ R) t es) (hs : s.idle j = 1) :
    ¬ Moved j t := by
  have hle := idle_le_folder j (s ::ₘ R)
  rw [total_cons, hs] at hle
  rintro (himporting | hdone)
  · have hidle := h.sound.importing himporting
    rw [total_cons] at hidle
    omega
  · exact (h.early (by omega)).2.1 hdone

/-- The tally of a job of which no other stage knows anything. -/
theorem Clear.tallied {n : Stage} (h : Clear j R t) (hsound : Sound j (n ::ₘ R) t)
    (once : ListedOnce remote fuel j t) (unique : uniqueFiles t.items)
    (belonging : Belonging remote fuel j t) (htold : n.Told j t)
    (hended : (.importFolder j, .success) ∉ es)
    (hlate : n.late j = 1 ∨ t.status j = some .done → n.folder j = 0)
    (huntouched : n.folder j = 1 → Untouched j t) (hvacant : t.status j = some .done → Vacant j t)
    (hsettling : ∀ status, n.settling j status = 0) (hbalanced : Moved j t → Balanced j 0 t) :
    Tallied remote fuel j (n ::ₘ R) t es where
  sound := hsound
  once := once
  unique := unique
  belonging := belonging
  told := by
    intro s hs
    rcases Multiset.mem_cons.mp hs with rfl | hs
    · exact htold
    · exact h.told hs
  late := by
    rw [total_cons, total_cons, h.folder, h.late]
    rintro (hone | hdone | hmem)
    · have hle : n.late j ≤ 1 := by
        cases n <;> simp only [Stage.late] <;> first | omega | (split <;> omega)
      exact hlate (.inl (by omega))
    · exact hlate (.inr hdone)
    · exact absurd hmem hended
  ended hmem := absurd hmem hended
  untouched := by
    rw [total_cons, h.folder]
    intro hone
    have hle := hsound.one
    rw [total_cons] at hle
    exact huntouched (by omega)
  vacant := hvacant
  balanced := by
    intro hmoved job hjob
    obtain ⟨htotal, hcounts⟩ := hbalanced hmoved job hjob
    refine ⟨htotal, fun status counter hcounter => ?_⟩
    have hle := settling_le_late j status R
    rw [h.late] at hle
    have hcount := hcounts status counter hcounter
    rw [total_zero] at hcount
    rw [total_cons, hsettling]
    omega

section Jobs

variable {f : ImportJob → ImportJob} {dto : JobChange} {n : Stage} {p : Progress}
  {ids : List ItemId}

theorem job_self (hf : ∀ job, (f job).id = job.id) :
    (t.updateJobs j f).job j = (t.job j).map f := by
  rw [job_updateJobs hf]
  simp

theorem status_self {status : ImportJobStatus}
    (h : (t.updateJobs j dto.apply).status j = some status) : status = dto.status := by
  rw [status_updateJobs] at h
  obtain ⟨_, -, hstatus⟩ := Option.map_eq_some_iff.mp h
  rw [if_pos rfl] at hstatus
  exact hstatus.symm

theorem listingOf_request {job job' : ImportJob} (h : job.request = job'.request) :
    listingOf remote fuel job = listingOf remote fuel job' := by
  simp only [ImportJob.request, Prod.mk.injEq] at h
  obtain ⟨-, -, hfolder, hrecursive⟩ := h
  rw [listingOf, listingOf, hfolder, hrecursive]

theorem once_kept (hjob : ∀ job', t'.job j = some job' →
      ∃ job, t.job j = some job ∧ job.request = job'.request)
    (h : ListedOnce remote fuel j t) : ListedOnce remote fuel j t' := by
  intro job' hsome'
  obtain ⟨job, hsome, hrequest⟩ := hjob job' hsome'
  obtain ⟨files, hfiles, hnodup⟩ := h job hsome
  exact ⟨files, (listingOf_request hrequest).symm.trans hfiles, hnodup⟩

theorem belonging_kept (hjob : ∀ job', t'.job j = some job' →
      ∃ job, t.job j = some job ∧ job.request = job'.request)
    (hitems : t'.itemsOf j = t.itemsOf j) (h : Belonging remote fuel j t) :
    Belonging remote fuel j t' := by
  intro i hi job' hsome'
  rw [hitems] at hi
  obtain ⟨job, hsome, hrequest⟩ := hjob job' hsome'
  obtain ⟨hevent, hprovider, hfiles⟩ := h i hi job hsome
  rw [listingOf_request hrequest] at hfiles
  simp only [ImportJob.request, Prod.mk.injEq] at hrequest
  exact ⟨hevent.trans hrequest.1, hprovider.trans hrequest.2.1, hfiles⟩

theorem request_updateJobs (hid : ∀ job, (f job).id = job.id)
    (hrequest : ∀ job, (f job).request = job.request) {job' : ImportJob}
    (h : (t.updateJobs j f).job j = some job') :
    ∃ job, t.job j = some job ∧ job' = f job ∧ job.request = job'.request := by
  rw [job_self hid] at h
  obtain ⟨job, hjob, rfl⟩ := Option.map_eq_some_iff.mp h
  exact ⟨job, hjob, rfl, (hrequest job).symm⟩

theorem Clear.updateJobs (h : Clear j R t) : Clear j R (t.updateJobs k f) :=
  ⟨h.folder, h.late, h.working⟩

/-- The listing gives up. -/
theorem Tallied.broke (h : Tallied remote fuel j (s ::ₘ R) t es) (hs : s.folder j = 1)
    (hdto : dto.status = .failed)
    (hsound : Sound j (.broken j ::ₘ R) (t.updateJobs j dto.apply)) :
    Tallied remote fuel j (.broken j ::ₘ R) (t.updateJobs j dto.apply) es := by
  have hone : 1 ≤ total (Stage.folder j) (s ::ₘ R) := by
    rw [total_cons]
    omega
  have hkept : ∀ job', (t.updateJobs j dto.apply).job j = some job' →
      ∃ job, t.job j = some job ∧ job' = dto.apply job ∧ job.request = job'.request :=
    fun job' => request_updateJobs (f := dto.apply) (fun _ => rfl) (fun _ => rfl)
  have hkept' : ∀ job', (t.updateJobs j dto.apply).job j = some job' →
      ∃ job, t.job j = some job ∧ job.request = job'.request := by
    intro job' hsome'
    obtain ⟨job, hsome, -, hrequest⟩ := hkept job' hsome'
    exact ⟨job, hsome, hrequest⟩
  have hnot : ∀ status, status ≠ .failed → (t.updateJobs j dto.apply).status j ≠ some status := by
    intro status hne hsome
    exact hne ((status_self hsome).trans hdto)
  refine (h.clear hs).updateJobs.tallied hsound (once_kept hkept' h.once) h.unique
    (belonging_kept hkept' rfl h.belonging) trivial (h.early hone).2.2 ?_ ?_ ?_ (fun _ => rfl) ?_
  · rintro (hlate | hdone)
    · cases hlate
    · exact absurd hdone (hnot _ (by simp))
  · intro _
    obtain ⟨hitems, hjob⟩ := h.untouched hone
    refine ⟨hitems, fun job' hsome' => ?_⟩
    obtain ⟨job, hsome, rfl, -⟩ := hkept job' hsome'
    exact hjob job hsome
  · intro hdone
    exact absurd hdone (hnot _ (by simp))
  · rintro (himporting | hdone)
    · exact absurd himporting (hnot _ (by simp))
    · exact absurd hdone (hnot _ (by simp))

/-- The listing is complete and moves the job on. -/
theorem Tallied.moveOn (h : Tallied remote fuel j (.captured j p ids ::ₘ R) t es)
    (htotals : dto.totals = some (p.settled.length, p.skips))
    (hcase : n = .listed j ∧ dto.status = .done ∧ ids = [] ∨
      n = .promised j ids ∧ dto.status = .importing)
    (hsound : Sound j (n ::ₘ R) (t.updateJobs j dto.apply)) :
    Tallied remote fuel j (n ::ₘ R) (t.updateJobs j dto.apply) es := by
  have hone : 1 ≤ total (Stage.folder j) (.captured j p ids ::ₘ R) := by
    rw [total_cons, Stage.folder, if_pos rfl]
    omega
  have hkept : ∀ job', (t.updateJobs j dto.apply).job j = some job' →
      ∃ job, t.job j = some job ∧ job' = dto.apply job ∧ job.request = job'.request :=
    fun job' => request_updateJobs (f := dto.apply) (fun _ => rfl) (fun _ => rfl)
  have hkept' : ∀ job', (t.updateJobs j dto.apply).job j = some job' →
      ∃ job, t.job j = some job ∧ job.request = job'.request := by
    intro job' hsome'
    obtain ⟨job, hsome, -, hrequest⟩ := hkept job' hsome'
    exact ⟨job, hsome, hrequest⟩
  have hstatus : (t.updateJobs j dto.apply).status j = some dto.status := by
    cases hjob : t.job j with
    | none =>
      rw [h.sound.jobs j hjob] at hone
      omega
    | some job =>
      rw [Tables.status, job_self (f := dto.apply) (fun _ => rfl), hjob]
      rfl
  have hmoved : Moved j (t.updateJobs j dto.apply) := by
    rw [Moved, hstatus]
    rcases hcase with ⟨-, hdone, -⟩ | ⟨-, himporting⟩
    · exact .inr (congrArg some hdone)
    · exact .inl (congrArg some himporting)
  obtain ⟨hitems, hjob⟩ := h.untouched hone
  refine (h.clear (if_pos rfl)).updateJobs.tallied hsound (once_kept hkept' h.once) h.unique
    (belonging_kept hkept' rfl h.belonging) ?_ (h.early hone).2.2 ?_ ?_ ?_ ?_ ?_
  · rcases hcase with ⟨rfl, -⟩ | ⟨rfl, -⟩
    · exact fun _ => hmoved
    · exact fun _ => hmoved
  · rcases hcase with ⟨rfl, -⟩ | ⟨rfl, himporting⟩
    · exact fun _ => rfl
    · rintro (hlate | hdone)
      · cases hlate
      · rw [hstatus, himporting] at hdone
        cases hdone
  · intro _
    refine ⟨hitems, fun job' hsome' => ?_⟩
    obtain ⟨job, hsome, rfl, -⟩ := hkept job' hsome'
    exact hjob job hsome
  · intro hdone i hi
    rcases hcase with ⟨-, -, rfl⟩ | ⟨-, himporting⟩
    · cases hrem : i.status.remaining with
      | false => rfl
      | true =>
        obtain ⟨hi, hij⟩ := mem_itemsOf.mp hi
        have hmem := h.sound.captured p [] (Multiset.mem_cons_self _ R) i hi hij hrem
        cases hmem
    · rw [hstatus, himporting] at hdone
      cases hdone
  · rcases hcase with ⟨rfl, -⟩ | ⟨rfl, -⟩
    · exact fun _ => rfl
    · exact fun _ => rfl
  · intro _ job' hsome'
    obtain ⟨job, hsome, rfl, -⟩ := hkept job' hsome'
    obtain ⟨hdone, hfailed⟩ := hjob job hsome
    obtain ⟨hlength, hskips⟩ := h.told _ (Multiset.mem_cons_self _ R) rfl
    have hnone : ∀ status, status = .done ∨ status = .failed → t.countOf j status = 0 := by
      intro status hfinal
      refine List.countP_eq_zero.mpr fun i hi => ?_
      rcases hitems i hi with hpending | hskipped
      · rw [hpending]
        rcases hfinal with rfl | rfl <;> simp
      · rw [hskipped]
        rcases hfinal with rfl | rfl <;> simp
    refine ⟨?_, fun status counter hcounter => ?_⟩
    · simp only [JobChange.apply, htotals, Option.map_some, Option.getD_some]
      exact hlength
    · rw [total_zero, Nat.add_zero]
      cases status with
      | pending => cases hcounter
      | downloading => cases hcounter
      | done =>
        cases hcounter
        exact hdone.trans (hnone _ (.inl rfl)).symm
      | failed =>
        cases hcounter
        exact hfailed.trans (hnone _ (.inr rfl)).symm
      | skippedDuplicate =>
        cases hcounter
        simp only [JobChange.apply, ImportJob.counted, htotals, Option.map_some,
          Option.getD_some]
        exact hskips

/-- A worker's change of the job once the listing is over. -/
theorem Tallied.adjust (h : Tallied remote fuel j (s ::ₘ R) t es)
    (hid : ∀ job, (f job).id = job.id) (hrequest : ∀ job, (f job).request = job.request)
    (hs : s.late j = 1) (hn : n.folder j = 0) (hmoved : Moved j t → Moved j (t.updateJobs j f))
    (htold : n.Told j (t.updateJobs j f)) (hstill : Moved j t)
    (hvacant : (t.updateJobs j f).status j = some .done → Vacant j t)
    (hcounts : ∀ job, (f job).totalFiles = job.totalFiles ∧
      ∀ status counter, status.counter = some counter →
        (f job).counted counter + n.settling j status = job.counted counter + s.settling j status)
    (hsound : Sound j (n ::ₘ R) (t.updateJobs j f)) :
    Tallied remote fuel j (n ::ₘ R) (t.updateJobs j f) es := by
  have hkept : ∀ job', (t.updateJobs j f).job j = some job' →
      ∃ job, t.job j = some job ∧ job' = f job ∧ job.request = job'.request :=
    fun job' => request_updateJobs hid hrequest
  have hkept' : ∀ job', (t.updateJobs j f).job j = some job' →
      ∃ job, t.job j = some job ∧ job.request = job'.request := by
    intro job' hsome'
    obtain ⟨job, hsome, -, hsame⟩ := hkept job' hsome'
    exact ⟨job, hsome, hsame⟩
  have hzero := h.late (.inl (by rw [total_cons, hs]; omega))
  have hfolder : total (Stage.folder j) (n ::ₘ R) = 0 := by
    rw [total_cons] at hzero
    rw [total_cons, hn]
    omega
  refine
    { sound := hsound
      once := once_kept hkept' h.once
      unique := h.unique
      belonging := belonging_kept hkept' rfl h.belonging
      told := ?_
      late := fun _ => hfolder
      ended := fun _ => hmoved hstill
      untouched := fun hone => by omega
      vacant := hvacant
      balanced := ?_ }
  · intro m hm
    rcases Multiset.mem_cons.mp hm with rfl | hm
    · exact htold
    · refine told_kept (fun job hjob => ⟨f job, ?_, (hrequest job).symm⟩) hmoved rfl (fun _ => id)
        (h.told m (Multiset.mem_cons_of_mem hm))
      rw [job_self hid, hjob]
      rfl
  · intro _ job' hsome'
    obtain ⟨job, hsome, rfl, -⟩ := hkept job' hsome'
    obtain ⟨htotal, hcount⟩ := h.balanced hstill job hsome
    obtain ⟨htotal', hcount'⟩ := hcounts job
    refine ⟨htotal'.trans htotal, fun status counter hcounter => ?_⟩
    have hold := hcount status counter hcounter
    have hnew := hcount' status counter hcounter
    change _ = t.countOf j status
    rw [total_cons] at hold
    rw [total_cons]
    omega

theorem counted_bump (counter counter' : Counter) (job : ImportJob) :
    (job.bump counter).counted counter' =
      job.counted counter' + if counter = counter' then 1 else 0 := by
  cases counter <;> cases counter' <;> rfl

theorem counter_injective {status status' : ImportItemStatus} {counter : Counter}
    (h : status.counter = some counter) (h' : status'.counter = some counter) :
    status = status' := by
  cases status <;> cases status' <;> cases h <;> first | rfl | cases h'

/-- A worker counts the outcome it has written. -/
theorem Tallied.count {x : ItemId} {final : ImportItemStatus} {counter : Counter}
    (h : Tallied remote fuel j (.finished x j final ::ₘ R) t es)
    (hcounter : final.counter = some counter)
    (hsound : Sound j (.counted x j ::ₘ R) (t.updateJobs j (ImportJob.bump counter))) :
    Tallied remote fuel j (.counted x j ::ₘ R) (t.updateJobs j (ImportJob.bump counter)) es := by
  obtain ⟨hmoved, hrow⟩ := h.told _ (Multiset.mem_cons_self _ R) rfl
  have hstatus : (t.updateJobs j (ImportJob.bump counter)).status j = t.status j :=
    status_bump counter
  have hsame : Moved j (t.updateJobs j (ImportJob.bump counter)) ↔ Moved j t := by
    rw [Moved, hstatus, Moved]
  have hrequest : ∀ job : ImportJob, (job.bump counter).request = job.request := by
    intro job
    cases counter <;> rfl
  refine h.adjust (bump_id counter) hrequest (if_pos rfl) rfl hsame.mpr
    (fun _ => ⟨hsame.mpr hmoved, hrow⟩) hmoved (fun hdone => h.vacant (hstatus ▸ hdone)) ?_ hsound
  intro job
  refine ⟨by cases counter <;> rfl, fun status counter' hcounter' => ?_⟩
  have hself : (Stage.counted x j).settling j status = 0 := rfl
  rw [counted_bump, hself, Stage.settling]
  by_cases hfinal : final = status
  · subst hfinal
    rw [hcounter] at hcounter'
    rw [if_pos (Option.some.inj hcounter'), if_pos ⟨rfl, rfl⟩, Nat.add_zero]
  · rw [if_neg, if_neg (fun hboth => hfinal hboth.2)]
    rintro rfl
    exact hfinal (counter_injective hcounter hcounter')

/-- The last worker closes the job. -/
theorem Tallied.close {x : ItemId} (h : Tallied remote fuel j (.closing x j ::ₘ R) t es)
    (hdto : dto.status = .done) (htotals : dto.totals = none)
    (hsound : Sound j (.over ::ₘ R) (t.updateJobs j dto.apply)) :
    Tallied remote fuel j (.over ::ₘ R) (t.updateJobs j dto.apply) es := by
  obtain ⟨⟨hmoved, -⟩, hvacant⟩ := h.told _ (Multiset.mem_cons_self _ R) rfl
  have hclosed : Moved j t → Moved j (t.updateJobs j dto.apply) := by
    rintro (hsome | hsome)
    · right
      rw [status_updateJobs, hsome, Option.map_some, if_pos rfl, hdto]
    · right
      rw [status_updateJobs, hsome, Option.map_some, if_pos rfl, hdto]
  refine h.adjust (fun _ => rfl) (fun _ => rfl) (if_pos rfl) rfl hclosed trivial hmoved
    (fun _ => hvacant) ?_ hsound
  intro job
  refine ⟨by simp [JobChange.apply, htotals], fun status counter _ => ?_⟩
  cases counter <;> simp [JobChange.apply, ImportJob.counted, Stage.settling, htotals]

/-- The job is created, for the listing that is to be queued. -/
theorem Tallied.order (h : Tallied remote fuel t.nextJobId (.ordering ::ₘ R) t es) (job : NewJob)
    (honce : ListedOnce remote fuel t.nextJobId (t.addJob job))
    (hsound : Sound t.nextJobId (.created t.nextJobId ::ₘ R) (t.addJob job)) :
    Tallied remote fuel t.nextJobId (.created t.nextJobId ::ₘ R) (t.addJob job) es := by
  have hnext := h.sound.wf.next_job
  have hnone : ∀ i ∈ t.itemsOf t.nextJobId, False := by
    intro i hi
    obtain ⟨hi, hij⟩ := mem_itemsOf.mp hi
    exact h.sound.wf.parents i hi (hij ▸ hnext)
  have hunmoved : ¬ Moved t.nextJobId t := by
    rw [Moved, Tables.status, hnext]
    simp
  have hlate : total (Stage.late t.nextJobId) R = 0 := by
    refine total_eq_zero fun m hm => ?_
    have htold := h.told m (Multiset.mem_cons_of_mem hm)
    cases m with
    | listed k =>
      by_cases hk : k = t.nextJobId
      · exact absurd (htold hk) hunmoved
      · simp [Stage.late, hk]
    | finished x k final | counted x k =>
      by_cases hk : k = t.nextJobId
      · exact absurd (htold hk).1 hunmoved
      · simp [Stage.late, hk]
    | emptied x k | closing x k =>
      by_cases hk : k = t.nextJobId
      · exact absurd (htold hk).1.1 hunmoved
      · simp [Stage.late, hk]
    | _ => rfl
  have hclear : Clear t.nextJobId R (t.addJob job) :=
    { folder := by
        have hfolder := h.sound.jobs _ hnext
        rw [total_cons] at hfolder
        omega
      late := hlate
      working := fun i hi => (hnone i hi).elim }
  have hlisting : (t.addJob job).job t.nextJobId = some (job.row t.nextJobId) := by
    rw [job_addJob, hnext, if_pos rfl]
    rfl
  have hstatus : ∀ status, status ≠ .listing →
      (t.addJob job).status t.nextJobId ≠ some status := by
    intro status hne hsome
    rw [Tables.status, hlisting] at hsome
    exact hne (Option.some.inj hsome).symm
  refine hclear.tallied hsound honce h.unique (fun i hi => (hnone i hi).elim) trivial
    (fun hmem => hunmoved (h.ended hmem)) ?_ ?_ ?_ (fun _ => rfl) ?_
  · rintro (hlate | hdone)
    · cases hlate
    · exact absurd hdone (hstatus _ (by simp))
  · intro _
    refine ⟨fun i hi => (hnone i hi).elim, fun job' hsome => ?_⟩
    rw [hlisting] at hsome
    cases hsome
    exact ⟨rfl, rfl⟩
  · intro hdone
    exact absurd hdone (hstatus _ (by simp))
  · rintro (himporting | hdone)
    · exact absurd himporting (hstatus _ (by simp))
    · exact absurd hdone (hstatus _ (by simp))

end Jobs

/-! Steps of the job's own listing on the items. -/

section Listing

variable {p : Progress} {x : ItemId} {dto : Repoint} {ids : List ItemId} {n : Stage}

theorem Gathered.found (h : Gathered j p t) {r : ImportItem} (hr : p.find x = some r) :
    t.HasRow r ∧ r.id = x ∧ r.eventId = p.job.eventId ∧ r.provider = p.job.provider := by
  obtain ⟨hmem, hid⟩ := mem_of_findRow hr
  obtain ⟨hrow, hevent, hprovider⟩ := h.known r hmem
  exact ⟨hrow, hid, hevent, hprovider⟩

/-- The files a listing has named begin its listing. -/
theorem Gathered.named_listing (h : Gathered j p t) (honce : ListedOnce remote fuel j t)
    (hwithin : p.Within (oneRemote remote fuel j)) :
    ∃ files, (∀ job, t.job j = some job → listingOf remote fuel job = some files) ∧
      (files.map (fun f => f.id)).Nodup ∧ p.named <+: files := by
  obtain ⟨hown, ⟨job, hjob, hrequest⟩, -, -⟩ := h
  obtain ⟨files, hfiles, hnodup⟩ := honce job hjob
  refine ⟨files, fun job' hjob' => ?_, hnodup, hwithin files ?_⟩
  · rw [hjob] at hjob'
    cases hjob'
    exact hfiles
  · simp only [oneRemote, hown, if_true]
    rw [listingOf_request hrequest]
    exact hfiles

theorem prefix_nodup {named files : List RemoteFile} (h : named <+: files)
    (hnodup : (files.map (fun f => f.id)).Nodup) : (named.map (fun f => f.id)).Nodup :=
  hnodup.sublist (h.sublist.map _)

theorem prefix_subset {named files : List RemoteFile} (h : named <+: files) {r : String}
    (hr : r ∈ named.map (fun f => f.id)) : r ∈ files.map (fun f => f.id) :=
  (h.sublist.map _).subset hr

/-- The items after a re-point to the job: the row itself, and the others. -/
theorem mem_itemsOf_repoint {i : ImportItem} :
    i ∈ (t.updateItems x (dto.apply j)).itemsOf j ↔
      (∃ i' ∈ t.items, i'.id = x ∧ i = dto.apply j i') ∨ (i ∈ t.itemsOf j ∧ i.id ≠ x) := by
  rw [mem_itemsOf, mem_itemsOf, Tables.updateItems, mem_updateRow]
  constructor
  · rintro ⟨⟨i', hi', hix, rfl⟩ | ⟨hi, hix⟩, hij⟩
    · exact .inl ⟨i', hi', hix, rfl⟩
    · exact .inr ⟨⟨hi, hij⟩, hix⟩
  · rintro (⟨i', hi', hix, rfl⟩ | ⟨⟨hi, hij⟩, hix⟩)
    · exact ⟨.inl ⟨i', hi', hix, rfl⟩, apply_job dto j i'⟩
    · exact ⟨.inr ⟨hi, hix⟩, hij⟩

/-- The listing takes a row over, or keeps one of its own. -/
theorem Tallied.repoint (h : Tallied remote fuel j (.listing j p ::ₘ R) t es)
    (hstatus : dto.status = .pending ∨ dto.status = .skippedDuplicate)
    (hwithin : p.Within (oneRemote remote fuel j)) (hmay : p.MayRepoint x)
    (hfree : total (Stage.held x) (.listing j p ::ₘ R) = 0)
    (hsound : Sound j (.listing j (p.repointed x dto.status) ::ₘ R)
      (t.updateItems x (dto.apply j))) :
    Tallied remote fuel j (.listing j (p.repointed x dto.status) ::ₘ R)
      (t.updateItems x (dto.apply j)) es := by
  have hone : 1 ≤ total (Stage.folder j) (.listing j p ::ₘ R) := by
    rw [total_cons, Stage.folder, if_pos rfl]
    omega
  have hgathered : Gathered j p t := h.told _ (Multiset.mem_cons_self _ R) rfl
  obtain ⟨files, hfiles, hnodup, hprefix⟩ := hgathered.named_listing h.once hwithin
  obtain ⟨r, hfind, hnamed, hunsettled⟩ := hmay
  have hunsettled := hunsettled (prefix_nodup hprefix hnodup)
  obtain ⟨⟨i₀, hi₀, hid₀, hfile₀⟩, hrx, hevent, hprovider⟩ := hgathered.found hfind
  have hrow : ∀ i ∈ t.items, i.id = x → i = i₀ := fun i hi hix =>
    row_unique h.sound.wf.ids hi hi₀ (hix.trans (hrx.symm.trans hid₀.symm))
  have hfile : (dto.apply j i₀).file = r.file := (file_apply dto j i₀).trans hfile₀
  simp only [ImportItem.file, Prod.mk.injEq] at hfile
  obtain ⟨htidy, hquiet⟩ := h.untouched hone
  have hunmoved := h.unmoved (if_pos rfl)
  have hclear : Clear j R (t.updateItems x (dto.apply j)) := by
    obtain ⟨hfolder, hlate, hworking⟩ := h.clear (if_pos rfl)
    refine ⟨hfolder, hlate, fun i hi => ?_⟩
    rcases mem_itemsOf_repoint.mp hi with ⟨i', -, hix, rfl⟩ | ⟨hi, -⟩
    · have hle := working_le_held x R
      rw [total_cons] at hfree
      rw [apply_id, hix]
      omega
    · exact hworking i hi
  refine hclear.tallied hsound h.once (unique_updateItems (file_apply dto j) h.unique) ?_ ?_
    (h.early hone).2.2 ?_ ?_ ?_ (fun _ => rfl) (fun hmoved => absurd hmoved hunmoved)
  · intro i hi job hjob
    rcases mem_itemsOf_repoint.mp hi with ⟨i', hi', hix, rfl⟩ | ⟨hi, -⟩
    · obtain ⟨-, ⟨job', hjob', hrequest⟩, -, -⟩ := hgathered
      rw [show t.job j = some job from hjob] at hjob'
      cases hjob'
      simp only [ImportJob.request, Prod.mk.injEq] at hrequest
      rw [hrow i' hi' hix, hfile.1, hfile.2.1, hfile.2.2]
      refine ⟨hevent.trans hrequest.1, hprovider.trans hrequest.2.1, fun files' hfiles' => ?_⟩
      rw [hfiles job hjob] at hfiles'
      cases hfiles'
      exact prefix_subset hprefix hnamed
    · exact h.belonging i hi job hjob
  · intro _
    obtain ⟨hown, hjob, hknown, hsettled⟩ := hgathered
    refine
      { own := hown
        job := hjob
        known := fun r hr => ⟨hasRow_updateItems (apply_id dto j) (file_apply dto j)
          (hknown r hr).1, (hknown r hr).2⟩
        settled := ?_ }
    intro r' hr'
    rw [Progress.repointed, hfind] at hr'
    rcases List.mem_append.mp hr' with hr' | hr'
    · obtain ⟨i, hi, hid, hremote, hst⟩ := hsettled r' hr'
      refine ⟨i, mem_itemsOf_repoint.mpr (.inr ⟨hi, ?_⟩), hid, hremote, hst⟩
      rintro rfl
      have hsame := hrow i (mem_itemsOf.mp hi).1 rfl
      simp only [ImportItem.file, Prod.mk.injEq] at hfile₀
      refine hunsettled (List.mem_map.mpr ⟨r', hr', ?_⟩)
      rw [← hremote, hsame, hfile₀.2.2]
    · obtain rfl := List.mem_singleton.mp hr'
      refine ⟨dto.apply j i₀, mem_itemsOf_repoint.mpr (.inl ⟨i₀, hi₀, hid₀.trans hrx, rfl⟩), ?_,
        hfile.2.2, apply_status dto j i₀⟩
      rw [apply_id]
      exact hid₀
  · rintro (hlate | hdone)
    · cases hlate
    · exact absurd (.inr hdone) hunmoved
  · intro _
    refine ⟨fun i hi => ?_, hquiet⟩
    rcases mem_itemsOf_repoint.mp hi with ⟨i', -, -, rfl⟩ | ⟨hi, -⟩
    · rw [apply_status]
      exact hstatus
    · exact htidy i hi
  · intro hdone
    exact absurd (.inr hdone) hunmoved

/-- The listing inserts the rows of new files. -/
theorem Tallied.insert {rows : List NewItem} (h : Tallied remote fuel j (.listing j p ::ₘ R) t es)
    (hwithin : p.Within (oneRemote remote fuel j))
    (hrows : ∀ n ∈ rows, n.importJobId = j ∧ n.eventId = p.job.eventId ∧
      n.provider = p.job.provider ∧ n.remoteId ∈ p.named.map (fun f => f.id))
    (hunique : uniqueFiles (t.items ++ freshRows t.nextItemId rows))
    (hsound : Sound j (.listing j { p with settled := p.settled ++ freshRows t.nextItemId rows }
      ::ₘ R) (t.addItems rows)) :
    Tallied remote fuel j
      (.listing j { p with settled := p.settled ++ freshRows t.nextItemId rows } ::ₘ R)
      (t.addItems rows) es := by
  have hone : 1 ≤ total (Stage.folder j) (.listing j p ::ₘ R) := by
    rw [total_cons, Stage.folder, if_pos rfl]
    omega
  have hgathered : Gathered j p t := h.told _ (Multiset.mem_cons_self _ R) rfl
  obtain ⟨files, hfiles, hnodup, hprefix⟩ := hgathered.named_listing h.once hwithin
  obtain ⟨htidy, hquiet⟩ := h.untouched hone
  have hunmoved := h.unmoved (if_pos rfl)
  have hmem : ∀ i, i ∈ (t.addItems rows).itemsOf j ↔
      i ∈ t.itemsOf j ∨ i ∈ freshRows t.nextItemId rows := by
    intro i
    rw [itemsOf_addItems, List.mem_append, List.mem_filter]
    refine or_congr_right (and_iff_left_of_imp fun hi => ?_)
    obtain ⟨n, hn, -, hrow⟩ := mem_freshRows hi
    rw [hrow]
    exact decide_eq_true (hrows n hn).1
  have hclear : Clear j R (t.addItems rows) := by
    obtain ⟨hfolder, hlate, -⟩ := h.clear (if_pos rfl)
    refine ⟨hfolder, hlate, fun i hi => ?_⟩
    obtain ⟨hi, hij⟩ := mem_itemsOf.mp hi
    have hquiet := hsound.quiet (by rw [total_cons, Stage.folder, if_pos rfl]; omega) i hi hij
    rw [total_cons] at hquiet
    omega
  refine hclear.tallied hsound h.once hunique ?_ ?_ (h.early hone).2.2 ?_ ?_ ?_ (fun _ => rfl)
    (fun hmoved => absurd hmoved hunmoved)
  · intro i hi job hjob
    rcases (hmem i).mp hi with hi | hi
    · exact h.belonging i hi job hjob
    · obtain ⟨n, hn, -, hrow⟩ := mem_freshRows hi
      obtain ⟨-, hevent, hprovider, hnamed⟩ := hrows n hn
      obtain ⟨-, ⟨job', hjob', hrequest⟩, -, -⟩ := hgathered
      rw [show t.job j = some job from hjob] at hjob'
      cases hjob'
      simp only [ImportJob.request, Prod.mk.injEq] at hrequest
      rw [hrow]
      refine ⟨hevent.trans hrequest.1, hprovider.trans hrequest.2.1, fun files' hfiles' => ?_⟩
      rw [hfiles job hjob] at hfiles'
      cases hfiles'
      exact prefix_subset hprefix hnamed
  · intro _
    obtain ⟨hown, hjob, hknown, hsettled⟩ := hgathered
    refine
      { own := hown
        job := hjob
        known := fun r hr => ⟨?_, (hknown r hr).2⟩
        settled := ?_ }
    · obtain ⟨i, hi, hir⟩ := (hknown r hr).1
      exact ⟨i, List.mem_append_left _ hi, hir⟩
    · intro r hr
      rcases List.mem_append.mp hr with hr | hr
      · obtain ⟨i, hi, hir⟩ := hsettled r hr
        exact ⟨i, (hmem i).mpr (.inl hi), hir⟩
      · exact ⟨r, (hmem r).mpr (.inr hr), rfl, rfl, rfl⟩
  · rintro (hlate | hdone)
    · cases hlate
    · exact absurd (.inr hdone) hunmoved
  · intro _
    refine ⟨fun i hi => ?_, hquiet⟩
    rcases (hmem i).mp hi with hi | hi
    · exact htidy i hi
    · obtain ⟨n, -, -, hrow⟩ := mem_freshRows hi
      rw [hrow]
      exact .inl rfl
  · intro hdone
    exact absurd (.inr hdone) hunmoved

/-- The items of the job are told apart by their remote ids. -/
theorem Tallied.remoteIds_nodup (h : Tallied remote fuel j S t es) {job : ImportJob}
    (hjob : t.job j = some job) : ((t.itemsOf j).map (fun i => i.remoteId)).Nodup := by
  have hsub : ((t.itemsOf j).map ImportItem.file).Nodup :=
    (uniqueFiles_iff.mp h.unique).sublist (List.filter_sublist.map _)
  refine List.Nodup.of_map
    (fun r => ((job.eventId, job.provider, r) : String × CloudProvider × String)) ?_
  rw [List.map_map]
  refine (List.map_congr_left fun i hi => ?_) ▸ hsub
  obtain ⟨hevent, hprovider, -⟩ := h.belonging i hi job hjob
  simp only [ImportItem.file, Function.comp_apply, hevent, hprovider]

/-- Once every file of the listing is settled, the settled rows are the items
of the job. -/
theorem Tallied.complete (h : Tallied remote fuel j S t es) (hgathered : Gathered j p t)
    (hcomplete : p.Complete (oneRemote remote fuel j)) :
    (p.settled.map (fun i => (i.remoteId, i.status))).Perm
      ((t.itemsOf j).map (fun i => (i.remoteId, i.status))) := by
  obtain ⟨hperm, hall⟩ := hcomplete
  have hgathered' := hgathered
  obtain ⟨hown, ⟨job, hjob, hrequest⟩, -, hsettled⟩ := hgathered
  obtain ⟨files, hfiles, hnodup⟩ := h.once job hjob
  have hnamed : p.named = files := by
    refine hall files ?_
    simp only [oneRemote, hown, if_true]
    rw [listingOf_request hrequest]
    exact hfiles
  rw [hnamed] at hperm
  have hids : (p.settled.map (fun i => i.remoteId)).Nodup := hperm.nodup_iff.mpr hnodup
  have hitems := h.remoteIds_nodup hjob
  have hfst : ∀ rows : List ImportItem, (rows.map (fun i => i.remoteId)).Nodup →
      (rows.map (fun i => (i.remoteId, i.status))).Nodup := by
    intro rows hrows
    refine List.Nodup.of_map Prod.fst ?_
    rw [List.map_map]
    exact hrows
  refine (List.perm_ext_iff_of_nodup (hfst _ hids) (hfst _ hitems)).mpr fun a => ?_
  constructor
  · intro ha
    obtain ⟨r, hr, rfl⟩ := List.mem_map.mp ha
    obtain ⟨i, hi, -, hremote, hstatus⟩ := hsettled r hr
    exact List.mem_map.mpr ⟨i, hi, by rw [hremote, hstatus]⟩
  · intro ha
    obtain ⟨i, hi, rfl⟩ := List.mem_map.mp ha
    have hlisted : i.remoteId ∈ p.settled.map (fun i => i.remoteId) :=
      hperm.symm.subset ((h.belonging i hi job hjob).2.2 files hfiles)
    obtain ⟨r, hr, hri⟩ := List.mem_map.mp hlisted
    obtain ⟨i', hi', -, hremote, hstatus⟩ := hsettled r hr
    have hsame : i' = i := List.inj_on_of_nodup_map hitems hi' hi (hremote.trans hri)
    exact List.mem_map.mpr ⟨r, hr, by rw [← hremote, ← hstatus, hsame]⟩

/-- A complete listing has counted the items of its job. -/
theorem Tallied.told_captured (h : Tallied remote fuel j (.listing k p ::ₘ R) t es)
    (hcomplete : k = j → p.Complete (oneRemote remote fuel j)) :
    (Stage.captured k p ids).Told j t := by
  intro hk
  have hgathered : Gathered j p t := h.told _ (Multiset.mem_cons_self _ R) hk
  have hperm := h.complete hgathered (hcomplete hk)
  constructor
  · have hlength := hperm.length_eq
    rw [List.length_map, List.length_map] at hlength
    exact hlength
  · have hcount := hperm.countP_eq (fun a => decide (a.2 = .skippedDuplicate))
    rw [List.countP_map, List.countP_map] at hcount
    exact hcount

end Listing

/-! Steps of the workers on the items. -/

section Marks

variable {x : ItemId} {status : ImportItemStatus} {dto : ItemChange} {n : Stage}

/-- A worker writes a status into a row of the job. -/
theorem Tallied.markOwn (h : Tallied remote fuel j (s ::ₘ R) t es)
    {i₀ : ImportItem} (hi₀ : i₀ ∈ t.itemsOf j) (hstatus : i₀.status.remaining = true)
    (hworking : s.working i₀.id = 1) (hs : ∀ status, s.settling j status = 0)
    (hmoved : Moved j t) (hn : n.folder j = 0)
    (htold : n.Told j (t.updateItems i₀.id dto.apply))
    (hsettling : ∀ status counter, status.counter = some counter →
      n.settling j status = if dto.status = status then 1 else 0)
    (hsound : Sound j (n ::ₘ R) (t.updateItems i₀.id dto.apply)) :
    Tallied remote fuel j (n ::ₘ R) (t.updateItems i₀.id dto.apply) es := by
  obtain ⟨hi, hij⟩ := mem_itemsOf.mp hi₀
  have hzero : total (Stage.folder j) (s ::ₘ R) = 0 := by
    by_cases hfolder : 1 ≤ total (Stage.folder j) (s ::ₘ R)
    · have hquiet := h.sound.quiet hfolder i₀ hi hij
      rw [total_cons] at hquiet
      omega
    · omega
  rw [total_cons] at hzero
  have hnot : ¬ Vacant j t := fun hvacant => by
    rw [hvacant i₀ hi₀] at hstatus
    cases hstatus
  have hitems : (t.updateItems i₀.id dto.apply).itemsOf j =
      updateRow ImportItem.id i₀.id dto.apply (t.itemsOf j) := itemsOf_updateItems fun _ => rfl
  have hids : ((t.itemsOf j).map ImportItem.id).Nodup :=
    h.sound.wf.ids.sublist (List.filter_sublist.map _)
  have hrow : ∀ y, (∃ i ∈ t.itemsOf j, i.id = y) ↔
      ∃ i ∈ (t.updateItems i₀.id dto.apply).itemsOf j, i.id = y := by
    intro y
    have hsame : ((t.updateItems i₀.id dto.apply).itemsOf j).map ImportItem.id =
        (t.itemsOf j).map ImportItem.id := by
      rw [hitems]
      exact map_updateRow fun _ => rfl
    rw [← List.mem_map, ← List.mem_map, hsame]
  refine
    { sound := hsound
      once := h.once
      unique := unique_updateItems (fun _ => rfl) h.unique
      belonging := ?_
      told := ?_
      late := fun _ => ?_
      ended := fun _ => hmoved
      untouched := fun hone => ?_
      vacant := fun hdone => absurd (h.vacant hdone) hnot
      balanced := ?_ }
  · intro i hi' job hjob
    rw [hitems] at hi'
    rcases mem_updateRow.mp hi' with ⟨i₁, hi₁, -, rfl⟩ | ⟨hi₁, -⟩
    · exact h.belonging i₁ hi₁ job hjob
    · exact h.belonging i hi₁ job hjob
  · intro m hm
    rcases Multiset.mem_cons.mp hm with rfl | hm
    · exact htold
    · have hle := le_total (f := Stage.folder j) hm
      have hold := h.told m (Multiset.mem_cons_of_mem hm)
      cases m with
      | listing k p | captured k p ids | promised k ids =>
        intro hk
        simp only [Stage.folder, if_pos hk] at hle
        omega
      | listed k => exact hold
      | starting y | chosen y k | admitted y k | downloading y k | backed y => exact fun _ => hmoved
      | finished y k final | counted y k => exact fun hk => ⟨hmoved, (hrow y).mp (hold hk).2⟩
      | emptied y k | closing y k => exact fun hk => absurd (hold hk).2 hnot
      | _ => trivial
  · rw [total_cons, hn]
    omega
  · rw [total_cons, hn] at hone
    omega
  · intro _ job hjob
    obtain ⟨htotal, hcounts⟩ := h.balanced hmoved job hjob
    refine ⟨?_, fun status counter hcounter => ?_⟩
    · rw [htotal, hitems, updateRow, List.length_map]
    · have hold := hcounts status counter hcounter
      have hnew := countP_updateRow (f := dto.apply) hids hi₀ (fun i => decide (i.status = status))
      have hother : i₀.status ≠ status := by
        intro hsame
        rw [hsame] at hstatus
        cases status with
        | pending | downloading => cases hcounter
        | done | skippedDuplicate | failed => cases hstatus
      rw [total_cons, hs] at hold
      rw [total_cons, hsettling status counter hcounter, Tables.countOf, hitems]
      change (_ : ℕ) = _ at hold
      simp only [hother, decide_false, Bool.false_eq_true, if_false, Tables.countOf] at hnew hold ⊢
      have happly : (dto.apply i₀).status = dto.status := rfl
      rw [happly] at hnew
      simp only [decide_eq_true_eq] at hnew
      omega

/-- A worker writes a status into the row it has claimed. -/
theorem Tallied.mark (h : Tallied remote fuel j (s ::ₘ R) t es)
    (hclaim : s.claims = [⟨x, k, status⟩]) (hstatus : status.remaining = true)
    (hworking : s.working x = 1) (hs : ∀ status, s.settling j status = 0)
    (hpost : s.Told j t → (∃ i ∈ t.itemsOf j, i.id = x) → Moved j t)
    (hfolder : n.folder j = 0)
    (hmine : k = j → (Moved j t ∧ ∃ i ∈ (t.updateItems x dto.apply).itemsOf j, i.id = x) →
      n.Told j (t.updateItems x dto.apply))
    (hother : k ≠ j → (∀ i ∈ t.itemsOf j, i.id ≠ x) → n.Told j t ∧ n.late j = 0)
    (hsettling : ∀ status counter, k = j → status.counter = some counter →
      n.settling j status = if dto.status = status then 1 else 0)
    (hsettling' : ∀ status, k ≠ j → n.settling j status = 0)
    (hsound : Sound j (n ::ₘ R) (t.updateItems x dto.apply)) :
    Tallied remote fuel j (n ::ₘ R) (t.updateItems x dto.apply) es := by
  have hself : (⟨x, k, status⟩ : Claim) ∈ s.claims := by
    rw [hclaim]
    exact List.mem_singleton_self _
  have hclaims := h.sound.claims s (Multiset.mem_cons_self s R) _ hself
  by_cases hown : ∃ i ∈ t.itemsOf j, i.id = x
  · obtain ⟨i₀, hi₀, rfl⟩ := hown
    obtain ⟨hi, hij⟩ := mem_itemsOf.mp hi₀
    obtain ⟨hik, hist⟩ := hclaims i₀ hi rfl (.inr hij)
    have hkj : k = j := hik.symm.trans hij
    have hmoved := hpost (h.told s (Multiset.mem_cons_self s R)) ⟨i₀, hi₀, rfl⟩
    have hafter : dto.apply i₀ ∈ (t.updateItems i₀.id dto.apply).itemsOf j :=
      mem_itemsOf.mpr ⟨mem_updateRow.mpr (.inl ⟨i₀, hi, rfl, rfl⟩), hij⟩
    exact h.markOwn hi₀ (by rw [hist]; exact hstatus) hworking hs hmoved hfolder
      (hmine hkj ⟨hmoved, dto.apply i₀, hafter, rfl⟩)
      (fun status counter => hsettling status counter hkj) hsound
  · have hnone : ∀ i ∈ t.itemsOf j, i.id ≠ x := fun i hi hix => hown ⟨i, hi, hix⟩
    have hout : ∀ i ∈ t.items, i.id = x → i.importJobId ≠ j := fun i hi hix hij =>
      hnone i (mem_itemsOf.mpr ⟨hi, hij⟩) hix
    have hkj : k ≠ j := by
      intro hkj
      obtain ⟨i, hi, hix⟩ := h.sound.rows x (by rw [total_cons, Stage.held, hworking]; omega)
      exact hout i hi hix ((hclaims i hi hix (.inl hkj)).1.trans hkj)
    obtain ⟨htold, hlate⟩ := hother hkj hnone
    rw [← Multiset.singleton_add] at hsound ⊢
    refine h.steer (same_updateItems (fun _ => rfl) (fun _ => rfl) hout hout) hsound ?_ ?_ ?_ ?_
    · intro m hm
      rw [Multiset.mem_singleton.mp hm]
      exact htold
    · rw [total_singleton, hfolder]
      exact Nat.zero_le _
    · left
      rw [total_singleton, hlate]
      exact Nat.zero_le _
    · intro status
      rw [total_singleton, hsettling' status hkj, hs]

end Marks

/-! Every step. -/

/-- The job has its items to itself: it takes over only items that no work
carries, and no other job takes over one of its own. -/
def Reserved (j : JobId) (S : Multiset Stage) (t : Tables) (k : JobId) (x : ItemId) : Prop :=
  (k = j → total (Stage.held x) S = 0) ∧ (k ≠ j → ∀ i ∈ t.items, i.id = x → i.importJobId ≠ j)

theorem Reserved.free {x : ItemId} (h : Reserved j S t k x)
    (hcase : k = j ∨ ∃ i ∈ t.items, i.id = x ∧ i.importJobId = j) :
    total (Stage.held x) S = 0 := by
  by_cases hkj : k = j
  · exact h.1 hkj
  · obtain ⟨i, hi, hix, hij⟩ := hcase.resolve_left hkj
    exact absurd hij (h.2 hkj i hi hix)

/-- The request of a job is never changed. -/
theorem Deed.request {V : Remote} {Q : JobId → ItemId → Prop} {K : JobId → Prop}
    (h : Deed V Q K s t ns t') {job : ImportJob} (hjob : t.job j = some job) :
    ∃ job', t'.job j = some job' ∧ job.request = job'.request := by
  have hupdate : ∀ (k : JobId) (f : ImportJob → ImportJob), (∀ job, (f job).id = job.id) →
      (∀ job, (f job).request = job.request) →
      ∃ job', (t.updateJobs k f).job j = some job' ∧ job.request = job'.request := by
    intro k f hid hrequest
    rw [job_updateJobs hid, hjob]
    by_cases hk : j = k
    · exact ⟨f job, congrArg some (if_pos hk), (hrequest job).symm⟩
    · exact ⟨job, congrArg some (if_neg hk), rfl⟩
  cases h with
  | fail k _ _ dto | breakOff k _ _ dto | conclude k _ _ dto | fanOut k _ _ _ dto
  | close _ k _ dto | cancel k _ dto => exact hupdate k dto.apply (fun _ => rfl) (fun _ => rfl)
  | count _ k _ _ counter =>
    exact hupdate k (ImportJob.bump counter) (bump_id counter) fun job => by cases counter <;> rfl
  | order _ job' => exact ⟨job, by rw [job_addJob, hjob]; rfl, rfl⟩
  | _ => exact ⟨job, hjob, rfl⟩

theorem ListedOnce.before {V : Remote} {Q : JobId → ItemId → Prop} {K : JobId → Prop}
    (h : ListedOnce remote fuel j t') (hdeed : Deed V Q K s t ns t') :
    ListedOnce remote fuel j t := by
  intro job hjob
  obtain ⟨job', hjob', hrequest⟩ := hdeed.request hjob
  obtain ⟨files, hfiles, hnodup⟩ := h job' hjob'
  exact ⟨files, (listingOf_request hrequest).trans hfiles, hnodup⟩

/-- The stage becomes one stage, and the job is left alone. -/
theorem Tallied.become {n : Stage} (h : Tallied remote fuel j (s ::ₘ R) t es)
    (hsame : SameFor j t t') (hsound : Sound j ({n} + R) t') (htold : n.Told j t)
    (hfolder : n.folder j ≤ s.folder j) (hlate : n.late j ≤ s.late j)
    (hsettling : ∀ status, n.settling j status = s.settling j status) :
    Tallied remote fuel j ({n} + R) t' es := by
  refine h.steer hsame hsound ?_ ?_ (.inl ?_) ?_
  · intro m hm
    rw [Multiset.mem_singleton.mp hm]
    exact htold
  · rwa [total_singleton]
  · rwa [total_singleton]
  · intro status
    rw [total_singleton, hsettling]

/-- The captured items go to the queue. -/
theorem Tallied.hand {ids : List ItemId} (h : Tallied remote fuel j (.promised k ids ::ₘ R) t es)
    (hsound : Sound j ((.listed k ::ₘ (ids.map Stage.starting : List Stage)) + R) t) :
    Tallied remote fuel j ((.listed k ::ₘ (ids.map Stage.starting : List Stage)) + R) t es := by
  have htold : k = j → Moved j t := h.told _ (Multiset.mem_cons_self _ R)
  have hzero : ∀ f : Stage → ℕ, (∀ x, f (.starting x) = 0) →
      total f (.listed k ::ₘ (ids.map Stage.starting : List Stage)) = f (.listed k) := by
    intro f hf
    rw [total_cons, total_starting_zero hf, Nat.add_zero]
  refine h.steer (same_refl j t) hsound ?_ ?_ ?_ ?_
  · intro n hn
    rcases Multiset.mem_cons.mp hn with rfl | hn
    · exact htold
    · obtain ⟨x, hx, rfl⟩ := List.mem_map.mp (Multiset.mem_coe.mp hn)
      rintro ⟨i, hi, rfl⟩
      obtain ⟨hi, hij⟩ := mem_itemsOf.mp hi
      have hrow := h.sound.claims _ (Multiset.mem_cons_self _ R) ⟨i.id, k, .pending⟩
        (List.mem_map.mpr ⟨i.id, hx, rfl⟩) i hi rfl (.inr hij)
      exact htold (hrow.1.symm.trans hij)
  · rw [hzero (Stage.folder j) (fun _ => rfl)]
    exact Nat.zero_le _
  · by_cases hk : k = j
    · right
      have hone := h.sound.one
      rw [total_cons, Stage.folder, if_pos hk] at hone
      rw [total_add, hzero (Stage.folder j) (fun _ => rfl), Stage.folder]
      · omega
      all_goals intros; contradiction
    · left
      rw [hzero (Stage.late j) (fun _ => rfl), Stage.late, if_neg hk]
      exact Nat.zero_le _
  · intro status
    rw [hzero (Stage.settling j status) (fun _ => rfl)]
    rfl

theorem Tallied.deed (h : Tallied remote fuel j (s ::ₘ R) t es)
    (hdeed : Deed (oneRemote remote fuel j) (Reserved j (s ::ₘ R) t) (fun k => k ≠ j) s t ns t')
    (honce : ListedOnce remote fuel j t') : Tallied remote fuel j (ns + R) t' es := by
  have hsound := h.sound.deed hdeed fun _ _ hreserved => hreserved.free
  have htold := h.told s (Multiset.mem_cons_self s R)
  cases hdeed with
  | stay =>
    exact h.become (same_refl j t) hsound htold (Nat.le_refl _) (Nat.le_refl _) (fun _ => rfl)
  | open_ k _ job hjob =>
    refine h.become (same_refl j t) hsound ?_ (Nat.le_refl _) (Nat.le_refl _) (fun _ => rfl)
    rintro rfl
    exact ⟨(mem_of_findRow hjob).2, ⟨job, hjob, rfl⟩, fun r hr => absurd hr List.not_mem_nil,
      fun r hr => absurd hr List.not_mem_nil⟩
  | page k p _ files =>
    refine h.become (same_refl j t) hsound ?_ (Nat.le_refl _) (Nat.le_refl _) (fun _ => rfl)
    intro hk
    exact ⟨(htold hk).own, (htold hk).job, (htold hk).known, (htold hk).settled⟩
  | look k p _ rows hrows =>
    refine h.become (same_refl j t) hsound ?_ (Nat.le_refl _) (Nat.le_refl _) (fun _ => rfl)
    intro hk
    refine ⟨(htold hk).own, (htold hk).job, fun r hr => ?_, (htold hk).settled⟩
    obtain ⟨hmem, hevent, hprovider⟩ := hrows r hr
    exact ⟨⟨r, hmem, rfl, rfl⟩, hevent, hprovider⟩
  | repoint k p _ x dto hstatus hwithin hmay hQ =>
    by_cases hk : k = j
    · subst hk
      rw [Multiset.singleton_add] at hsound ⊢
      exact h.repoint hstatus hwithin hmay (hQ.1 rfl) hsound
    · refine h.become (same_updateItems (apply_id dto k) (file_apply dto k) (hQ.2 hk) ?_) hsound
        (fun hkj => absurd hkj hk) (Nat.le_refl _) (Nat.le_refl _) (fun _ => rfl)
      intro i _ _
      rwa [apply_job]
  | insert k p _ rows hwithin hrows hunique =>
    by_cases hk : k = j
    · subst hk
      rw [Multiset.singleton_add] at hsound ⊢
      exact h.insert hwithin hrows hunique hsound
    · exact h.become (same_addItems (fun n hn hj => hk ((hrows n hn).1.symm.trans hj)) hunique)
        hsound (fun hkj => absurd hkj hk) (Nat.le_refl _) (Nat.le_refl _) (fun _ => rfl)
  | capture k p _ ids hcomplete =>
    exact h.become (same_refl j t) hsound (h.told_captured fun _ => hcomplete) (Nat.le_refl _)
      (Nat.le_refl _) (fun _ => rfl)
  | fail k p _ dto hstatus =>
    by_cases hk : k = j
    · subst hk
      exact h.broke (if_pos rfl) hstatus hsound
    · exact h.become (same_updateJobs (f := dto.apply) (fun _ => rfl) hk) hsound trivial
        (Nat.le_refl _) (Nat.le_refl _) (fun _ => rfl)
  | breakOff k ids _ dto hstatus =>
    by_cases hk : k = j
    · subst hk
      exact h.broke (if_pos rfl) hstatus hsound
    · exact h.become (same_updateJobs (f := dto.apply) (fun _ => rfl) hk) hsound trivial
        (Nat.le_refl _) (Nat.le_refl _) (fun _ => rfl)
  | conclude k p _ dto hstatus htotals =>
    by_cases hk : k = j
    · subst hk
      exact h.moveOn htotals (.inl ⟨rfl, hstatus, rfl⟩) hsound
    · exact h.become (same_updateJobs (f := dto.apply) (fun _ => rfl) hk) hsound
        (fun hkj => absurd hkj hk) (Nat.zero_le _) (Nat.le_of_eq (if_neg hk)) (fun _ => rfl)
  | fanOut k p ids _ dto _ hstatus htotals =>
    by_cases hk : k = j
    · subst hk
      exact h.moveOn htotals (.inr ⟨rfl, hstatus⟩) hsound
    · exact h.become (same_updateJobs (f := dto.apply) (fun _ => rfl) hk) hsound
        (fun hkj => absurd hkj hk) (Nat.le_refl _) (Nat.le_refl _) (fun _ => rfl)
  | hand k ids => exact h.hand hsound
  | choose | agree | requeue =>
    exact h.become (same_refl j t) hsound htold (Nat.le_refl _) (Nat.le_refl _) (fun _ => rfl)
  | skip | pass | refuse | more | ignore =>
    exact h.become (same_refl j t) hsound trivial (Nat.zero_le _) (Nat.zero_le _) (fun _ => rfl)
  | download x k _ dto hstatus =>
    refine h.mark rfl rfl (if_pos rfl) (fun _ => rfl) id rfl (fun _ hown _ => hown.1)
      (fun _ hnone => ⟨fun hx => ?_, rfl⟩) ?_ (fun _ _ => rfl) hsound
    · obtain ⟨i, hi, hix⟩ := hx
      exact absurd hix (hnone i hi)
    · intro status counter _ hcounter
      rw [hstatus, if_neg (by rintro rfl; cases hcounter)]
      rfl
  | putBack x k _ dto hstatus =>
    refine h.mark rfl rfl (if_pos rfl) (fun _ => rfl) id rfl (fun _ hown _ => hown.1)
      (fun _ hnone => ⟨fun hx => ?_, rfl⟩) ?_ (fun _ _ => rfl) hsound
    · obtain ⟨i, hi, hix⟩ := hx
      exact absurd hix (hnone i hi)
    · intro status counter _ hcounter
      rw [hstatus, if_neg (by rintro rfl; cases hcounter)]
      rfl
  | finish x k _ dto hstatus =>
    refine h.mark rfl rfl (if_pos rfl) (fun _ => rfl) id rfl (fun _ hown _ => hown)
      (fun hk _ => ⟨fun hkj => absurd hkj hk, if_neg hk⟩) ?_ ?_ hsound
    · intro status counter hk _
      simp only [Stage.settling, hk, true_and]
    · intro status hk
      exact if_neg fun hboth => hk hboth.1
  | count x k final _ counter hcounter =>
    by_cases hk : k = j
    · subst hk
      exact h.count hcounter hsound
    · exact h.become (same_updateJobs (bump_id counter) hk) hsound (fun hkj => absurd hkj hk)
        (Nat.zero_le _) (Nat.le_refl _) (fun _ => (if_neg fun hboth => hk hboth.1).symm)
  | empty x k _ hnone =>
    refine h.become (same_refl j t) hsound (fun hk => ⟨htold hk, ?_⟩) (Nat.le_refl _)
      (Nat.le_refl _) (fun _ => rfl)
    intro i hi
    obtain ⟨hi, hij⟩ := mem_itemsOf.mp hi
    exact hnone i hi (hij.trans hk.symm)
  | confirm =>
    exact h.become (same_refl j t) hsound htold (Nat.le_refl _) (Nat.le_refl _) (fun _ => rfl)
  | close x k _ dto hstatus htotals =>
    by_cases hk : k = j
    · subst hk
      exact h.close hstatus htotals hsound
    · exact h.become (same_updateJobs (f := dto.apply) (fun _ => rfl) hk) hsound trivial
        (Nat.zero_le _) (Nat.zero_le _) (fun _ => rfl)
  | order _ job =>
    by_cases hk : t.nextJobId = j
    · subst hk
      exact h.order job honce hsound
    · exact h.become (same_addJob job hk) hsound trivial (Nat.le_of_eq (if_neg hk))
        (Nat.le_refl _) (fun _ => rfl)
  | enqueue k =>
    refine h.steer (same_refl j t) hsound ?_ ?_ (.inl ?_) ?_
    · intro n hn
      rcases Multiset.mem_cons.mp hn with rfl | hn
      · trivial
      · rw [Multiset.mem_singleton.mp hn]
        trivial
    · simp [Stage.folder]
    · simp [Stage.late]
    · simp [Stage.settling]
  | cancel k _ dto _ _ hk =>
    exact h.become (same_updateJobs (f := dto.apply) (fun _ => rfl) hk) hsound trivial
      (Nat.le_refl _) (Nat.le_refl _) (fun _ => rfl)
  | retry | retryBroken =>
    exact h.become (same_refl j t) hsound trivial (Nat.le_refl _) (Nat.le_refl _) (fun _ => rfl)

end Same

end EventLens.Import

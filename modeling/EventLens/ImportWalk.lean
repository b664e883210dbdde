import EventLens.ImportOverlap
import EventLens.ImportTally
import EventLens.Worklists

/-!
The listing of a folder and of all that lies below it, in one run with nothing
failing from outside. The folders still to be listed are a worklist without a
record of what was listed. A run comes to an end, lists each folder once and
counts each file once exactly when no folder and no file is named twice.
-/

namespace EventLens.Import

open Programs Worklists

/-! What a provider holds. -/

/-- The pages of a folder, from one token on. -/
inductive PagesFrom (listing : String → Option String → RemoteListingPage) (folderId : String) :
    Option String → List RemoteListingPage → Prop
  | last {token : Option String} (h : truthyToken (listing folderId token).nextPageToken = none) :
      PagesFrom listing folderId token [listing folderId token]
  | more {token : Option String} {t : String} {pages : List RemoteListingPage}
      (h : truthyToken (listing folderId token).nextPageToken = some t)
      (rest : PagesFrom listing folderId (some t) pages) :
      PagesFrom listing folderId token (listing folderId token :: pages)

/-- Finitely many folders, each with finitely many pages. -/
structure Drive where
  listing : String → Option String → RemoteListingPage
  folders : List String
  pages : String → List RemoteListingPage
  paged : ∀ f ∈ folders, PagesFrom listing f none (pages f)
  closed : ∀ f ∈ folders, ∀ page ∈ pages f, ∀ g ∈ page.subfolderIds, g ∈ folders

def Drive.subfolders (d : Drive) (f : String) : List String :=
  (d.pages f).flatMap RemoteListingPage.subfolderIds

/-- The photos and videos of a folder. -/
def Drive.mediaIds (d : Drive) (f : String) : List String :=
  ((d.pages f).flatMap mediaOf).map RemoteFile.id

theorem Drive.later_folders (d : Drive) {g : String} {later : List String}
    (h : ∀ x ∈ g :: later, x ∈ d.folders) :
    ∀ x ∈ later ++ d.subfolders g, x ∈ d.folders := by
  intro x hx
  rcases List.mem_append.mp hx with hx | hx
  · exact h x (List.mem_cons_of_mem _ hx)
  · obtain ⟨page, hpage, hmem⟩ := List.mem_flatMap.mp hx
    exact d.closed g (h g List.mem_cons_self) page hpage x hmem

/-- The provider and the job store answer, the provider as the drive says. -/
def Served (d : Drive) (e : ImportEvent) : Prop :=
  match e with
  | ⟨.requireAccount _ _, r⟩ => ∃ account, r = .ok account
  | ⟨.getFreshAccessToken _, r⟩ => ∃ token, r = .ok token
  | ⟨.listFilesPage _ folderId pageToken, r⟩ => r = .ok (d.listing folderId pageToken)
  | ⟨.queueImportFiles _, r⟩ => r = .ok ()
  | _ => True

/-- The folder whose listing an operation begins. -/
def ImportOp.opens : ImportOp → Option String
  | .listFilesPage _ folderId none => some folderId
  | _ => none

def opened (trace : List ImportEvent) : List String := trace.filterMap fun e => e.1.opens

theorem opened_append (first rest : List ImportEvent) :
    opened (first ++ rest) = opened first ++ opened rest :=
  List.filterMap_append

/-! One page. -/

section Page

variable {job : ImportJob} {existing : List ImportItem} {files : List RemoteFile}
  {w w' : ImportWorld}
  {trace : List ImportEvent} {t t₀ : Tables} {ids : List String} {file : RemoteFile}

/-- What the pass over a page makes of the tables, one file after the other. -/
def repointed (job : ImportJob) (existing : List ImportItem) (t : Tables) (file : RemoteFile) :
    Tables :=
  match byRemoteId existing file.id with
  | none => t
  | some known =>
    t.updateItems known.id ((if unchanged known file then { status := .skippedDuplicate }
      else { status := .pending, file := some file } : Repoint).apply job.id)

/-- The files of a page that have no item yet. -/
def unknown (existing : List ImportItem) (files : List RemoteFile) : List RemoteFile :=
  files.filter fun file => (byRemoteId existing file.id).isNone

theorem classify_exec {toInsert : List NewItem} {skipped : ℕ} {result : List NewItem × ℕ}
    (h : Exec importHandler (classify job existing files toInsert skipped) w trace result w') :
    result.1 = toInsert ++ (unknown existing files).map (newItem job) ∧
      w' = { w with toTables := files.foldl (repointed job existing) w.toTables } ∧
      opened trace = [] := by
  induction files generalizing toInsert skipped w trace with
  | nil =>
    obtain ⟨rfl, rfl, rfl⟩ := exec_done.mp h
    exact ⟨(List.append_nil _).symm, rfl, rfl⟩
  | cons file files ih =>
    rw [classify] at h
    rw [List.foldl_cons]
    cases hknown : byRemoteId existing file.id with
    | none =>
      rw [hknown] at h
      obtain ⟨hinsert, hw, hopened⟩ := ih h
      refine ⟨?_, ?_, hopened⟩
      · rw [hinsert]
        simp [unknown, hknown]
      · simpa only [repointed, hknown] using hw
    | some known =>
      rw [hknown] at h
      have hunknown : unknown existing (file :: files) = unknown existing files := by
        simp [unknown, hknown]
      simp only at h
      split at h
      · rename_i hsame
        obtain ⟨_, rest, rfl, hrest⟩ := exec_step.mp h
        obtain ⟨hinsert, hw, hopened⟩ := ih hrest
        refine ⟨hunknown ▸ hinsert, ?_, hopened⟩
        simp only [repointed, hknown, hsame, ↓reduceIte]
        exact hw
      · rename_i hchanged
        obtain ⟨_, rest, rfl, hrest⟩ := exec_step.mp h
        obtain ⟨hinsert, hw, hopened⟩ := ih hrest
        refine ⟨hunknown ▸ hinsert, ?_, hopened⟩
        simp only [repointed, hknown, hchanged, Bool.false_eq_true, ↓reduceIte]
        exact hw

/-- The files have items, all of this job, and no other item has changed. -/
structure Covers (job : ImportJob) (t₀ : Tables) (ids : List String) (t : Tables) : Prop where
  sound : t.WellFormed
  unique : uniqueFiles t.items
  jobs : t.jobs = t₀.jobs
  here : ∀ x ∈ ids, ∃ i ∈ t.items, i.file = (job.eventId, job.provider, x) ∧ i.importJobId = job.id
  others : ∀ i : ImportItem, (∀ x ∈ ids, i.file ≠ (job.eventId, job.provider, x)) →
    (i ∈ t.items ↔ i ∈ t₀.items)

/-- The rows read at the start of a page are in the tables, perhaps changed. -/
def Known (job : ImportJob) (existing : List ImportItem) (t : Tables) : Prop :=
  ∀ known ∈ existing, known.eventId = job.eventId ∧ known.provider = job.provider ∧
    ∃ i ∈ t.items, i.id = known.id ∧ i.file = known.file

theorem byRemoteId_eq_some {x : String} {known : ImportItem}
    (h : byRemoteId existing x = some known) :
    known ∈ existing ∧ known.remoteId = x :=
  ⟨List.mem_reverse.mp (List.mem_of_find?_eq_some h), by simpa using List.find?_some h⟩

theorem byRemoteId_eq_none {x : String} (h : byRemoteId existing x = none) :
    ∀ i ∈ existing, i.remoteId ≠ x := by
  intro i hi
  simpa using List.find?_eq_none.mp h i (List.mem_reverse.mpr hi)

/-- An item that is re-pointed at the job. -/
theorem Covers.repoint (h : Covers job t₀ ids t) (hjob : t.job job.id ≠ none) {i : ImportItem}
    (hi : i ∈ t.items) {x : String} (hfile : i.file = (job.eventId, job.provider, x))
    (dto : Repoint) :
    Covers job t₀ (ids ++ [x]) (t.updateItems i.id (dto.apply job.id)) where
  sound := by
    refine h.sound.updateItems (apply_id dto job.id) fun r _ => ?_
    rw [apply_job]
    exact hjob
  unique := unique_updateItems (file_apply dto job.id) h.unique
  jobs := h.jobs
  here := by
    intro y hy
    have hrow : ∃ r ∈ t.items, r.file = (job.eventId, job.provider, y) ∧
      (r.importJobId = job.id ∨ r.id = i.id) := by
      rcases List.mem_append.mp hy with hy | hy
      · obtain ⟨r, hr, hfacts, hown⟩ := h.here y hy
        exact ⟨r, hr, hfacts, .inl hown⟩
      · exact ⟨i, hi, List.mem_singleton.mp hy ▸ hfile, .inr rfl⟩
    obtain ⟨r, hr, hrfile, hown⟩ := hrow
    by_cases hid : r.id = i.id
    · refine ⟨dto.apply job.id r, mem_updateRow.mpr (.inl ⟨r, hr, hid, rfl⟩), ?_,
        apply_job dto job.id r⟩
      rw [file_apply]
      exact hrfile
    · exact ⟨r, mem_updateRow.mpr (.inr ⟨hr, hid⟩), hrfile, hown.resolve_right hid⟩
  others := by
    intro r hr
    have hx : r.file ≠ i.file := hfile ▸ hr x (List.mem_append_right _ (List.mem_singleton_self x))
    rw [← h.others r fun y hy => hr y (List.mem_append_left _ hy)]
    constructor
    · intro hmem
      rcases mem_updateRow.mp hmem with ⟨r', hr', hid, rfl⟩ | ⟨hmem, -⟩
      · rw [file_apply] at hx
        exact absurd (congrArg ImportItem.file (row_unique h.sound.ids hr' hi hid)) hx
      · exact hmem
    · intro hmem
      exact mem_updateRow.mpr (.inr ⟨hmem, fun hid =>
        hx (congrArg ImportItem.file (row_unique h.sound.ids hmem hi hid))⟩)

theorem Known.repoint (h : Known job existing t) (k : ItemId) (dto : Repoint) :
    Known job existing (t.updateItems k (dto.apply job.id)) := by
  intro known hknown
  obtain ⟨hevent, hprovider, i, hi, hid, hfile⟩ := h known hknown
  refine ⟨hevent, hprovider, ?_⟩
  by_cases hk : i.id = k
  · exact ⟨_, mem_updateRow.mpr (.inl ⟨i, hi, hk, rfl⟩), (apply_id dto job.id i).trans hid,
      (file_apply dto job.id i).trans hfile⟩
  · exact ⟨i, mem_updateRow.mpr (.inr ⟨hi, hk⟩), hid, hfile⟩

variable (files) in
/-- The pass over a page re-points the items of the files that have one. -/
theorem Covers.pass (h : Covers job t₀ ids t) (hknown : Known job existing t)
    (hjob : t.job job.id ≠ none) :
    ∃ seen, (∀ x, x ∈ seen ↔ x ∈ ids ∨ ∃ file ∈ files, file.id = x ∧
    (byRemoteId existing x).isSome = true) ∧
      Covers job t₀ seen (files.foldl (repointed job existing) t) ∧
      (files.foldl (repointed job existing) t).items.map ImportItem.file =
      t.items.map ImportItem.file ∧
      (files.foldl (repointed job existing) t).job job.id ≠ none := by
  induction files generalizing t ids with
  | nil => exact ⟨ids, by simp, h, rfl, hjob⟩
  | cons file files ih =>
    rw [List.foldl_cons]
    cases hfind : byRemoteId existing file.id with
    | none =>
      have hsame : repointed job existing t file = t := by rw [repointed, hfind]
      rw [hsame]
      obtain ⟨seen, hseen, hrest⟩ := ih h hknown hjob
      refine ⟨seen, fun x => ?_, hrest⟩
      rw [hseen x]
      refine or_congr_right ⟨fun ⟨f, hf, hx⟩ => ⟨f, List.mem_cons_of_mem _ hf, hx⟩, ?_⟩
      rintro ⟨f, hf, rfl, hsome⟩
      rcases List.mem_cons.mp hf with rfl | hf
      · rw [hfind] at hsome
        cases hsome
      · exact ⟨f, hf, rfl, hsome⟩
    | some known =>
      obtain ⟨hmem, hremote⟩ := byRemoteId_eq_some hfind
      obtain ⟨hevent, hprovider, i, hi, hid, hfile⟩ := hknown known hmem
      have hkey : i.file = (job.eventId, job.provider, file.id) := by
        rw [hfile, ImportItem.file, hevent, hprovider, hremote]
      have hstep : ∃ dto : Repoint,
          repointed job existing t file = t.updateItems i.id (dto.apply job.id) := by
        refine ⟨if unchanged known file then { status := .skippedDuplicate }
          else { status := .pending, file := some file }, ?_⟩
        rw [repointed, hfind, hid]
      obtain ⟨dto, hdto⟩ := hstep
      rw [hdto]
      obtain ⟨seen, hseen, hcovers, hitems, hjob'⟩ :=
        ih (h.repoint hjob hi hkey dto) (hknown.repoint i.id dto) hjob
      refine ⟨seen, fun x => ?_, hcovers,
        hitems.trans (files_updateItems (file_apply dto job.id)), hjob'⟩
      rw [hseen x, List.mem_append, List.mem_singleton, or_assoc]
      refine or_congr_right ⟨?_, ?_⟩
      · rintro (rfl | ⟨f, hf, hx⟩)
        · exact ⟨file, List.mem_cons_self, rfl, by rw [hfind]; rfl⟩
        · exact ⟨f, List.mem_cons_of_mem _ hf, hx⟩
      · rintro ⟨f, hf, rfl, hsome⟩
        rcases List.mem_cons.mp hf with rfl | hf
        · exact .inl rfl
        · exact .inr ⟨f, hf, rfl, hsome⟩

theorem freshRows_map {γ : Type} {g : ImportItem → γ} {g' : NewItem → γ}
    (hg : ∀ n k, g (n.row k) = g' n)
    (rows : List NewItem) (k : ItemId) : (freshRows k rows).map g = rows.map g' := by
  induction rows generalizing k with
  | nil => rfl
  | cons n rows ih => rw [freshRows, List.map_cons, List.map_cons, hg, ih]

/-- The rows of new files, in order. -/
theorem newRows_files (k : ItemId) : (freshRows k (files.map (newItem job))).map ImportItem.file =
    files.map fun file => (job.eventId, job.provider, file.id) := by
  have hg : ∀ (n : NewItem) k, (n.row k).file = (n.eventId, n.provider, n.remoteId) :=
    fun _ _ => rfl
  rw [freshRows_map hg, List.map_map]
  rfl

theorem mem_newRows {k : ItemId} {i : ImportItem} (hi : i ∈ freshRows k (files.map (newItem job))) :
    ∃ file ∈ files, i.file = (job.eventId, job.provider, file.id) := by
  have hfile := List.mem_map_of_mem (f := ImportItem.file) hi
  rw [newRows_files] at hfile
  obtain ⟨file, hf, heq⟩ := List.mem_map.mp hfile
  exact ⟨file, hf, heq.symm⟩

variable (job) in
theorem exists_newRow (k : ItemId) (hf : file ∈ files) :
    ∃ i ∈ freshRows k (files.map (newItem job)),
    i.file = (job.eventId, job.provider, file.id) ∧ i.importJobId = job.id := by
  have hg : ∀ (n : NewItem) k, ((n.row k).file, (n.row k).importJobId) =
      ((n.eventId, n.provider, n.remoteId), n.importJobId) := fun _ _ => rfl
  have hrows := freshRows_map (g := fun i => (i.file, i.importJobId)) hg (files.map (newItem job)) k
  have hmem : ((job.eventId, job.provider, file.id), job.id) ∈
      (freshRows k (files.map (newItem job))).map fun i => (i.file, i.importJobId) := by
    rw [hrows, List.map_map]
    exact List.mem_map.mpr ⟨file, hf, rfl⟩
  obtain ⟨i, hi, heq⟩ := List.mem_map.mp hmem
  exact ⟨i, hi, congrArg Prod.fst heq, congrArg Prod.snd heq⟩

/-- Files that have no item, each named once, keep the key. -/
theorem unique_addItems (hunique : uniqueFiles t.items) (hids : (files.map RemoteFile.id).Nodup)
    (hnew : ∀ file ∈ files, ∀ i ∈ t.items, i.file ≠ (job.eventId, job.provider, file.id)) :
    uniqueFiles (t.items ++ freshRows t.nextItemId (files.map (newItem job))) := by
  rw [uniqueFiles_iff, List.map_append, newRows_files, List.nodup_append]
  refine ⟨uniqueFiles_iff.mp hunique, ?_, ?_⟩
  · have hkeys := hids.map (f := fun x => (job.eventId, job.provider, x)) fun x y hxy =>
      congrArg (fun k => k.2.2) hxy
    rwa [List.map_map] at hkeys
  · intro k hk k' hk' heq
    obtain ⟨i, hi, rfl⟩ := List.mem_map.mp hk
    obtain ⟨file, hf, rfl⟩ := List.mem_map.mp hk'
    exact hnew file hf i hi heq

theorem Covers.insert (h : Covers job t₀ ids t) (hjob : t.job job.id ≠ none)
    (hunique : uniqueFiles (t.items ++ freshRows t.nextItemId (files.map (newItem job)))) :
    Covers job t₀ (ids ++ files.map RemoteFile.id) (t.addItems (files.map (newItem job))) where
  sound := by
    refine h.sound.addItems fun n hn => ?_
    obtain ⟨file, -, rfl⟩ := List.mem_map.mp hn
    exact hjob
  unique := hunique
  jobs := h.jobs
  here := by
    intro x hx
    rcases List.mem_append.mp hx with hx | hx
    · obtain ⟨i, hi, hfacts⟩ := h.here x hx
      exact ⟨i, List.mem_append_left _ hi, hfacts⟩
    · obtain ⟨file, hf, rfl⟩ := List.mem_map.mp hx
      obtain ⟨i, hi, hfacts⟩ := exists_newRow job t.nextItemId hf
      exact ⟨i, List.mem_append_right _ hi, hfacts⟩
  others := by
    intro i hi
    rw [← h.others i fun x hx => hi x (List.mem_append_left _ hx)]
    refine ⟨fun hmem => ?_, fun hmem => List.mem_append_left _ hmem⟩
    rcases List.mem_append.mp hmem with hmem | hmem
    · exact hmem
    · obtain ⟨file, hf, hfile⟩ := mem_newRows hmem
      exact absurd hfile (hi _ (List.mem_append_right _ (List.mem_map_of_mem hf)))

theorem Covers.congr {seen : List String} (h : Covers job t₀ ids t)
    (hseen : ∀ x, x ∈ seen ↔ x ∈ ids) :
    Covers job t₀ seen t where
  sound := h.sound
  unique := h.unique
  jobs := h.jobs
  here x hx := h.here x ((hseen x).mp hx)
  others i hi := h.others i fun x hx => hi x ((hseen x).mpr hx)

/-- New items are inserted all together, or break the key. -/
theorem insertItems_exec {rows : List NewItem} {r : Except ImportError (List ImportItem)}
    (h : Exec importHandler (insertItems rows).run w trace r w') :
    opened trace = [] ∧ ((∃ out, r = .ok out ∧ w' = { w with toTables := w.addItems rows }) ∨
      (¬ uniqueFiles (w.items ++ freshRows w.nextItemId rows) ∧ ∃ e, r = .error e)) := by
  unfold insertItems at h
  split at h
  · rename_i hnone
    obtain ⟨rfl, rfl, rfl⟩ := exec_done.mp h
    refine ⟨rfl, .inl ⟨[], rfl, ?_⟩⟩
    rw [hnone, Tables.addItems]
    simp [freshRows]
  · obtain ⟨_, last, rfl, hlast⟩ := exec_perform.mp h
    obtain ⟨rfl, rfl, rfl⟩ := exec_done.mp hlast
    refine ⟨rfl, ?_⟩
    simp only [importHandler]
    split
    · exact .inl ⟨_, rfl, rfl⟩
    · rename_i hbroken
      exact .inr ⟨hbroken, _, rfl⟩

/-- The rows that a page is compared with. -/
def known (job : ImportJob) (files : List RemoteFile) (t : Tables) : List ImportItem :=
  t.items.filter fun i => i.eventId = job.eventId ∧ i.provider = job.provider ∧
    i.remoteId ∈ files.map (fun f => f.id)

/-- A page re-points the items of its known files and inserts items for the others. -/
theorem upsertListingPage_exec {r : Except ImportError (ℕ × ℕ)}
    (h : Exec importHandler (upsertListingPage job files).run w trace r w') :
    opened trace = [] ∧
    ∃ t, t = files.foldl (repointed job (known job files w.toTables)) w.toTables ∧
      ((∃ skipped, r = .ok (files.length, skipped) ∧
          w'.toTables =
          t.addItems ((unknown (known job files w.toTables) files).map (newItem job))) ∨
        (¬ uniqueFiles
        (t.items ++ freshRows t.nextItemId ((unknown (known job files w.toTables) files).map
          (newItem job))) ∧ ∃ e, r = .error e)) := by
  unfold upsertListingPage at h
  split at h
  · rename_i hnone
    obtain ⟨rfl, rfl, rfl⟩ := exec_done.mp h
    refine ⟨rfl, _, rfl, .inl ⟨0, by rw [hnone]; rfl, ?_⟩⟩
    rw [hnone, Tables.addItems]
    simp [freshRows, unknown]
  · obtain ⟨first, existing, w₁, rest, rfl, hread, hrest⟩ := exec_lift.mp h
    obtain ⟨_, last, rfl, hlast⟩ := exec_perform.mp hread
    obtain ⟨rfl, rfl, rfl⟩ := exec_done.mp hlast
    obtain ⟨pass, out, w₂, rest', rfl, hpass, hinsert⟩ := exec_lift.mp hrest
    obtain ⟨hrows, hw₂, hopened⟩ := classify_exec hpass
    obtain ⟨toInsert, skipped⟩ := out
    simp only [List.nil_append] at hrows
    subst hrows hw₂
    rw [opened_append, opened_append, hopened]
    rcases exec_attempt.mp hinsert with ⟨adding, rows, w₃, end', rfl, hadd, hend⟩ | ⟨e, rfl, hadd⟩
    · obtain ⟨hadding, hcases⟩ := insertItems_exec hadd
      obtain ⟨rfl, rfl, rfl⟩ := exec_done.mp hend
      rw [List.append_nil, hadding]
      refine ⟨rfl, _, rfl, .inl ⟨skipped, rfl, ?_⟩⟩
      rcases hcases with ⟨_, -, rfl⟩ | ⟨-, e, he⟩
      · rfl
      · cases he
    · obtain ⟨hadding, hcases⟩ := insertItems_exec hadd
      rw [hadding]
      refine ⟨rfl, _, rfl, .inr ?_⟩
      rcases hcases with ⟨_, hout, -⟩ | ⟨hbroken, -⟩
      · cases hout
      · exact ⟨hbroken, e, rfl⟩

theorem known_known (job : ImportJob) (files : List RemoteFile) (t : Tables) :
    Known job (known job files t) t := by
  intro i hi
  obtain ⟨hmem, hfacts⟩ := List.mem_filter.mp hi
  have hfacts' := of_decide_eq_true hfacts
  exact ⟨hfacts'.1, hfacts'.2.1, i, hmem, rfl, rfl⟩

/-- A file without a known row has no item. -/
theorem not_known (hf : file ∈ files) (hnone : byRemoteId (known job files t) file.id = none) :
    ∀ i ∈ t.items, i.file ≠ (job.eventId, job.provider, file.id) := by
  intro i hi hfile
  have hevent : i.eventId = job.eventId := congrArg Prod.fst hfile
  have hprovider : i.provider = job.provider := congrArg (fun k => k.2.1) hfile
  have hremote : i.remoteId = file.id := congrArg (fun k => k.2.2) hfile
  refine byRemoteId_eq_none hnone i
    (List.mem_filter.mpr ⟨hi, decide_eq_true ⟨hevent, hprovider, ?_⟩⟩) hremote
  rw [hremote]
  exact List.mem_map_of_mem hf

/-- A page is counted as long as it is. -/
theorem upsertListingPage_counts {r : Except ImportError (ℕ × ℕ)} {counts : ℕ × ℕ}
    (h : Exec importHandler (upsertListingPage job files).run w trace r w') (hr : r = .ok counts) :
    counts.1 = files.length := by
  obtain ⟨-, t, -, ⟨skipped, hok, -⟩ | ⟨-, e, herror⟩⟩ := upsertListingPage_exec h
  · rw [hr] at hok
    rw [Except.ok.inj hok]
  · cases hr.symm.trans herror

/-- A page that names each of its files once gives all of them an item of the job. -/
theorem Covers.page {r : Except ImportError (ℕ × ℕ)} (h : Covers job t₀ ids w.toTables)
    (hjob : w.toTables.job job.id ≠ none) (hids : (files.map RemoteFile.id).Nodup)
    (hexec : Exec importHandler (upsertListingPage job files).run w trace r w') :
    (∃ skipped, r = .ok (files.length, skipped)) ∧
      Covers job t₀ (ids ++ files.map RemoteFile.id) w'.toTables ∧
      w'.toTables.job job.id ≠ none := by
  obtain ⟨-, t, rfl, hcases⟩ := upsertListingPage_exec hexec
  obtain ⟨seen, hseen, hcovers, hitems, hjob'⟩ :=
    h.pass files (known_known job files w.toTables) hjob
  have hunknown : unknown (known job files w.toTables) files ⊆ files := List.filter_subset_self _
  have hunique :
    uniqueFiles ((files.foldl (repointed job (known job files w.toTables)) w.toTables).items ++
      freshRows (files.foldl (repointed job (known job files w.toTables)) w.toTables).nextItemId
        ((unknown (known job files w.toTables) files).map (newItem job))) := by
    refine unique_addItems hcovers.unique
      (hids.sublist (List.filter_sublist.map _)) fun file hf i hi hfile => ?_
    have hold : i.file ∈ w.items.map ImportItem.file := hitems ▸ List.mem_map_of_mem hi
    obtain ⟨i', hi', heq⟩ := List.mem_map.mp hold
    have hnone := Option.isNone_iff_eq_none.mp (List.mem_filter.mp hf).2
    exact not_known (hunknown hf) hnone i' hi' (heq.trans hfile)
  rcases hcases with ⟨skipped, rfl, ht⟩ | ⟨hbroken, -⟩
  · rw [ht]
    refine ⟨⟨skipped, rfl⟩, (hcovers.insert hjob' hunique).congr fun x => ?_, hjob'⟩
    rw [List.mem_append, List.mem_append, hseen x, or_assoc]
    refine or_congr_right ⟨fun hx => ?_, ?_⟩
    · obtain ⟨file, hf, rfl⟩ := List.mem_map.mp hx
      cases hfind : byRemoteId (known job files w.toTables) file.id with
      | none => exact .inr (List.mem_map_of_mem (List.mem_filter.mpr ⟨hf, by rw [hfind]; rfl⟩))
      | some i => exact .inl ⟨file, hf, rfl, rfl⟩
    · rintro (⟨file, hf, rfl, -⟩ | hx)
      · exact List.mem_map_of_mem hf
      · obtain ⟨file, hf, rfl⟩ := List.mem_map.mp hx
        exact List.mem_map_of_mem (hunknown hf)
  · exact absurd hunique hbroken

theorem Covers.start (hsound : t.WellFormed) (hunique : uniqueFiles t.items) :
    Covers job t [] t where
  sound := hsound
  unique := hunique
  jobs := rfl
  here := by simp
  others _ _ := Iff.rfl

end Page

/-! The walk. -/

section Walk

variable {d : Drive} {job : ImportJob} {fuel listed skipped : ℕ} {queue order ids : List String}
  {f : String}
  {token : Option String} {pages : List RemoteListingPage} {w w' : ImportWorld}
    {trace : List ImportEvent}
  {t₀ : Tables}

/-- Where a listing goes on after a page: its next page, the next folder, or nothing. -/
def nextPage (job : ImportJob) (fuel : ℕ) (f : String) (listed skipped : ℕ) :
    Option String → List String → Attempt (Option (ℕ × ℕ))
  | some token, queue => listPages job fuel queue f (some token) listed skipped
  | none, g :: rest => listPages job fuel rest g none listed skipped
  | none, [] => pure (some (listed, skipped))

/-- The folder that is opened with a token. -/
def begins (f : String) : Option String → List String
  | none => [f]
  | some _ => []

theorem listPages_succ (job : ImportJob) (fuel : ℕ) (queue : List String) (f : String)
    (token : Option String)
    (listed skipped : ℕ) : listPages job (fuel + 1) queue f token listed skipped = (do
      let account ← requireAccount job.orgId job.cloudAccountId
      let accessToken ← getFreshAccessToken account.1
      let page ← listFilesPage accessToken f token
      let outcome ← upsertListingPage job (mediaOf page)
      nextPage job fuel f (listed + outcome.1) (skipped + outcome.2)
        (truthyToken page.nextPageToken)
        (if job.recursive then queue ++ page.subfolderIds else queue)) := by
  rw [listPages]
  refine bind_congr fun account => bind_congr fun accessToken => bind_congr fun page =>
    bind_congr fun outcome => ?_
  simp only
  cases truthyToken page.nextPageToken with
  | some token => rfl
  | none =>
    cases (if job.recursive then queue ++ page.subfolderIds else queue) with
    | nil => rfl
    | cons g rest => rfl

theorem requireAccount_served {α : Type} {orgId accountId : String}
    {g : String × CloudProvider → Attempt α}
    {r : Except ImportError α}
    (h : Exec importHandler (requireAccount orgId accountId >>= g).run w trace r w')
    (hserved : ∀ e ∈ trace, Served d e) :
    ∃ account rest, opened trace = opened rest ∧ (∀ e ∈ rest, Served d e) ∧
      Exec importHandler (g account).run w rest r w' := by
  rcases exec_attempt.mp h with ⟨first, account, w₁, rest, rfl, hcall, hrest⟩ | ⟨e, -, hcall⟩
  · obtain ⟨_, last, rfl, hlast⟩ := exec_perform.mp hcall
    obtain ⟨rfl, -, rfl⟩ := exec_done.mp hlast
    exact ⟨account, rest, rfl, fun e he => hserved e (List.mem_append_right _ he), hrest⟩
  · obtain ⟨answer, last, rfl, hlast⟩ := exec_perform.mp hcall
    obtain ⟨account, hanswer⟩ := hserved _ List.mem_cons_self
    obtain ⟨-, hvalue, -⟩ := exec_done.mp hlast
    rw [hanswer] at hvalue
    cases hvalue

theorem getFreshAccessToken_served {α : Type} {accountId : String} {g : String → Attempt α}
    {r : Except ImportError α}
    (h : Exec importHandler (getFreshAccessToken accountId >>= g).run w trace r w')
    (hserved : ∀ e ∈ trace, Served d e) :
    ∃ accessToken rest, opened trace = opened rest ∧ (∀ e ∈ rest, Served d e) ∧
      Exec importHandler (g accessToken).run w rest r w' := by
  rcases exec_attempt.mp h with ⟨first, accessToken, w₁, rest, rfl, hcall, hrest⟩ | ⟨e, -, hcall⟩
  · obtain ⟨_, last, rfl, hlast⟩ := exec_perform.mp hcall
    obtain ⟨rfl, -, rfl⟩ := exec_done.mp hlast
    exact ⟨accessToken, rest, rfl, fun e he => hserved e (List.mem_append_right _ he), hrest⟩
  · obtain ⟨answer, last, rfl, hlast⟩ := exec_perform.mp hcall
    obtain ⟨accessToken, hanswer⟩ := hserved _ List.mem_cons_self
    obtain ⟨-, hvalue, -⟩ := exec_done.mp hlast
    rw [hanswer] at hvalue
    cases hvalue

theorem listFilesPage_served {α : Type} {accessToken : String} {g : RemoteListingPage → Attempt α}
    {r : Except ImportError α}
    (h : Exec importHandler (listFilesPage accessToken f token >>= g).run w trace r w')
    (hserved : ∀ e ∈ trace, Served d e) :
    ∃ rest, opened trace = begins f token ++ opened rest ∧ (∀ e ∈ rest, Served d e) ∧
      Exec importHandler (g (d.listing f token)).run w rest r w' := by
  rcases exec_attempt.mp h with ⟨first, page, w₁, rest, rfl, hcall, hrest⟩ | ⟨e, -, hcall⟩
  · obtain ⟨answer, last, rfl, hlast⟩ := exec_perform.mp hcall
    have hanswer : answer = .ok (d.listing f token) := hserved _ List.mem_cons_self
    obtain ⟨rfl, hvalue, rfl⟩ := exec_done.mp hlast
    have hpage : page = d.listing f token := Except.ok.inj (hvalue.trans hanswer)
    subst hpage
    refine ⟨rest, ?_, fun e he => hserved e (List.mem_append_right _ he), hrest⟩
    cases token <;> rfl
  · obtain ⟨answer, last, rfl, hlast⟩ := exec_perform.mp hcall
    have hanswer : answer = .ok (d.listing f token) := hserved _ List.mem_cons_self
    obtain ⟨-, hvalue, -⟩ := exec_done.mp hlast
    cases hvalue.trans hanswer

/-- One page, and what follows it. -/
theorem listPages_exec {r : Except ImportError (Option (ℕ × ℕ))} (hrecursive : job.recursive = true)
    (h : Exec importHandler (listPages job (fuel + 1) queue f token listed skipped).run w
    trace r w')
    (hserved : ∀ e ∈ trace, Served d e) :
    ∃ adding out w₁,
      Exec importHandler (upsertListingPage job (mediaOf (d.listing f token))).run w adding out w₁ ∧
      ((∃ e, out = .error e ∧ r = .error e) ∨ ∃ counts rest, out = .ok counts ∧
        opened trace = begins f token ++ opened rest ∧ (∀ e ∈ rest, Served d e) ∧
        Exec importHandler (nextPage job fuel f (listed + counts.1) (skipped + counts.2)
          (truthyToken (d.listing f token).nextPageToken)
          (queue ++ (d.listing f token).subfolderIds)).run
          w₁ rest r w') := by
  rw [listPages_succ] at h
  obtain ⟨account, trace₁, hopened₁, hserved₁, h₁⟩ := requireAccount_served h hserved
  obtain ⟨accessToken, trace₂, hopened₂, hserved₂, h₂⟩ := getFreshAccessToken_served h₁ hserved₁
  obtain ⟨trace₃, hopened₃, hserved₃, h₃⟩ := listFilesPage_served h₂ hserved₂
  rw [hrecursive] at h₃
  rcases exec_attempt.mp h₃ with ⟨adding, counts, w₁, rest, rfl, hadd, hrest⟩ | ⟨e, he, hadd⟩
  · refine ⟨adding, _, w₁, hadd, .inr ⟨counts, rest, rfl, ?_, ?_, hrest⟩⟩
    · rw [hopened₁, hopened₂, hopened₃, opened_append, (upsertListingPage_exec hadd).1]
      rfl
    · exact fun e he => hserved₃ e (List.mem_append_right _ he)
  · exact ⟨trace₃, _, w', hadd, .inl ⟨e, rfl, he⟩⟩

/-- What a listing that ended has gone through. -/
theorem listPages_visits {total : ℕ × ℕ} (hrecursive : job.recursive = true)
    (hpages : PagesFrom d.listing f token pages)
    (hfolders : ∀ g ∈ queue ++ pages.flatMap RemoteListingPage.subfolderIds, g ∈ d.folders)
    (h : Exec importHandler (listPages job fuel queue f token listed skipped).run w trace
    (.ok (some total)) w')
    (hserved : ∀ e ∈ trace, Served d e) :
    ∃ order, Visits d.subfolders (queue ++ pages.flatMap RemoteListingPage.subfolderIds) order ∧
      opened trace = begins f token ++ order ∧
      total.1 = listed + (pages.flatMap mediaOf).length + (order.flatMap d.mediaIds).length := by
  induction fuel generalizing queue f token listed skipped pages w trace with
  | zero =>
    obtain ⟨-, hnone, -⟩ := exec_done.mp h
    cases hnone
  | succ fuel ih =>
    obtain ⟨adding, out, w₁, hadd, hcases⟩ := listPages_exec hrecursive h hserved
    rcases hcases with ⟨e, -, he⟩ | ⟨counts, rest, hout, hopened, hrest, hnext⟩
    · cases he
    have hcount : counts.1 = (mediaOf (d.listing f token)).length :=
      upsertListingPage_counts hadd hout
    cases hpages with
    | more htoken hmore =>
      rw [htoken] at hnext
      rw [List.flatMap_cons, ← List.append_assoc] at hfolders
      obtain ⟨order, hvisits, hrestOpened, htotal⟩ := ih hmore hfolders hnext hrest
      refine ⟨order, ?_, ?_, ?_⟩
      · rw [List.flatMap_cons, ← List.append_assoc]
        exact hvisits
      · rw [hopened, hrestOpened]
        rfl
      · rw [htotal, hcount, List.flatMap_cons, List.length_append]
        omega
    | last htoken =>
      rw [htoken] at hnext
      simp only [List.flatMap_cons, List.flatMap_nil, List.append_nil] at hfolders ⊢
      cases hqueue : queue ++ (d.listing f token).subfolderIds with
      | nil =>
        rw [hqueue] at hnext
        obtain ⟨rfl, htotal, -⟩ := exec_done.mp hnext
        have htotal' := Option.some.inj (Except.ok.inj htotal)
        refine ⟨[], .nil, hopened, ?_⟩
        rw [htotal', hcount]
        rfl
      | cons g later =>
        rw [hqueue] at hnext hfolders
        have hg : g ∈ d.folders := hfolders g List.mem_cons_self
        obtain ⟨order, hvisits, hrestOpened, htotal⟩ :=
          ih (d.paged g hg) (d.later_folders hfolders) hnext hrest
        refine ⟨g :: order, .cons hvisits, ?_, ?_⟩
        · rw [hopened, hrestOpened]
          rfl
        · rw [htotal, hcount, List.flatMap_cons, List.length_append, Drive.mediaIds,
            List.length_map]
          omega

/-- A listing with pages to spare, whose files are named once, ends and covers them all. -/
theorem listPages_ends {r : Except ImportError (Option (ℕ × ℕ))} (hrecursive : job.recursive = true)
    (hpages : PagesFrom d.listing f token pages)
    (hfolders : ∀ g ∈ queue ++ pages.flatMap RemoteListingPage.subfolderIds, g ∈ d.folders)
    (hvisits : Visits d.subfolders (queue ++ pages.flatMap RemoteListingPage.subfolderIds) order)
    (hfuel : pages.length + (order.flatMap d.pages).length ≤ fuel)
    (hids : ((pages.flatMap mediaOf).map RemoteFile.id ++ order.flatMap d.mediaIds).Nodup)
    (hcovers : Covers job t₀ ids w.toTables) (hjob : w.toTables.job job.id ≠ none)
    (h : Exec importHandler (listPages job fuel queue f token listed skipped).run w trace r w')
    (hserved : ∀ e ∈ trace, Served d e) :
    (∃ total, r = .ok (some total)) ∧
      Covers job t₀ (ids ++
        ((pages.flatMap mediaOf).map RemoteFile.id ++ order.flatMap d.mediaIds)) w'.toTables := by
  induction fuel generalizing queue f token listed skipped pages order ids w trace with
  | zero =>
    exfalso
    cases hpages with
    | last _ => simp at hfuel
    | more _ _ => simp at hfuel
  | succ fuel ih =>
    obtain ⟨adding, out, w₁, hadd, hcases⟩ := listPages_exec hrecursive h hserved
    have hpage : ((mediaOf (d.listing f token)).map RemoteFile.id).Nodup := by
      cases hpages with
      | last _ => simpa using (List.nodup_append.mp hids).1
      | more _ _ =>
        rw [List.flatMap_cons, List.map_append] at hids
        exact (List.nodup_append.mp (List.nodup_append.mp hids).1).1
    obtain ⟨⟨skips, hout⟩, hcovers', hjob'⟩ := hcovers.page hjob hpage hadd
    rcases hcases with ⟨e, he, -⟩ | ⟨counts, rest, -, -, hrest, hnext⟩
    · cases hout.symm.trans he
    cases hpages with
    | more htoken hmore =>
      rw [htoken] at hnext
      rw [List.flatMap_cons, ← List.append_assoc] at hfolders hvisits
      rw [List.flatMap_cons, List.map_append, List.append_assoc] at hids ⊢
      rw [List.length_cons] at hfuel
      rw [← List.append_assoc]
      exact ih hmore hfolders hvisits (by omega)
        (List.nodup_append.mp hids).2.1 hcovers' hjob' hnext hrest
    | last htoken =>
      rw [htoken] at hnext
      simp only [List.flatMap_cons, List.flatMap_nil, List.append_nil] at hfolders hvisits hids ⊢
      cases hqueue : queue ++ (d.listing f token).subfolderIds with
      | nil =>
        rw [hqueue] at hnext hvisits
        obtain ⟨rfl, rfl, rfl⟩ := exec_done.mp hnext
        cases hvisits
        simp only [List.flatMap_nil, List.append_nil]
        exact ⟨⟨_, rfl⟩, hcovers'⟩
      | cons g later =>
        rw [hqueue] at hnext hfolders hvisits
        have hg : g ∈ d.folders := hfolders g List.mem_cons_self
        cases hvisits with
        | cons hvisits =>
          rw [List.flatMap_cons] at hids hfuel ⊢
          rw [List.length_append, List.length_singleton] at hfuel
          rw [← List.append_assoc]
          exact ih (d.paged g hg) (d.later_folders hfolders) hvisits (by omega)
            (List.nodup_append.mp hids).2.1
            hcovers' hjob' hnext hrest

/-- The job gets its totals, and nothing happens to the items. -/
theorem fanOut_exec {k : JobId} {r : Except ImportError Verdict}
    (h : Exec importHandler (fanOut k listed skipped).run w trace r w')
    (hserved : ∀ e ∈ trace, Served d e) :
    r = .ok .success ∧ opened trace = [] ∧ w'.items = w.items ∧ ∃ dto : JobChange,
      dto.totals = some (listed, skipped) ∧
      w'.jobs = updateRow ImportJob.id k dto.apply w.jobs := by
  unfold fanOut at h
  obtain ⟨first, pending, w₁, rest, rfl, hread, hrest⟩ := exec_lift.mp h
  obtain ⟨_, last, rfl, hlast⟩ := exec_perform.mp hread
  obtain ⟨rfl, rfl, rfl⟩ := exec_done.mp hlast
  have hserved' : ∀ e ∈ rest, Served d e := fun e he => hserved e (List.mem_append_right _ he)
  split at hrest
  · obtain ⟨update, _, w₂, rest', rfl, hupdate, hend⟩ := exec_lift.mp hrest
    obtain ⟨_, last, rfl, hlast⟩ := exec_perform.mp hupdate
    obtain ⟨rfl, -, rfl⟩ := exec_done.mp hlast
    obtain ⟨rfl, rfl, rfl⟩ := exec_done.mp hend
    exact ⟨rfl, rfl, rfl, { status := .done, totals := some (listed, skipped) }, rfl, rfl⟩
  · obtain ⟨update, _, w₂, rest', rfl, hupdate, hqueue⟩ := exec_lift.mp hrest
    obtain ⟨_, last, rfl, hlast⟩ := exec_perform.mp hupdate
    obtain ⟨rfl, -, rfl⟩ := exec_done.mp hlast
    have hserved'' : ∀ e ∈ rest', Served d e := fun e he => hserved' e (List.mem_append_right _ he)
    rcases exec_attempt.mp hqueue with ⟨call, _, w₃, end', rfl, hcall, hend⟩ | ⟨e, rfl, hcall⟩
    · obtain ⟨answer, last, rfl, hlast⟩ := exec_perform.mp hcall
      have hanswer := hserved'' _ (List.mem_append_left _ List.mem_cons_self)
      cases answer with
      | ok _ =>
        obtain ⟨rfl, -, rfl⟩ := exec_done.mp hlast
        obtain ⟨rfl, rfl, rfl⟩ := exec_done.mp hend
        exact ⟨rfl, rfl, rfl, { status := .importing, totals := some (listed, skipped) }, rfl, rfl⟩
      | error text => cases hanswer
    · obtain ⟨answer, last, rfl, hlast⟩ := exec_perform.mp hcall
      have hanswer := hserved'' _ List.mem_cons_self
      cases answer with
      | ok _ =>
        obtain ⟨-, hvalue, -⟩ := exec_done.mp hlast
        cases hvalue
      | error text => cases hanswer

end Walk

/-! The whole run. -/

section Run

variable (d : Drive) (job : ImportJob)

/-- The folder of the job, or below it. -/
def Below (f : String) : Prop := Reaches d.subfolders job.folderRemoteId f

/-- A photo or video of a folder below. -/
def ListedBelow (x : String) : Prop := ∃ f, Below d job f ∧ x ∈ d.mediaIds f

/-- No folder and no file is named twice. -/
structure NamedOnce : Prop where
  folders : Tree d.subfolders job.folderRemoteId
  files : Apart (Below d job) d.mediaIds

/-- Each folder is listed once, each file has one item, of
this job, and the job counts the files. -/
structure ListsOnce (w : ImportWorld) (trace : List ImportEvent) (verdict : Verdict)
    (w' : ImportWorld) : Prop where
  success : verdict = .success
  folders : ∀ f, Below d job f → (opened trace).count f = 1
  here : ∀ x, ListedBelow d job x → ∃ i ∈ w'.items, i.file = (job.eventId, job.provider, x) ∧
    i.importJobId = job.id ∧ ∀ i' ∈ w'.items, i'.file = (job.eventId, job.provider, x) → i' = i
  others : ∀ i : ImportItem, (∀ x, ListedBelow d job x → i.file ≠ (job.eventId, job.provider, x)) →
    (i ∈ w'.items ↔ i ∈ w.items)
  total : ∃ ids : List String, ids.Nodup ∧ (∀ x, x ∈ ids ↔ ListedBelow d job x) ∧
    ∃ job', w'.toTables.job job.id = some job' ∧ job'.totalFiles = ids.length

/-- Given enough pages every run that is served as the drive says lists each folder once. -/
def ListsCompletely (w : ImportWorld) : Prop :=
  ∃ pages, ∀ fuel, pages ≤ fuel → ∀ trace verdict w',
    Exec importHandler (handleImportFolder fuel job.id) w trace verdict w' →
      (∀ e ∈ trace, Served d e) →
    ListsOnce d job w trace verdict w'

variable {d job} {w w' : ImportWorld} {trace : List ImportEvent} {verdict : Verdict} {fuel : ℕ}

/-- The body of the handler, for a job that is there and not cancelled. -/
theorem handleImportFolder_exec (hjob : w.toTables.job job.id = some job)
    (hstatus : job.status ≠ .cancelled)
    (h : Exec importHandler (handleImportFolder fuel job.id) w trace verdict w')
    (hserved : ∀ e ∈ trace, Served d e) :
    ∃ rest r w₁, Exec importHandler (listFolder job.id job fuel).run w rest r w₁ ∧
    (∀ e ∈ rest, Served d e) ∧
      (∀ v, r = .ok v → verdict = v ∧ w' = w₁ ∧ opened trace = opened rest) ∧
      (verdict = .success → r = .ok .success) := by
  unfold handleImportFolder at h
  obtain ⟨first, found, w₁, rest, rfl, hread, hrest⟩ := exec_bind.mp h
  obtain ⟨_, last, rfl, hlast⟩ := exec_perform.mp hread
  obtain ⟨rfl, hfound, rfl⟩ := exec_done.mp hlast
  rw [show found = some job from hfound.trans hjob] at hrest
  simp only [hstatus, ↓reduceIte] at hrest
  obtain ⟨body, r, w₂, ending, rfl, hbody, hend⟩ := exec_bind.mp hrest
  have hserved' : ∀ e ∈ body, Served d e := fun e he =>
    hserved e (List.mem_append_right _ (List.mem_append_left _ he))
  refine ⟨body, r, w₂, hbody, hserved', ?_, ?_⟩
  · rintro v rfl
    obtain ⟨rfl, rfl, rfl⟩ := exec_done.mp hend
    refine ⟨rfl, rfl, ?_⟩
    rw [List.append_nil, opened_append]
    rfl
  · intro hsuccess
    cases r with
    | ok v =>
      obtain ⟨-, hv, -⟩ := exec_done.mp hend
      rw [← hv, hsuccess]
    | error e =>
      exfalso
      cases e with
      | rateLimit ms =>
        obtain ⟨_, last, -, hlast⟩ := exec_step.mp hend
        obtain ⟨-, hv, -⟩ := exec_done.mp hlast
        cases hsuccess.symm.trans hv
      | assetChecksumConstraint text =>
        obtain ⟨_, last, -, hlast⟩ := exec_step.mp hend
        obtain ⟨-, hv, -⟩ := exec_done.mp hlast
        cases hsuccess.symm.trans hv
      | other text =>
        obtain ⟨_, last, -, hlast⟩ := exec_step.mp hend
        obtain ⟨-, hv, -⟩ := exec_done.mp hlast
        cases hsuccess.symm.trans hv

/-- A listing that ended is fanned out; otherwise the run is no success. -/
theorem listFolder_exec {r : Except ImportError Verdict}
    (h : Exec importHandler (listFolder job.id job fuel).run w trace r w') :
    ∃ first out w₁,
      Exec importHandler (listPages job fuel [] job.folderRemoteId none 0 0).run w first out w₁ ∧
      (∀ e ∈ first, e ∈ trace) ∧
      ((∃ total second, out = .ok (some total) ∧ trace = first ++ second ∧
          Exec importHandler (fanOut job.id total.1 total.2).run w₁ second r w') ∨
        ((∀ total, out ≠ .ok (some total)) ∧ r ≠ .ok .success)) := by
  unfold listFolder at h
  rcases exec_attempt.mp h with ⟨first, out, w₁, second, rfl, hlist, hrest⟩ | ⟨e, rfl, hlist⟩
  · refine ⟨first, _, w₁, hlist, fun e he => List.mem_append_left _ he, ?_⟩
    cases out with
    | none =>
      obtain ⟨-, rfl, -⟩ := exec_done.mp hrest
      exact .inr ⟨fun total => by simp, by simp⟩
    | some total => exact .inl ⟨total, second, rfl, rfl, hrest⟩
  · exact ⟨trace, _, w', hlist, fun e he => he, .inr ⟨fun total => by simp, by simp⟩⟩

theorem Below.folders (hroot : job.folderRemoteId ∈ d.folders) {f : String}
    (h : Below d job f) : f ∈ d.folders := by
  induction h with
  | refl => exact hroot
  | tail _ hstep ih =>
    obtain ⟨page, hpage, hmem⟩ := List.mem_flatMap.mp hstep
    exact d.closed _ ih page hpage _ hmem

/-- The files of all folders met. -/
theorem mem_files {order : List String} (hvisits : Visits d.subfolders [job.folderRemoteId] order)
    (x : String) :
    x ∈ order.flatMap d.mediaIds ↔ ListedBelow d job x := by
  rw [List.mem_flatMap]
  exact ⟨fun ⟨f, hf, hx⟩ => ⟨f, hvisits.mem_iff.mp hf, hx⟩, fun ⟨f, hf, hx⟩ =>
    ⟨f, hvisits.mem_iff.mpr hf, hx⟩⟩

theorem listsOnce_of_covers {order : List String} {t : Tables}
    (hvisits : Visits d.subfolders [job.folderRemoteId] order) (hnodup : order.Nodup)
    (hfiles : (order.flatMap d.mediaIds).Nodup) (hopened : opened trace = order)
    (hcovers : Covers job w.toTables (order.flatMap d.mediaIds) t) (hitems : w'.items = t.items)
    (htotal : ∃ job', w'.toTables.job job.id = some job' ∧
      job'.totalFiles = (order.flatMap d.mediaIds).length) :
    ListsOnce d job w trace .success w' where
  success := rfl
  folders f hf := by
    rw [hopened]
    exact List.count_eq_one_of_mem hnodup (hvisits.mem_iff.mpr hf)
  here x hx := by
    obtain ⟨i, hi, hfile, hown⟩ := hcovers.here x ((mem_files hvisits x).mpr hx)
    rw [hitems]
    refine ⟨i, hi, hfile, hown, fun i' hi' hfile' => ?_⟩
    exact List.inj_on_of_nodup_map (uniqueFiles_iff.mp hcovers.unique) hi' hi
      (hfile'.trans hfile.symm)
  others i hi := by
    rw [hitems]
    exact hcovers.others i fun x hx => hi x ((mem_files hvisits x).mp hx)
  total := ⟨_, hfiles, mem_files hvisits, htotal⟩

/-- Where no folder and no file is named twice, every run lists each folder once. -/
theorem listsCompletely (hroot : job.folderRemoteId ∈ d.folders)
    (hjob : w.toTables.job job.id = some job)
    (hstatus : job.status ≠ .cancelled) (hrecursive : job.recursive = true)
    (hsound : w.toTables.WellFormed)
    (hunique : uniqueFiles w.items) (hnamed : NamedOnce d job) : ListsCompletely d job w := by
  obtain ⟨order, hvisits, hnodup⟩ := hnamed.folders.visits fun f hf => Below.folders hroot hf
  have hfiles : (order.flatMap d.mediaIds).Nodup := hnamed.files.flatMap hnodup fun f hf =>
    hvisits.mem_iff.mp hf
  have hvisited := hvisits
  cases hvisits with
  | cons hlater =>
    rename_i order
    refine ⟨(d.pages job.folderRemoteId).length + (order.flatMap d.pages).length,
      fun fuel hfuel => ?_⟩
    intro trace verdict w' hexec hserved
    obtain ⟨body, r, w₁, hbody, hserved₁, hends, -⟩ :=
      handleImportFolder_exec hjob hstatus hexec hserved
    obtain ⟨first, out, w₂, hlist, hfirst, hcases⟩ := listFolder_exec hbody
    have hserved₂ : ∀ e ∈ first, Served d e := fun e he => hserved₁ e (hfirst e he)
    have hfolders : ∀ g ∈ [] ++ d.subfolders job.folderRemoteId, g ∈ d.folders := by
      have hfirst : ∀ x ∈ [job.folderRemoteId], x ∈ d.folders :=
        fun x hx => List.mem_singleton.mp hx ▸ hroot
      exact d.later_folders hfirst
    have hjob' : w.toTables.job job.id ≠ none := by simp [hjob]
    rw [List.flatMap_cons] at hfiles
    obtain ⟨⟨total, hout⟩, hcovers⟩ :=
      listPages_ends hrecursive (d.paged _ hroot) hfolders hlater hfuel hfiles
      (Covers.start hsound hunique) hjob' hlist hserved₂
    rcases hcases with ⟨total', second, hout', rfl, hfan⟩ | ⟨hnone, -⟩
    · have hserved₃ : ∀ e ∈ second, Served d e :=
        fun e he => hserved₁ e (List.mem_append_right _ he)
      obtain ⟨rfl, hquiet, hitems, dto, htotals, hjobs⟩ := fanOut_exec hfan hserved₃
      obtain ⟨rfl, rfl, hopened⟩ := hends .success rfl
      subst hout'
      obtain ⟨order', hvisits', hopened', htotal⟩ :=
        listPages_visits hrecursive (d.paged _ hroot) hfolders hlist hserved₂
      rw [hlater.unique hvisits'] at hnodup hcovers hfiles hvisited
      have hcounted : total'.1 = ((job.folderRemoteId :: order').flatMap d.mediaIds).length := by
        rw [htotal, List.flatMap_cons, List.length_append, Drive.mediaIds, List.length_map,
          Nat.zero_add]
      rw [opened_append, hquiet, List.append_nil, hopened'] at hopened
      rw [List.nil_append] at hcovers
      refine listsOnce_of_covers hvisited hnodup hfiles hopened hcovers hitems
        ⟨dto.apply job, ?_, ?_⟩
      · have hid : ∀ j : ImportJob, (dto.apply j).id = j.id := fun _ => rfl
        rw [Tables.job, hjobs, hcovers.jobs, findRow_updateRow hid, ← Tables.job, hjob]
        simp
      · rw [JobChange.apply, htotals, hcounted]
        rfl
    · exact absurd hout (hnone total)

/-- Answers as the drive says. -/
def serving (d : Drive) : Oracle ImportOp ImportRes
  | _, .listFilesPage _ folderId pageToken => .ok (d.listing folderId pageToken)
  | _, o => answering { files := [] } none o

theorem serving_served (d : Drive) (n : ℕ) (o : ImportOp) (w : ImportWorld) :
    Served d ⟨o, (importHandler o (serving d n o) w).1⟩ := by
  cases o
  case requireAccount => exact ⟨_, rfl⟩
  case getFreshAccessToken => exact ⟨_, rfl⟩
  case listFilesPage => rfl
  case queueImportFiles => rfl
  all_goals trivial

/-- A run that lists each folder once has met no folder and no file twice. -/
theorem namedOnce_of_lists (hroot : job.folderRemoteId ∈ d.folders)
    (hjob : w.toTables.job job.id = some job)
    (hstatus : job.status ≠ .cancelled) (hrecursive : job.recursive = true)
    (h : ListsCompletely d job w) :
    NamedOnce d job := by
  obtain ⟨pages, h⟩ := h
  have hexec := exec_run importHandler (handleImportFolder pages job.id) (serving d) w
  have hserved : ∀ e ∈ (run importHandler (handleImportFolder pages job.id) (serving d) w).trace,
    Served d e :=
    run_trace fun n o s => serving_served d n o s
  have hlists := h pages (Nat.le_refl _) _ _ _ hexec hserved
  obtain ⟨body, r, w₁, hbody, hserved₁, hends, hsuccess⟩ :=
    handleImportFolder_exec hjob hstatus hexec hserved
  have hok := hsuccess hlists.success
  obtain ⟨-, hw', hopened⟩ := hends .success hok
  obtain ⟨first, out, w₂, hlist, hfirst, hcases⟩ := listFolder_exec hbody
  rcases hcases with ⟨total, second, rfl, rfl, hfan⟩ | ⟨-, hne⟩
  · have hfolders : ∀ g ∈ [] ++ d.subfolders job.folderRemoteId, g ∈ d.folders := by
      have hself : ∀ x ∈ [job.folderRemoteId], x ∈ d.folders :=
        fun x hx => List.mem_singleton.mp hx ▸ hroot
      exact d.later_folders hself
    obtain ⟨order, hvisits, hopened', htotal⟩ :=
      listPages_visits hrecursive (d.paged _ hroot) hfolders hlist
      fun e he => hserved₁ e (hfirst e he)
    obtain ⟨-, hquiet, -, dto, htotals, hjobs⟩ := fanOut_exec hfan fun e he =>
      hserved₁ e (List.mem_append_right _ he)
    have hvisited : Visits d.subfolders [job.folderRemoteId] (job.folderRemoteId :: order) :=
      .cons hvisits
    rw [opened_append, hquiet, List.append_nil, hopened'] at hopened
    have hnodup : (job.folderRemoteId :: order).Nodup := by
      refine List.nodup_iff_count_eq_one.mpr fun f hf => ?_
      have hone := hlists.folders f (hvisited.mem_iff.mp hf)
      rw [hopened] at hone
      exact hone
    refine ⟨hvisited.tree hnodup, ?_⟩
    obtain ⟨ids, hids, hmem, job', hjob', hcount⟩ := hlists.total
    have hid : ∀ j : ImportJob, (dto.apply j).id = j.id := fun _ => rfl
    rw [hw', Tables.job, hjobs, findRow_updateRow hid, Option.map_eq_some_iff] at hjob'
    obtain ⟨before, -, hafter⟩ := hjob'
    have htotal' : job'.totalFiles = total.1 := by
      rw [← hafter, if_pos rfl, JobChange.apply, htotals]
      rfl
    have hlength : ((job.folderRemoteId :: order).flatMap d.mediaIds).length = ids.length := by
      rw [← hcount, htotal', htotal, List.flatMap_cons, List.length_append, Drive.mediaIds,
        List.length_map,
        Nat.zero_add]
    refine apart_of_flatMap (fun f hf => hvisited.mem_iff.mpr hf)
      (nodup_of_length hids (fun x => ?_) hlength)
    rw [hmem x, mem_files hvisited]
  · exact absurd hok hne

/-- A run of a recursive import ends, lists each folder once and counts each file once, exactly
where no folder and no file is named twice. -/
theorem listsCompletely_iff (hroot : job.folderRemoteId ∈ d.folders)
    (hjob : w.toTables.job job.id = some job)
    (hstatus : job.status ≠ .cancelled) (hrecursive : job.recursive = true)
    (hsound : w.toTables.WellFormed)
    (hunique : uniqueFiles w.items) : ListsCompletely d job w ↔ NamedOnce d job :=
  ⟨namedOnce_of_lists hroot hjob hstatus hrecursive,
    listsCompletely hroot hjob hstatus hrecursive hsound hunique⟩

end Run

/-! One folder below another, and a folder below itself. -/

def importWedding : ImportJob where
  id := 0
  eventId := "event"
  orgId := "org"
  cloudAccountId := "account"
  provider := .gDrive
  folderRemoteId := "wedding"
  recursive := true

def oneImport : ImportWorld where
  jobs := [importWedding]
  nextJobId := 1

theorem oneImport_sound : oneImport.toTables.WellFormed where
  ids := by decide
  below := by decide
  jobIds := by decide
  jobsBelow := by decide
  parents := by decide

def remotePhoto (id : String) : RemoteFile where
  id := id
  name := "photo.jpg"
  size := none
  checksum := none
  mimeType := "image/jpeg"

/-- A photo, and a folder with another one. -/
def nested : Drive where
  listing f _ :=
    if f = "wedding" then { files := [remotePhoto "first"], subfolderIds := ["dinner"] }
    else { files := [remotePhoto "second"] }
  folders := ["wedding", "dinner"]
  pages f := if f = "wedding" then [{ files := [remotePhoto "first"], subfolderIds := ["dinner"] }]
    else [{ files := [remotePhoto "second"] }]
  paged := by
    intro f hf
    rcases List.mem_pair.mp hf with rfl | rfl
    · exact .last rfl
    · exact .last rfl
  closed := by decide

theorem listsCompletely_nested : ListsCompletely nested importWedding oneImport := by
  have hvisits : Visits nested.subfolders ["wedding"] ["wedding", "dinner"] := .cons (.cons .nil)
  have hfiles : (["wedding", "dinner"].flatMap nested.mediaIds).Nodup := by decide
  have hnamed : NamedOnce nested importWedding :=
    ⟨hvisits.tree (by decide), apart_of_flatMap (fun f hf => hvisits.mem_iff.mpr hf) hfiles⟩
  exact (listsCompletely_iff (by decide) rfl (by decide) rfl oneImport_sound (by decide)).mpr hnamed

/-- A folder that is listed below itself. -/
def looped : Drive where
  listing _ _ := { files := [], subfolderIds := ["wedding"] }
  folders := ["wedding"]
  pages _ := [{ files := [], subfolderIds := ["wedding"] }]
  paged _ _ := .last rfl
  closed := by decide

theorem not_listsCompletely : ¬ ∀ (d : Drive) job w, job.folderRemoteId ∈ d.folders →
    w.toTables.job job.id = some job → job.status ≠ .cancelled → job.recursive = true →
    w.toTables.WellFormed → uniqueFiles w.items → ListsCompletely d job w := by
  intro h
  have hlists :=
    h looped importWedding oneImport (by decide) rfl (by decide) rfl oneImport_sound (by decide)
  have hnamed := namedOnce_of_lists (by decide) rfl (by decide) rfl hlists
  exact hnamed.folders.root_new "wedding" Relation.ReflTransGen.refl (by decide)

end EventLens.Import

import EventLens.ImportLedger
import Mathlib

/-!
Overlapping imports of one event. A re-sync re-points an item to the newer
job also while a worker of the older job has it, so that the worker closes the
older job and the newer one is left importing. As long as every re-pointed
item is one that no queued job, worker or captured list carries, every import
has concluded once the queue is empty and no listing or worker runs.
-/

namespace EventLens.Import

open Programs

/-- How often the queue, the workers and the captured lists carry an item. -/
def carriers (p : ImportPool) (x : ItemId) : ℕ := total (Stage.held x) (stagesOf p)

/-- A listing re-points only items that no work carries. -/
def RepointsFree (p : ImportPool) (_t : ImportThread) (e : ImportEvent) : Prop :=
  match e.1 with
  | .repointItem x _ _ => carriers p x = 0
  | _ => True

instance (p : ImportPool) (t : ImportThread) (e : ImportEvent) :
    Decidable (RepointsFree p t e) := by
  unfold RepointsFree
  split <;> infer_instance

/-- No import work is queued or running; a cancellation may be under way. -/
def AtRest (p : ImportPool) : Prop :=
  p.state.queue = [] ∧ ∀ t ∈ p.threads, ∃ eventId j, t.call = .cancel eventId j

def Concluded (p : ImportPool) : Prop :=
  ∀ job ∈ p.state.jobs, job.status = .done ∨ job.status = .failed ∨ job.status = .cancelled

/-- A remote folder about which nothing is known. -/
def anyRemote : Remote where
  pages _ _ _ _ := True
  listing _ := none

theorem steady_anyRemote (fuel : ℕ) : anyRemote.Steady fuel := nofun

theorem sound_start (j : JobId) : Sound j 0 {} where
  wf :=
    { ids := List.nodup_nil
      below := fun _ hi => absurd hi List.not_mem_nil
      jobIds := List.nodup_nil
      jobsBelow := fun _ hjob => absurd hjob List.not_mem_nil
      parents := fun _ hi => absurd hi List.not_mem_nil }
  rows x hx := by simp at hx
  jobs := fun _ _ => rfl
  one := Nat.zero_le _
  listing := fun hlisting => by cases hlisting
  importing := fun himporting => by cases himporting
  single := fun _ hi => absurd hi List.not_mem_nil
  claims s hs := absurd hs (Multiset.notMem_zero s)
  quiet := fun hone => by simp at hone
  downloading := fun _ hi => absurd hi List.not_mem_nil
  captured p ids hmem := absurd hmem (Multiset.notMem_zero _)
  carried := fun himporting => by cases himporting
  closing := fun himporting => by cases himporting

/-- The stages a call may leave in for good. -/
theorem post_leave {c : ImportCall} {verdict : Verdict} {s : Stage} (h : c.Post verdict s)
    (hlimited : verdict ≠ .rateLimited) (hended : verdict ≠ .unended) :
    s = .over ∨ s = .ordering ∨ (∃ j, s = .stopping j) ∨ (∃ j, s = .listed j) ∨
      ∃ j, s = .broken j := by
  cases verdict with
  | rateLimited => exact absurd rfl hlimited
  | unended => exact absurd rfl hended
  | success =>
    cases c with
    | importFolder j => exact .inr (.inr (.inr (.inl ⟨j, h⟩)))
    | importFile x => exact .inl h
    | createImport job => exact .inl h
    | cancel eventId j => exact .inr (.inr (.inl ⟨j, h⟩))
  | skipped =>
    cases c with
    | importFolder j => exact .inl h
    | importFile x => exact .inl h
    | createImport job => cases h
    | cancel eventId j => cases h
  | failed =>
    cases c with
    | importFolder j => exact .inr (.inr (.inr (.inr ⟨j, h⟩)))
    | importFile x => cases h
    | createImport job => cases h
    | cancel eventId j => cases h
  | refused text =>
    cases c with
    | importFolder j => cases h
    | importFile x => cases h
    | createImport job => exact .inr (.inl h)
    | cancel eventId j => exact .inr (.inr (.inl ⟨j, h⟩))

theorem Sound.leave {j : JobId} {s : Stage} {R : Multiset Stage} {t : Tables} {c : ImportCall}
    {verdict : Verdict} (h : Sound j (s ::ₘ R) t) (hpost : c.Post verdict s)
    (hlimited : verdict ≠ .rateLimited) (hended : verdict ≠ .unended) : Sound j R t := by
  rcases post_leave hpost hlimited hended with rfl | rfl | ⟨k, rfl⟩ | ⟨k, rfl⟩ | ⟨k, rfl⟩
  all_goals
    exact h.drop (fun _ => rfl) (fun _ _ _ _ => rfl) (fun _ _ _ _ _ => rfl) (fun _ => .inl rfl)

theorem Sound.call {j : JobId} {s : Stage} {S : Multiset Stage} {t : Tables} (h : Sound j S t)
    (hs : s = .ordering ∨ ∃ k, s = .stopping k) : Sound j (s ::ₘ S) t := by
  rcases hs with rfl | ⟨k, rfl⟩
  · exact h.add ⟨fun _ => rfl, fun _ => rfl, fun _ => rfl, fun _ => rfl, rfl⟩
  · exact h.add idle_stopping

/-- The ledgers of all jobs stay sound as long as re-points land on items that
no work carries. -/
theorem ledgers_kept :
    Keeps anyRemote (fun S _ _ x => total (Stage.held x) S = 0) (fun _ => True)
      (fun S t _ => ∀ j, Sound j S t) where
  ids _ _ _ h := (h 0).wf.ids
  start := sound_start
  call _ _ _ _ hs h j := (h j).call hs
  deed _ _ _ _ _ _ h hdeed j := (h j).deed hdeed fun _ _ hfree _ => hfree
  leave _ _ _ _ _ _ h hpost hlimited hended j := (h j).leave hpost hlimited hended

theorem sound_reached {fuel : ℕ} {p : ImportPool}
    (h : (importServer fuel).Reaches RepointsFree importStart p) (j : JobId) :
    Sound j (stagesOf p) p.state.toTables := by
  refine ledgers_kept.reaches (steady_anyRemote fuel) (h.mono ?_) j
  rintro p t e hfree
  refine ⟨?_, fun _ _ _ _ => trivial, fun _ _ _ _ _ _ _ _ => trivial⟩
  rintro x k dto he
  rw [RepointsFree, he] at hfree
  exact hfree

/-- A cancellation under way weighs on nothing. -/
theorem stageOf_cancel {t : ImportThread} {eventId : String} {j : JobId}
    (h : t.call = .cancel eventId j) : stageOf t = .stopping j := by
  rw [stageOf, h]
  induction t.past with
  | nil => rfl
  | cons e past ih =>
    rw [List.foldl_cons]
    have hnote : Stage.note (.stopping j) e = .stopping j := by
      obtain ⟨o, r⟩ := e
      cases o <;> rfl
    exact (congrArg (fun s => past.foldl Stage.note s) hnote).trans ih

theorem total_atRest {p : ImportPool} (h : AtRest p) {f : Stage → ℕ}
    (hf : ∀ j, f (.stopping j) = 0) : total f (stagesOf p) = 0 := by
  obtain ⟨hqueue, hthreads⟩ := h
  have hzero : total f (p.threads.map stageOf : List Stage) = 0 := by
    refine total_eq_zero fun s hs => ?_
    obtain ⟨t, ht, rfl⟩ := List.mem_map.mp (Multiset.mem_coe.mp hs)
    obtain ⟨eventId, j, hcall⟩ := hthreads t ht
    rw [stageOf_cancel hcall, hf]
  rw [stagesOf, waiting, hqueue]
  simpa using hzero

/-- Overlapping imports that re-point no item in anybody's hands never strand
each other. -/
theorem overlapping_imports_conclude {fuel : ℕ} {p : ImportPool}
    (h : (importServer fuel).Reaches RepointsFree importStart p) (hrest : AtRest p) :
    Concluded p := by
  intro job hjob
  have hsound := sound_reached h job.id
  have hstatus : p.state.toTables.status job.id = some job.status := by
    rw [Tables.status, Tables.job, findRow_of_mem hsound.wf.jobIds hjob]
    rfl
  have hsettled := hsound.settled (total_atRest hrest fun _ => rfl)
    (fun x => total_atRest hrest fun _ => rfl) (total_atRest hrest fun _ => rfl) hstatus
  cases hcase : job.status with
  | listing => exact absurd hcase hsettled.1
  | importing => exact absurd hcase hsettled.2
  | done => exact .inl rfl
  | failed => exact .inr (.inl rfl)
  | cancelled => exact .inr (.inr rfl)

/-! A re-sync that overtakes a worker leaves the newer import importing. -/

/-- A provider that lists this page and an event that has this content already. -/
def answering (page : RemoteListingPage) (existing : Option String) : (o : ImportOp) → ImportRes o
  | .createJob _ => 0
  | .getJob _ => none
  | .getItem _ => none
  | .getExistingByRemoteIds _ _ _ => []
  | .insertItems _ => .ok []
  | .pendingItemIds _ => []
  | .countRemaining _ => 0
  | .queueImportFiles _ => .ok ()
  | .queueAssetProcess _ => .ok ()
  | .requireEvent _ => .ok "org"
  | .requireAccount _ _ => .ok ("account", .gDrive)
  | .getFreshAccessToken _ => .ok "token"
  | .listFilesPage _ _ _ => .ok page
  | .makeStagingFolder | .downloadToFile _ _ _ | .putFile _ _ _ | .createAsset _ => .ok ()
  | .deleteKeys _ => .ok ()
  | .hashFile _ => .ok "checksum"
  | .fileSize _ => .ok 10
  | .findByChecksum _ _ => .ok existing
  | .randomUUID => "asset"
  | .updateJob _ _ | .repointItem _ _ _ | .markItem _ _ | .incrementCounter _ _
  | .queueImportFolder _ | .rateLimitQueue _ | .removeFile _ => ()

/-- A folder with one photo. -/
def album : RemoteListingPage :=
  { files := [{ id := "photo", name := "photo.jpg", size := some 10, checksum := some "md5"
                mimeType := "image/jpeg" }] }

def importAlbum : ImportCall :=
  .createImport
    { eventId := "event", orgId := "", cloudAccountId := "account", provider := .gDrive
      folderRemoteId := "folder", recursive := false }

/-- Thread `i` performs its next `n` operations. -/
def performs (i n : ℕ) (answers : (o : ImportOp) → ImportRes o) : List ImportMove :=
  List.replicate n (.perform i answers)

/-- Thread `i` starts, performs `n` operations and leaves. -/
def wholeCall (i n : ℕ) (answers : (o : ImportOp) → ImportRes o) (c : ImportCall) :
    List ImportMove :=
  .start c :: (performs i n answers ++ [.leave i false])

/-- The second listing re-points the photo while the worker of the first import
downloads it; the photo turns out to be in the event already. -/
def overtaken : List ImportMove :=
  let answers := answering album (some "upload")
  wholeCall 0 4 answers importAlbum ++ wholeCall 0 9 answers (.importFolder 0) ++
    .start (.importFile 0) :: performs 0 3 answers ++
    wholeCall 1 4 answers importAlbum ++ wholeCall 1 9 answers (.importFolder 1) ++
    performs 0 13 answers ++ .leave 0 false :: wholeCall 0 1 answers (.importFile 0)

theorem not_imports_conclude : ¬ ∀ fuel p,
    (importServer fuel).Reaches (fun _ _ _ => True) importStart p → AtRest p → Concluded p := by
  intro h
  let run := (importServer 1).play (fun _ _ _ => True) overtaken importStart
  let p := run.get (by decide)
  have hreached : (importServer 1).Reaches (fun _ _ _ => True) importStart p :=
    Server.Reaches.start.play overtaken (Option.some_get _).symm
  have hthreads : p.threads.length = 0 := by decide
  have hrest : AtRest p := by
    refine ⟨by decide, fun t ht => ?_⟩
    rw [List.eq_nil_of_length_eq_zero hthreads] at ht
    cases ht
  have hstuck : ∃ job ∈ p.state.jobs, job.status = .importing := by decide
  obtain ⟨job, hjob, hstatus⟩ := hstuck
  have hconcluded := h 1 p hreached hrest job hjob
  rw [hstatus] at hconcluded
  simp at hconcluded

/-- The second import starts once the first has its photo. -/
def inTurn : List ImportMove :=
  let answers := answering album none
  wholeCall 0 4 answers importAlbum ++ wholeCall 0 9 answers (.importFolder 0) ++
    wholeCall 0 20 answers (.importFile 0) ++
    wholeCall 0 4 answers importAlbum ++ wholeCall 0 8 answers (.importFolder 1)

theorem overlapping_imports_conclude_inTurn :
    ∃ p, (importServer 1).play RepointsFree inTurn importStart = some p ∧ Concluded p := by
  let p := ((importServer 1).play RepointsFree inTurn importStart).get (by decide)
  have hplay : (importServer 1).play RepointsFree inTurn importStart = some p :=
    (Option.some_get _).symm
  have hthreads : p.threads.length = 0 := by decide
  refine ⟨p, hplay, overlapping_imports_conclude (Server.Reaches.start.play inTurn hplay) ?_⟩
  refine ⟨by decide, fun t ht => ?_⟩
  rw [List.eq_nil_of_length_eq_zero hthreads] at ht
  cases ht

end EventLens.Import

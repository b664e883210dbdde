import EventLens.ImportTally
import EventLens.ImportOverlap

/-!
The accounting of one import. In a run in which no other import touches the
items of a job, nobody cancels it and its folder answers every listing alike,
naming each file once, the job is never done while an item remains; once its
listing has returned and no worker of its items is left it is done, and its
counters are the numbers of its items of each final status.
-/

namespace EventLens.Import

open Programs

/-- The step leaves the items of job `j` to it, does not cancel it and answers
its listing as the folder always does. -/
def Alone (remote : String → Option String → RemoteListingPage) (j : JobId) (p : ImportPool)
    (t : ImportThread) (e : ImportEvent) : Prop :=
  match e with
  | ⟨.repointItem x k _, _⟩ =>
    if k = j then carriers p x = 0 else ∀ i ∈ p.state.items, i.id = x → i.importJobId ≠ j
  | ⟨.updateJob k dto, _⟩ => dto.status = .cancelled → k ≠ j
  | ⟨.listFilesPage _ folderId pageToken, r⟩ =>
    match (r : Except ImportError RemoteListingPage) with
    | .ok page => t.call = .importFolder j → page = remote folderId pageToken
    | .error _ => True
  | _ => True

instance (remote : String → Option String → RemoteListingPage) (j : JobId) (p : ImportPool)
    (t : ImportThread) (e : ImportEvent) : Decidable (Alone remote j p t e) := by
  unfold Alone
  split
  · infer_instance
  · infer_instance
  · split <;> infer_instance
  · infer_instance

/-- No worker of an item of the job is queued or running. -/
def NoWorker (j : JobId) (p : ImportPool) : Prop :=
  ∀ i ∈ p.state.items, i.importJobId = j →
    .importFile i.id ∉ p.state.queue ∧ ∀ t ∈ p.threads, t.call ≠ .importFile i.id

/-- Each item of the job is counted once, in the counter of its final status. -/
structure Accounted (j : JobId) (job : ImportJob) (t : Tables) : Prop where
  total : job.totalFiles = job.doneFiles + job.skippedFiles + job.failedFiles
  items : job.totalFiles = (t.itemsOf j).length
  final : ∀ i ∈ t.itemsOf j, i.status.remaining = false
  counts : ∀ status counter, status.counter = some counter →
    job.counted counter = t.countOf j status

/-! What a thread is about. -/

/-- The item a worker is about. -/
def Stage.worker : Stage → Option ItemId
  | .starting x | .chosen x _ | .admitted x _ | .downloading x _ | .backed x
  | .finished x _ _ | .counted x _ | .emptied x _ | .closing x _ => some x
  | _ => none

/-- The job a listing under way is about. -/
def Stage.lists : Stage → Option JobId
  | .opening j | .listing j _ | .captured j _ _ | .promised j _ => some j
  | _ => none

theorem worker_note {s : Stage} {e : ImportEvent} {x : ItemId} (h : (s.note e).worker = some x) :
    s.worker = some x := by
  unfold Stage.note at h
  split at h
  all_goals first
    | exact h
    | cases h
    | split at h
  all_goals first
    | exact h
    | cases h
    | split at h
  all_goals first
    | exact h
    | cases h

theorem lists_note {s : Stage} {e : ImportEvent} {j : JobId} (h : (s.note e).lists = some j) :
    s.lists = some j := by
  unfold Stage.note at h
  split at h
  all_goals first
    | exact h
    | cases h
    | split at h
  all_goals first
    | exact h
    | cases h
    | split at h
  all_goals first
    | exact h
    | cases h

theorem worker_stageOf {t : ImportThread} {x : ItemId} (h : (stageOf t).worker = some x) :
    t.call = .importFile x := by
  have hfirst : ∀ (past : List ImportEvent) (s : Stage),
      (past.foldl Stage.note s).worker = some x → s.worker = some x := by
    intro past
    induction past with
    | nil => exact fun _ => id
    | cons e past ih => exact fun s hs => worker_note (ih (s.note e) hs)
  have hworker := hfirst t.past t.call.first h
  cases hcall : t.call with
  | importFile y =>
    rw [hcall] at hworker
    cases hworker
    rfl
  | _ =>
    rw [hcall] at hworker
    cases hworker

theorem lists_stageOf {t : ImportThread} {j : JobId} (h : (stageOf t).lists = some j) :
    t.call = .importFolder j := by
  have hfirst : ∀ (past : List ImportEvent) (s : Stage),
      (past.foldl Stage.note s).lists = some j → s.lists = some j := by
    intro past
    induction past with
    | nil => exact fun _ => id
    | cons e past ih => exact fun s hs => lists_note (ih (s.note e) hs)
  have hlists := hfirst t.past t.call.first h
  cases hcall : t.call with
  | importFolder k =>
    rw [hcall] at hlists
    cases hlists
    rfl
  | _ =>
    rw [hcall] at hlists
    cases hlists

/-- A stage about an item is that of a queued call, or of a thread, for it. -/
theorem worker_call {p : ImportPool} {s : Stage} {x : ItemId} (hs : s ∈ stagesOf p)
    (hx : s.worker = some x) :
    .importFile x ∈ p.state.queue ∨ ∃ t ∈ p.threads, t.call = .importFile x := by
  rcases Multiset.mem_add.mp hs with hs | hs
  · obtain ⟨c, hc, rfl⟩ := List.mem_map.mp (Multiset.mem_coe.mp hs)
    left
    cases c with
    | importFile y =>
      cases hx
      exact hc
    | _ => cases hx
  · obtain ⟨t, ht, rfl⟩ := List.mem_map.mp (Multiset.mem_coe.mp hs)
    exact .inr ⟨t, ht, worker_stageOf hx⟩

/-! The tally over whole runs. -/

section Runs

variable {remote : String → Option String → RemoteListingPage} {fuel : ℕ} {j : JobId}
  {t : Tables} {s : Stage} {R S : Multiset Stage} {es : List (ImportCall × Verdict)}

theorem tallied_start (remote : String → Option String → RemoteListingPage) (fuel : ℕ)
    (j : JobId) : Tallied remote fuel j 0 {} [] where
  sound := sound_start j
  once job hjob := by cases hjob
  unique := List.Pairwise.nil
  belonging i hi := absurd hi List.not_mem_nil
  told s hs := absurd hs (Multiset.notMem_zero s)
  late _ := rfl
  ended hes := absurd hes List.not_mem_nil
  untouched := fun hone => by simp at hone
  vacant hdone := by cases hdone
  balanced := by rintro (hsome | hsome) <;> cases hsome

/-- A stage that has nothing to do with any job comes or goes. -/
theorem Tallied.call (h : Tallied remote fuel j S t es)
    (hs : s = .ordering ∨ ∃ k, s = .stopping k) : Tallied remote fuel j (s ::ₘ S) t es := by
  have hnone :
    s.folder j = 0 ∧ s.late j = 0 ∧ (∀ status, s.settling j status = 0) ∧ s.Told j t := by
    rcases hs with rfl | ⟨k, rfl⟩
    · exact ⟨rfl, rfl, fun _ => rfl, trivial⟩
    · exact ⟨rfl, rfl, fun _ => rfl, trivial⟩
  obtain ⟨hfolder, hlate, hsettling, htold⟩ := hnone
  refine
    { sound := h.sound.call hs
      once := h.once
      unique := h.unique
      belonging := h.belonging
      told := fun m hm => ?_
      late := ?_
      ended := h.ended
      untouched := ?_
      vacant := h.vacant
      balanced := fun hmoved job hjob => ?_ }
  · rcases Multiset.mem_cons.mp hm with rfl | hm
    · exact htold
    · exact h.told m hm
  · rw [total_cons, total_cons, hfolder, hlate, Nat.zero_add, Nat.zero_add]
    exact h.late
  · rw [total_cons, hfolder, Nat.zero_add]
    exact h.untouched
  · obtain ⟨htotal, hcounts⟩ := h.balanced hmoved job hjob
    refine ⟨htotal, fun status counter hcounter => ?_⟩
    rw [total_cons, hsettling, Nat.zero_add]
    exact hcounts status counter hcounter

/-- A call ends in a stage that is left for good. -/
theorem Tallied.leave {c : ImportCall} {verdict : Verdict}
    (h : Tallied remote fuel j (s ::ₘ R) t es) (hpost : c.Post verdict s)
    (hlimited : verdict ≠ .rateLimited) (hended : verdict ≠ .unended) :
    Tallied remote fuel j R t (es ++ [(c, verdict)]) := by
  have hlisted : (c, verdict) = (.importFolder j, .success) → s = .listed j := by
    rintro hsame
    cases hsame
    exact hpost
  have hsettling : ∀ status, s.settling j status = 0 := by
    intro status
    rcases post_leave hpost hlimited hended with rfl | rfl | ⟨k, rfl⟩ | ⟨k, rfl⟩ | ⟨k, rfl⟩ <;> rfl
  have hmem : (.importFolder j, .success) ∈ es ++ [(c, verdict)] →
      (.importFolder j, .success) ∈ es ∨ s = .listed j := by
    intro hmem
    rcases List.mem_append.mp hmem with hmem | hmem
    · exact .inl hmem
    · exact .inr (hlisted (List.mem_singleton.mp hmem).symm)
  refine
    { sound := h.sound.leave hpost hlimited hended
      once := h.once
      unique := h.unique
      belonging := h.belonging
      told := fun m hm => h.told m (Multiset.mem_cons_of_mem hm)
      late := fun hcase => ?_
      ended := fun hes => ?_
      untouched := fun hone => h.untouched (by rw [total_cons]; omega)
      vacant := h.vacant
      balanced := fun hmoved job hjob => ?_ }
  · have hzero : total (Stage.folder j) (s ::ₘ R) = 0 := by
      refine h.late ?_
      rcases hcase with hlate | hdone | hes
      · left
        rw [total_cons]
        omega
      · exact .inr (.inl hdone)
      · rcases hmem hes with hes | rfl
        · exact .inr (.inr hes)
        · left
          rw [total_cons, Stage.late, if_pos rfl]
          omega
    rw [total_cons] at hzero
    omega
  · rcases hmem hes with hes | rfl
    · exact h.ended hes
    · exact h.told _ (Multiset.mem_cons_self _ R) rfl
  · obtain ⟨htotal, hcounts⟩ := h.balanced hmoved job hjob
    refine ⟨htotal, fun status counter hcounter => ?_⟩
    have hcount := hcounts status counter hcounter
    rw [total_cons, hsettling, Nat.zero_add] at hcount
    exact hcount

/-- The tally of a job whose listing names each file once is kept. -/
theorem tally_kept (remote : String → Option String → RemoteListingPage) (fuel : ℕ) (j : JobId) :
    Keeps (oneRemote remote fuel j) (Reserved j) (fun k => k ≠ j)
      (fun S t es => Sound j S t ∧
      (ListedOnce remote fuel j t → Tallied remote fuel j S t es)) where
  ids _ _ _ h := h.1.wf.ids
  start := ⟨sound_start j, fun _ => tallied_start remote fuel j⟩
  call _ _ _ _ hs h := ⟨h.1.call hs, fun honce => (h.2 honce).call hs⟩
  deed _ _ _ _ _ _ h hdeed :=
    ⟨h.1.deed hdeed fun _ _ hreserved => hreserved.free,
      fun honce => (h.2 (honce.before hdeed)).deed hdeed honce⟩
  leave _ _ _ _ _ _ h hpost hlimited hended :=
    ⟨h.1.leave hpost hlimited hended, fun honce => (h.2 honce).leave hpost hlimited hended⟩

theorem tallied_reached {p : ImportPool}
    (h : (importServer fuel).Reaches (Alone remote j) importStart p)
    (honce : ListedOnce remote fuel j p.state.toTables) :
    Tallied remote fuel j (stagesOf p) p.state.toTables p.state.ended := by
  refine ((tally_kept remote fuel j).reaches (steady_oneRemote remote fuel j) (h.mono ?_)).2 honce
  intro p t e halone
  refine ⟨?_, ?_, ?_⟩
  · rintro x k dto he
    obtain ⟨o, r⟩ := e
    obtain rfl := he
    by_cases hk : k = j
    · rw [Alone, if_pos hk] at halone
      exact ⟨fun _ => halone, fun hkj => absurd hk hkj⟩
    · rw [Alone, if_neg hk] at halone
      exact ⟨fun hkj => absurd hkj hk, fun _ => halone⟩
  · rintro k dto he hcancelled
    obtain ⟨o, r⟩ := e
    obtain rfl := he
    exact halone hcancelled
  · rintro page k progress accessToken folderId pageToken rfl hstage hk
    refine halone ?_
    refine lists_stageOf ?_
    rw [hstage, hk]
    rfl

/-! What is left when the listing is over and no worker is. -/

theorem no_worker {p : ImportPool} (hnone : NoWorker j p) :
    ∀ s ∈ stagesOf p, ∀ i ∈ p.state.items, i.importJobId = j → s.worker ≠ some i.id := by
  intro s hs i hi hij hx
  obtain ⟨hqueue, hthreads⟩ := hnone i hi hij
  rcases worker_call hs hx with hmem | ⟨t, ht, hcall⟩
  · exact hqueue hmem
  · exact hthreads t ht hcall

/-- Nobody is about to close the job. -/
theorem Tallied.finishing_zero (h : Tallied remote fuel j S t es)
    (hworker : ∀ s ∈ S, ∀ i ∈ t.items, i.importJobId = j → s.worker ≠ some i.id) :
    total (Stage.finishing j) S = 0 := by
  have hown : ∀ s ∈ S, ∀ i ∈ t.itemsOf j, s.worker ≠ some i.id := by
    intro s hs i hi
    obtain ⟨hi, hij⟩ := mem_itemsOf.mp hi
    exact hworker s hs i hi hij
  refine total_eq_zero fun s hs => ?_
  have htold := h.told s hs
  cases s with
  | finished x k final | counted x k =>
    by_cases hk : k = j
    · obtain ⟨-, i, hi, rfl⟩ := htold hk
      exact absurd rfl (hown _ hs i hi)
    · simp [Stage.finishing, hk]
  | emptied x k | closing x k =>
    by_cases hk : k = j
    · obtain ⟨⟨-, i, hi, rfl⟩, -⟩ := htold hk
      exact absurd rfl (hown _ hs i hi)
    · simp [Stage.finishing, hk]
  | _ => rfl

/-- Nobody carries an item of the job. -/
theorem Tallied.held_zero (h : Tallied remote fuel j S t es)
    (hworker : ∀ s ∈ S, ∀ i ∈ t.items, i.importJobId = j → s.worker ≠ some i.id)
    (hfolder : total (Stage.folder j) S = 0) {i : ImportItem} (hi : i ∈ t.items)
    (hij : i.importJobId = j) :
    total (Stage.held i.id) S = 0 := by
  refine total_eq_zero fun s hs => ?_
  by_contra hheld
  rw [Stage.held] at hheld
  by_cases hparked : 1 ≤ s.parked i.id
  · obtain ⟨c, hc, hci, hlisting⟩ := claim_of_parked hparked
    have hjob := (h.sound.claims s hs c hc i hi hci.symm (.inr hij)).1
    rw [← hjob, hij] at hlisting
    have hle := le_total (f := Stage.folder j) hs
    omega
  · have hx : s.worker = some i.id := by
      have hworking : 1 ≤ s.working i.id := by omega
      cases s with
      | starting x | chosen x k | admitted x k | downloading x k | backed x =>
        by_cases hix : x = i.id
        · exact congrArg some hix
        · simp [Stage.working, hix] at hworking
      | _ => cases hworking
    exact hworker s hs i hi hij hx

theorem settling_le_finishing (j : JobId) (status : ImportItemStatus) (S : Multiset Stage) :
    total (Stage.settling j status) S ≤ total (Stage.finishing j) S := by
  refine total_mono (fun s => ?_) S
  cases s with
  | finished x k final =>
    by_cases hk : k = j
    · simp only [Stage.settling, Stage.finishing, hk, if_true]
      split <;> omega
    · simp [Stage.settling, hk]
  | _ => exact Nat.zero_le _

/-- Items of which none remains are split by their final status. -/
theorem length_eq_final_counts {rows : List ImportItem}
    (hrows : ∀ i ∈ rows, i.status.remaining = false) :
    rows.length = rows.countP (fun i => i.status = .done) +
      rows.countP (fun i => i.status = .skippedDuplicate) +
      rows.countP (fun i => i.status = .failed) := by
  induction rows with
  | nil => rfl
  | cons i rows ih =>
    have hrest := ih fun i' hi' => hrows i' (List.mem_cons_of_mem i hi')
    have hi := hrows i List.mem_cons_self
    simp only [List.length_cons, List.countP_cons]
    cases hst : i.status with
    | pending | downloading => rw [hst] at hi; cases hi
    | done | skippedDuplicate | failed => simp; omega

/-- Single-import accounting. -/
theorem single_import_accounted {p : ImportPool}
    (h : (importServer fuel).Reaches (Alone remote j) importStart p)
    (honce : ListedOnce remote fuel j p.state.toTables) :
    (p.state.toTables.status j = some .done → Vacant j p.state.toTables) ∧
      ((.importFolder j, .success) ∈ p.state.ended → NoWorker j p →
        ∃ job, p.state.toTables.job j = some job ∧ job.status = .done ∧
          Accounted j job p.state.toTables) := by
  have htallied := tallied_reached h honce
  refine ⟨htallied.vacant, fun hended hnone => ?_⟩
  have hworker := no_worker hnone
  have hfolder := htallied.late (.inr (.inr hended))
  have hfinishing := htallied.finishing_zero hworker
  have hdone : p.state.toTables.status j = some .done := by
    rcases htallied.ended hended with himporting | hdone
    · rcases htallied.sound.closing himporting with ⟨i, hi, hij, hrem⟩ | hclosing
      · have hcarried := htallied.sound.carried himporting i hi hij hrem
        have hzero := htallied.held_zero hworker hfolder hi hij
        omega
      · omega
    · exact hdone
  obtain ⟨job, hjob, hstatus⟩ := Option.map_eq_some_iff.mp hdone
  obtain ⟨htotal, hcounts⟩ := htallied.balanced (.inr hdone) job hjob
  have hcounted : ∀ status counter, status.counter = some counter →
      job.counted counter = p.state.toTables.countOf j status := by
    intro status counter hcounter
    have hcount := hcounts status counter hcounter
    have hsettling := settling_le_finishing j status (stagesOf p)
    omega
  have hfinal := htallied.vacant hdone
  refine ⟨job, hjob, hstatus, ?_, htotal, hfinal, hcounted⟩
  have hdone' := hcounted .done .doneFiles rfl
  have hskipped := hcounted .skippedDuplicate .skippedFiles rfl
  have hfailed := hcounted .failed .failedFiles rfl
  simp only [ImportJob.counted, Tables.countOf] at hdone' hskipped hfailed
  rw [htotal, length_eq_final_counts hfinal, hdone', hskipped, hfailed]

end Runs

/-! Two photos, one of which is in the event already; the workers take turns. -/

def photos : RemoteListingPage :=
  { files :=
      [{ id := "first", name := "first.jpg", size := some 10, checksum := some "md5"
         mimeType := "image/jpeg" },
        { id := "second", name := "second.jpg", size := some 20, checksum := none
          mimeType := "image/jpeg" }] }

def byTurns : List ImportMove :=
  let found := answering photos (some "upload")
  let fresh := answering photos none
  wholeCall 0 4 fresh importAlbum ++ wholeCall 0 9 fresh (.importFolder 0) ++
    .start (.importFile 0) :: .start (.importFile 1) ::
    performs 0 11 found ++ performs 1 15 fresh ++ performs 0 5 found ++ performs 1 4 fresh ++
    [.leave 1 false, .leave 0 false]

theorem single_import_accounted_byTurns :
    ∃ p, (importServer 1).play (Alone (fun _ _ => photos) 0) byTurns importStart = some p ∧
      ∃ job, p.state.toTables.job 0 = some job ∧ job.status = .done ∧
        Accounted 0 job p.state.toTables := by
  let run := (importServer 1).play (Alone (fun _ _ => photos) 0) byTurns importStart
  let p := run.get (by decide)
  have hplay : run = some p := (Option.some_get _).symm
  have hlisting : ∀ job ∈ p.state.toTables.job 0,
      listingOf (fun _ _ => photos) 1 job = some photos.files := by decide
  have honce : ListedOnce (fun _ _ => photos) 1 0 p.state.toTables := fun job hjob =>
    ⟨photos.files, hlisting job hjob, by decide⟩
  have hthreads : p.threads.length = 0 := by decide
  have hqueue : p.state.queue = [] := by decide
  have hnone : NoWorker 0 p := by
    intro i _ _
    rw [hqueue, List.eq_nil_of_length_eq_zero hthreads]
    simp
  have hreached := Server.Reaches.start.play byTurns hplay
  exact ⟨p, hplay, (single_import_accounted hreached honce).2 (by decide) hnone⟩

end EventLens.Import

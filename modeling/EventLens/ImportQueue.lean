import EventLens.ImportStages
import EventLens.Pools
import Mathlib.Algebra.BigOperators.Group.Multiset.Basic

/-!
The import queue and its workers. A call waiting in the queue stands in its
first stage, so that the work under way is one multiset of stages. Every step
of the system replaces one stage by what becomes of it; the deeds list what
that can be, with the effect on the import tables and everything the call
learnt at that step.
-/

namespace EventLens.Import

open Programs Contract

abbrev ImportThread := Thread ImportCall ImportOp ImportRes Verdict
abbrev ImportPool := Pool ImportCall ImportOp ImportRes ImportWorld Verdict
abbrev ImportMove := Move ImportCall ImportOp ImportRes

/-- Queued work starts when a worker takes it, the calls of the API at any
time. A rate limited call goes back to waiting, a failed listing may. -/
def importServer (fuel : ℕ) : Server ImportCall ImportOp ImportRes ImportWorld Verdict where
  handler := importHandler
  prog := ImportCall.prog fuel
  accept c w :=
    match c with
    | .importFolder _ | .importFile _ =>
      if c ∈ w.queue then some { w with queue := w.queue.erase c } else none
    | .createImport _ | .cancel _ _ => some w
  release c verdict again w :=
    match verdict with
    | .unended => none
    | .rateLimited => some { w with queue := w.queue ++ [c] }
    | .failed =>
      if again then some { w with queue := w.queue ++ [c] }
      else some { w with ended := w.ended ++ [(c, verdict)] }
    | .success | .skipped | .refused _ => some { w with ended := w.ended ++ [(c, verdict)] }

/-- Nothing imported yet. -/
def importStart : ImportPool := { threads := [], state := {} }

/-- The stage a call in progress has reached. -/
def stageOf (t : ImportThread) : Stage := t.past.foldl Stage.note t.call.first

def waiting (w : ImportWorld) : Multiset Stage := (w.queue.map ImportCall.first : List Stage)

/-- The stages of the waiting and the running calls. -/
def stagesOf (p : ImportPool) : Multiset Stage :=
  waiting p.state + (p.threads.map stageOf : List Stage)

def Tables.job (t : Tables) (j : JobId) : Option ImportJob := findRow ImportJob.id j t.jobs

def Tables.status (t : Tables) (j : JobId) : Option ImportJobStatus :=
  (t.job j).map (fun job => job.status)

/-- The deeds of the system: a stage, the tables it finds, the stages it
becomes and the tables it leaves. `Q` says which items a listing may re-point
now, `K` which jobs may be cancelled. -/
inductive Deed (V : Remote) (Q : JobId → ItemId → Prop) (K : JobId → Prop) :
    Stage → Tables → Multiset Stage → Tables → Prop
  | stay (s t) : Deed V Q K s t {s} t
  | open_ (j t job) (hjob : t.job j = some job) (hstatus : job.status ≠ .cancelled) :
      Deed V Q K (.opening j) t {.listing j { job := job }} t
  | skip (j t) (hjob : ∀ job, t.job j = some job → job.status = .cancelled) :
      Deed V Q K (.opening j) t {.over} t
  | page (j p t files) :
      Deed V Q K (.listing j p) t {.listing j { p with named := p.named ++ files }} t
  | look (j p t rows) (hrows : ∀ r ∈ rows, r ∈ t.items ∧ r.eventId = p.job.eventId ∧
        r.provider = p.job.provider) :
      Deed V Q K (.listing j p) t {.listing j { p with known := rows }} t
  | repoint (j p t x) (dto : Repoint)
      (hstatus : dto.status = .pending ∨ dto.status = .skippedDuplicate)
      (hwithin : p.Within V) (hmay : p.MayRepoint x) (hQ : Q j x) :
      Deed V Q K (.listing j p) t {.listing j (p.repointed x dto.status)}
        (t.updateItems x (dto.apply j))
  | insert (j p t) (rows : List NewItem) (hwithin : p.Within V)
      (hrows : ∀ n ∈ rows, n.importJobId = j ∧ n.eventId = p.job.eventId ∧
        n.provider = p.job.provider ∧ n.remoteId ∈ p.named.map (fun f => f.id))
      (hunique : uniqueFiles (t.items ++ freshRows t.nextItemId rows)) :
      Deed V Q K (.listing j p) t
        {.listing j { p with settled := p.settled ++ freshRows t.nextItemId rows }}
        (t.addItems rows)
  | capture (j p t ids) (hcomplete : p.Complete V)
      (hids : ids = (t.items.filter
        (fun i => i.importJobId = j ∧ i.status = .pending)).map (fun i => i.id)) :
      Deed V Q K (.listing j p) t {.captured j p ids} t
  | fail (j p t) (dto : JobChange) (hstatus : dto.status = .failed) (htotals : dto.totals = none) :
      Deed V Q K (.listing j p) t {.broken j} (t.updateJobs j dto.apply)
  | breakOff (j ids t) (dto : JobChange) (hstatus : dto.status = .failed)
      (htotals : dto.totals = none) :
      Deed V Q K (.promised j ids) t {.broken j} (t.updateJobs j dto.apply)
  | conclude (j p t) (dto : JobChange) (hstatus : dto.status = .done)
      (htotals : dto.totals = some (p.settled.length, p.skips)) :
      Deed V Q K (.captured j p []) t {.listed j} (t.updateJobs j dto.apply)
  | fanOut (j p ids t) (dto : JobChange) (hids : ids ≠ []) (hstatus : dto.status = .importing)
      (htotals : dto.totals = some (p.settled.length, p.skips)) :
      Deed V Q K (.captured j p ids) t {.promised j ids} (t.updateJobs j dto.apply)
  | hand (j ids t) :
      Deed V Q K (.promised j ids) t (.listed j ::ₘ (ids.map Stage.starting : List Stage)) t
  | choose (t) (item : ImportItem) (hitem : item ∈ t.items) (hpending : item.status = .pending) :
      Deed V Q K (.starting item.id) t {.chosen item.id item.importJobId} t
  | pass (x t) (hitem : ∀ item ∈ t.items, item.id = x → item.status ≠ .pending) :
      Deed V Q K (.starting x) t {.over} t
  | agree (x j t) : Deed V Q K (.chosen x j) t {.admitted x j} t
  | refuse (x j t) (hjob : ∀ job, t.job j = some job → job.status = .cancelled) :
      Deed V Q K (.chosen x j) t {.over} t
  | download (x j t) (dto : ItemChange) (hstatus : dto.status = .downloading) :
      Deed V Q K (.admitted x j) t {.downloading x j} (t.updateItems x dto.apply)
  | putBack (x j t) (dto : ItemChange) (hstatus : dto.status = .pending) :
      Deed V Q K (.downloading x j) t {.backed x} (t.updateItems x dto.apply)
  | finish (x j t) (dto : ItemChange) (hstatus : dto.status.remaining = false) :
      Deed V Q K (.downloading x j) t {.finished x j dto.status} (t.updateItems x dto.apply)
  | count (x j status t counter) (hcounter : status.counter = some counter) :
      Deed V Q K (.finished x j status) t {.counted x j} (t.updateJobs j (ImportJob.bump counter))
  | empty (x j t) (hnone : ∀ i ∈ t.items, i.importJobId = j → i.status.remaining = false) :
      Deed V Q K (.counted x j) t {.emptied x j} t
  | more (x j t) (hsome : ∃ i ∈ t.items, i.importJobId = j ∧ i.status.remaining = true) :
      Deed V Q K (.counted x j) t {.over} t
  | confirm (x j t) (hstatus : t.status j = some .importing) :
      Deed V Q K (.emptied x j) t {.closing x j} t
  | ignore (x j t) (hstatus : t.status j ≠ some .importing) :
      Deed V Q K (.emptied x j) t {.over} t
  | close (x j t) (dto : JobChange) (hstatus : dto.status = .done)
      (htotals : dto.totals = none) :
      Deed V Q K (.closing x j) t {.over} (t.updateJobs j dto.apply)
  | order (t job) : Deed V Q K .ordering t {.created t.nextJobId} (t.addJob job)
  | enqueue (j t) : Deed V Q K (.created j) t {.over, .opening j} t
  | cancel (j t) (dto : JobChange) (hstatus : dto.status = .cancelled)
      (htotals : dto.totals = none) (hK : K j) :
      Deed V Q K (.stopping j) t {.stopping j} (t.updateJobs j dto.apply)
  | retry (j p t) : Deed V Q K (.listing j p) t {.opening j} t
  | retryBroken (j t) : Deed V Q K (.broken j) t {.opening j} t
  | requeue (x t) : Deed V Q K (.backed x) t {.starting x} t

section Perform

variable {V : Remote} {Q : JobId → ItemId → Prop} {K : JobId → Prop} {s : Stage} {o : ImportOp}

theorem outside_keeps (ho : o.outside = true) (r : ImportRes o) (w : ImportWorld) :
    (importHandler o r w).2 = w := by
  cases o <;> first | rfl | cases ho

theorem remoteId_freshRows (rows : List NewItem) (next : ItemId) :
    (freshRows next rows).map (fun i => i.remoteId) = rows.map (fun n => n.remoteId) := by
  induction rows generalizing next with
  | nil => rfl
  | cons n rows ih => rw [freshRows, List.map_cons, List.map_cons, ih]; rfl

theorem waiting_snoc (w : ImportWorld) (c : ImportCall) :
    waiting { w with queue := w.queue ++ [c] } = c.first ::ₘ waiting w := by
  rw [waiting, waiting, List.map_append, List.map_singleton]
  exact Multiset.coe_eq_coe.mpr (List.perm_append_singleton _ _)

theorem mem_freshRows {rows : List NewItem} {next : ItemId} {i : ImportItem}
    (h : i ∈ freshRows next rows) : ∃ n ∈ rows, next ≤ i.id ∧ i = n.row i.id := by
  induction rows generalizing next with
  | nil => cases h
  | cons n rows ih =>
    rcases List.mem_cons.mp h with rfl | h
    · exact ⟨n, by simp, Nat.le_refl _, rfl⟩
    · obtain ⟨m, hm, hle, hi⟩ := ih h
      exact ⟨m, by simp [hm], Nat.le_of_succ_le hle, hi⟩

theorem waiting_append (w : ImportWorld) (cs : List ImportCall) :
    waiting { w with queue := w.queue ++ cs } =
      waiting w + (cs.map ImportCall.first : List Stage) := by
  rw [waiting, waiting, List.map_append, Multiset.coe_add]

/-- What the operation does to the tables and to the stage is a deed. -/
def Deeds (V : Remote) (Q : JobId → ItemId → Prop) (K : JobId → Prop) (s : Stage) (o : ImportOp)
    (r : ImportRes o) (w : ImportWorld) : Prop :=
  ∃ ns, Deed V Q K s w.toTables ns (importHandler o r w).2.toTables ∧
    waiting (importHandler o r w).2 + {s.note ⟨o, (importHandler o r w).1⟩} = waiting w + ns ∧
    (importHandler o r w).2.ended = w.ended

section Deeds

variable {w : ImportWorld}

/-- A listing opens for a job that is not cancelled. -/
theorem deeds_opening (k : JobId) (r : ImportRes (.getJob k)) :
    Deeds V Q K (.opening k) (.getJob k) r w := by
  unfold Deeds
  change ∃ ns, Deed V Q K (.opening k) w.toTables ns w.toTables ∧ waiting w +
    {Stage.note (.opening k) ⟨.getJob k, w.job k⟩} = waiting w + ns ∧ w.ended = w.ended
  cases hjob : w.job k with
  | none => exact ⟨_, Deed.skip k _ (by simp [hjob]), rfl, rfl⟩
  | some job =>
    by_cases hstatus : job.status = .cancelled
    · refine ⟨_, Deed.skip k _ (by simp [hjob, hstatus]), ?_, rfl⟩
      rw [Stage.note_opening, if_pos hstatus]
    · refine ⟨_, Deed.open_ k _ job hjob hstatus, ?_, rfl⟩
      rw [Stage.note_opening, if_neg hstatus]

theorem deeds_insert {j : JobId} {p : Progress} {rows : List NewItem} (hwithin : p.Within V)
    (hrows : ∀ n ∈ rows, n.importJobId = j ∧ n.eventId = p.job.eventId ∧
      n.provider = p.job.provider ∧ n.remoteId ∈ p.named.map (fun f => f.id))
    (r : ImportRes (.insertItems rows)) :
    Deeds V Q K (.listing j p) (.insertItems rows) r w := by
  unfold Deeds
  by_cases hunique : uniqueFiles (w.items ++ freshRows w.nextItemId rows)
  · have hrun : importHandler (.insertItems rows) r w =
        (.ok (freshRows w.nextItemId rows), { w with toTables := w.addItems rows }) :=
      if_pos hunique
    rw [hrun]
    exact ⟨_, Deed.insert j p _ rows hwithin hrows hunique, rfl, rfl⟩
  · have hrun : importHandler (.insertItems rows) r w =
        (.error (.other "error: duplicate key value violates unique constraint"), w) :=
      if_neg hunique
    rw [hrun]
    exact ⟨_, Deed.stay _ _, rfl, rfl⟩

theorem deeds_hand {j : JobId} (ks : List ItemId) (r : ImportRes (.queueImportFiles ks)) :
    Deeds V Q K (.promised j ks) (.queueImportFiles ks) r w := by
  unfold Deeds
  cases r with
  | error text => exact ⟨_, Deed.stay _ _, rfl, rfl⟩
  | ok _ =>
    refine ⟨_, Deed.hand j ks _, ?_, rfl⟩
    change waiting { w with queue := w.queue ++ ks.map .importFile } + {.listed j} = _
    rw [waiting_append, List.map_map, add_assoc, add_comm _ {Stage.listed j},
      Multiset.singleton_add]
    rfl

/-- A worker chooses a pending item and passes over any other. -/
theorem deeds_starting (hids : (w.items.map ImportItem.id).Nodup) (y : ItemId)
    (r : ImportRes (.getItem y)) :
    Deeds V Q K (.starting y) (.getItem y) r w := by
  unfold Deeds
  change ∃ ns, Deed V Q K (.starting y) w.toTables ns w.toTables ∧ waiting w +
    {Stage.note (.starting y) ⟨.getItem y, findRow ImportItem.id y w.items⟩} =
      waiting w + ns ∧ w.ended = w.ended
  cases hitem : findRow ImportItem.id y w.items with
  | none =>
    have hnone := findRow_eq_none.mp hitem
    exact ⟨_, Deed.pass y _ (fun i hi hy => absurd hy (hnone i hi)), rfl, rfl⟩
  | some item =>
    obtain ⟨hmem, rfl⟩ := mem_of_findRow hitem
    by_cases hstatus : item.status = .pending
    · refine ⟨_, Deed.choose _ item hmem hstatus, ?_, rfl⟩
      rw [Stage.note_starting, if_pos hstatus]
    · refine ⟨_, Deed.pass item.id _ ?_, ?_, rfl⟩
      · intro i hi hy
        rw [row_unique hids hi hmem hy]
        exact hstatus
      · rw [Stage.note_starting, if_neg hstatus]

theorem deeds_chosen (x : ItemId) (k : JobId) (r : ImportRes (.getJob k)) :
    Deeds V Q K (.chosen x k) (.getJob k) r w := by
  unfold Deeds
  change ∃ ns, Deed V Q K (.chosen x k) w.toTables ns w.toTables ∧ waiting w +
    {Stage.note (.chosen x k) ⟨.getJob k, w.job k⟩} = waiting w + ns ∧ w.ended = w.ended
  cases hjob : w.job k with
  | none => exact ⟨_, Deed.refuse x k _ (by simp [hjob]), rfl, rfl⟩
  | some job =>
    by_cases hstatus : job.status = .cancelled
    · refine ⟨_, Deed.refuse x k _ (by simp [hjob, hstatus]), ?_, rfl⟩
      rw [Stage.note_chosen, if_pos hstatus]
    · refine ⟨_, Deed.agree x k _, ?_, rfl⟩
      rw [Stage.note_chosen, if_neg hstatus]

/-- The last item of a job has been counted, or more remain. -/
theorem deeds_counted (x : ItemId) (k : JobId) (r : ImportRes (.countRemaining k)) :
    Deeds V Q K (.counted x k) (.countRemaining k) r w := by
  unfold Deeds
  change ∃ ns, Deed V Q K (.counted x k) w.toTables ns w.toTables ∧ waiting w +
    {if w.items.countP (fun i => i.importJobId = k ∧ i.status.remaining) = 0 then .emptied x k
      else .over} = waiting w + ns ∧ w.ended = w.ended
  by_cases hcount : w.items.countP (fun i => i.importJobId = k ∧ i.status.remaining) = 0
  · rw [if_pos hcount]
    refine ⟨_, Deed.empty x k _ (fun i hi hk => ?_), rfl, rfl⟩
    have hnot := List.countP_eq_zero.mp hcount i hi
    simpa [hk] using hnot
  · rw [if_neg hcount]
    obtain ⟨i, hi, hrem⟩ := List.countP_pos_iff.mp (Nat.pos_of_ne_zero hcount)
    exact ⟨_, Deed.more x k _ ⟨i, hi, of_decide_eq_true hrem⟩, rfl, rfl⟩

theorem deeds_emptied (x : ItemId) (k : JobId) (r : ImportRes (.getJob k)) :
    Deeds V Q K (.emptied x k) (.getJob k) r w := by
  unfold Deeds
  change ∃ ns, Deed V Q K (.emptied x k) w.toTables ns w.toTables ∧ waiting w +
    {if (w.job k).any (fun job => job.status = .importing) then .closing x k else .over} =
      waiting w + ns ∧ w.ended = w.ended
  by_cases hstatus : w.status k = some .importing
  · refine ⟨_, Deed.confirm x k _ hstatus, ?_, rfl⟩
    obtain ⟨job, hjob, hjob'⟩ := Option.map_eq_some_iff.mp hstatus
    rw [if_pos (by simp [hjob, hjob'])]
  · refine ⟨_, Deed.ignore x k _ hstatus, ?_, rfl⟩
    rw [if_neg]
    cases hjob : w.job k with
    | none => simp
    | some job =>
      intro hany
      refine hstatus ?_
      rw [Tables.status, hjob]
      simpa using hany

end Deeds

/-- Every operation a stage permits is a deed. -/
theorem deed_perform {w : ImportWorld} (hids : (w.items.map ImportItem.id).Nodup)
    (hpermit : s.Permits V o) (r : ImportRes o)
    (hQ : ∀ x k dto, o = .repointItem x k dto → Q k x)
    (hK : ∀ k dto, o = .updateJob k dto → dto.status = .cancelled → K k) :
    ∃ ns, Deed V Q K s w.toTables ns (importHandler o r w).2.toTables ∧
      waiting (importHandler o r w).2 + {s.note ⟨o, (importHandler o r w).1⟩} = waiting w + ns ∧
      (importHandler o r w).2.ended = w.ended := by
  rcases hpermit with ho | hpermit
  · rw [outside_keeps ho, note_outside ho]
    exact ⟨_, Deed.stay s _, rfl, rfl⟩
  · split at hpermit
    case h_1 j k =>
      subst hpermit
      exact deeds_opening k r
    case h_2 j p accessToken folderId pageToken =>
      cases r with
      | error e => exact ⟨_, Deed.stay _ _, rfl, rfl⟩
      | ok page => exact ⟨_, Deed.page j p _ _, rfl, rfl⟩
    case h_3 j p eventId provider remoteIds =>
      obtain ⟨rfl, rfl⟩ := hpermit
      refine ⟨_, Deed.look j p _ _ ?_, rfl, rfl⟩
      intro i hi
      obtain ⟨hmem, hi⟩ := List.mem_filter.mp hi
      obtain ⟨hevent, hprovider, -⟩ := of_decide_eq_true hi
      exact ⟨hmem, hevent, hprovider⟩
    case h_4 j p x k dto =>
      obtain ⟨rfl, hstatus, hwithin, hmay⟩ := hpermit
      exact ⟨_, Deed.repoint _ p _ x dto hstatus hwithin hmay (hQ x _ dto rfl), rfl, rfl⟩
    case h_5 j p rows =>
      exact deeds_insert hpermit.1 hpermit.2 r
    case h_6 j p k =>
      obtain ⟨rfl, hcomplete⟩ := hpermit
      exact ⟨_, Deed.capture _ p _ _ hcomplete rfl, rfl, rfl⟩
    case h_7 j p k dto =>
      obtain ⟨rfl, hstatus, htotals⟩ := hpermit
      exact ⟨_, Deed.fail _ p _ dto hstatus htotals, rfl, rfl⟩
    case h_8 j p ids k dto =>
      obtain ⟨rfl, htotals, hstatus⟩ := hpermit
      by_cases hids' : ids = []
      · subst hids'
        exact ⟨_, Deed.conclude _ p _ dto hstatus htotals, rfl, rfl⟩
      · rw [if_neg hids'] at hstatus
        refine ⟨_, Deed.fanOut _ p ids _ dto hids' hstatus htotals, ?_, rfl⟩
        rw [Stage.note_captured, if_neg hids']
        rfl
    case h_9 j ids ks =>
      subst hpermit
      exact deeds_hand ks r
    case h_10 j ids k dto =>
      obtain ⟨rfl, hstatus, htotals⟩ := hpermit
      exact ⟨_, Deed.breakOff _ ids _ dto hstatus htotals, rfl, rfl⟩
    case h_11 x y =>
      subst hpermit
      exact deeds_starting hids y r
    case h_12 x j k =>
      subst hpermit
      exact deeds_chosen x k r
    case h_13 x j y dto =>
      obtain ⟨rfl, hstatus⟩ := hpermit
      exact ⟨_, Deed.download _ j _ dto hstatus, rfl, rfl⟩
    case h_14 x j y dto =>
      obtain ⟨rfl, hstatus⟩ := hpermit
      by_cases hpending : dto.status = .pending
      · refine ⟨_, Deed.putBack _ j _ dto hpending, ?_, rfl⟩
        rw [Stage.note_downloading, if_pos hpending]
        rfl
      · refine ⟨_, Deed.finish _ j _ dto ?_, ?_, rfl⟩
        · cases h : dto.status <;> simp_all [ImportItemStatus.remaining]
        · rw [Stage.note_downloading, if_neg hpending]
          rfl
    case h_15 x j status k counter =>
      obtain ⟨rfl, hcounter⟩ := hpermit
      exact ⟨_, Deed.count x _ status _ counter hcounter, rfl, rfl⟩
    case h_16 x j k =>
      subst hpermit
      exact deeds_counted x k r
    case h_17 x j k =>
      subst hpermit
      exact deeds_emptied x k r
    case h_18 x j k dto =>
      obtain ⟨rfl, hstatus, htotals⟩ := hpermit
      exact ⟨_, Deed.close x _ _ dto hstatus htotals, rfl, rfl⟩
    case h_19 job => exact ⟨_, Deed.order _ job, rfl, rfl⟩
    case h_20 j k =>
      subst hpermit
      refine ⟨_, Deed.enqueue k _, ?_, rfl⟩
      change waiting { w with queue := w.queue ++ [.importFolder k] } + {.over} = _
      rw [waiting_append, add_assoc]
      exact congrArg (waiting w + ·) (Multiset.pair_comm (Stage.opening k) Stage.over)
    case h_21 j k => exact ⟨_, Deed.stay _ _, rfl, rfl⟩
    case h_22 j k dto =>
      obtain ⟨rfl, hstatus, htotals⟩ := hpermit
      exact ⟨_, Deed.cancel _ _ dto hstatus htotals (hK _ dto rfl hstatus), rfl, rfl⟩
    case h_23 => exact hpermit.elim

/-- The tables answer as a call counts on; a page of a listing has to be one
the remote folder may answer. -/
theorem expects_perform {w : ImportWorld} (hids : (w.items.map ImportItem.id).Nodup)
    (r : ImportRes o)
    (hpages : ∀ page j p accessToken folderId pageToken,
      (⟨o, (importHandler o r w).1⟩ : ImportEvent) =
        ⟨.listFilesPage accessToken folderId pageToken, .ok page⟩ →
          s = .listing j p → V.pages j folderId pageToken page) :
    s.Expects V ⟨o, (importHandler o r w).1⟩ := by
  cases o with
  | getJob k =>
    intro job hjob
    exact (mem_of_findRow hjob).2
  | getExistingByRemoteIds eventId provider remoteIds =>
    exact List.Nodup.sublist (List.filter_sublist.map _) hids
  | insertItems rows =>
    intro out hout
    by_cases hunique : uniqueFiles (w.items ++ freshRows w.nextItemId rows)
    · have hrun :
        (importHandler (.insertItems rows) r w).1 = .ok (freshRows w.nextItemId rows) := by
        simp only [importHandler, if_pos hunique]
      rw [hrun] at hout
      cases hout
      refine ⟨remoteId_freshRows rows _, fun i hi => ?_⟩
      obtain ⟨n, -, -, hi⟩ := mem_freshRows hi
      rw [hi]
      rfl
    · have hrun : (importHandler (.insertItems rows) r w).1 =
          .error (.other "error: duplicate key value violates unique constraint") := by
        simp only [importHandler, if_neg hunique]
      rw [hrun] at hout
      cases hout
  | listFilesPage accessToken folderId pageToken =>
    intro page j p hpage hs
    exact hpages page j p _ _ _ (congrArg (Sigma.mk _) hpage) hs
  | _ => trivial

end Perform

/-- What preserves an invariant of the work under way, the tables and the
calls that ended. -/
structure Keeps (V : Remote) (Q : Multiset Stage → Tables → JobId → ItemId → Prop)
    (K : JobId → Prop)
    (I : Multiset Stage → Tables → List (ImportCall × Verdict) → Prop) : Prop where
  ids : ∀ S t es, I S t es → (t.items.map ImportItem.id).Nodup
  start : I 0 {} []
  call : ∀ s S t es, s = .ordering ∨ (∃ j, s = .stopping j) → I S t es → I (s ::ₘ S) t es
  deed : ∀ s R t ns t' es, I (s ::ₘ R) t es → Deed V (Q (s ::ₘ R) t) K s t ns t' →
    I (ns + R) t' es
  leave : ∀ c verdict s R t es, I (s ::ₘ R) t es → c.Post verdict s → verdict ≠ .rateLimited →
    verdict ≠ .unended → I R t (es ++ [(c, verdict)])

/-- The condition on the steps of a run: which items may be re-pointed, which
jobs cancelled and which pages answered. -/
def Allows (V : Remote) (Q : Multiset Stage → Tables → JobId → ItemId → Prop) (K : JobId → Prop)
    (p : ImportPool) (t : ImportThread) (e : ImportEvent) : Prop :=
  (∀ x k dto, e.1 = .repointItem x k dto → Q (stagesOf p) p.state.toTables k x) ∧
  (∀ k dto, e.1 = .updateJob k dto → dto.status = .cancelled → K k) ∧
  (∀ page j progress accessToken folderId pageToken,
    e = ⟨.listFilesPage accessToken folderId pageToken, .ok page⟩ →
      stageOf t = .listing j progress → V.pages j folderId pageToken page)

section Rule

variable {V : Remote} {Q : Multiset Stage → Tables → JobId → ItemId → Prop} {K : JobId → Prop}
  {I : Multiset Stage → Tables → List (ImportCall × Verdict) → Prop}

theorem accept_queued {c : ImportCall} {w : ImportWorld} (h : c ∈ w.queue) :
    waiting w = c.first ::ₘ waiting { w with queue := w.queue.erase c } := by
  have hperm := (List.perm_cons_erase h).map ImportCall.first
  exact Multiset.coe_eq_coe.mpr hperm

theorem Keeps.requeue (h : Keeps V Q K I) {c : ImportCall} {g : Stage} {N : Multiset Stage}
    {w : ImportWorld} (hI : I (waiting w + g ::ₘ N) w.toTables w.ended)
    (hdeed : Deed V (Q (g ::ₘ (waiting w + N)) w.toTables) K g w.toTables {c.first} w.toTables) :
    I (waiting { w with queue := w.queue ++ [c] } + N) w.toTables w.ended := by
  rw [Multiset.add_cons] at hI
  have hnext := h.deed g _ _ _ _ _ hI hdeed
  rw [waiting_snoc, Multiset.cons_add, ← Multiset.singleton_add]
  exact hnext

theorem Keeps.preserves (h : Keeps V Q K I) (fuel : ℕ) :
    Preserves (importServer fuel) (Allows V Q K) (stages V) ImportCall.first ImportCall.Post
      (fun N w => I (waiting w + N) w.toTables w.ended) where
  accept := by
    intro c N w w' hI hw
    have hqueued : ∀ c w', (if c ∈ w.queue then some { w with queue := w.queue.erase c }
        else none) = some w' → I (waiting w' + c.first ::ₘ N) w'.toTables w'.ended := by
      intro c w' hw
      split at hw
      · rename_i hmem
        cases hw
        rw [Multiset.add_cons, ← Multiset.cons_add, ← accept_queued hmem]
        exact hI
      · cases hw
    cases c with
    | importFolder j => exact hqueued _ _ hw
    | importFile x => exact hqueued _ _ hw
    | createImport job =>
      cases hw
      rw [Multiset.add_cons]
      exact h.call _ _ _ _ (.inl rfl) hI
    | cancel eventId j =>
      cases hw
      rw [Multiset.add_cons]
      exact h.call _ _ _ _ (.inr ⟨j, rfl⟩) hI
  perform := by
    intro p t N o r hnotes hI hpermit hallows
    obtain ⟨hQ, hK, hpages⟩ := hallows
    rw [Multiset.add_cons] at hI
    have hstages : stagesOf p = stageOf t ::ₘ (waiting p.state + N) := by
      rw [← Multiset.add_cons]
      exact congrArg (waiting p.state + ·) hnotes
    rw [hstages] at hQ
    have hids := h.ids _ _ _ hI
    obtain ⟨ns, hdeed, hnext, hended⟩ :=
      deed_perform (s := stageOf t) hids hpermit r (fun x k dto ho => hQ x k dto ho)
      (fun k dto ho => hK k dto ho)
    refine ⟨expects_perform hids r ?_, ?_⟩
    · intro page j progress accessToken folderId pageToken he hs
      exact hpages page j progress accessToken folderId pageToken he hs
    · have hI' := h.deed _ _ _ _ _ _ hI hdeed
      change I (waiting (importHandler o r p.state).2 +
        (stageOf t).note ⟨o, (importHandler o r p.state).1⟩ ::ₘ N) _
        (importHandler o r p.state).2.ended
      rw [← Multiset.singleton_add, ← add_assoc, hnext, add_comm (waiting p.state) ns, add_assoc,
        hended]
      exact hI'
  release := by
    intro c verdict g again N w w' hI hpost hw
    have hleave : verdict ≠ .rateLimited → verdict ≠ .unended →
        I (waiting w + N) w.toTables (w.ended ++ [(c, verdict)]) := by
      rw [Multiset.add_cons] at hI
      exact h.leave c verdict g _ _ _ hI hpost
    cases verdict with
    | unended => cases hw
    | success =>
      cases hw
      exact hleave (by simp) (by simp)
    | skipped =>
      cases hw
      exact hleave (by simp) (by simp)
    | refused text =>
      cases hw
      exact hleave (by simp) (by simp)
    | rateLimited =>
      cases hw
      refine h.requeue hI ?_
      cases c with
      | importFolder j =>
        obtain ⟨p, rfl⟩ := hpost
        exact Deed.retry j p _
      | importFile x =>
        cases hpost
        exact Deed.requeue x _
      | createImport job => cases hpost
      | cancel eventId j => cases hpost
    | failed =>
      cases again with
      | false =>
        cases hw
        exact hleave (by simp) (by simp)
      | true =>
        cases hw
        refine h.requeue hI ?_
        cases c with
        | importFolder j =>
          cases hpost
          exact Deed.retryBroken j _
        | importFile x => cases hpost
        | createImport job => cases hpost
        | cancel eventId j => cases hpost

/-- An invariant of the work under way holds in every pool reached. -/
theorem Keeps.reaches (h : Keeps V Q K I) {fuel : ℕ} (hV : V.Steady fuel) {p : ImportPool}
    (hp : (importServer fuel).Reaches (Allows V Q K) importStart p) :
    I (stagesOf p) p.state.toTables p.state.ended := by
  have hstart : I (waiting importStart.state + 0) importStart.state.toTables
      importStart.state.ended := h.start
  exact (hp.invariant (prog_follows hV) (h.preserves fuel) rfl hstart).2

end Rule

end EventLens.Import

import EventLens.ImportOverlap

/-!
Who still sees to an item. As long as nobody cancels an import, every item that
is pending or downloading is tended: by a worker that has it or will, by the
list its job's listing has captured, or by a listing of its job that has yet to
look for pending items. A listing that is given up after it failed is the one
thing that leaves an item untended, and a job failed.
-/

namespace EventLens.Import

open Programs

/-- The stage speaks of a job it has seen. -/
def Stage.Names (j : JobId) : Stage → Prop
  | .opening k | .listing k _ | .captured k _ _ | .promised k _ | .broken k | .created k
  | .chosen _ k => k = j
  | _ => False

/-- The listing is still to move the job on. -/
def Stage.Retries (j : JobId) : Stage → Prop
  | .opening k | .listing k _ | .captured k _ _ | .broken k => k = j
  | _ => False

/-- The stage is still to see to this item of the job. -/
def Stage.Tends (j : JobId) (x : ItemId) : Stage → Prop
  | .opening k | .listing k _ | .broken k => k = j
  | .captured k _ ids | .promised k ids => k = j ∧ x ∈ ids
  | .starting y | .chosen y _ | .admitted y _ | .downloading y _ | .backed y => y = x
  | _ => False

/-- The last attempt of the job's listing failed. -/
def GivenUp (es : List (ImportCall × Verdict)) (j : JobId) : Prop := (.importFolder j, .failed) ∈ es

structure Tended (S : Multiset Stage) (t : Tables) (es : List (ImportCall × Verdict)) : Prop where
  wf : t.WellFormed
  stands : ∀ s ∈ S, ∀ j, s.Names j → t.job j ≠ none
  wanted : ∀ job ∈ t.jobs, job.status ≠ .cancelled
  retried : ∀ job ∈ t.jobs, job.status = .failed → (∃ s ∈ S, s.Retries job.id) ∨ GivenUp es job.id
  fetched : ∀ i ∈ t.items, i.status = .downloading → ∃ j, .downloading i.id j ∈ S
  tended : ∀ i ∈ t.items, i.status.remaining →
    (∃ s ∈ S, s.Tends i.importJobId i.id) ∨ GivenUp es i.importJobId

section Tended

variable {V : Remote} {Q : JobId → ItemId → Prop} {s : Stage} {S R ns : Multiset Stage}
  {t t' : Tables}
  {es : List (ImportCall × Verdict)} {j k : JobId} {x : ItemId} {p : Progress}

theorem exists_replaced {A : Stage → Prop} (h : ∃ s' ∈ s ::ₘ R, A s')
    (hs : A s → ∃ n ∈ ns + R, A n) : ∃ n ∈ ns + R, A n := by
  obtain ⟨s', hs', hA⟩ := h
  rcases Multiset.mem_cons.mp hs' with rfl | hs'
  · exact hs hA
  · exact ⟨s', Multiset.mem_add.mpr (.inr hs'), hA⟩

/-- One stage becomes others, the tables stay. -/
theorem Tended.relabel (h : Tended (s ::ₘ R) t es)
    (names : ∀ n ∈ ns, ∀ j, n.Names j → s.Names j ∨ t.job j ≠ none)
    (retries : ∀ job ∈ t.jobs, job.status = .failed → s.Retries job.id →
      ∃ n ∈ ns + R, n.Retries job.id)
    (fetches : ∀ i ∈ t.items, i.status = .downloading → ∀ j, s = .downloading i.id j →
      ∃ j, .downloading i.id j ∈ ns + R)
    (tends : ∀ i ∈ t.items, i.status.remaining → s.Tends i.importJobId i.id →
      ∃ n ∈ ns + R, n.Tends i.importJobId i.id) : Tended (ns + R) t es where
  wf := h.wf
  stands := by
    intro n hn j hnames
    rcases Multiset.mem_add.mp hn with hn | hn
    · rcases names n hn j hnames with hs | hjob
      · exact h.stands s (Multiset.mem_cons_self s R) j hs
      · exact hjob
    · exact h.stands n (Multiset.mem_cons_of_mem hn) j hnames
  wanted := h.wanted
  retried := by
    intro job hjob hfailed
    rcases h.retried job hjob hfailed with hs | hup
    · exact .inl (exists_replaced hs (retries job hjob hfailed))
    · exact .inr hup
  fetched := by
    intro i hi hdown
    obtain ⟨j, hj⟩ := h.fetched i hi hdown
    rcases Multiset.mem_cons.mp hj with hs | hj
    · exact fetches i hi hdown j hs.symm
    · exact ⟨j, Multiset.mem_add.mpr (.inr hj)⟩
  tended := by
    intro i hi hrem
    rcases h.tended i hi hrem with hs | hup
    · exact .inl (exists_replaced hs (tends i hi hrem))
    · exact .inr hup

/-- One stage becomes another that speaks of and sees to no less. -/
theorem Tended.renamed {n : Stage} (h : Tended (s ::ₘ R) t es)
    (names : ∀ j, n.Names j → s.Names j ∨ t.job j ≠ none) (retries : ∀ j, s.Retries j → n.Retries j)
    (fetches : ∀ x j, s = .downloading x j → ∃ j, n = .downloading x j)
    (tends : ∀ j x, s.Tends j x → n.Tends j x) : Tended ({n} + R) t es := by
  have hn : n ∈ ({n} : Multiset Stage) + R := by simp
  refine h.relabel ?_ (fun _ _ _ hs => ⟨n, hn, retries _ hs⟩) ?_
    (fun _ _ _ hs => ⟨n, hn, tends _ _ hs⟩)
  · intro n' hn' j hnames
    cases Multiset.mem_singleton.mp hn'
    exact names j hnames
  · intro i _ _ j hs
    obtain ⟨j', rfl⟩ := fetches _ j hs
    exact ⟨j', hn⟩

theorem Tended.updateItems {f : ImportItem → ImportItem} (h : Tended S t es)
    (hid : ∀ i, (f i).id = i.id)
    (hparent : ∀ i ∈ t.items, t.job (f i).importJobId ≠ none)
    (hfetched : ∀ i ∈ t.items, i.id = x → (f i).status = .downloading → ∃ j, .downloading x j ∈ S)
    (htended : ∀ i ∈ t.items, i.id = x → (f i).status.remaining →
      (∃ s ∈ S, s.Tends (f i).importJobId x) ∨ GivenUp es (f i).importJobId) :
    Tended S (t.updateItems x f) es where
  wf := h.wf.updateItems hid hparent
  stands := h.stands
  wanted := h.wanted
  retried := h.retried
  fetched := by
    intro i hi hdown
    rcases mem_updateRow.mp hi with ⟨i', hi', hx, rfl⟩ | ⟨hi, -⟩
    · rw [hid, hx]
      exact hfetched i' hi' hx hdown
    · exact h.fetched i hi hdown
  tended := by
    intro i hi hrem
    rcases mem_updateRow.mp hi with ⟨i', hi', hx, rfl⟩ | ⟨hi, -⟩
    · rw [hid, hx]
      exact htended i' hi' hx hrem
    · exact h.tended i hi hrem

/-- A worker writes a status into the row of its item. -/
theorem Tended.markItem {dto : ItemChange} (h : Tended S t es) (hmem : .downloading x k ∈ S) :
    Tended S (t.updateItems x dto.apply) es :=
  h.updateItems (fun _ => rfl) h.wf.parents (fun _ _ _ _ => ⟨k, hmem⟩)
    (fun _ _ _ _ => .inl ⟨_, hmem, rfl⟩)

theorem Tended.updateJobs {f : ImportJob → ImportJob} (h : Tended S t es)
    (hid : ∀ job, (f job).id = job.id)
    (hwanted : ∀ job ∈ t.jobs, (f job).status ≠ .cancelled)
    (hretried : ∀ job ∈ t.jobs, job.id = k → (f job).status = .failed →
      (∃ s ∈ S, s.Retries k) ∨ GivenUp es k) : Tended S (t.updateJobs k f) es where
  wf := h.wf.updateJobs hid
  stands s hs j hnames := by
    rw [job_updateJobs hid]
    simpa using h.stands s hs j hnames
  wanted := by
    intro job hjob
    rcases mem_updateRow.mp hjob with ⟨job', hjob', -, rfl⟩ | ⟨hjob, -⟩
    · exact hwanted job' hjob'
    · exact h.wanted job hjob
  retried := by
    intro job hjob hfailed
    rcases mem_updateRow.mp hjob with ⟨job', hjob', hk, rfl⟩ | ⟨hjob, -⟩
    · rw [hid, hk]
      exact hretried job' hjob' hk hfailed
    · exact h.retried job hjob hfailed
  fetched := h.fetched
  tended := h.tended

theorem status_updated {dto : JobChange} {job : ImportJob}
    (h : job ∈ (t.updateJobs k dto.apply).jobs)
    (hid : job.id = k) : job.status = dto.status := by
  rcases mem_updateRow.mp h with ⟨job', -, -, rfl⟩ | ⟨-, hne⟩
  · rfl
  · exact absurd hid hne

/-- A job moved on to a status that is neither failed nor cancelled. -/
theorem Tended.moveOn {dto : JobChange} (h : Tended S t es) (hfailed : dto.status ≠ .failed)
    (hcancelled : dto.status ≠ .cancelled) : Tended S (t.updateJobs k dto.apply) es :=
  h.updateJobs (fun _ => rfl) (fun _ _ => hcancelled) (fun _ _ _ hf => absurd hf hfailed)

theorem Tended.fail {dto : JobChange} (h : Tended S t es) (hstatus : dto.status = .failed)
    (hmem : ∃ s ∈ S, s.Retries k) : Tended S (t.updateJobs k dto.apply) es :=
  h.updateJobs (fun _ => rfl) (fun _ _ hc => by rw [JobChange.apply, hstatus] at hc; cases hc)
    (fun _ _ _ _ => .inl hmem)

theorem Tended.bump (h : Tended S t es) (counter : Counter) :
    Tended S (t.updateJobs k (ImportJob.bump counter)) es := by
  have hstatus : ∀ job : ImportJob, (job.bump counter).status = job.status := fun job => by
    cases counter <;> rfl
  refine h.updateJobs (bump_id counter) (fun job hjob => ?_) fun job hjob hk hfailed => ?_
  · rw [hstatus]
    exact h.wanted job hjob
  · rw [← hk]
    exact h.retried job hjob (hstatus job ▸ hfailed)

theorem Tended.addItems {rows : List NewItem} (h : Tended S t es) (hmem : .listing k p ∈ S)
    (hrows : ∀ n ∈ rows, n.importJobId = k) : Tended S (t.addItems rows) es where
  wf := h.wf.addItems fun n hn => hrows n hn ▸ h.stands _ hmem k rfl
  stands := h.stands
  wanted := h.wanted
  retried := h.retried
  fetched := by
    intro i hi hdown
    rcases List.mem_append.mp hi with hi | hi
    · exact h.fetched i hi hdown
    · obtain ⟨n, -, -, hrow⟩ := mem_freshRows hi
      rw [hrow] at hdown
      cases hdown
  tended := by
    intro i hi hrem
    rcases List.mem_append.mp hi with hi | hi
    · exact h.tended i hi hrem
    · obtain ⟨n, hn, -, hrow⟩ := mem_freshRows hi
      have hjob : i.importJobId = k := by rw [hrow]; exact hrows n hn
      exact .inl ⟨_, hmem, hjob.symm⟩

theorem Tended.addJob (h : Tended S t es) (job : NewJob) : Tended S (t.addJob job) es where
  wf := h.wf.addJob job
  stands s hs j hnames := by
    have hjob := h.stands s hs j hnames
    rw [job_addJob]
    cases hfound : t.job j with
    | none => exact absurd hfound hjob
    | some row => simp
  wanted := by
    intro row hrow
    rcases List.mem_append.mp hrow with hrow | hrow
    · exact h.wanted row hrow
    · rw [List.mem_singleton.mp hrow]
      simp [NewJob.row]
  retried := by
    intro row hrow hfailed
    rcases List.mem_append.mp hrow with hrow | hrow
    · exact h.retried row hrow hfailed
    · rw [List.mem_singleton.mp hrow] at hfailed
      cases hfailed
  fetched := h.fetched
  tended := h.tended

/-- A listing takes down the pending items of its job. -/
theorem Tended.capture {ids : List ItemId} (h : Tended (.listing k p ::ₘ R) t es)
    (hids : ids = (t.items.filter (fun i => i.importJobId = k ∧ i.status = .pending)).map
      (fun i => i.id)) : Tended ({.captured k p ids} + R) t es := by
  refine h.relabel ?_ (fun _ _ _ hs => ⟨.captured k p ids, by simp, hs⟩) (fun _ _ _ _ hs => by
    cases hs) ?_
  · intro n hn j hnames
    cases Multiset.mem_singleton.mp hn
    exact .inl hnames
  · intro i hi hrem hs
    have hk : k = i.importJobId := hs
    by_cases hpending : i.status = .pending
    · refine ⟨.captured k p ids, by simp, hs, ?_⟩
      rw [hids]
      exact List.mem_map.mpr ⟨i, List.mem_filter.mpr ⟨hi, by simp [hk, hpending]⟩, rfl⟩
    · have hdown : i.status = .downloading := by
        cases hstatus : i.status <;> simp_all [ImportItemStatus.remaining]
      obtain ⟨j, hj⟩ := h.fetched i hi hdown
      rcases Multiset.mem_cons.mp hj with hj | hj
      · cases hj
      · exact ⟨_, Multiset.mem_add.mpr (.inr hj), rfl⟩

theorem Tended.hand {ids : List ItemId} (h : Tended (.promised k ids ::ₘ R) t es) :
    Tended ((.listed k ::ₘ (ids.map Stage.starting : List Stage)) + R) t es := by
  refine h.relabel ?_ (fun _ _ _ hs => hs.elim) (fun _ _ _ _ hs => by cases hs) ?_
  · intro n hn j hnames
    rcases Multiset.mem_cons.mp hn with rfl | hn
    · exact hnames.elim
    · obtain ⟨y, -, rfl⟩ := List.mem_map.mp (Multiset.mem_coe.mp hn)
      exact hnames.elim
  · rintro i - - ⟨-, hmem⟩
    refine ⟨.starting i.id, ?_, rfl⟩
    simp only [Multiset.mem_add, Multiset.mem_cons, Multiset.mem_coe, List.mem_map]
    exact .inl (.inr ⟨i.id, hmem, rfl⟩)

/-- A worker leaves an item alone that is not pending: another one has it. -/
theorem Tended.pass (h : Tended (.starting x ::ₘ R) t es)
    (hitem : ∀ item ∈ t.items, item.id = x →
    item.status ≠ .pending) : Tended ({.over} + R) t es := by
  refine h.relabel (fun n hn j hnames => ?_) (fun _ _ _ hs => hs.elim) (fun _ _ _ _ hs => by
    cases hs) ?_
  · cases Multiset.mem_singleton.mp hn
    exact hnames.elim
  · intro i hi hrem hs
    have hnot := hitem i hi (Eq.symm hs)
    have hdown : i.status = .downloading := by
      cases hstatus : i.status <;> simp_all [ImportItemStatus.remaining]
    obtain ⟨j, hj⟩ := h.fetched i hi hdown
    rcases Multiset.mem_cons.mp hj with hj | hj
    · cases hj
    · exact ⟨_, Multiset.mem_add.mpr (.inr hj), rfl⟩

/-- A job that a stage speaks of is there, and nobody cancelled it. -/
theorem Tended.present (h : Tended (s ::ₘ R) t es) (hnames : s.Names j)
    (hjob : ∀ job, t.job j = some job → job.status = .cancelled) : False := by
  cases hfound : t.job j with
  | none => exact h.stands s (Multiset.mem_cons_self s R) j hnames hfound
  | some job => exact h.wanted job (mem_of_findRow hfound).1 (hjob job hfound)

/-- The worker's outcome is written, so nothing of the item is left to see to. -/
theorem Tended.written {n : Stage} {dto : ItemChange} (h : Tended (.downloading x k ::ₘ R) t es)
    (hdown : dto.status ≠ .downloading) (hnames : ∀ j, ¬ n.Names j)
    (htends : dto.status.remaining → ∀ j, n.Tends j x) :
    Tended ({n} + R) (t.updateItems x dto.apply) es := by
  have hrow : ∀ i ∈ (t.updateItems x dto.apply).items, i.id = x → i.status = dto.status := by
    intro i hi hx
    rcases mem_updateRow.mp hi with ⟨i', -, -, rfl⟩ | ⟨-, hne⟩
    · rfl
    · exact absurd hx hne
  refine (h.markItem (Multiset.mem_cons_self _ R)).relabel ?_ (fun _ _ _ hs => hs.elim) ?_ ?_
  · intro n' hn' j hj
    cases Multiset.mem_singleton.mp hn'
    exact absurd hj (hnames j)
  · rintro i hi hstatus j hs
    cases hs
    exact absurd (hrow i hi rfl ▸ hstatus) hdown
  · rintro i hi hrem rfl
    exact ⟨n, by simp, htends (hrow i hi rfl ▸ hrem) _⟩

theorem Tended.deed (h : Tended (s ::ₘ R) t es) (hdeed : Deed V Q (fun _ => False) s t ns t') :
    Tended (ns + R) t' es := by
  have same : ∀ {n : Stage}, (∀ j, n.Names j → s.Names j) → (∀ j, s.Retries j → n.Retries j) →
      (∀ x j, s = .downloading x j → ∃ j, n = .downloading x j) →
      (∀ j x, s.Tends j x → n.Tends j x) → Tended ({n} + R) t es :=
        fun hnames hretries hfetches htends =>
    h.renamed (fun j hj => .inl (hnames j hj)) hretries hfetches htends
  cases hdeed with
  | stay => exact same (fun _ => id) (fun _ => id) (fun _ j hs => ⟨j, hs⟩) (fun _ _ => id)
  | open_ | page | look | retry | retryBroken =>
    exact same (fun _ => id) (fun _ => id) (fun _ _ hs => by cases hs) (fun _ _ => id)
  | agree | requeue =>
    exact same (fun _ hn => hn.elim) (fun _ => id) (fun _ _ hs => by cases hs) (fun _ _ => id)
  | empty | more | confirm | ignore =>
    exact same (fun _ hn => hn.elim) (fun _ => id) (fun _ _ hs => by cases hs) (fun _ _ => id)
  | skip k _ hjob => exact (h.present rfl hjob).elim
  | refuse x k _ hjob => exact (h.present rfl hjob).elim
  | repoint k p _ x dto hstatus hwithin hmay hQ =>
    have hnext := same (n := .listing k (p.repointed x dto.status)) (fun _ => id) (fun _ => id)
      (fun _ _ hs => by cases hs) (fun _ _ => id)
    have hmem : .listing k (p.repointed x dto.status) ∈
        ({.listing k (p.repointed x dto.status)} : Multiset Stage) + R := by simp
    refine hnext.updateItems (fun i => apply_id dto k i) (fun i _ => ?_) (fun i _ _ hdown => ?_)
      fun i _ _ _ => ?_
    · rw [apply_job]
      exact hnext.stands _ hmem k rfl
    · rw [apply_status] at hdown
      rw [hdown] at hstatus
      simp at hstatus
    · rw [apply_job]
      exact .inl ⟨_, hmem, rfl⟩
  | insert k p _ rows hwithin hrows hunique =>
    have hnext :=
      same (n := .listing k { p with settled := p.settled ++ freshRows t.nextItemId rows })
      (fun _ => id) (fun _ => id) (fun _ _ hs => by cases hs) (fun _ _ => id)
    exact hnext.addItems (Multiset.mem_add.mpr (.inl (Multiset.mem_singleton_self _)))
      (fun n hn => (hrows n hn).1)
  | capture k p _ ids hcomplete hids => exact h.capture hids
  | fail k p _ dto hstatus htotals =>
    have hnext := same (n := .broken k) (fun _ => id) (fun _ => id) (fun _ _ hs => by cases hs)
      (fun _ _ => id)
    exact hnext.fail hstatus ⟨.broken k, by simp, rfl⟩
  | breakOff k ids _ dto hstatus htotals =>
    have hnext :=
      same (n := .broken k) (fun _ => id) (fun _ hs => hs.elim) (fun _ _ hs => by cases hs)
      (fun _ _ hs => hs.1)
    exact hnext.fail hstatus ⟨.broken k, by simp, rfl⟩
  | conclude k p _ dto hstatus htotals =>
    have hnext : Tended _ (t.updateJobs k dto.apply) es :=
      h.moveOn (by simp [hstatus]) (by simp [hstatus])
    refine hnext.relabel (fun n hn j hnames => ?_) ?_ (fun _ _ _ _ hs => by cases hs)
      fun i _ _ hs => absurd hs.2 List.not_mem_nil
    · cases Multiset.mem_singleton.mp hn
      exact hnames.elim
    · intro job hjob hfailed hs
      rw [status_updated hjob (Eq.symm hs), hstatus] at hfailed
      cases hfailed
  | fanOut k p ids _ dto hids hstatus htotals =>
    have hnext : Tended _ (t.updateJobs k dto.apply) es :=
      h.moveOn (by simp [hstatus]) (by simp [hstatus])
    refine hnext.relabel (fun n hn j hnames => ?_) ?_ (fun _ _ _ _ hs => by cases hs)
      fun i _ _ hs => ⟨.promised k ids, by simp, hs⟩
    · cases Multiset.mem_singleton.mp hn
      exact .inl hnames
    · intro job hjob hfailed hs
      rw [status_updated hjob (Eq.symm hs), hstatus] at hfailed
      cases hfailed
  | hand k ids => exact h.hand
  | choose _ item hitem hpending =>
    refine h.renamed (fun j hj => .inr ?_) (fun _ hs => hs.elim) (fun _ _ hs => by
      cases hs) (fun _ _ => id)
    cases hj
    exact h.wf.parents item hitem
  | pass x _ hitem => exact h.pass hitem
  | download x k _ dto hstatus =>
    have hnext := same (n := .downloading x k) (fun _ hn => hn.elim) (fun _ => id)
      (fun _ _ hs => by cases hs) (fun _ _ => id)
    exact hnext.markItem (k := k) (by simp)
  | putBack x k _ dto hstatus =>
    exact h.written (by simp [hstatus]) (fun _ => id) (fun _ _ => rfl)
  | finish x k _ dto hstatus =>
    refine h.written (fun hdown => ?_) (fun _ => id) (fun hrem => ?_)
    · rw [hdown] at hstatus
      cases hstatus
    · rw [hstatus] at hrem
      cases hrem
  | count x k status _ counter hcounter =>
    exact (same (n := .counted x k) (fun _ hn => hn.elim) (fun _ => id) (fun _ _ hs => by cases hs)
      (fun _ _ => id)).bump counter
  | close x k _ dto hstatus htotals =>
    exact (same (n := .over) (fun _ hn => hn.elim) (fun _ => id) (fun _ _ hs => by cases hs)
      (fun _ _ => id)).moveOn (by simp [hstatus]) (by simp [hstatus])
  | order _ job =>
    refine (h.addJob job).renamed (fun j hj => .inr ?_) (fun _ hs => hs.elim) (fun _ _ hs => by
      cases hs)
      (fun _ _ hs => hs.elim)
    cases hj
    rw [job_addJob, h.wf.next_job]
    simp
  | enqueue k _ =>
    refine h.relabel (fun n hn j hnames => ?_) (fun _ _ _ hs => hs.elim) (fun _ _ _ _ hs => by
      cases hs)
      fun _ _ _ hs => hs.elim
    rcases Multiset.mem_cons.mp hn with rfl | hn
    · exact hnames.elim
    · cases Multiset.mem_singleton.mp hn
      exact .inl hnames
  | cancel k _ dto hstatus htotals hK => exact hK.elim

/-- A call leaves in a stage that sees to nothing, or gives its listing up. -/
theorem post_gives {c : ImportCall} {verdict : Verdict} (hpost : c.Post verdict s)
    (hlimited : verdict ≠ .rateLimited) (hended : verdict ≠ .unended) :
    (∀ j, s.Retries j → c = .importFolder j ∧ verdict = .failed) ∧
      (∀ x j, s ≠ .downloading x j) ∧ ∀ j x, s.Tends j x → c = .importFolder j ∧
      verdict = .failed := by
  by_cases hbroken : ∃ j, s = .broken j
  · obtain ⟨j, rfl⟩ := hbroken
    have hcall : c = .importFolder j ∧ verdict = .failed := by
      cases c <;> cases verdict <;> simp_all [ImportCall.Post]
    refine ⟨fun k hk => ?_, fun _ _ hs => (by cases hs), fun k _ hk => ?_⟩
    · cases hk
      exact hcall
    · cases hk
      exact hcall
  · rcases post_leave hpost hlimited hended with rfl | rfl | ⟨k, rfl⟩ | ⟨k, rfl⟩ | hs
    · exact ⟨fun _ hs => hs.elim, fun _ _ hs => (by cases hs), fun _ _ hs => hs.elim⟩
    · exact ⟨fun _ hs => hs.elim, fun _ _ hs => (by cases hs), fun _ _ hs => hs.elim⟩
    · exact ⟨fun _ hs => hs.elim, fun _ _ hs => (by cases hs), fun _ _ hs => hs.elim⟩
    · exact ⟨fun _ hs => hs.elim, fun _ _ hs => (by cases hs), fun _ _ hs => hs.elim⟩
    · exact absurd hs hbroken

/-- A stage goes that sees to nothing but what is given up. -/
theorem Tended.drop {es' : List (ImportCall × Verdict)} (h : Tended (s ::ₘ R) t es)
    (hup : ∀ j, GivenUp es j → GivenUp es' j) (hretries : ∀ j, s.Retries j → GivenUp es' j)
    (hdown : ∀ x j, s ≠ .downloading x j) (htends : ∀ j x, s.Tends j x → GivenUp es' j) :
    Tended R t es' := by
  have given : ∀ {A : Stage → Prop} {j}, (A s → GivenUp es' j) →
      (∃ s' ∈ s ::ₘ R, A s') ∨ GivenUp es j → (∃ s' ∈ R, A s') ∨ GivenUp es' j := by
    rintro A j hs (⟨s', hs', hA⟩ | hj)
    · rcases Multiset.mem_cons.mp hs' with rfl | hs'
      · exact .inr (hs hA)
      · exact .inl ⟨s', hs', hA⟩
    · exact .inr (hup j hj)
  refine
    { wf := h.wf
      stands := fun n hn => h.stands n (Multiset.mem_cons_of_mem hn)
      wanted := h.wanted
      retried := fun job hjob hfailed => given (hretries _) (h.retried job hjob hfailed)
      fetched := fun i hi hstatus => ?_
      tended := fun i hi hrem => given (htends _ _) (h.tended i hi hrem) }
  obtain ⟨j, hj⟩ := h.fetched i hi hstatus
  rcases Multiset.mem_cons.mp hj with hj | hj
  · exact absurd hj.symm (hdown _ _)
  · exact ⟨j, hj⟩

theorem Tended.leave {c : ImportCall} {verdict : Verdict} (h : Tended (s ::ₘ R) t es)
    (hpost : c.Post verdict s) (hlimited : verdict ≠ .rateLimited) (hended : verdict ≠ .unended) :
    Tended R t (es ++ [(c, verdict)]) := by
  obtain ⟨hretries, hdown, htends⟩ := post_gives hpost hlimited hended
  have given : ∀ j, c = .importFolder j ∧ verdict = .failed → GivenUp (es ++ [(c, verdict)]) j := by
    rintro j ⟨rfl, rfl⟩
    exact List.mem_append_right _ (List.mem_singleton_self _)
  exact h.drop (fun _ hj => List.mem_append_left _ hj) (fun j hj => given j (hretries j hj)) hdown
    fun j x hj => given j (htends j x hj)

/-- A call of the API begins. -/
theorem Tended.call (h : Tended S t es) (hs : s = .ordering ∨ ∃ j, s = .stopping j) :
    Tended (s ::ₘ S) t es where
  wf := h.wf
  stands := by
    intro n hn j hnames
    rcases Multiset.mem_cons.mp hn with rfl | hn
    · rcases hs with rfl | ⟨k, rfl⟩
      · exact hnames.elim
      · exact hnames.elim
    · exact h.stands n hn j hnames
  wanted := h.wanted
  retried job hjob hfailed := (h.retried job hjob hfailed).imp_left fun hn =>
    hn.imp fun _ hn => ⟨Multiset.mem_cons_of_mem hn.1, hn.2⟩
  fetched i hi hdown := (h.fetched i hi hdown).imp fun _ hj => Multiset.mem_cons_of_mem hj
  tended i hi hrem := (h.tended i hi hrem).imp_left fun hn =>
    hn.imp fun _ hn => ⟨Multiset.mem_cons_of_mem hn.1, hn.2⟩

/-- Nobody loses sight of an item, whatever is re-pointed and whatever fails. -/
theorem tended_kept : Keeps anyRemote (fun _ _ _ _ => True) (fun _ => False) Tended where
  ids _ _ _ h := h.wf.ids
  start :=
    { wf := (sound_start 0).wf
      stands := fun s hs => absurd hs (Multiset.notMem_zero s)
      wanted := by simp
      retried := by simp
      fetched := by simp
      tended := by simp }
  call _ _ _ _ hs h := h.call hs
  deed _ _ _ _ _ _ h hdeed := h.deed hdeed
  leave _ _ _ _ _ _ h hpost hlimited hended := h.leave hpost hlimited hended

end Tended

end EventLens.Import

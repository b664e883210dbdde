import EventLens.GpuForecast

/-!
When a sweep wakes the box for a job that has waited too long. The depth of a
queue counts its delayed jobs, the age only looks at the job that is next in
the waiting list. So an old job below the threshold is started for when it, or
another one as old, is next in its queue, and is left alone when it is behind a
younger one or waits for a retry.
-/

namespace EventLens.Gpu

open Programs

/-- A job with its enqueue time, and the time a worker has taken it at. -/
structure QueuedJob where
  timestamp : ℤ
  processedOn : Option ℤ := none
deriving DecidableEq, Repr

/-- The jobs of a queue by their state, those to be taken next first. The jobs
of a paused queue are kept apart. -/
structure QueueContent where
  waiting : List QueuedJob := []
  paused : List QueuedJob := []
  active : List QueuedJob := []
  delayed : List QueuedJob := []
  failed : List QueuedJob := []
deriving DecidableEq, Repr

namespace QueueContent

variable (q : QueueContent)

def getJobCounts : JobCounts where
  active := q.active.length
  failed := q.failed.length
  delayed := q.delayed.length
  waiting := q.waiting.length

/-- The job that is next in the waiting list; those of a paused queue wait, too. -/
def next : Option QueuedJob := (q.waiting ++ q.paused).head?

def getOldestWaitingTimestamp : Option ℤ := q.next.map (fun job => job.timestamp)

def getOldestActiveTimestamp : Option ℤ :=
    ((q.active.take 51).filterMap (fun job => job.processedOn)).min?

/-- What the job store reports of a queue. -/
def reading : QueueReading where
  counts := q.getJobCounts
  oldestWaiting := q.getOldestWaitingTimestamp
  oldestActive := q.getOldestActiveTimestamp

/-- An active job was taken so long ago that no worker can still be at it. -/
def orphaned (clock : ℤ) : Bool :=
  (truthyStamp q.getOldestActiveTimestamp).any (fun t => stuckActiveAfterMs < clock - t)

/-- The jobs that count as pending; active ones only while a worker is at them. -/
def depth (clock : ℤ) : ℕ :=
  q.waiting.length + (if q.orphaned clock then 0 else q.active.length) + q.delayed.length

end QueueContent

def depthOf (contents : QueueName → QueueContent) (clock : ℤ) : ℕ :=
  (gpuQueues.map (fun name => (contents name).depth clock)).sum

/-- A job that counts as pending was enqueued that many minutes ago. -/
def Straggles (contents : QueueName → QueueContent) (clock minutes : ℤ) : Prop :=
  ∃ name ∈ gpuQueues, ∃ job ∈ (contents name).waiting ++ (contents name).delayed,
    minutesMs minutes ≤ clock - job.timestamp

/-- The next job of a queue has waited that many minutes, up to the rounding of seconds. -/
def NextStraggles (contents : QueueName → QueueContent) (clock minutes : ℤ) : Prop :=
  ∃ name ∈ gpuQueues, ∃ job ∈ (contents name).next,
    job.timestamp ≠ 0 ∧ minutesMs minutes ≤ clock - job.timestamp + 500

instance (contents : QueueName → QueueContent) (clock minutes : ℤ) :
    Decidable (NextStraggles contents clock minutes) :=
  inferInstanceAs (Decidable (∃ name ∈ gpuQueues, ∃ job ∈ (contents name).next,
    job.timestamp ≠ 0 ∧ minutesMs minutes ≤ clock - job.timestamp + 500))

section Figures

variable {contents : QueueName → QueueContent} {clock minutes : ℤ} {q : QueueContent}
  {name : QueueName}

theorem le_foldl_max {l : List ℤ} {a x : ℤ} : x ≤ l.foldl max a ↔ x ≤ a ∨ ∃ b ∈ l, x ≤ b := by
  induction l generalizing a with
  | nil => simp
  | cons b l ih =>
    rw [List.foldl_cons, ih, le_max_iff]
    simp [or_assoc]

theorem le_roundDiv {x k : ℤ} : k ≤ roundDiv x 1000 ↔ k * 1000 ≤ x + 500 := by
  unfold roundDiv
  omega

theorem summarize_depth (name : QueueName) (q : QueueContent) (clock : ℤ) :
    (summarize name q.reading clock).waiting + (summarize name q.reading clock).liveActive +
      (summarize name q.reading clock).delayed = q.depth clock := by
  simp only [summarize, QueueContent.reading, QueueContent.getJobCounts, QueueContent.depth,
    QueueContent.orphaned, Option.any_map]
  rfl

theorem pendingOf_contents (contents : QueueName → QueueContent) (clock : ℤ) :
    pendingOf (gpuQueues.map (fun name => summarize name (contents name).reading clock)) =
      depthOf contents clock := by
  rw [pendingOf, depthOf, List.map_map]
  congr 1
  apply List.map_congr_left
  intro name _
  exact summarize_depth name (contents name) clock

/-- The age of a queue is that of its next job. -/
theorem age_contents (name : QueueName) (q : QueueContent) (clock : ℤ) :
    (summarize name q.reading clock).oldestWaitingAgeSeconds =
      (q.next.filter (fun job => job.timestamp ≠ 0)).map
        (fun job => roundDiv (clock - job.timestamp) 1000) := by
  simp only [summarize, QueueContent.reading, QueueContent.getOldestWaitingTimestamp, truthyStamp]
  cases q.next with
  | none => rfl
  | some job =>
    by_cases hzero : job.timestamp = 0
    · simp [Option.filter, hzero]
    · simp [Option.filter, hzero]

/-- The age rule is met by a next job that is old enough. -/
theorem oldest_contents (contents : QueueName → QueueContent) (clock minutes : ℤ) :
    minutes * 60 ≤
        oldestWaitingOf (gpuQueues.map (fun name => summarize name (contents name).reading clock)) ↔
      minutes ≤ 0 ∨ NextStraggles contents clock minutes := by
  rw [oldestWaitingOf, le_foldl_max]
  refine or_congr (by omega) ?_
  constructor
  · rintro ⟨age, hage, hle⟩
    obtain ⟨summary, hsummary, hold⟩ := List.mem_filterMap.mp hage
    obtain ⟨name, hname, rfl⟩ := List.mem_map.mp hsummary
    rw [age_contents] at hold
    obtain ⟨job, hjob, rfl⟩ := Option.map_eq_some_iff.mp hold
    obtain ⟨hnext, hstamp⟩ := Option.filter_eq_some_iff.mp hjob
    refine ⟨name, hname, job, hnext, by simpa using hstamp, ?_⟩
    have hlong := le_roundDiv.mp hle
    unfold minutesMs
    omega
  · rintro ⟨name, hname, job, hnext, hstamp, hlong⟩
    refine ⟨roundDiv (clock - job.timestamp) 1000, List.mem_filterMap.mpr
      ⟨_, List.mem_map.mpr ⟨name, hname, rfl⟩, ?_⟩, le_roundDiv.mpr ?_⟩
    · have hfilter : (contents name).next.filter (fun job => job.timestamp ≠ 0) = some job :=
        Option.filter_eq_some_iff.mpr ⟨hnext, by simpa using hstamp⟩
      rw [age_contents, hfilter]
      rfl
    · unfold minutesMs at hlong
      omega

theorem depthOf_pos (h : Straggles contents clock minutes) : depthOf contents clock ≠ 0 := by
  obtain ⟨name, hname, job, hjob, -⟩ := h
  have hdepth : (contents name).depth clock ≠ 0 := by
    have hlength : ((contents name).waiting ++ (contents name).delayed).length ≠ 0 :=
      fun hzero => List.not_mem_nil (List.length_eq_zero_iff.mp hzero ▸ hjob)
    rw [List.length_append] at hlength
    unfold QueueContent.depth
    omega
  intro hzero
  exact hdepth (List.sum_eq_zero_iff.mp hzero _ (List.mem_map.mpr ⟨name, hname, rfl⟩))

end Figures

/-- With an old job pending, the sweep starts a box that is off exactly when the
depth meets the threshold or the next job of a queue is old enough. -/
theorem straggler_started_iff {contents : QueueName → QueueContent} {i : SweepReading}
    {w : GpuWorld}
    {trace : List GpuEvent} (hreadings : i.readings = fun name => (contents name).reading)
    (h : SweepsOn i w trace) (enabled : i.config.enabled = true) (off : w.record.state = .off)
    (hold : Straggles contents i.clock i.config.maxPendingAgeMinutes) :
    Starts (sights trace) ↔
      i.config.pendingThreshold ≤ (depthOf contents i.clock : ℤ) ∨
      i.config.maxPendingAgeMinutes ≤ 0 ∨
        NextStraggles contents i.clock i.config.maxPendingAgeMinutes := by
  have hqueues :
    i.queues = gpuQueues.map (fun name => summarize name (contents name).reading i.clock) := by
    rw [SweepReading.queues, hreadings]
  have hpending : i.pending = depthOf contents i.clock := by
    rw [SweepReading.pending, hqueues, pendingOf_contents]
  have hsome : i.pending ≠ 0 := hpending ▸ depthOf_pos hold
  obtain ⟨hstarts, -⟩ := sweepsOn_rule h enabled
  rw [hstarts, SweepReading.StartDue, i.trigger_iff, hqueues, oldest_contents, hpending]
  rw [hpending] at hsome
  simp [off, hsome]

/-- One queue's jobs, more than two hours after 0, and a box that is off. -/
def mediaJobs (q : QueueContent) : QueueName → QueueContent :=
  fun name => if name = .mediaProcess then q else {}

def lateReading (q : QueueContent) : SweepReading where
  config := webhookConfig
  readings := fun name => (mediaJobs q name).reading
  clock := 7_300_000
  worker := .ok []
  now := 7_300_000

def lateTrace (q : QueueContent) : List GpuEvent :=
  (run gpuHandler handleGpuLifecycleSweep
    (Setting.oracle
      { config := webhookConfig, now := 7_300_000, readings :=
        fun name => (mediaJobs q name).reading })
    freshWorld).trace

/-- A job enqueued at the first second, and a younger one behind it. -/
def oldInFront : QueueContent := { waiting := [{ timestamp := 1000 }, { timestamp := 7_000_000 }] }

theorem straggler_started_iff_oldInFront : Starts (sights (lateTrace oldInFront)) := by
  have hsweeps : SweepsOn (lateReading oldInFront) freshWorld (lateTrace oldInFront) :=
    ⟨⟨_, _, exec_run _ _ _ _⟩, Or.inr ⟨_, rfl⟩, by decide⟩
  have hold : Straggles (mediaJobs oldInFront) 7_300_000 120 :=
    ⟨.mediaProcess, by decide, { timestamp := 1000 }, by decide, by decide⟩
  exact (straggler_started_iff rfl hsweeps rfl rfl hold).mpr (Or.inr (Or.inr (by decide)))

/-- A job enqueued at the first second that failed and waits for its retry. -/
def oldDelayed : QueueContent := { delayed := [{ timestamp := 1000 }] }

/-- For a job that waits for its retry the box is never started. -/
theorem not_straggler_started :
    ¬ ∀ (contents : QueueName → QueueContent) (i : SweepReading) (w : GpuWorld)
    (trace : List GpuEvent),
      i.readings = (fun name => (contents name).reading) → SweepsOn i w trace →
      i.config.enabled = true →
      w.record.state = .off → Straggles contents i.clock i.config.maxPendingAgeMinutes →
      Starts (sights trace) := by
  intro h
  have hsweeps : SweepsOn (lateReading oldDelayed) freshWorld (lateTrace oldDelayed) :=
    ⟨⟨_, _, exec_run _ _ _ _⟩, Or.inr ⟨_, rfl⟩, by decide⟩
  obtain ⟨s, hs, -⟩ := h (mediaJobs oldDelayed) _ _ _ rfl hsweeps rfl rfl
    ⟨.mediaProcess, by decide, { timestamp := 1000 }, by decide, by decide⟩
  have hquiet : sights (lateTrace oldDelayed) = [.worker (some false)] := by decide
  rw [hquiet] at hs
  simp at hs

end EventLens.Gpu

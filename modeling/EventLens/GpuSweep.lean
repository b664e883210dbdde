import EventLens.GpuLifecycle
import EventLens.Histories

/-!
What a sweep, a manual control and a heartbeat can do, and histories of calls
made one after another. A sweep is summarized by its readings and by the
branch it takes; a history carries the record each call found, the queues and
the time of the call, and the events and the answer of its execution.
-/

namespace EventLens.Gpu

open Programs

/-! What a sweep can do. -/

/-- What a sweep has read before it decides: the configuration, the queues,
the telemetry and its clock. -/
structure SweepReading where
  config : GpuAutostartConfig
  readings : QueueName → QueueReading
  clock : ℤ
  worker : Except String (List InstanceStatus)
  now : ℤ

namespace SweepReading

variable (i : SweepReading)

def queues : List GpuQueueSummary :=
  gpuQueues.map (fun name => summarize name (i.readings name) i.clock)

def pending : ℕ := pendingOf i.queues

/-- The telemetry reading, `none` when it failed. -/
def reading : Option Bool := i.worker.toOption.map mediaOnline

/-- What the sweep takes the worker for: unknown counts as online. -/
def online : Bool := i.reading.getD true

/-- The events of the reading phase of an enabled sweep. -/
def events (s : GpuLifecycleState) : List GpuEvent :=
  [⟨.readConfig, i.config⟩, ⟨.readState, s⟩, ⟨.readQueues, i.readings⟩, ⟨.now, i.clock⟩,
    ⟨.readInstances, i.worker⟩, ⟨.now, i.now⟩]

end SweepReading

theorem online_false {i : SweepReading} (off : i.online = false) : i.reading = some false := by
  unfold SweepReading.online at off
  cases hr : i.reading with
  | none =>
    rw [hr] at off
    cases off
  | some reading =>
    rw [hr] at off
    rw [← off]
    rfl

/-- The decision of a sweep on record `s`, the provider check left out. -/
inductive Decision (i : SweepReading) (s : GpuLifecycleState) :
    List Sight → GpuLifecycleState → Prop
  | reported (hs : s.state = .starting) (on : i.online = true) (t : ℤ) :
      Decision i s
        [.wrote { s with state := .running, since := t, lastError := none, idleSince := none }]
        { s with state := .running, since := t, lastError := none, idleSince := none }
  | timedOut (hs : s.state = .starting) (off : i.online = false)
      (late : minutesMs i.config.startTimeoutMinutes < i.now - s.since) {l : List Sight}
      {s' : GpuLifecycleState} (stop : StopStep s l s') : Decision i s l s'
  | vanished (hs : s.state = .running) (off : i.online = false) (t t' : ℤ) :
      Decision i s [.wrote { s with state := .off, since := t, lastStoppedAt := some t' }]
        { s with state := .off, since := t, lastStoppedAt := some t' }
  | confirmedOff (hs : s.state = .stopping) (off : i.online = false) (t t' : ℤ) :
      Decision i s
        [.wrote { s with state := .off, since := t, lastStoppedAt := some t' }, .confirmedOff]
        { s with state := .off, since := t, lastStoppedAt := some t' }
  | started (hs : s.state = .off)
      (trigger : (evaluateTrigger i.config i.queues i.pending).shouldStart = true)
      {l : List Sight} {s' : GpuLifecycleState} (start : StartStep i.config false s l s') :
      Decision i s l s'
  | cleared (hs : s.state = .running) (on : i.online = true) (busy : i.pending ≠ 0)
      (t : ℤ) (ht : s.idleSince = some t) :
      Decision i s [.wrote { s with idleSince := none }] { s with idleSince := none }
  | working (hs : s.state = .running) (on : i.online = true) (busy : i.pending ≠ 0)
      (ht : s.idleSince = none) : Decision i s [] s
  | drained (hs : s.state = .running) (on : i.online = true) (idle : i.pending = 0)
      (ht : s.idleSince = none) :
      Decision i s [.wrote { s with idleSince := some i.now }]
        { s with idleSince := some i.now }
  | idleStopped (hs : s.state = .running) (on : i.online = true) (idle : i.pending = 0)
      (t : ℤ) (ht : s.idleSince = some t) (free : holdInForce s.holdUntil i.now = false)
      (late : minutesMs i.config.idleShutdownMinutes ≤ i.now - t) {l : List Sight}
      {s' : GpuLifecycleState} (stop : StopStep s l s') : Decision i s l s'
  | waiting (hs : s.state = .running) (on : i.online = true) (idle : i.pending = 0)
      (t : ℤ) (ht : s.idleSince = some t) : Decision i s [] s
  | resting (hs : s.state ≠ .running) : Decision i s [] s

/-- A sweep on record `s`: skipped, adopting a running box, or deciding after
a provider check that reported nothing running. -/
inductive SweepStep (s : GpuLifecycleState) :
    List GpuEvent → List Sight → GpuLifecycleState → Prop
  | skipped (config : GpuAutostartConfig) (disabled : config.enabled = false) :
      SweepStep s [⟨.readConfig, config⟩] [] s
  | adopted (i : SweepReading) (enabled : i.config.enabled = true) (rest : List GpuEvent)
      (hs : s.state = .off) (t : ℤ) :
      SweepStep s (i.events s ++ rest)
        [.worker i.reading, .machine (some .running),
          .wrote
            { s with state := .starting, since := t, lastStartedAt := some t, idleSince := none }]
        { s with state := .starting, since := t, lastStartedAt := some t, idleSince := none }
  | decided (i : SweepReading) (enabled : i.config.enabled = true) (rest : List GpuEvent)
      (m : List Sight) (hm : Probe m) {l : List Sight} {s' : GpuLifecycleState}
      (decision : Decision i s l s') :
      SweepStep s (i.events s ++ rest) (.worker i.reading :: m ++ l) s'

section Sweep

variable {w w' : GpuWorld} {trace : List GpuEvent}

theorem isWorkerOnline_exec {online : Bool}
    (he : GpuExec isWorkerOnline w trace online w') :
    ∃ r, trace = [⟨.readInstances, r⟩] ∧ online = (r.toOption.map mediaOnline).getD true ∧
      w' = w := by
  obtain ⟨r, _, rfl, he₁⟩ := exec_step.mp he
  cases r with
  | ok instances =>
    obtain ⟨rfl, rfl, rfl⟩ := exec_done.mp he₁
    exact ⟨.ok instances, rfl, rfl, rfl⟩
  | error message =>
    obtain ⟨rfl, rfl, rfl⟩ := exec_done.mp he₁
    exact ⟨.error message, rfl, rfl, rfl⟩

/-- A provider check sees a running box exactly when it answers `running`. -/
def Checked (m : List Sight) (actual : Option ProviderState) : Prop :=
  (m = [] ∧ actual = none) ∨ m = [.machine actual]

theorem checked_probe {m : List Sight} {actual : Option ProviderState} (h : Checked m actual)
    (hn : actual ≠ some .running) : Probe m := by
  rcases h with ⟨hm, -⟩ | hm
  · exact Or.inl hm
  · exact Or.inr ⟨actual, hn, hm⟩

theorem checked_running {m : List Sight} (h : Checked m (some .running)) :
    m = [.machine (some .running)] := by
  rcases h with ⟨-, hn⟩ | hm
  · cases hn
  · exact hm

theorem queryProviderState_exec {config : GpuAutostartConfig} {s : GpuLifecycleState}
    {actual : Option ProviderState}
    (he : GpuExec (queryProviderState config s) w trace actual w') :
    w'.record = w.record ∧ Checked (sights trace) actual := by
  obtain ⟨quiet, target, w₁, tail, rfl, hres, he₁⟩ := exec_bind.mp he
  obtain ⟨hnone, hrecord⟩ := quiet_exec (quiet_resolveMachineId config s) hres
  rw [sights_append, hnone, List.nil_append, ← hrecord]
  change GpuExec (if target = "" then pure none else _) _ _ _ _ at he₁
  split at he₁
  · obtain ⟨rfl, rfl, rfl⟩ := exec_done.mp he₁
    exact ⟨rfl, Or.inl ⟨rfl, rfl⟩⟩
  · obtain ⟨r, _, rfl, he₂⟩ := exec_step.mp he₁
    cases r with
    | ok i =>
      obtain ⟨rfl, rfl, rfl⟩ := exec_done.mp he₂
      exact ⟨rfl, Or.inr rfl⟩
    | error message =>
      obtain ⟨rfl, rfl, rfl⟩ := exec_done.mp he₂
      exact ⟨rfl, Or.inr rfl⟩

theorem getProviderState_exec {config : GpuAutostartConfig} {s : GpuLifecycleState}
    {actual : Option ProviderState}
    (he : GpuExec (getProviderState config s) w trace actual w') :
    w'.record = w.record ∧ Checked (sights trace) actual := by
  unfold getProviderState at he
  split at he
  · obtain ⟨configured, _, rfl, he₁⟩ := exec_step.mp he
    change GpuExec (if configured then _ else _) w _ _ _ at he₁
    split at he₁
    · obtain ⟨now, _, rfl, he₂⟩ := exec_step.mp he₁
      obtain ⟨_, _, rfl, he₃⟩ := exec_step.mp he₂
      change GpuExec (if now - w.lastProviderCheckAt < _ then _ else _) _ _ _ _ at he₃
      split at he₃
      · obtain ⟨rfl, rfl, rfl⟩ := exec_done.mp he₃
        exact ⟨rfl, Or.inl ⟨rfl, rfl⟩⟩
      · obtain ⟨_, _, rfl, he₄⟩ := exec_step.mp he₃
        obtain ⟨hrecord, hm⟩ := queryProviderState_exec he₄
        exact ⟨hrecord, hm⟩
    · obtain ⟨rfl, rfl, rfl⟩ := exec_done.mp he₁
      exact ⟨rfl, Or.inl ⟨rfl, rfl⟩⟩
  · obtain ⟨rfl, rfl, rfl⟩ := exec_done.mp he
    exact ⟨rfl, Or.inl ⟨rfl, rfl⟩⟩

theorem markOff_exec {s : GpuLifecycleState} {entry : AuditEntry} {status : JobStatus}
    (he : GpuExec (markOff s entry) w trace status w') :
    ∃ t t', sights trace =
        .wrote { s with state := .off, since := t, lastStoppedAt := some t' } ::
          (sight ⟨.record entry, ()⟩).toList ∧
      w'.record = { s with state := .off, since := t, lastStoppedAt := some t' } := by
  obtain ⟨t, _, rfl, he₁⟩ := exec_step.mp he
  obtain ⟨t', _, rfl, he₂⟩ := exec_step.mp he₁
  obtain ⟨_, _, rfl, he₃⟩ := exec_step.mp he₂
  obtain ⟨_, _, rfl, he₄⟩ := exec_step.mp he₃
  obtain ⟨rfl, -, rfl⟩ := exec_done.mp he₄
  refine ⟨t, t', ?_, rfl⟩
  rw [sights_cons, sights_cons, sights_cons, sights_cons, sights_nil, List.append_nil]
  rfl

theorem reportRunning_exec {s : GpuLifecycleState} {status : JobStatus}
    (he : GpuExec (reportRunning s) w trace status w') :
    ∃ t, sights trace =
        [.wrote { s with state := .running, since := t, lastError := none, idleSince := none }] ∧
      w'.record = { s with state := .running, since := t, lastError := none, idleSince :=
      none } := by
  obtain ⟨t, _, rfl, he₁⟩ := exec_step.mp he
  obtain ⟨_, _, rfl, he₂⟩ := exec_step.mp he₁
  obtain ⟨_, _, rfl, he₃⟩ := exec_step.mp he₂
  obtain ⟨rfl, -, rfl⟩ := exec_done.mp he₃
  exact ⟨t, rfl, rfl⟩

theorem adoptRunning_exec {s : GpuLifecycleState} {status : JobStatus}
    (he : GpuExec (adoptRunning s) w trace status w') :
    ∃ t, sights trace = [.wrote { s with
          state := .starting, since := t, lastStartedAt := some t, idleSince := none }] ∧
      w'.record = { s with
        state := .starting, since := t, lastStartedAt := some t, idleSince := none } := by
  obtain ⟨t, _, rfl, he₁⟩ := exec_step.mp he
  obtain ⟨_, _, rfl, he₂⟩ := exec_step.mp he₁
  obtain ⟨_, _, rfl, he₃⟩ := exec_step.mp he₂
  obtain ⟨rfl, -, rfl⟩ := exec_done.mp he₃
  exact ⟨t, rfl, rfl⟩

/-- The call to `stop` at the end of a branch. -/
theorem stop_then_exec {config : GpuAutostartConfig} {reason : String} {status : JobStatus}
    (he : GpuExec (do let _ ← stop config reason; pure .success) w trace status w') :
    StopStep w.record (sights trace) w'.record := by
  obtain ⟨first, _, _, _, rfl, hstop, he₁⟩ := exec_bind.mp he
  obtain ⟨rfl, -, rfl⟩ := exec_done.mp he₁
  rw [List.append_nil]
  exact stop_exec hstop

theorem timeOutStart_exec {config : GpuAutostartConfig} {status : JobStatus}
    (he : GpuExec (timeOutStart config) w trace status w') :
    StopStep w.record (sights trace) w'.record := by
  obtain ⟨_, _, rfl, he₁⟩ := exec_step.mp he
  have hstop := stop_then_exec he₁
  exact hstop

theorem activeOf_le_pendingOf (queues : List GpuQueueSummary) :
    activeOf queues ≤ pendingOf queues := by
  unfold activeOf pendingOf
  induction queues with
  | nil => simp
  | cons queue rest ih =>
    rw [List.map_cons, List.map_cons, List.sum_cons, List.sum_cons]
    omega

theorem sweepRunning_exec {i : SweepReading} {status : JobStatus}
    (hs : w.record.state = .running) (on : i.online = true)
    (he : GpuExec (sweepRunning i.config w.record i.pending (activeOf i.queues) i.now)
      w trace status w') :
    Decision i w.record (sights trace) w'.record := by
  have hactive : activeOf i.queues ≤ i.pending := activeOf_le_pendingOf i.queues
  unfold sweepRunning at he
  split at he
  · rename_i hidle
    obtain ⟨hpending, -⟩ := hidle
    cases hstamp : w.record.idleSince with
    | none =>
      simp only [hstamp] at he
      obtain ⟨_, _, rfl, he₁⟩ := exec_step.mp he
      obtain ⟨rfl, -, rfl⟩ := exec_done.mp he₁
      exact Decision.drained hs on hpending hstamp
    | some t =>
      simp only [hstamp] at he
      split at he
      · rename_i hlate
        exact Decision.idleStopped hs on hpending t hstamp hlate.1 hlate.2 (stop_then_exec he)
      · obtain ⟨rfl, -, rfl⟩ := exec_done.mp he
        exact Decision.waiting hs on hpending t hstamp
  · rename_i hbusy
    have hpending : i.pending ≠ 0 := by
      intro h
      exact hbusy ⟨h, by omega⟩
    cases hstamp : w.record.idleSince with
    | none =>
      simp only [hstamp, Option.isSome_none, Bool.false_eq_true, ↓reduceIte] at he
      obtain ⟨rfl, -, rfl⟩ := exec_done.mp he
      exact Decision.working hs on hpending hstamp
    | some t =>
      simp only [hstamp, Option.isSome_some, ↓reduceIte] at he
      obtain ⟨_, _, rfl, he₁⟩ := exec_step.mp he
      obtain ⟨rfl, -, rfl⟩ := exec_done.mp he₁
      exact Decision.cleared hs on hpending t hstamp

/-- The branches of the sweep, one case each. -/
theorem sweepRecord_exec {i : SweepReading} {status : JobStatus}
    (he : GpuExec (sweepRecord i.config w.record i.queues i.online i.now) w trace status w') :
    Decision i w.record (sights trace) w'.record := by
  unfold sweepRecord at he
  split at he
  · rename_i h
    obtain ⟨t, hsights, hrecord⟩ := reportRunning_exec he
    rw [hsights, hrecord]
    exact Decision.reported h.1 h.2 t
  rename_i hreport
  split at he
  · rename_i h
    have off : i.online = false := Bool.eq_false_iff.mpr (fun on => hreport ⟨h.1, on⟩)
    exact Decision.timedOut h.1 off h.2 (timeOutStart_exec he)
  split at he
  · rename_i h
    obtain ⟨t, t', hsights, hrecord⟩ := markOff_exec he
    rw [hsights, hrecord]
    exact Decision.vanished h.1 h.2 t t'
  rename_i hvanish
  split at he
  · rename_i h
    obtain ⟨t, t', hsights, hrecord⟩ := markOff_exec he
    rw [hsights, hrecord]
    exact Decision.confirmedOff h.1 h.2 t t'
  change GpuExec (if w.record.state = .off ∧ _ then _ else _) w trace status w' at he
  split at he
  · rename_i h
    obtain ⟨first, _, _, _, rfl, hstart, he₁⟩ := exec_bind.mp he
    obtain ⟨rfl, -, rfl⟩ := exec_done.mp he₁
    rw [List.append_nil]
    exact Decision.started h.1 h.2 (start_exec hstart)
  split at he
  · rename_i h
    have on : i.online = true := by
      cases hon : i.online with
      | true => rfl
      | false => exact absurd ⟨h, hon⟩ hvanish
    exact sweepRunning_exec h on he
  · rename_i h
    obtain ⟨rfl, -, rfl⟩ := exec_done.mp he
    exact Decision.resting h

theorem sights_events (i : SweepReading) (s : GpuLifecycleState) :
    sights (i.events s) = [.worker i.reading] := rfl

/-- A sweep that is not skipped and adopts nothing runs the branches on what it read. -/
theorem sweep_runs {status : JobStatus}
    (he : GpuExec handleGpuLifecycleSweep w trace status w') :
    (∃ config : GpuAutostartConfig, config.enabled = false ∧ trace = [⟨.readConfig, config⟩] ∧
        w'.record = w.record) ∨
      ∃ i : SweepReading, i.config.enabled = true ∧
        ((∃ rest t, w.record.state = .off ∧ trace = i.events w.record ++ rest ∧
            sights rest = [.machine (some .running), .wrote { w.record with
              state := .starting, since := t, lastStartedAt := some t, idleSince := none }] ∧
            w'.record = { w.record with
              state := .starting, since := t, lastStartedAt := some t, idleSince := none }) ∨
          ∃ check rest w₁, trace = i.events w.record ++ (check ++ rest) ∧ Probe (sights check) ∧
            w₁.record = w.record ∧
            GpuExec (sweepRecord i.config w₁.record i.queues i.online i.now) w₁ rest status
            w') := by
  obtain ⟨config, _, rfl, he₁⟩ := exec_step.mp he
  change GpuExec (if config.enabled then _ else pure .skipped) w _ status w' at he₁
  split at he₁
  · rename_i enabled
    obtain ⟨_, _, rfl, he₂⟩ := exec_step.mp he₁
    obtain ⟨readings, _, rfl, he₃⟩ := exec_step.mp he₂
    obtain ⟨clock, _, rfl, he₄⟩ := exec_step.mp he₃
    obtain ⟨_, online, w₁, _, rfl, hworker, he₅⟩ := exec_bind.mp he₄
    obtain ⟨worker, rfl, rfl, hw⟩ := isWorkerOnline_exec hworker
    rw [hw] at he₅
    obtain ⟨now, tail, rfl, he₆⟩ := exec_step.mp he₅
    let i : SweepReading := ⟨config, readings, clock, worker, now⟩
    change GpuExec (if w.record.state = .off then _ else
      sweepRecord i.config w.record i.queues i.online i.now) w tail status w' at he₆
    refine Or.inr ⟨i, enabled, ?_⟩
    split at he₆
    · rename_i hs
      obtain ⟨check, actual, w₂, rest, rfl, hcheck, he₇⟩ := exec_bind.mp he₆
      obtain ⟨hrecord, hm⟩ := getProviderState_exec hcheck
      change GpuExec (if actual = some .running then adoptRunning w.record else
        sweepRecord i.config w.record i.queues i.online i.now) w₂ rest status w' at he₇
      split at he₇
      · rename_i hrun
        obtain ⟨t, hsights, hafter⟩ := adoptRunning_exec he₇
        subst hrun
        refine Or.inl ⟨check ++ rest, t, hs, rfl, ?_, hafter⟩
        rw [sights_append, checked_running hm, hsights]
        rfl
      · rename_i hrun
        rw [← hrecord] at he₇
        exact Or.inr ⟨check, rest, w₂, rfl, checked_probe hm hrun, hrecord, he₇⟩
    · exact Or.inr ⟨[], tail, w, rfl, Or.inl rfl, rfl, he₆⟩
  · rename_i disabled
    obtain ⟨rfl, -, rfl⟩ := exec_done.mp he₁
    exact Or.inl ⟨config, Bool.eq_false_iff.mpr disabled, rfl, rfl⟩

theorem sweep_exec {status : JobStatus}
    (he : GpuExec handleGpuLifecycleSweep w trace status w') :
    SweepStep w.record trace (sights trace) w'.record := by
  rcases sweep_runs he with ⟨config, disabled, rfl, hrecord⟩ |
    ⟨i, enabled, ⟨rest, t, hs, rfl, hsights, hrecord⟩ | ⟨check, rest, w₁, rfl, hm, hrecord, hrun⟩⟩
  · rw [hrecord]
    exact SweepStep.skipped config disabled
  · rw [sights_append, sights_events, hsights, hrecord]
    exact SweepStep.adopted i enabled rest hs t
  · rw [sights_append, sights_events, sights_append, ← hrecord]
    exact SweepStep.decided i enabled (check ++ rest) _ hm (sweepRecord_exec hrun)

end Sweep

/-- The readings at the head of the trace of an enabled sweep. -/
def sweepReading : List GpuEvent → Option SweepReading
  | ⟨.readConfig, config⟩ :: ⟨.readState, _⟩ :: ⟨.readQueues, readings⟩ :: ⟨.now, clock⟩ ::
      ⟨.readInstances, worker⟩ :: ⟨.now, now⟩ :: _ => some ⟨config, readings, clock, worker, now⟩
  | _ => none

theorem sweepReading_events (i : SweepReading) (s : GpuLifecycleState) (rest : List GpuEvent) :
    sweepReading (i.events s ++ rest) = some i := rfl

/-! What any call can do. -/

/-- What a heartbeat has read before it answers. -/
structure HeartbeatReading where
  config : GpuAutostartConfig
  readings : QueueName → QueueReading
  clock : ℤ
  now : ℤ

namespace HeartbeatReading

variable (i : HeartbeatReading)

def queues : List GpuQueueSummary :=
  gpuQueues.map (fun name => summarize name (i.readings name) i.clock)

def pending : ℕ := pendingOf i.queues

def active : ℕ := activeOf i.queues

/-- The events of a heartbeat around the report of orphaned jobs. -/
def events (s : GpuLifecycleState) (report : List GpuEvent) : List GpuEvent :=
  ⟨.readConfig, i.config⟩ :: ⟨.readState, s⟩ :: ⟨.readQueues, i.readings⟩ ::
    ⟨.now, i.clock⟩ :: (report ++ [⟨.now, i.now⟩])

end HeartbeatReading

/-- The readings in the trace of a heartbeat. -/
def heartbeatReading : List GpuEvent → Option HeartbeatReading
  | ⟨.readConfig, config⟩ :: ⟨.readState, _⟩ :: ⟨.readQueues, readings⟩ :: ⟨.now, clock⟩ :: rest =>
    match rest.getLast? with
    | some ⟨.now, now⟩ => some ⟨config, readings, clock, now⟩
    | _ => none
  | _ => none

theorem heartbeatReading_events (i : HeartbeatReading) (s : GpuLifecycleState)
    (report : List GpuEvent) : heartbeatReading (i.events s report) = some i := by
  simp [heartbeatReading, HeartbeatReading.events]

/-- A call on record `s`: its events, its answer, its sights and the record it
leaves. -/
inductive CallStep (s : GpuLifecycleState) :
    Call → List GpuEvent → Answer → List Sight → GpuLifecycleState → Prop
  | swept {trace : List GpuEvent} {l : List Sight} {s' : GpuLifecycleState}
      (status : JobStatus) (step : SweepStep s trace l s') :
      CallStep s .sweep trace (.swept status) l s'
  | startRefused (reason : String) (trace : List GpuEvent) (message : String) :
      CallStep s (.startNow reason) trace (.controlled (.error message)) [] s
  | started (reason : String) (trace : List GpuEvent) {config : GpuAutostartConfig}
      (ready : Controllable config) {l : List Sight} {s' next : GpuLifecycleState}
      (start : StartStep config true s l s') :
      CallStep s (.startNow reason) trace (.controlled (.ok next)) l s'
  | stopRefused (reason : String) (trace : List GpuEvent) (message : String) :
      CallStep s (.stopNow reason) trace (.controlled (.error message)) [] s
  | stopped (reason : String) (trace : List GpuEvent) {l : List Sight}
      {s' next : GpuLifecycleState} (stop : StopStep s l s') :
      CallStep s (.stopNow reason) trace (.controlled (.ok next)) l s'
  | held (minutes : ℤ) (userId : String) (trace : List GpuEvent) (t : ℤ) :
      CallStep s (.holdIdle minutes userId) trace
        (.controlled (.ok { s with holdUntil := some t }))
        [.wrote { s with holdUntil := some t }] { s with holdUntil := some t }
  | released (userId : String) (trace : List GpuEvent) :
      CallStep s (.clearHold userId) trace (.controlled (.ok { s with holdUntil := none }))
        [.wrote { s with holdUntil := none }] { s with holdUntil := none }
  | asked (i : HeartbeatReading) (report : List GpuEvent) :
      CallStep s .heartbeat (i.events s report)
        (.heartbeat (heartbeatReply i.config s i.queues i.now)) [] s
  | viewed (trace : List GpuEvent) (status : GpuStatus) (reading : Option Bool) :
      CallStep s .getStatus trace (.status status) [.worker reading] s

theorem CallStep.sweep {s s' : GpuLifecycleState} {trace : List GpuEvent} {answer : Answer}
    {l : List Sight} (step : CallStep s .sweep trace answer l s') :
    ∃ status, answer = .swept status ∧ SweepStep s trace l s' := by
  cases step with
  | swept status step => exact ⟨status, rfl, step⟩

/-- The reply of a heartbeat in terms of its readings. -/
theorem CallStep.heartbeat {s s' : GpuLifecycleState} {c : Call} {trace : List GpuEvent}
    {answer : Answer} {l : List Sight} (step : CallStep s c trace answer l s')
    (hc : c = .heartbeat) {i : HeartbeatReading} (hi : heartbeatReading trace = some i) :
    answer = .heartbeat (heartbeatReply i.config s i.queues i.now) := by
  cases step with
  | asked i' report =>
    rw [heartbeatReading_events] at hi
    cases hi
    rfl
  | _ => cases hc

section Calls

variable {w w' : GpuWorld} {trace : List GpuEvent} {answer : Answer}

theorem quiet_assertControllable (config : GpuAutostartConfig) :
    Quiet (assertControllable config) := by
  unfold assertControllable
  split
  · refine ⟨trivial, fun configured => ?_⟩
    change Quiet (if configured then (if config.jarvislabsMachineId = "" then _ else _) else _)
    split
    · split <;> trivial
    · trivial
  · split <;> trivial

theorem quiet_providerReady (config : GpuAutostartConfig) : Quiet (providerReady config) := by
  unfold providerReady
  split
  · exact ⟨trivial, fun _ => trivial⟩
  · trivial

theorem assertControllable_exec {config : GpuAutostartConfig} {allowed : Except String Unit}
    (he : GpuExec (assertControllable config) w trace allowed w') (h : allowed = .ok ()) :
    Controllable config := by
  unfold assertControllable at he
  unfold Controllable
  split at he
  · rename_i hprovider
    rw [if_pos hprovider]
    obtain ⟨configured, _, rfl, he₁⟩ := exec_step.mp he
    change GpuExec (if configured then (if config.jarvislabsMachineId = "" then _ else _)
      else _) w _ allowed w' at he₁
    split at he₁
    · split at he₁
      · obtain ⟨-, rfl, -⟩ := exec_done.mp he₁
        cases h
      · assumption
    · obtain ⟨-, rfl, -⟩ := exec_done.mp he₁
      cases h
  · rename_i hprovider
    rw [if_neg hprovider]
    split at he
    · obtain ⟨-, rfl, -⟩ := exec_done.mp he
      cases h
    · rename_i hurls
      exact not_or.mp hurls

/-- A manual control runs its program only when it is not refused. -/
theorem control_exec {p : GpuAutostartConfig → GpuProg GpuLifecycleState}
    {result : Except String GpuLifecycleState}
    (he : GpuExec (do
        let config ← getGpuAutostartConfig
        match ← assertControllable config with
        | .ok _ => do
          let next ← p config
          pure (.ok next)
        | .error message => pure (.error message)) w trace result w') :
    (∃ message, result = .error message ∧ sights trace = [] ∧ w'.record = w.record) ∨
      ∃ config w₁ rest next, Controllable config ∧ result = .ok next ∧
        w₁.record = w.record ∧ sights trace = sights rest ∧
        GpuExec (p config) w₁ rest next w' := by
  obtain ⟨config, _, rfl, he₁⟩ := exec_step.mp he
  obtain ⟨first, allowed, w₁, rest, rfl, hcheck, he₂⟩ := exec_bind.mp he₁
  obtain ⟨hnone, hrecord⟩ := quiet_exec (quiet_assertControllable _) hcheck
  cases allowed with
  | ok _ =>
    right
    obtain ⟨tail, next, w₂, _, rfl, hp, he₃⟩ := exec_bind.mp he₂
    obtain ⟨rfl, rfl, rfl⟩ := exec_done.mp he₃
    have hready := assertControllable_exec hcheck rfl
    refine ⟨_, w₁, tail, next, hready, rfl, hrecord, ?_, hp⟩
    rw [List.append_nil, sights_cons, sights_append, hnone]
    rfl
  | error message =>
    left
    obtain ⟨rfl, rfl, rfl⟩ := exec_done.mp he₂
    refine ⟨message, rfl, ?_, hrecord⟩
    rw [List.append_nil, sights_cons, hnone]
    rfl

theorem heartbeat_exec {reply : HeartbeatReply}
    (he : GpuExec heartbeat w trace reply w') :
    ∃ (i : HeartbeatReading) (report : List GpuEvent),
      trace = i.events w.record report ∧ sights trace = [] ∧
        reply = heartbeatReply i.config w.record i.queues i.now ∧ w' = w := by
  obtain ⟨config, _, rfl, he₁⟩ := exec_step.mp he
  obtain ⟨_, _, rfl, he₂⟩ := exec_step.mp he₁
  obtain ⟨readings, _, rfl, he₃⟩ := exec_step.mp he₂
  obtain ⟨clock, _, rfl, he₄⟩ := exec_step.mp he₃
  change GpuExec (if 0 < stuckOf _ then _ else _) w _ reply w' at he₄
  split at he₄
  · obtain ⟨_, _, rfl, he₅⟩ := exec_step.mp he₄
    obtain ⟨now, _, rfl, he₆⟩ := exec_step.mp he₅
    obtain ⟨rfl, rfl, rfl⟩ := exec_done.mp he₆
    exact ⟨⟨config, readings, clock, now⟩, [_], rfl, rfl, rfl, rfl⟩
  · obtain ⟨now, _, rfl, he₅⟩ := exec_step.mp he₄
    obtain ⟨rfl, rfl, rfl⟩ := exec_done.mp he₅
    exact ⟨⟨config, readings, clock, now⟩, [], rfl, rfl, rfl, rfl⟩

theorem getStatus_exec {status : GpuStatus}
    (he : GpuExec getStatus w trace status w') :
    ∃ reading, sights trace = [.worker reading] ∧ w'.record = w.record := by
  obtain ⟨config, _, rfl, he₁⟩ := exec_step.mp he
  obtain ⟨_, _, rfl, he₂⟩ := exec_step.mp he₁
  obtain ⟨readings, _, rfl, he₃⟩ := exec_step.mp he₂
  obtain ⟨clock, _, rfl, he₄⟩ := exec_step.mp he₃
  obtain ⟨_, online, w₁, _, rfl, hworker, he₅⟩ := exec_bind.mp he₄
  obtain ⟨worker, rfl, -, hw⟩ := isWorkerOnline_exec hworker
  obtain ⟨listing, _, w₂, _, rfl, hlist, he₆⟩ := exec_bind.mp he₅
  obtain ⟨hquiet, hrecord⟩ := quiet_exec quiet_getInstance hlist
  obtain ⟨now, _, rfl, he₇⟩ := exec_step.mp he₆
  obtain ⟨last, _, w₃, _, rfl, hready, he₈⟩ := exec_bind.mp he₇
  obtain ⟨hquiet', hrecord'⟩ := quiet_exec (quiet_providerReady _) hready
  obtain ⟨rfl, -, rfl⟩ := exec_done.mp he₈
  refine ⟨worker.toOption.map mediaOnline, ?_, ?_⟩
  · simp only [sights_cons, sights_append, hquiet, hquiet', List.append_nil]
    rfl
  · rw [hrecord']
    change w₂.record = w.record
    rw [hrecord, hw]
    rfl

theorem call_exec {c : Call} (he : GpuExec c.prog w trace answer w') :
    CallStep w.record c trace answer (sights trace) w'.record := by
  cases c with
  | sweep =>
    obtain ⟨first, status, _, _, rfl, hsweep, he₁⟩ := exec_bind.mp he
    obtain ⟨rfl, rfl, rfl⟩ := exec_done.mp he₁
    rw [List.append_nil]
    exact CallStep.swept status (sweep_exec hsweep)
  | startNow reason =>
    obtain ⟨first, result, _, _, rfl, hcall, he₁⟩ := exec_bind.mp he
    obtain ⟨rfl, rfl, rfl⟩ := exec_done.mp he₁
    rw [List.append_nil]
    rcases control_exec (p := fun config => start config reason true) hcall with
      ⟨message, rfl, hsights, hrecord⟩ | ⟨config, w₁, rest, next, hready, rfl, hrecord, hsights, hp⟩
    · rw [hsights, hrecord]
      exact CallStep.startRefused reason first message
    · rw [hsights, ← hrecord]
      exact CallStep.started reason first hready (start_exec hp)
  | stopNow reason =>
    obtain ⟨first, result, _, _, rfl, hcall, he₁⟩ := exec_bind.mp he
    obtain ⟨rfl, rfl, rfl⟩ := exec_done.mp he₁
    rw [List.append_nil]
    rcases control_exec (p := fun config => stop config reason) hcall with
      ⟨message, rfl, hsights, hrecord⟩ | ⟨config, w₁, rest, next, -, rfl, hrecord, hsights, hp⟩
    · rw [hsights, hrecord]
      exact CallStep.stopRefused reason first message
    · rw [hsights, ← hrecord]
      exact CallStep.stopped reason first (stop_exec hp)
  | holdIdle minutes userId =>
    obtain ⟨_, _, rfl, he₁⟩ := exec_step.mp he
    obtain ⟨now, _, rfl, he₂⟩ := exec_step.mp he₁
    obtain ⟨_, _, rfl, he₃⟩ := exec_step.mp he₂
    obtain ⟨_, _, rfl, he₄⟩ := exec_step.mp he₃
    obtain ⟨rfl, rfl, rfl⟩ := exec_done.mp he₄
    exact CallStep.held minutes userId _ (now + minutesMs minutes)
  | clearHold userId =>
    obtain ⟨_, _, rfl, he₁⟩ := exec_step.mp he
    obtain ⟨config, _, rfl, he₂⟩ := exec_step.mp he₁
    obtain ⟨_, _, rfl, he₃⟩ := exec_step.mp he₂
    obtain ⟨_, _, rfl, he₄⟩ := exec_step.mp he₃
    obtain ⟨rfl, rfl, rfl⟩ := exec_done.mp he₄
    exact CallStep.released userId _
  | heartbeat =>
    obtain ⟨first, reply, _, _, rfl, hbeat, he₁⟩ := exec_bind.mp he
    obtain ⟨rfl, rfl, rfl⟩ := exec_done.mp he₁
    rw [List.append_nil]
    obtain ⟨i, report, rfl, hsights, rfl, rfl⟩ := heartbeat_exec hbeat
    rw [hsights]
    exact CallStep.asked i report
  | getStatus =>
    obtain ⟨first, status, _, _, rfl, hstatus, he₁⟩ := exec_bind.mp he
    obtain ⟨rfl, rfl, rfl⟩ := exec_done.mp he₁
    rw [List.append_nil]
    obtain ⟨reading, hsights, hrecord⟩ := getStatus_exec hstatus
    rw [hsights, hrecord]
    exact CallStep.viewed first status reading

end Calls

/-! Histories of calls. -/

abbrev GpuEpisode := Episode Call GpuOp GpuRes GpuWorld Answer

abbrev GpuHistory (w : GpuWorld) (es : List GpuEpisode) (w' : GpuWorld) : Prop :=
  History gpuHandler Call.prog w es w'

/-- The sights of a whole history. -/
def sightsOf (es : List GpuEpisode) : List Sight := es.flatMap (fun e => sights e.trace)

@[simp] theorem sightsOf_nil : sightsOf [] = [] := rfl

theorem sightsOf_append (past rest : List GpuEpisode) :
    sightsOf (past ++ rest) = sightsOf past ++ sightsOf rest := List.flatMap_append

theorem sightsOf_snoc (past : List GpuEpisode) (e : GpuEpisode) :
    sightsOf (past ++ [e]) = sightsOf past ++ sights e.trace := by
  rw [sightsOf_append]
  simp [sightsOf]

/-- The invariant rule in terms of what a call can do to the record. -/
theorem gpu_invariant {w w' : GpuWorld} {es : List GpuEpisode}
    {I : List GpuEpisode → GpuLifecycleState → Prop}
    {P : List GpuEpisode → GpuEpisode → Prop}
    (start : I [] w.record)
    (next : ∀ past e s', I past e.before.record → P past e →
      CallStep e.before.record e.call e.trace e.answer (sights e.trace) s' → I (past ++ [e]) s')
    (hist : GpuHistory w es w') (steps : Throughout P es) : I es w'.record :=
  hist.invariant (I := fun past w => I past w.record) start
    (fun past e _ hI hP he => next past e _ hI hP (call_exec he)) steps

theorem step_of_mem {w w' : GpuWorld} {es : List GpuEpisode} (hist : GpuHistory w es w')
    {e : GpuEpisode} (he : e ∈ es) :
    ∃ s', CallStep e.before.record e.call e.trace e.answer (sights e.trace) s' := by
  obtain ⟨past, rest, hes⟩ := List.append_of_mem he
  obtain ⟨-, after, hexec⟩ := hist.split hes
  exact ⟨after.record, call_exec hexec⟩

/-- The surroundings of one call, the same for as long as it runs. -/
structure Setting where
  config : GpuAutostartConfig
  now : ℤ
  readings : QueueName → QueueReading := fun _ => default
  worker : Except String (List InstanceStatus) := .ok []
  configured : Bool := true
  listing : Except String (List JarvisLabsInstance) := .ok []
  machine : Except String (Option JarvisLabsInstance) := .ok none
  resumed : Except String (Option JarvisLabsInstance) := .ok none
  paused : Except String Unit := .ok ()
  response : Except String WebhookResponse :=
    .ok { ok := true, status := 200, statusText := "OK", detail := "" }

def Setting.oracle (i : Setting) : GpuOracle := fun _ o =>
  match o with
  | .readConfig => i.config
  | .readState => default
  | .readQueues => i.readings
  | .readInstances => i.worker
  | .now => i.now
  | .jlConfigured => i.configured
  | .jlList => i.listing
  | .jlGet _ => i.machine
  | .jlResume _ _ => i.resumed
  | .jlPause _ => i.paused
  | .fetch _ _ _ _ => i.response
  | .readCache => none
  | .readProviderCheck => 0
  | .writeState _ | .record _ | .writeCache _ | .writeProviderCheck _ => ()

/-- `n` jobs wait in one queue. -/
def waitingJobs (n : ℕ) : QueueName → QueueReading := fun name =>
  if name = .mediaProcess then
    { counts := { active := 0, failed := 0, delayed := 0, waiting := n }
      oldestWaiting := none
      oldestActive := none }
  else default

/-- A provider that is reached through webhooks. -/
def webhookConfig : GpuAutostartConfig :=
  { gpuAutostartDefaults with
    enabled := true
    startWebhookUrl := "https://gpu/start"
    stopWebhookUrl := "https://gpu/stop" }

/-- The telemetry of a box that reports in. -/
def reporting : Except String (List InstanceStatus) := .ok [{ roles := [.media] }]

/-- The world before any call. -/
def freshWorld : GpuWorld where
  record := gpuLifecycleInitial

/-- The calls in order, each in its own setting. -/
def playIn (calls : List (Call × Setting)) (w : GpuWorld) : List GpuEpisode × GpuWorld :=
  play gpuHandler Call.prog (calls.map (fun c => (c.1, c.2.oracle))) w

theorem history_playIn (calls : List (Call × Setting)) (w : GpuWorld) :
    GpuHistory w (playIn calls w).1 (playIn calls w).2 := history_play _ w

end EventLens.Gpu

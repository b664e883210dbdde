import EventLens.GpuSweep

/-!
What the panel announces and what the next sweep does. Both read the same
configuration, record, queues and clock, but the announcement knows neither
the telemetry nor the start timeout, and it rounds the time left to seconds.
-/

namespace EventLens.Gpu

open Programs

/-- The box is told to come up: the record says so before the provider is called. -/
def Starts (l : List Sight) : Prop := ∃ s, Sight.wrote s ∈ l ∧ s.state = .starting

def Stops (l : List Sight) : Prop := ∃ s, Sight.wrote s ∈ l ∧ s.state = .stopping

def Sight.stopping : Sight → Bool
  | .wrote s => s.state = .stopping
  | _ => false

instance (l : List Sight) : Decidable (Stops l) :=
  decidable_of_iff (l.any Sight.stopping = true) (by
    simp only [List.any_eq_true, Stops]
    constructor
    · rintro ⟨x, hx, hstopping⟩
      cases x with
      | wrote s => exact ⟨s, hx, by simpa [Sight.stopping] using hstopping⟩
      | _ => simp [Sight.stopping] at hstopping
    · rintro ⟨s, hs, hstate⟩
      exact ⟨.wrote s, hs, by simp [Sight.stopping, hstate]⟩)

/-- A sweep that reads these inputs, with a provider that reports no running box. -/
def SweepsOn (i : SweepReading) (w : GpuWorld) (trace : List GpuEvent) : Prop :=
  (∃ status w', GpuExec handleGpuLifecycleSweep w trace status w') ∧
    (trace = [⟨.readConfig, i.config⟩] ∨ ∃ rest, trace = i.events w.record ++ rest) ∧
    Sight.machine (some .running) ∉ sights trace

/-- What is announced on the inputs of a sweep. -/
def SweepReading.forecast (i : SweepReading) (s : GpuLifecycleState) : NextAction :=
  predictNextAction i.config s i.queues i.pending i.now

/-- A start is announced when it comes, a stop within the second when the sweep
stops a running box, and otherwise nothing happens. -/
structure Foretells (next : NextAction) (s : GpuLifecycleState) (l : List Sight) : Prop where
  start : next.kind = .start ↔ Starts l
  stop : next.kind = .stop ∧ next.etaSeconds = some 0 ↔ s.state = .running ∧ Stops l
  rest : next.kind = .none ∨ next.kind = .waiting → ¬ Starts l ∧ ¬ Stops l

namespace SweepReading

variable (i : SweepReading) (s : GpuLifecycleState)

/-- The box has not reported in within the start timeout. -/
def BootOverdue : Prop :=
  s.state = .starting ∧ i.online = false ∧ minutesMs i.config.startTimeoutMinutes < i.now - s.since

/-- What is left of the idle window. -/
def idleLeft : ℤ :=
  max 0 (minutesMs i.config.idleShutdownMinutes - (s.idleSince.map (fun t => i.now - t)).getD 0)

/-- Nothing is queued, no hold is in force, and less than half a second is left. -/
def AlmostIdle : Prop :=
  s.state = .running ∧ holdInForce s.holdUntil i.now = false ∧ i.pending = 0 ∧ i.idleLeft s < 500

/-- The box reports in and its countdown has run for the whole window. -/
def IdleOver : Prop :=
  i.online = true ∧ ∃ t, s.idleSince = some t ∧ minutesMs i.config.idleShutdownMinutes ≤ i.now - t

/-- Neither an overdue boot nor a window that is over only by the announcement. -/
def Foreseeable : Prop :=
  i.config.enabled = true → ¬ i.BootOverdue s ∧ (i.AlmostIdle s → i.IdleOver s)

end SweepReading

/-! What the sweep writes. -/

theorem startStep_starts {config : GpuAutostartConfig} {s s' : GpuLifecycleState} {l : List Sight}
    (h : StartStep config false s l s') (hs : s.state = .off) : Starts l ∧ ¬ Stops l := by
  cases h with
  | already up hm =>
    rw [hs] at up
    cases up
  | held up hm t => cases hm
  | aborted down bare now hold error =>
    refine ⟨⟨_, List.mem_cons_self, rfl⟩, fun hstop => ?_⟩
    obtain ⟨r, hr, hstate⟩ := hstop
    simp only [List.mem_cons, Sight.wrote.injEq, List.not_mem_nil, or_false] at hr
    rcases hr with rfl | rfl <;> cases hstate
  | failed down now hold error m hm =>
    refine ⟨⟨_, List.mem_cons_self, rfl⟩, fun hstop => ?_⟩
    obtain ⟨r, hr, hstate⟩ := hstop
    rcases hm with rfl | ⟨status, -, rfl⟩
    · simp only [List.cons_append, List.nil_append, List.mem_cons, Sight.wrote.injEq, reduceCtorEq,
        List.not_mem_nil, or_false, false_or] at hr
      rcases hr with rfl | rfl <;> cases hstate
    · simp only [List.cons_append, List.nil_append, List.mem_cons, Sight.wrote.injEq, reduceCtorEq,
        List.not_mem_nil, or_false, false_or] at hr
      rcases hr with rfl | rfl <;> cases hstate
  | adopted down now hold id =>
    refine ⟨⟨_, List.mem_cons_self, rfl⟩, fun hstop => ?_⟩
    obtain ⟨r, hr, hstate⟩ := hstop
    simp only [List.mem_cons, Sight.wrote.injEq, reduceCtorEq, List.not_mem_nil, or_false,
      false_or] at hr
    rcases hr with rfl | rfl <;> cases hstate
  | resumed down now hold id m hm =>
    refine ⟨⟨_, List.mem_cons_self, rfl⟩, fun hstop => ?_⟩
    obtain ⟨r, hr, hstate⟩ := hstop
    rcases hm with rfl | ⟨status, -, rfl⟩
    · simp only [List.cons_append, List.nil_append, List.mem_cons, Sight.wrote.injEq, reduceCtorEq,
        List.not_mem_nil, or_false, false_or] at hr
      rcases hr with rfl | rfl <;> cases hstate
    · simp only [List.cons_append, List.nil_append, List.mem_cons, Sight.wrote.injEq, reduceCtorEq,
        List.not_mem_nil, or_false, false_or] at hr
      rcases hr with rfl | rfl <;> cases hstate
  | posted down now hold =>
    refine ⟨⟨_, List.mem_cons_self, rfl⟩, fun hstop => ?_⟩
    obtain ⟨r, hr, hstate⟩ := hstop
    simp only [List.mem_cons, Sight.wrote.injEq, reduceCtorEq, List.not_mem_nil, or_false] at hr
    subst hr
    cases hstate

theorem stopStep_stops {s s' : GpuLifecycleState} {l : List Sight} (h : StopStep s l s') :
    Stops l ∧ ¬ Starts l := by
  have hfirst : ∃ now rest, l = .wrote (pendingStop s now) :: rest := by
    cases h <;> exact ⟨_, _, rfl⟩
  obtain ⟨now, rest, rfl⟩ := hfirst
  refine ⟨⟨_, List.mem_cons_self, rfl⟩, fun hstart => ?_⟩
  obtain ⟨r, hr, hstate⟩ := hstart
  cases h with
  | aborted now error =>
    simp only [List.mem_cons, Sight.wrote.injEq, reduceCtorEq, List.not_mem_nil, or_false] at hr
    rcases hr with rfl | rfl <;> cases hstate
  | failed now error =>
    simp only [List.mem_cons, Sight.wrote.injEq, reduceCtorEq, List.not_mem_nil, or_false,
      false_or] at hr
    rcases hr with rfl | rfl <;> cases hstate
  | stopped now =>
    simp only [List.mem_cons, Sight.wrote.injEq, reduceCtorEq, List.not_mem_nil, or_false,
      false_or] at hr
    rcases hr with rfl | rfl <;> cases hstate

/-- A write of another state neither starts nor stops the box. -/
theorem quiet_write {l : List Sight}
    (h : ∀ r, Sight.wrote r ∈ l → r.state = .running ∨ r.state = .off) :
    ¬ Starts l ∧ ¬ Stops l := by
  constructor
  · intro hstart
    obtain ⟨r, hr, hstate⟩ := hstart
    rcases h r hr with hrun | hoff
    · rw [hrun] at hstate
      cases hstate
    · rw [hoff] at hstate
      cases hstate
  · intro hstop
    obtain ⟨r, hr, hstate⟩ := hstop
    rcases h r hr with hrun | hoff
    · rw [hrun] at hstate
      cases hstate
    · rw [hoff] at hstate
      cases hstate

/-! The sweep's own rule, and what it makes of it. -/

namespace SweepReading

variable (i : SweepReading) (s : GpuLifecycleState)

def StartDue : Prop :=
  s.state = .off ∧ (evaluateTrigger i.config i.queues i.pending).shouldStart = true

def StopDue : Prop :=
  s.state = .running ∧ i.pending = 0 ∧ holdInForce s.holdUntil i.now = false ∧ i.IdleOver s

/-- The start trigger and the announcement read the same two thresholds. -/
theorem trigger_iff : (evaluateTrigger i.config i.queues i.pending).shouldStart = true ↔
    i.pending ≠ 0 ∧ (i.config.pendingThreshold ≤ (i.pending : ℤ) ∨
      i.config.maxPendingAgeMinutes * 60 ≤ oldestWaitingOf i.queues) := by
  unfold evaluateTrigger
  by_cases hpending : i.pending = 0
  · simp [hpending]
  by_cases hmany : i.config.pendingThreshold ≤ (i.pending : ℤ)
  · simp [hpending, hmany]
  by_cases hold : i.config.maxPendingAgeMinutes * 60 ≤ oldestWaitingOf i.queues
  · simp [hpending, hmany, hold]
  · simp [hpending, hmany, hold]

theorem predictOff_kind : (predictOff i.config i.queues i.pending).kind =
    if i.pending = 0 then .none
    else if (evaluateTrigger i.config i.queues i.pending).shouldStart then .start
    else .waiting := by
  unfold predictOff
  by_cases hpending : i.pending = 0
  · simp [hpending]
  have hdue := i.trigger_iff
  by_cases htrigger : (evaluateTrigger i.config i.queues i.pending).shouldStart = true
  · have hwhen := (hdue.mp htrigger).2
    simp [hpending, htrigger, hwhen]
  · have hwhen : ¬ (i.config.pendingThreshold ≤ (i.pending : ℤ) ∨
        i.config.maxPendingAgeMinutes * 60 ≤ oldestWaitingOf i.queues) :=
      fun h => htrigger (hdue.mpr ⟨hpending, h⟩)
    simp [hpending, htrigger, hwhen]

theorem roundDiv_eq_zero {x : ℤ} (hx : 0 ≤ x) : roundDiv x 1000 = 0 ↔ x < 500 := by
  unfold roundDiv
  omega

end SweepReading

section Forecast

variable {i : SweepReading} {s : GpuLifecycleState}

open SweepReading

theorem forecast_start (enabled : i.config.enabled = true) :
    (i.forecast s).kind = .start ↔ i.StartDue s := by
  unfold forecast predictNextAction StartDue
  rw [if_pos enabled]
  cases hs : s.state with
  | off =>
    simp only [i.predictOff_kind, true_and]
    by_cases hpending : i.pending = 0
    · have hdue := i.trigger_iff
      simp [hpending] at hdue ⊢
      simpa using hdue
    · simp [hpending]
  | running =>
    simp only [predictRunning]
    split
    · simp
    · split <;> simp
  | starting => simp
  | stopping => simp

theorem forecast_stop (enabled : i.config.enabled = true) :
    (i.forecast s).kind = .stop ∧ (i.forecast s).etaSeconds = some 0 ↔ i.AlmostIdle s := by
  unfold forecast predictNextAction AlmostIdle idleLeft
  rw [if_pos enabled]
  cases hs : s.state with
  | off =>
    simp only [i.predictOff_kind]
    split
    · simp
    · split <;> simp
  | running =>
    simp only [predictRunning, true_and]
    by_cases hhold : holdInForce s.holdUntil i.now = true
    · simp [hhold]
    by_cases hpending : i.pending = 0
    · have hround :=
        SweepReading.roundDiv_eq_zero (le_max_left 0 (minutesMs i.config.idleShutdownMinutes -
        (s.idleSince.map (fun t => i.now - t)).getD 0))
      simp [hhold, hpending, hround]
    · have hbusy : 0 < i.pending := by omega
      simp [hhold, hpending, hbusy]
  | starting => simp
  | stopping => simp

/-- A running box is the only one of which a stop is announced. -/
theorem forecast_quiet (enabled : i.config.enabled = true) (hs : s.state ≠ .off) :
    (i.forecast s).kind = .none ∨ (i.forecast s).kind = .waiting ↔
      s.state ≠ .running ∨ holdInForce s.holdUntil i.now = true ∨ i.pending ≠ 0 := by
  unfold forecast predictNextAction
  rw [if_pos enabled]
  cases hstate : s.state with
  | off => exact absurd hstate hs
  | running =>
    simp only [predictRunning]
    by_cases hhold : holdInForce s.holdUntil i.now = true
    · simp [hhold]
    by_cases hpending : i.pending = 0
    · simp [hhold, hpending]
    · have hbusy : 0 < i.pending := by omega
      simp [hhold, hpending, hbusy]
  | starting => simp
  | stopping => simp

end Forecast

/-! What the sweep does, by its rule. -/

section Rule

variable {i : SweepReading} {w w' : GpuWorld} {trace : List GpuEvent} {status : JobStatus}

theorem decision_start {s s' : GpuLifecycleState} {l : List Sight} (d : Decision i s l s')
    (h : Starts l) :
    i.StartDue s := by
  cases d with
  | reported hs on t => exact absurd h (quiet_write (by simp)).1
  | timedOut hs off late stop => exact absurd h (stopStep_stops stop).2
  | vanished hs off t t' => exact absurd h (quiet_write (by simp)).1
  | confirmedOff hs off t t' => exact absurd h (quiet_write (by simp)).1
  | started hs trigger start => exact ⟨hs, trigger⟩
  | cleared hs on busy t ht => exact absurd h (quiet_write (by simp [hs])).1
  | working hs on busy ht => exact absurd h (quiet_write (by simp)).1
  | drained hs on idle ht => exact absurd h (quiet_write (by simp [hs])).1
  | idleStopped hs on idle t ht free late stop => exact absurd h (stopStep_stops stop).2
  | waiting hs on idle t ht => exact absurd h (quiet_write (by simp)).1
  | resting hs => exact absurd h (quiet_write (by simp)).1

theorem decision_stop {s s' : GpuLifecycleState} {l : List Sight} (d : Decision i s l s')
    (h : Stops l) :
    i.BootOverdue s ∨ i.StopDue s := by
  cases d with
  | reported hs on t => exact absurd h (quiet_write (by simp)).2
  | timedOut hs off late stop => exact Or.inl ⟨hs, off, late⟩
  | vanished hs off t t' => exact absurd h (quiet_write (by simp)).2
  | confirmedOff hs off t t' => exact absurd h (quiet_write (by simp)).2
  | started hs trigger start => exact absurd h (startStep_starts start hs).2
  | cleared hs on busy t ht => exact absurd h (quiet_write (by simp [hs])).2
  | working hs on busy ht => exact absurd h (quiet_write (by simp)).2
  | drained hs on idle ht => exact absurd h (quiet_write (by simp [hs])).2
  | idleStopped hs on idle t ht free late stop => exact Or.inr ⟨hs, idle, free, on, t, ht, late⟩
  | waiting hs on idle t ht => exact absurd h (quiet_write (by simp)).2
  | resting hs => exact absurd h (quiet_write (by simp)).2

/-- Due is what a branch of the sweep tests, so it is done. -/
theorem sweepRecord_start (due : i.StartDue w.record)
    (he : GpuExec (sweepRecord i.config w.record i.queues i.online i.now) w trace status w') :
    Starts (sights trace) := by
  obtain ⟨hs, htrigger⟩ := due
  have htrigger' : (evaluateTrigger i.config i.queues (pendingOf i.queues)).shouldStart = true :=
    htrigger
  simp only [sweepRecord, hs, htrigger', reduceCtorEq, false_and, ↓reduceIte, and_self] at he
  obtain ⟨first, _, _, _, rfl, hstart, he₁⟩ := exec_bind.mp he
  obtain ⟨rfl, -, -⟩ := exec_done.mp he₁
  rw [List.append_nil]
  exact (startStep_starts (start_exec hstart) hs).1

theorem sweepRecord_overdue (due : i.BootOverdue w.record)
    (he : GpuExec (sweepRecord i.config w.record i.queues i.online i.now) w trace status w') :
    Stops (sights trace) := by
  obtain ⟨hs, off, late⟩ := due
  simp only [sweepRecord, hs, off, late, Bool.false_eq_true, and_false, and_self, ↓reduceIte] at he
  exact (stopStep_stops (timeOutStart_exec he)).1

theorem sweepRecord_stop (due : i.StopDue w.record)
    (he : GpuExec (sweepRecord i.config w.record i.queues i.online i.now) w trace status w') :
    Stops (sights trace) := by
  obtain ⟨hs, hpending, hfree, on, t, ht, late⟩ := due
  have hactive : activeOf i.queues = 0 := by
    have hle : activeOf i.queues ≤ i.pending := activeOf_le_pendingOf i.queues
    omega
  have hpending' : pendingOf i.queues = 0 := hpending
  simp only [sweepRecord, hs, on, hpending', hactive, reduceCtorEq, false_and, and_false,
    ↓reduceIte,
    Bool.true_eq_false, sweepRunning, and_self, ht, hfree, late] at he
  exact (stopStep_stops (stop_then_exec he)).1

theorem starts_cons {x : Sight} {l : List Sight} (h : ∀ r, x ≠ .wrote r) : Starts (x :: l) ↔
    Starts l := by
  unfold Starts
  refine exists_congr fun r => ?_
  simp [(h r).symm]

theorem stops_cons {x : Sight} {l : List Sight} (h : ∀ r, x ≠ .wrote r) : Stops (x :: l) ↔
    Stops l := by
  unfold Stops
  refine exists_congr fun r => ?_
  simp [(h r).symm]

theorem starts_probe {m l : List Sight} (hm : Probe m) : Starts (m ++ l) ↔ Starts l := by
  rcases hm with rfl | ⟨status, -, rfl⟩
  · rfl
  · exact starts_cons (by simp)

theorem stops_probe {m l : List Sight} (hm : Probe m) : Stops (m ++ l) ↔ Stops l := by
  rcases hm with rfl | ⟨status, -, rfl⟩
  · rfl
  · exact stops_cons (by simp)

/-- An enabled sweep on these inputs starts and stops by its rule, whatever the provider answers. -/
theorem sweepsOn_rule (h : SweepsOn i w trace) (enabled : i.config.enabled = true) :
    (Starts (sights trace) ↔ i.StartDue w.record) ∧
      (Stops (sights trace) ↔ i.BootOverdue w.record ∨ i.StopDue w.record) := by
  obtain ⟨⟨status, w', he⟩, hreads, hoff⟩ := h
  rcases sweep_runs he with ⟨config, disabled, htrace, -⟩ |
    ⟨j, -, ⟨rest, t, -, htrace, hsights, -⟩ | ⟨check, rest, w₁, htrace, hm, hrecord, hrun⟩⟩
  · rcases hreads with hread | ⟨rest, hread⟩
    · rw [hread] at htrace
      simp only [List.cons.injEq, and_true] at htrace
      injection htrace with _ hconfig
      rw [hconfig, disabled] at enabled
      cases enabled
    · rw [hread] at htrace
      simp [SweepReading.events] at htrace
  · rw [htrace, sights_append, hsights] at hoff
    simp at hoff
  · have hsame : j = i := by
      have hj : sweepReading trace = some j := by rw [htrace, sweepReading_events]
      rcases hreads with hread | ⟨rest', hread⟩
      · rw [hread] at htrace
        simp [SweepReading.events] at htrace
      · rw [hread, sweepReading_events] at hj
        exact (Option.some.inj hj).symm
    subst hsame
    have hlist : sights trace = .worker j.reading :: (sights check ++ sights rest) := by
      rw [htrace, sights_append, sights_events, sights_append]
      rfl
    have hstarts : Starts (sights trace) ↔ Starts (sights rest) := by
      rw [hlist, starts_cons (by simp), starts_probe hm]
    have hstops : Stops (sights trace) ↔ Stops (sights rest) := by
      rw [hlist, stops_cons (by simp), stops_probe hm]
    rw [hstarts, hstops, ← hrecord]
    refine ⟨⟨decision_start (sweepRecord_exec hrun), fun due => sweepRecord_start due hrun⟩,
      ⟨decision_stop (sweepRecord_exec hrun), fun due => ?_⟩⟩
    rcases due with due | due
    · exact sweepRecord_overdue due hrun
    · exact sweepRecord_stop due hrun

theorem sweepsOn_disabled (h : SweepsOn i w trace) (disabled : i.config.enabled = false) :
    ¬ Starts (sights trace) ∧ ¬ Stops (sights trace) := by
  obtain ⟨⟨status, w', he⟩, hreads, hoff⟩ := h
  rcases sweep_runs he with ⟨config, -, htrace, -⟩ | ⟨j, enabled, hrun⟩
  · rw [htrace]
    exact quiet_write (by simp [sights, sight])
  · have htrace : ∃ rest, trace = j.events w.record ++ rest := by
      rcases hrun with ⟨rest, t, -, htrace, -⟩ | ⟨check, rest, w₁, htrace, -⟩
      · exact ⟨rest, htrace⟩
      · exact ⟨check ++ rest, htrace⟩
    obtain ⟨rest, htrace⟩ := htrace
    have hj : sweepReading trace = some j := by rw [htrace, sweepReading_events]
    rcases hreads with hread | ⟨rest', hread⟩
    · rw [hread] at htrace
      simp [SweepReading.events] at htrace
    · rw [hread, sweepReading_events] at hj
      rw [← Option.some.inj hj, disabled] at enabled
      cases enabled

end Rule

theorem stopDue_almostIdle {i : SweepReading} {s : GpuLifecycleState} (due : i.StopDue s) :
    i.AlmostIdle s := by
  obtain ⟨hs, hpending, hfree, -, t, ht, late⟩ := due
  refine ⟨hs, hfree, hpending, ?_⟩
  simp only [SweepReading.idleLeft, ht, Option.map_some, Option.getD_some]
  omega

/-- Of a box that is not booting too long, a quiet announcement is kept. -/
theorem quiet_rule {i : SweepReading} {s : GpuLifecycleState} (enabled : i.config.enabled = true)
    (hboot : ¬ i.BootOverdue s)
    (hquiet : (i.forecast s).kind = .none ∨ (i.forecast s).kind = .waiting) :
    ¬ i.StartDue s ∧ ¬ (i.BootOverdue s ∨ i.StopDue s) := by
  refine ⟨fun due => ?_, fun due => ?_⟩
  · have hkind := (forecast_start enabled).mpr due
    simp [hkind] at hquiet
  · rcases due with due | due
    · exact hboot due
    · have hkind := ((forecast_stop enabled).mpr (stopDue_almostIdle due)).1
      simp [hkind] at hquiet

/-- The announcement agrees with the sweep exactly when no boot is overdue and no
window is over by rounding, or on a box that has stopped reporting. -/
theorem foretells_iff {i : SweepReading} {w : GpuWorld} {trace : List GpuEvent}
    (h : SweepsOn i w trace) :
    Foretells (i.forecast w.record) w.record (sights trace) ↔ i.Foreseeable w.record := by
  by_cases enabled : i.config.enabled = true
  · obtain ⟨hstarts, hstops⟩ := sweepsOn_rule h enabled
    have hstart := forecast_start (s := w.record) enabled
    have hstop := forecast_stop (s := w.record) enabled
    constructor
    · intro hf _
      have hboot : ¬ i.BootOverdue w.record := by
        intro overdue
        have hkind : (i.forecast w.record).kind = .none := by
          simp [SweepReading.forecast, predictNextAction, enabled, overdue.1]
        exact (hf.rest (Or.inl hkind)).2 (hstops.mpr (Or.inl overdue))
      refine ⟨hboot, fun almost => ?_⟩
      obtain ⟨-, hstopped⟩ := hf.stop.mp (hstop.mpr almost)
      rcases hstops.mp hstopped with overdue | due
      · exact absurd overdue hboot
      · exact due.2.2.2
    · intro hforeseen
      obtain ⟨hboot, hidle⟩ := hforeseen enabled
      refine ⟨hstart.trans hstarts.symm, ?_, fun hquiet => ?_⟩
      · rw [hstop, hstops]
        constructor
        · intro almost
          have hover := hidle almost
          obtain ⟨hs, hfree, hpending, -⟩ := almost
          exact ⟨hs, Or.inr ⟨hs, hpending, hfree, hover⟩⟩
        · intro hstopped
          rcases hstopped.2 with overdue | due
          · exact absurd overdue hboot
          · exact stopDue_almostIdle due
      · rw [hstarts, hstops]
        exact quiet_rule enabled hboot hquiet
  · have disabled : i.config.enabled = false := by simpa using enabled
    obtain ⟨hstarts, hstops⟩ := sweepsOn_disabled h disabled
    have hkind : (i.forecast w.record).kind = .none := by
      simp [SweepReading.forecast, predictNextAction, disabled]
    refine ⟨fun _ henabled => absurd henabled enabled,
      fun _ => ⟨?_, ?_, fun _ => ⟨hstarts, hstops⟩⟩⟩
    · simp [hkind, hstarts]
    · simp [hkind, hstops]

/-! A boot that is overdue, and a countdown that has run out. -/

/-- A box that was told to start at 0 and an hour later has not reported in. -/
def overdueWorld : GpuWorld where
  record := { gpuLifecycleInitial with state := .starting }

def overdueReading : SweepReading where
  config := webhookConfig
  readings := fun _ => default
  clock := 3_600_000
  worker := .ok []
  now := 3_600_000

def overdueTrace : List GpuEvent :=
  (run gpuHandler handleGpuLifecycleSweep (Setting.oracle { config := webhookConfig, now :=
    3_600_000 })
    overdueWorld).trace

theorem overdue_sweeps : SweepsOn overdueReading overdueWorld overdueTrace :=
  ⟨⟨_, _, exec_run _ _ _ _⟩, Or.inr ⟨_, rfl⟩, by decide⟩

theorem not_foretells : ¬ ∀ i w trace, SweepsOn i w trace →
    Foretells (i.forecast w.record) w.record (sights trace) := by
  intro h
  have hsilent := (h _ _ _ overdue_sweeps).rest (Or.inl rfl)
  exact hsilent.2 ⟨pendingStop overdueWorld.record 3_600_000, by decide, rfl⟩

/-- A running box whose queues have been empty since 0. -/
def idleWorld : GpuWorld where
  record := { gpuLifecycleInitial with state := .running, idleSince := some 0 }

def idleReading : SweepReading where
  config := webhookConfig
  readings := fun _ => default
  clock := 3_600_000
  worker := reporting
  now := 3_600_000

def idleTrace : List GpuEvent :=
  (run gpuHandler handleGpuLifecycleSweep
    (Setting.oracle { config := webhookConfig, now := 3_600_000, worker :=
      reporting }) idleWorld).trace

theorem foretells_idle :
    Foretells (idleReading.forecast idleWorld.record) idleWorld.record (sights idleTrace) := by
  have hsweeps : SweepsOn idleReading idleWorld idleTrace :=
    ⟨⟨_, _, exec_run _ _ _ _⟩, Or.inr ⟨_, rfl⟩, by decide⟩
  refine (foretells_iff hsweeps).mpr fun _ =>
    ⟨fun overdue => ?_, fun _ => ⟨by decide, 0, rfl, by decide⟩⟩
  have hstate := overdue.1
  simp [idleWorld] at hstate

end EventLens.Gpu

import EventLens.GpuSweep

/-!
Idle shutdown. The sweep stops a running box when the queues have been empty
since `idleSince` for the idle window; the heartbeat answers the same
question from `since`. A tick is a call with the queue depth and the time it
was made at, which a disabled sweep does not read.
-/

namespace EventLens.Gpu

open Programs

structure Tick where
  episode : GpuEpisode
  pending : ℕ
  time : ℤ

namespace Tick

variable (t : Tick)

def sweeps : Prop := t.episode.call = .sweep

instance : Decidable t.sweeps := inferInstanceAs (Decidable (_ = _))

/-- The record the tick finds. -/
def record : GpuLifecycleState := t.episode.before.record

/-- The readings of an enabled sweep. -/
def reading : Option SweepReading := sweepReading t.episode.trace

/-- What an enabled sweep reads is the depth and the time of the tick. -/
def Honest : Prop :=
  t.sweeps → ∀ i ∈ t.reading, i.pending = t.pending ∧ i.now = t.time

/-- A sweep gives a stop for a record that says `running`. -/
def IdleStop (i : SweepReading) : Prop :=
  t.sweeps ∧ t.reading = some i ∧ t.record.state = .running ∧
    ∃ s, Sight.wrote s ∈ sights t.episode.trace ∧ s.state = .stopping

/-- A disabled sweep that finds a running box with its idle countdown stamped
finds the queues empty. -/
def KeepsStamp : Prop :=
  t.sweeps → t.reading.isNone → t.record.state = .running → t.record.idleSince.isSome →
    t.pending = 0

instance : Decidable t.KeepsStamp :=
  inferInstanceAs (Decidable (t.sweeps → _ = _ → _ = _ → _ = _ → _ = _))

instance : Decidable t.Honest :=
  inferInstanceAs (Decidable (t.sweeps → ∀ i ∈ t.reading, _ = _ ∧ _ = _))

end Tick

/-- Some sweep was made at `stamp`, and from it on every sweep was made on
empty queues. -/
def EmptySince (ticks : List Tick) (stamp : ℤ) : Prop :=
  ∃ k t, ticks[k]? = some t ∧ t.sweeps ∧ t.time = stamp ∧
    ∀ u ∈ ticks.drop k, u.sweeps → u.pending = 0

theorem emptySince_snoc {ticks : List Tick} {stamp : ℤ} (h : EmptySince ticks stamp) {t : Tick}
    (ht : t.sweeps → t.pending = 0) : EmptySince (ticks ++ [t]) stamp := by
  obtain ⟨k, first, hfirst, hsweeps, htime, hempty⟩ := h
  have hk : k < ticks.length := (List.getElem?_eq_some_iff.mp hfirst).1
  refine ⟨k, first, ?_, hsweeps, htime, ?_⟩
  · rw [List.getElem?_append_left hk, hfirst]
  · intro u hu
    rw [List.drop_append_of_le_length (Nat.le_of_lt hk)] at hu
    rcases List.mem_append.mp hu with hu | hu
    · exact hempty u hu
    · rw [List.mem_singleton.mp hu]
      exact ht

theorem emptySince_last (ticks : List Tick) {t : Tick} (hsweeps : t.sweeps)
    (ht : t.pending = 0) : EmptySince (ticks ++ [t]) t.time := by
  refine ⟨ticks.length, t, by simp, hsweeps, rfl, ?_⟩
  intro u hu _
  rw [List.drop_left] at hu
  rw [List.mem_singleton.mp hu]
  exact ht

/-- Every idle stop comes without a hold in force, after the queues were
empty at every sweep of an interval as long as the idle window. -/
def IdleStopSound (ticks : List Tick) : Prop :=
  ∀ past t rest i, ticks = past ++ t :: rest → t.IdleStop i →
    holdInForce t.record.holdUntil t.time = false ∧
      ∃ stamp, EmptySince (past ++ [t]) stamp ∧
        minutesMs i.config.idleShutdownMinutes ≤ t.time - stamp

/-- The stamp of a running box is the time of a sweep from which on the queues
were empty. -/
def StampSound (past : List Tick) (s : GpuLifecycleState) : Prop :=
  s.state = .running → ∀ stamp, s.idleSince = some stamp → EmptySince past stamp

theorem stampSound_of_not_running {past : List Tick} {s : GpuLifecycleState}
    (h : s.state ≠ .running) : StampSound past s := fun hs => absurd hs h

theorem stampSound_same {past : List Tick} {s s' : GpuLifecycleState} {t : Tick}
    (h : StampSound past s) (hstate : s'.state = s.state) (hidle : s'.idleSince = s.idleSince)
    (ht : s.state = .running → s.idleSince.isSome → t.sweeps → t.pending = 0) :
    StampSound (past ++ [t]) s' := by
  intro hs stamp hstamp
  rw [hstate] at hs
  rw [hidle] at hstamp
  exact emptySince_snoc (h hs stamp hstamp) (ht hs (by simp [hstamp]))

theorem stopStep_not_running {s s' : GpuLifecycleState} {l : List Sight}
    (h : StopStep s l s') : s'.state ≠ .running := by
  cases h <;> simp [pendingStop]

theorem startStep_stamp {config : GpuAutostartConfig} {manual : Bool} {s s' : GpuLifecycleState}
    {l : List Sight} (h : StartStep config manual s l s') :
    s'.state ≠ .running ∨ s'.state = s.state ∧ s'.idleSince = s.idleSince := by
  cases h with
  | already up hm => exact Or.inr ⟨rfl, rfl⟩
  | held up hm t => exact Or.inr ⟨rfl, rfl⟩
  | aborted down bare now hold error => exact Or.inl (by simp)
  | failed down now hold error m hm => exact Or.inl (by simp)
  | adopted down now hold id => exact Or.inl (by simp [pendingStart])
  | resumed down now hold id m hm => exact Or.inl (by simp [pendingStart])
  | posted down now hold => exact Or.inl (by simp [pendingStart])

theorem decision_stampSound {past : List Tick} {t : Tick} {i : SweepReading}
    {s s' : GpuLifecycleState} {l : List Sight} (h : StampSound past s) (hsweeps : t.sweeps)
    (hpending : i.pending = t.pending) (hnow : i.now = t.time) (hdecision : Decision i s l s') :
    StampSound (past ++ [t]) s' := by
  cases hdecision with
  | reported hs on now =>
    intro _ stamp hstamp
    cases hstamp
  | timedOut hs off late stop => exact stampSound_of_not_running (stopStep_not_running stop)
  | vanished hs off now now' => exact stampSound_of_not_running (by simp)
  | confirmedOff hs off now now' => exact stampSound_of_not_running (by simp)
  | started hs trigger start =>
    rcases startStep_stamp start with hdown | ⟨hstate, -⟩
    · exact stampSound_of_not_running hdown
    · refine stampSound_of_not_running ?_
      rw [hstate, hs]
      decide
  | cleared hs on busy stamp ht =>
    intro _ stamp hstamp
    cases hstamp
  | working hs on busy ht =>
    intro _ stamp hstamp
    rw [ht] at hstamp
    cases hstamp
  | drained hs on idle ht =>
    intro _ stamp hstamp
    cases hstamp
    rw [hnow]
    exact emptySince_last past hsweeps (by omega)
  | idleStopped hs on idle stamp ht free late stop =>
    exact stampSound_of_not_running (stopStep_not_running stop)
  | waiting hs on idle stamp ht =>
    exact stampSound_same h rfl rfl (fun _ _ _ => by omega)
  | resting hs => exact stampSound_of_not_running hs

theorem step_stampSound {past : List Tick} {t : Tick} {s' : GpuLifecycleState} {l : List Sight}
    (h : StampSound past t.record) (honest : t.Honest) (keeps : t.KeepsStamp)
    (step : CallStep t.record t.episode.call t.episode.trace t.episode.answer l s') :
    StampSound (past ++ [t]) s' := by
  obtain ⟨⟨call, before, trace, answer⟩, pending, time⟩ := t
  unfold Tick.Honest Tick.KeepsStamp at *
  unfold Tick.sweeps Tick.reading Tick.record at *
  simp only at *
  cases step with
  | swept status step =>
    cases step with
    | skipped config disabled =>
      exact stampSound_same h rfl rfl (fun hs hidle _ => keeps rfl rfl hs hidle)
    | adopted i enabled rest hs now => exact stampSound_of_not_running (by simp)
    | decided i enabled rest m hm decision =>
      obtain ⟨hpending, hnow⟩ := honest rfl i rfl
      exact decision_stampSound h rfl hpending hnow decision
  | startRefused reason message => exact stampSound_same h rfl rfl (fun _ _ hc => by cases hc)
  | started reason _ ready start =>
    rcases startStep_stamp start with hdown | ⟨hstate, hidle⟩
    · exact stampSound_of_not_running hdown
    · exact stampSound_same h hstate hidle (fun _ _ hc => by cases hc)
  | stopRefused reason message => exact stampSound_same h rfl rfl (fun _ _ hc => by cases hc)
  | stopped reason _ stop => exact stampSound_of_not_running (stopStep_not_running stop)
  | held minutes userId _ now => exact stampSound_same h rfl rfl (fun _ _ hc => by cases hc)
  | released userId => exact stampSound_same h rfl rfl (fun _ _ hc => by cases hc)
  | asked i report => exact stampSound_same h rfl rfl (fun _ _ hc => by cases hc)
  | viewed _ status reading => exact stampSound_same h rfl rfl (fun _ _ hc => by cases hc)

theorem history_stampSound {w w' : GpuWorld} {es : List GpuEpisode}
    (hw : w.record.idleSince = none) (hist : GpuHistory w es w') {ticks : List Tick}
    (hticks : ticks.map (fun t => t.episode) = es) (honest : ∀ t ∈ ticks, t.Honest)
    (keeps : ∀ t ∈ ticks, t.KeepsStamp) : StampSound ticks w'.record := by
  induction hist generalizing ticks with
  | start =>
    intro _ stamp hstamp
    rw [hw] at hstamp
    cases hstamp
  | @next past s' s'' earlier call trace answer he ih =>
    obtain ⟨first, last, rfl, hfirst, hlast⟩ := List.map_eq_append_iff.mp hticks
    obtain ⟨t, rfl, ht⟩ := List.map_eq_singleton_iff.mp hlast
    have hbefore := ih hfirst (fun u hu => honest u (by simp [hu]))
      (fun u hu => keeps u (by simp [hu]))
    obtain ⟨e, pending, time⟩ := t
    obtain rfl : e = _ := ht
    exact step_stampSound hbefore (honest _ (by simp)) (keeps _ (by simp)) (call_exec he)

/-- An idle stop is the decision of a sweep on a stamped record. -/
theorem idleStop_decision {t : Tick} {i : SweepReading} {s' : GpuLifecycleState}
    (h : t.IdleStop i)
    (step : CallStep t.record t.episode.call t.episode.trace t.episode.answer
      (sights t.episode.trace) s') :
    i.pending = 0 ∧ holdInForce t.record.holdUntil i.now = false ∧
      ∃ stamp, t.record.idleSince = some stamp ∧
        minutesMs i.config.idleShutdownMinutes ≤ i.now - stamp := by
  obtain ⟨hsweeps, hreading, hs, next, hnext, hstopping⟩ := h
  unfold Tick.sweeps at hsweeps
  unfold Tick.reading at hreading
  rw [hsweeps] at step
  obtain ⟨status, -, step⟩ := step.sweep
  revert hnext hreading
  generalize sights t.episode.trace = l at step
  generalize t.episode.trace = trace at step
  intro hreading hnext
  cases step with
  | skipped config disabled => cases hreading
  | adopted i' enabled rest hoff now =>
    rw [hoff] at hs
    cases hs
  | decided i' enabled rest m hm decision =>
    have hin : ∀ {d : List Sight}, Sight.wrote next ∈ .worker i'.reading :: m ++ d →
        Sight.wrote next ∈ d := by
      intro d hd
      rcases hm with rfl | ⟨actual, -, rfl⟩ <;> simpa using hd
    cases decision with
    | idleStopped _ on idle stamp ht free late stop =>
      cases hreading
      exact ⟨idle, free, stamp, ht, late⟩
    | reported hs' => exact absurd (hs'.symm.trans hs) (by decide)
    | timedOut hs' => exact absurd (hs'.symm.trans hs) (by decide)
    | confirmedOff hs' => exact absurd (hs'.symm.trans hs) (by decide)
    | started hs' => exact absurd (hs'.symm.trans hs) (by decide)
    | resting hs' => exact absurd hs hs'
    | vanished _ off now now' =>
      have hwrote := hin hnext
      simp only [List.mem_singleton, Sight.wrote.injEq] at hwrote
      rw [hwrote] at hstopping
      cases hstopping
    | cleared _ on busy stamp ht =>
      have hwrote := hin hnext
      simp only [List.mem_singleton, Sight.wrote.injEq] at hwrote
      rw [hwrote] at hstopping
      exact absurd (hstopping.symm.trans hs) (by decide)
    | drained _ on idle ht =>
      have hwrote := hin hnext
      simp only [List.mem_singleton, Sight.wrote.injEq] at hwrote
      rw [hwrote] at hstopping
      exact absurd (hstopping.symm.trans hs) (by decide)
    | working _ on busy ht => exact absurd (hin hnext) List.not_mem_nil
    | waiting _ on idle stamp ht => exact absurd (hin hnext) List.not_mem_nil

/-- Idle stops are sound in every history in which no disabled sweep finds
work for a running box with its countdown stamped. -/
theorem idleStop_sound {w w' : GpuWorld} {ticks : List Tick}
    (hw : w.record.idleSince = none)
    (hist : GpuHistory w (ticks.map (fun t => t.episode)) w') (honest : ∀ t ∈ ticks, t.Honest)
    (keeps : ∀ t ∈ ticks, t.KeepsStamp) : IdleStopSound ticks := by
  rintro past t rest i rfl hstop
  rw [List.map_append, List.map_cons] at hist
  obtain ⟨hpast, after, hexec⟩ := hist.split rfl
  have hsound := history_stampSound hw hpast rfl (fun u hu => honest u (by simp [hu]))
    (fun u hu => keeps u (by simp [hu]))
  obtain ⟨hpending, hfree, stamp, hstamp, hlate⟩ := idleStop_decision hstop (call_exec hexec)
  obtain ⟨hp, hn⟩ := honest t (by simp) hstop.1 i hstop.2.1
  rw [hn] at hfree hlate
  refine ⟨hfree, stamp, ?_, hlate⟩
  exact emptySince_snoc (hsound hstop.2.2.1 stamp hstamp) (fun _ => by omega)

/-! A countdown carried through a time in which the sweep was disabled. -/

/-- The calls as ticks, with the depth and the time of their settings. -/
def ticksIn (calls : List (Call × Setting)) (w : GpuWorld) : List Tick :=
  List.zipWith (fun e c =>
    { episode := e
      pending := pendingOf
        (gpuQueues.map (fun name => summarize name (c.2.readings name) c.2.now))
      time := c.2.now }) (playIn calls w).1 calls

/-- A box comes up and drains; the sweep is disabled while `n` jobs wait, and
enabled again on empty queues. -/
def lull (n : ℕ) : List (Call × Setting) :=
  [(.startNow "batch", { config := webhookConfig, now := 0 }),
    (.sweep, { config := webhookConfig, now := 120000, worker := reporting }),
    (.sweep, { config := webhookConfig, now := 240000, worker := reporting }),
    (.sweep, {
      config := { webhookConfig with enabled := false }
      now := 360000
      worker := reporting
      readings := waitingJobs n }),
    (.sweep, { config := webhookConfig, now := 1200000, worker := reporting })]

theorem history_lull (n : ℕ) :
    GpuHistory freshWorld ((ticksIn (lull n) freshWorld).map (fun t => t.episode))
      (playIn (lull n) freshWorld).2 := history_playIn (lull n) freshWorld

theorem not_idleStopSound : ¬ ∀ ticks w',
    GpuHistory freshWorld (ticks.map (fun t => t.episode)) w' → (∀ t ∈ ticks, t.Honest) →
    IdleStopSound ticks := by
  intro h
  let ticks := ticksIn (lull 30) freshWorld
  have hsound := h ticks _ (history_lull 30) (by decide)
  let last := ticks.getLast (by decide)
  have hlast : ticks = ticks.dropLast ++ [last] := (List.dropLast_concat_getLast _).symm
  have hstop : last.IdleStop (last.reading.get (by decide)) := by
    refine ⟨by decide, (Option.some_get _).symm, by decide, pendingStop last.record 1200000, ?_⟩
    decide
  obtain ⟨-, stamp, ⟨k, t, hk, -, rfl, hempty⟩, hlate⟩ := hsound _ _ _ _ hlast hstop
  rw [← hlast] at hk hempty
  have hwindow : t.time ≤ 600000 := by
    have htime : last.time = 1200000 := by decide
    have hconfig :
      minutesMs (last.reading.get (by decide)).config.idleShutdownMinutes = 600000 := by
      decide
    omega
  have hk4 : k ≤ 3 := by
    have hlength := (List.getElem?_eq_some_iff.mp hk).1
    have hfive : ticks.length = 5 := by decide
    by_cases hlast4 : k = 4
    · have htimes : ∀ t ∈ ticks[4]?, t.time = 1200000 := by decide
      rw [hlast4] at hk
      have htime := htimes t hk
      omega
    · omega
  obtain ⟨u, hu, hsweeps, hbusy⟩ : ∃ u ∈ ticks.drop 3, u.sweeps ∧ u.pending = 30 := by decide
  have hzero := hempty u (List.drop_subset_drop_left ticks hk4 hu) hsweeps
  omega

theorem idleStopSound_lull : IdleStopSound (ticksIn (lull 0) freshWorld) :=
  idleStop_sound rfl (history_lull 0) (by decide) (by decide)

/-! The heartbeat of an idle box. -/

/-- The sweep's sense of idle: stamped, and for the whole window. -/
def IdleLongEnough (s : GpuLifecycleState) (window now : ℤ) : Prop :=
  ∃ stamp, s.idleSince = some stamp ∧ window ≤ now - stamp

/-- A heartbeat on a running box with nothing queued or active and no hold. -/
def AskedWhileIdle (e : GpuEpisode) (i : HeartbeatReading) : Prop :=
  e.call = .heartbeat ∧ heartbeatReading e.trace = some i ∧
    e.before.record.state = .running ∧ i.pending = 0 ∧
    holdInForce e.before.record.holdUntil i.now = false

/-- The box is told to shut down only when the sweep would call it idle. -/
def ShutdownAgrees (e : GpuEpisode) (i : HeartbeatReading) : Prop :=
  ∀ reply, e.answer = .heartbeat reply → reply.keepAlive = false →
    IdleLongEnough e.before.record (minutesMs i.config.idleShutdownMinutes) i.now

theorem keepAlive_idle {config : GpuAutostartConfig} {s : GpuLifecycleState}
    {queues : List GpuQueueSummary} {now : ℤ} (hs : s.state = .running)
    (hpending : pendingOf queues = 0) (hhold : holdInForce s.holdUntil now = false) :
    (heartbeatReply config s queues now).keepAlive = false ↔
      minutesMs config.idleShutdownMinutes ≤ now - s.since := by
  have hactive : activeOf queues = 0 := by
    have hle := activeOf_le_pendingOf queues
    omega
  unfold heartbeatReply
  by_cases hwindow : now - s.since < minutesMs config.idleShutdownMinutes
  · simp only [hactive, hpending, hhold, hs, hwindow]
    simp
    omega
  · simp only [hactive, hpending, hhold, hs, hwindow]
    simp
    omega

/-- The heartbeat agrees with the sweep exactly when the window since the
box came up has not elapsed, or the sweep's countdown has run for the window. -/
theorem shutdownAgrees_iff {w w' : GpuWorld} {es : List GpuEpisode} (hist : GpuHistory w es w')
    {e : GpuEpisode} (he : e ∈ es) {i : HeartbeatReading} (hasked : AskedWhileIdle e i) :
    ShutdownAgrees e i ↔
      i.now - e.before.record.since < minutesMs i.config.idleShutdownMinutes ∨
        IdleLongEnough e.before.record (minutesMs i.config.idleShutdownMinutes) i.now := by
  obtain ⟨s', step⟩ := step_of_mem hist he
  obtain ⟨hcall, hreading, hs, hpending, hhold⟩ := hasked
  have hanswer := step.heartbeat hcall hreading
  have hkeep : (heartbeatReply i.config e.before.record i.queues i.now).keepAlive = false ↔ _ :=
    keepAlive_idle hs hpending hhold
  constructor
  · intro h
    by_cases hwindow : i.now - e.before.record.since < minutesMs i.config.idleShutdownMinutes
    · exact Or.inl hwindow
    · exact Or.inr (h _ hanswer (hkeep.mpr (by omega)))
  · rintro (hwindow | hidle) reply hreply hdown
    · rw [hanswer] at hreply
      cases hreply
      have hlate := hkeep.mp hdown
      omega
    · exact hidle

/-- A box that comes up, works, and is asked for the heartbeat at `now`. -/
def workedThrough (now : ℤ) : List (Call × Setting) :=
  [(.startNow "batch", { config := webhookConfig, now := 0 }),
    (.sweep, { config := webhookConfig, now := 120000, worker := reporting }),
    (.sweep, {
      config := webhookConfig
      now := 1080000
      worker := reporting
      readings := waitingJobs 30 }),
    (.heartbeat, { config := webhookConfig, now := now })]

theorem not_shutdownAgrees : ¬ ∀ es w', GpuHistory freshWorld es w' →
    ∀ e ∈ es, ∀ i, AskedWhileIdle e i → ShutdownAgrees e i := by
  intro h
  let es := (playIn (workedThrough 1140000) freshWorld).1
  let e := es.getLast (by decide)
  have hasked : AskedWhileIdle e ((heartbeatReading e.trace).get (by decide)) := by
    refine ⟨by decide, (Option.some_get _).symm, by decide, by decide, by decide⟩
  have hidle := h es _ (history_playIn _ freshWorld) e (List.getLast_mem _) _ hasked
    _ rfl (by decide)
  obtain ⟨stamp, hstamp, -⟩ := hidle
  revert hstamp
  simp [show e.before.record.idleSince = none from by decide]

theorem shutdownAgrees_workedThrough :
    let es := (playIn (workedThrough 660000) freshWorld).1
    let e := es.getLast (by decide)
    let i := (heartbeatReading e.trace).get (by decide)
    ShutdownAgrees e i ↔
      i.now - e.before.record.since < minutesMs i.config.idleShutdownMinutes ∨
        IdleLongEnough e.before.record (minutesMs i.config.idleShutdownMinutes) i.now :=
  shutdownAgrees_iff (history_playIn _ freshWorld) (List.getLast_mem _)
    ⟨by decide, (Option.some_get _).symm, by decide, by decide, by decide⟩

end EventLens.Gpu

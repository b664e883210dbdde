import EventLens.GpuSweep
import Mathlib.Data.List.Induction

/-!
Failed stops. After a stop that failed, or found no machine to stop, the
record may say `off` again only after a later stop succeeded, or after a
worker observed since the last start was observed absent. A sweep takes the
absence of a worker that never reported in for the end of the box, and a
refused start writes `off` over the failure.
-/

namespace EventLens.Gpu

open Programs

/-- The worker has been observed reporting in since the last accepted start. -/
def Observed (l : List Sight) : Prop :=
  ∃ l₁ l₂, l = l₁ ++ .worker (some true) :: l₂ ∧ Sight.start true ∉ l₂

/-- What resolves a failed stop: the sights before it are `l`, those after it
`later`. -/
def StopResolved (l later : List Sight) : Prop :=
  Sight.stop true ∈ later ∨
    ∃ a b, later = a ++ .worker (some false) :: b ∧ Observed (l ++ .stopFailed :: a)

/-- The record is written as off, or the box is reported as off. -/
def ReportsOff : Sight → Prop
  | .wrote s => s.state = .off
  | .confirmedOff => True
  | _ => False

/-- Nothing reports the box as off between a failed stop and its resolution. -/
def FailedStopStands (l : List Sight) : Prop :=
  ∀ l₁ l₂ x l₃, l = l₁ ++ .stopFailed :: (l₂ ++ x :: l₃) → ReportsOff x → StopResolved l₁ l₂

/-- Whether a failed stop stands, and whether the worker has been observed
since the last accepted start. -/
structure StopWatch where
  failed : Bool
  seen : Bool
deriving DecidableEq

def StopWatch.next (g : StopWatch) : Sight → StopWatch
  | .stopFailed => { g with failed := true }
  | .stop true => { g with failed := false }
  | .start true => { g with seen := false }
  | .worker (some true) => { g with seen := true }
  | .worker (some false) => { g with failed := g.failed && !g.seen }
  | _ => g

def watch (l : List Sight) : StopWatch := l.foldl StopWatch.next ⟨false, false⟩

theorem watch_append (l l' : List Sight) : watch (l ++ l') = l'.foldl StopWatch.next (watch l) :=
  List.foldl_append

theorem watch_snoc (l : List Sight) (x : Sight) : watch (l ++ [x]) = (watch l).next x := by
  rw [watch_append]
  rfl

theorem observed_snoc {l : List Sight} {x : Sight} (h : Observed l) (hx : x ≠ .start true) :
    Observed (l ++ [x]) := by
  obtain ⟨l₁, l₂, rfl, hstart⟩ := h
  refine ⟨l₁, l₂ ++ [x], by simp, ?_⟩
  intro hmem
  rcases List.mem_append.mp hmem with hmem | hmem
  · exact hstart hmem
  · exact hx (List.mem_singleton.mp hmem).symm

theorem observed_of_seen (l : List Sight) (h : (watch l).seen = true) : Observed l := by
  induction l using List.reverseRecOn with
  | nil => cases h
  | append_singleton l x ih =>
    rw [watch_snoc] at h
    match x with
    | .worker (some true) => exact ⟨l, [], rfl, List.not_mem_nil⟩
    | .start true => cases h
    | .worker (some false) => exact observed_snoc (ih h) (by simp)
    | .worker none => exact observed_snoc (ih h) (by simp)
    | .start false => exact observed_snoc (ih h) (by simp)
    | .stop true => exact observed_snoc (ih h) (by simp)
    | .stop false => exact observed_snoc (ih h) (by simp)
    | .machine status => exact observed_snoc (ih h) (by simp)
    | .wrote s => exact observed_snoc (ih h) (by simp)
    | .stopFailed => exact observed_snoc (ih h) (by simp)
    | .confirmedOff => exact observed_snoc (ih h) (by simp)

theorem stopResolved_append {l later : List Sight} (h : StopResolved l later)
    (more : List Sight) : StopResolved l (later ++ more) := by
  rcases h with h | ⟨a, b, rfl, hobserved⟩
  · exact Or.inl (List.mem_append_left _ h)
  · exact Or.inr ⟨a, b ++ more, by simp, hobserved⟩

/-- A failed stop that no longer stands has been resolved. -/
theorem stopResolved_of_watch (l later : List Sight)
    (h : (watch (l ++ .stopFailed :: later)).failed = false) : StopResolved l later := by
  induction later using List.reverseRecOn with
  | nil =>
    rw [watch_snoc] at h
    cases h
  | append_singleton later x ih =>
    rw [← List.cons_append, ← List.append_assoc, watch_snoc] at h
    by_cases hbefore : (watch (l ++ .stopFailed :: later)).failed = false
    · exact stopResolved_append (ih hbefore) [x]
    · match x with
      | .stop true => exact Or.inl (by simp)
      | .worker (some false) =>
        have hseen : (watch (l ++ .stopFailed :: later)).seen = true := by
          rcases Bool.and_eq_false_iff.mp h with hfailed | hunseen
          · exact absurd hfailed hbefore
          · simpa using hunseen
        exact Or.inr ⟨later, [], rfl, observed_of_seen _ hseen⟩
      | .worker none => exact absurd h hbefore
      | .worker (some true) => exact absurd h hbefore
      | .start true => exact absurd h hbefore
      | .start false => exact absurd h hbefore
      | .stop false => exact absurd h hbefore
      | .machine status => exact absurd h hbefore
      | .wrote s => exact absurd h hbefore
      | .stopFailed => cases h
      | .confirmedOff => exact absurd h hbefore

/-- The box is reported as off only when no failed stop stands. -/
abbrev OffResolved (l : List Sight) : Prop :=
  Throughout (fun past x => ReportsOff x → (watch past).failed = false) l

theorem failedStopStands_of_offResolved {l : List Sight} (h : OffResolved l) :
    FailedStopStands l := by
  intro l₁ l₂ x l₃ hl hx
  refine stopResolved_of_watch l₁ l₂ (h _ x l₃ ?_ hx)
  rw [hl, List.append_assoc, List.cons_append]

/-- What a history keeps: nothing reported the box as off while a failed stop
stood, and the record does not say `off` while one stands. -/
structure StopsKept (l : List Sight) (s : GpuLifecycleState) : Prop where
  resolved : OffResolved l
  off : s.state = .off → (watch l).failed = false

/-- Sights that are not a command, a worker reading or a failed stop. -/
def Plain (l : List Sight) : Prop :=
  ∀ x ∈ l, (∃ s, x = .wrote s) ∨ (∃ status, x = .machine status) ∨ x = .confirmedOff ∨
    x = .start false

theorem watch_plain {l rest : List Sight} (h : Plain rest) : watch (l ++ rest) = watch l := by
  induction rest generalizing l with
  | nil => rw [List.append_nil]
  | cons x rest ih =>
    have hx : watch (l ++ [x]) = watch l := by
      rw [watch_snoc]
      rcases h x List.mem_cons_self with ⟨s, rfl⟩ | ⟨status, rfl⟩ | rfl | rfl <;> rfl
    have hrest := ih (l := l ++ [x]) (fun y hy => h y (List.mem_cons_of_mem x hy))
    rw [List.append_assoc, List.singleton_append] at hrest
    rw [hrest, hx]

theorem plain_past {l₁ l₂ : List Sight} {x : Sight} (h : Plain (l₁ ++ x :: l₂)) : Plain l₁ :=
  fun y hy => h y (List.mem_append_left _ hy)

/-- Plain sights that report the box as off only when no failed stop stands. -/
theorem stopsKept_plain {l rest : List Sight} {s' : GpuLifecycleState} (h : OffResolved l)
    (hrest : Plain rest) (hoff : ∀ x ∈ rest, ReportsOff x → (watch l).failed = false)
    (hs : s'.state = .off → (watch l).failed = false) : StopsKept (l ++ rest) s' := by
  constructor
  · refine throughout_append.mpr ⟨h, ?_⟩
    intro past x later hx hreport
    rw [watch_plain (plain_past (hx ▸ hrest))]
    exact hoff x (by simp [hx]) hreport
  · rw [watch_plain hrest]
    exact hs

theorem plain_wrote (s : GpuLifecycleState) : Plain [.wrote s] := by
  intro x hx
  exact Or.inl ⟨s, List.mem_singleton.mp hx⟩

theorem plain_probe {m : List Sight} (hm : Probe m) : Plain m := by
  intro x hx
  rcases hm with rfl | ⟨status, -, rfl⟩
  · cases hx
  · exact Or.inr (Or.inl ⟨status, List.mem_singleton.mp hx⟩)

/-- A write that keeps the box down or brings it up leaves the failure standing. -/
theorem stopsKept_wrote {l : List Sight} {s' : GpuLifecycleState} (h : OffResolved l)
    (hs : s'.state = .off → (watch l).failed = false) : StopsKept (l ++ [.wrote s']) s' := by
  refine stopsKept_plain h (plain_wrote s') ?_ hs
  intro x hx hreport
  rw [List.mem_singleton.mp hx] at hreport
  exact hs hreport

theorem stopsKept_stop {l stop : List Sight} {s s' : GpuLifecycleState} (h : OffResolved l)
    (hstop : StopStep s stop s') : StopsKept (l ++ stop) s' := by
  cases hstop with
  | aborted now error =>
    refine ⟨throughout_append.mpr ⟨h, ?_⟩, fun hs => by cases hs⟩
    simp [throughout_cons, throughout_nil, ReportsOff, pendingStop]
  | failed now error =>
    refine ⟨throughout_append.mpr ⟨h, ?_⟩, fun hs => by cases hs⟩
    simp [throughout_cons, throughout_nil, ReportsOff, pendingStop]
  | stopped now =>
    refine ⟨throughout_append.mpr ⟨h, ?_⟩, fun _ => ?_⟩
    · simp [throughout_cons, throughout_nil, ReportsOff, pendingStop, watch_append,
        StopWatch.next]
    · rw [watch_append]
      rfl

/-- A start from a record that does not say `off` while a failed stop stands. -/
theorem stopsKept_start {config : GpuAutostartConfig} {manual : Bool} {l start : List Sight}
    {s s' : GpuLifecycleState} (h : StopsKept l s) (hstart : StartStep config manual s start s')
    (hready : Controllable config ∨ (watch l).failed = false)
    (hrefused : Sight.start false ∈ start → (watch l).failed = false) :
    StopsKept (l ++ start) s' := by
  cases hstart with
  | already up hm => simpa using h
  | held up hm t => exact stopsKept_wrote h.resolved h.off
  | aborted down bare now hold error =>
    have hclear : (watch l).failed = false := hready.resolve_left bare
    have hplain : Plain [.wrote (pendingStart s now hold), .wrote
        { pendingStart s now hold with state := .off, lastError := some error }] := by
      simp [Plain]
    exact stopsKept_plain h.resolved hplain (fun _ _ _ => hclear) (fun _ => hclear)
  | failed down now hold error m hm =>
    have hclear : (watch l).failed = false := hrefused (by simp)
    refine stopsKept_plain h.resolved ?_ (fun _ _ _ => hclear) (fun _ => hclear)
    intro x hx
    simp only [List.cons_append, List.mem_cons, List.mem_append, List.not_mem_nil, or_false] at hx
    rcases hx with rfl | hx | rfl | rfl
    · exact Or.inl ⟨_, rfl⟩
    · exact plain_probe hm x hx
    · exact Or.inr (Or.inr (Or.inr rfl))
    · exact Or.inl ⟨_, rfl⟩
  | adopted down now hold id =>
    refine stopsKept_plain h.resolved ?_ ?_ (fun hs => by cases hs)
    · simp [Plain]
    · simp [ReportsOff, pendingStart]
  | resumed down now hold id m hm =>
    have hbefore : StopsKept (l ++ (.wrote (pendingStart s now hold) :: m))
        (pendingStart s now hold) := by
      refine stopsKept_plain h.resolved ?_ ?_ (fun hs => by cases hs)
      · intro x hx
        rcases List.mem_cons.mp hx with rfl | hx
        · exact Or.inl ⟨_, rfl⟩
        · exact plain_probe hm x hx
      · intro x hx hreport
        rcases List.mem_cons.mp hx with rfl | hx
        · cases hreport
        · rcases hm with rfl | ⟨status, -, rfl⟩
          · cases hx
          · rw [List.mem_singleton.mp hx] at hreport
            cases hreport
    have hafter : OffResolved (l ++ (.wrote (pendingStart s now hold) :: m) ++ [.start true]) :=
      throughout_snoc.mpr ⟨hbefore.resolved, fun hreport => by cases hreport⟩
    have hall : StopsKept _ { pendingStart s now hold with machineId := some id } :=
      stopsKept_wrote hafter (fun hs => by cases hs)
    simpa using hall
  | posted down now hold =>
    have hbefore : OffResolved (l ++ [.wrote (pendingStart s now hold), .start true]) := by
      refine throughout_append.mpr ⟨h.resolved, ?_⟩
      simp [throughout_cons, throughout_nil, ReportsOff, pendingStart]
    exact ⟨hbefore, fun hs => by cases hs⟩

theorem offResolved_worker {l : List Sight} (h : OffResolved l) (reading : Option Bool) :
    OffResolved (l ++ [.worker reading]) :=
  throughout_snoc.mpr ⟨h, fun hreport => by cases hreport⟩

theorem watch_worker_failed {l : List Sight} (h : (watch l).failed = false)
    (reading : Option Bool) : (watch (l ++ [.worker reading])).failed = false := by
  rw [watch_snoc]
  rcases reading with _ | _ | _
  · exact h
  · simp [StopWatch.next, h]
  · exact h

theorem stopsKept_decision {i : SweepReading} {l decision : List Sight}
    {s s' : GpuLifecycleState} (h : StopsKept l s)
    (habsent : s.state = .running ∨ s.state = .stopping → i.online = false →
      (watch l).failed = false)
    (hdecision : Decision i s decision s') : StopsKept (l ++ decision) s' := by
  cases hdecision with
  | reported hs on t => exact stopsKept_wrote h.resolved (fun h => by cases h)
  | timedOut hs off late stop => exact stopsKept_stop h.resolved stop
  | vanished hs off t t' => exact stopsKept_wrote h.resolved (fun _ => habsent (Or.inl hs) off)
  | confirmedOff hs off t t' =>
    have hclear := habsent (Or.inr hs) off
    have hplain : Plain [.wrote { s with
        state := .off, since := t, lastStoppedAt := some t' }, .confirmedOff] := by
      simp [Plain]
    exact stopsKept_plain h.resolved hplain (fun _ _ _ => hclear) (fun _ => hclear)
  | started hs trigger start =>
    exact stopsKept_start h start (Or.inr (h.off hs)) (fun _ => h.off hs)
  | cleared hs on busy t ht => exact stopsKept_wrote h.resolved h.off
  | working hs on busy ht => simpa using h
  | drained hs on idle ht => exact stopsKept_wrote h.resolved h.off
  | idleStopped hs on idle t ht free late stop => exact stopsKept_stop h.resolved stop
  | waiting hs on idle t ht => simpa using h
  | resting hs => simpa using h

/-- While a failed stop stands, no sweep finds the record at `running` or
`stopping` and the worker absent that was never observed since the last
start, and the provider refuses no start. -/
def TrustsStops (past : List GpuEpisode) (e : GpuEpisode) : Prop :=
  (watch (sightsOf past)).failed = true →
    Sight.start false ∉ sights e.trace ∧
      (e.call = .sweep → e.before.record.state ∈ [.running, .stopping] →
        Sight.worker (some false) ∈ sights e.trace → (watch (sightsOf past)).seen = true)

instance (past : List GpuEpisode) (e : GpuEpisode) : Decidable (TrustsStops past e) :=
  inferInstanceAs (Decidable (_ = _ → ¬ _ ∈ _ ∧ (_ = _ → _ ∈ _ → _ ∈ _ → _ = _)))

theorem sweep_stopsKept {l sweep : List Sight} {trace : List GpuEvent}
    {s s' : GpuLifecycleState} (h : StopsKept l s)
    (habsent : (watch l).failed = true → s.state ∈ [.running, .stopping] →
      Sight.worker (some false) ∈ sweep → (watch l).seen = true)
    (step : SweepStep s trace sweep s') : StopsKept (l ++ sweep) s' := by
  cases step with
  | skipped config disabled => simpa using h
  | adopted i enabled rest hs t =>
    have hworker := offResolved_worker h.resolved i.reading
    have hmachine : OffResolved (l ++ [.worker i.reading] ++ [.machine (some .running)]) :=
      throughout_snoc.mpr ⟨hworker, fun hreport => by cases hreport⟩
    have hall : StopsKept _ { s with
        state := .starting, since := t, lastStartedAt := some t, idleSince := none } :=
      stopsKept_wrote hmachine (fun hs => by cases hs)
    simpa using hall
  | decided i enabled rest m hm decision =>
    have hworker : StopsKept (l ++ [.worker i.reading]) s :=
      ⟨offResolved_worker h.resolved i.reading,
        fun hs => watch_worker_failed (h.off hs) i.reading⟩
    have hprobe : StopsKept (l ++ [.worker i.reading] ++ m) s := by
      refine stopsKept_plain hworker.resolved (plain_probe hm) ?_ hworker.off
      intro x hx hreport
      rcases hm with rfl | ⟨status, -, rfl⟩
      · cases hx
      · rw [List.mem_singleton.mp hx] at hreport
        cases hreport
    have hgone : s.state = .running ∨ s.state = .stopping → i.online = false →
        (watch (l ++ [.worker i.reading] ++ m)).failed = false := by
      intro hs off
      have hreading := online_false off
      rw [watch_plain (plain_probe hm), watch_snoc, hreading]
      cases hfailed : (watch l).failed with
      | false => simp [StopWatch.next, hfailed]
      | true =>
        have hseen := habsent hfailed (by simpa using hs) (by simp [hreading])
        simp [StopWatch.next, hfailed, hseen]
    have hall := stopsKept_decision hprobe hgone decision
    rwa [List.append_assoc, List.append_assoc] at hall

theorem call_stopsKept {c : Call} {l call : List Sight} {trace : List GpuEvent}
    {answer : Answer} {s s' : GpuLifecycleState} (h : StopsKept l s)
    (hrefused : (watch l).failed = true → Sight.start false ∉ call)
    (habsent : (watch l).failed = true → c = .sweep → s.state ∈ [.running, .stopping] →
      Sight.worker (some false) ∈ call → (watch l).seen = true)
    (step : CallStep s c trace answer call s') : StopsKept (l ++ call) s' := by
  cases step with
  | swept status step => exact sweep_stopsKept h (fun hf => habsent hf rfl) step
  | startRefused reason message => simpa using h
  | started reason _ ready start =>
    refine stopsKept_start h start (Or.inl ready) (fun hmem => ?_)
    cases hfailed : (watch l).failed with
    | false => rfl
    | true => exact absurd hmem (hrefused hfailed)
  | stopRefused reason message => simpa using h
  | stopped reason _ stop => exact stopsKept_stop h.resolved stop
  | held minutes userId _ t => exact stopsKept_wrote h.resolved h.off
  | released userId => exact stopsKept_wrote h.resolved h.off
  | asked i report => simpa using h
  | viewed _ status reading =>
    exact ⟨offResolved_worker h.resolved reading, fun hs => watch_worker_failed (h.off hs) reading⟩

theorem history_stopsKept {w w' : GpuWorld} {es : List GpuEpisode} (hist : GpuHistory w es w')
    (steps : Throughout TrustsStops es) : StopsKept (sightsOf es) w'.record := by
  refine gpu_invariant (I := fun past s => StopsKept (sightsOf past) s) ?_ ?_ hist steps
  · exact ⟨throughout_nil _, fun _ => rfl⟩
  · intro past e s' hI hP step
    rw [sightsOf_snoc]
    exact call_stopsKept hI (fun hf => (hP hf).1) (fun hf => (hP hf).2) step

/-! The heartbeat while a stop is pending. -/

/-- A heartbeat on a record that says `stopping`, with no live active job. -/
def AskedWhileStopping (e : GpuEpisode) (i : HeartbeatReading) : Prop :=
  e.call = .heartbeat ∧ heartbeatReading e.trace = some i ∧
    e.before.record.state = .stopping ∧ i.active = 0

/-- The box is told to shut down by every heartbeat of a pending stop. -/
def HeartbeatStops (es : List GpuEpisode) : Prop :=
  ∀ e ∈ es, ∀ i, AskedWhileStopping e i →
    ∃ reply, e.answer = .heartbeat reply ∧ reply.keepAlive = false

theorem keepAlive_stopping {config : GpuAutostartConfig} {s : GpuLifecycleState}
    {queues : List GpuQueueSummary} {now : ℤ} (hs : s.state = .stopping)
    (hactive : activeOf queues = 0) :
    (heartbeatReply config s queues now).keepAlive = false ↔
      pendingOf queues = 0 ∧ holdInForce s.holdUntil now = false := by
  unfold heartbeatReply
  by_cases hhold : holdInForce s.holdUntil now = true
  · simp [hactive, hhold]
  · by_cases hpending : 0 < pendingOf queues
    · simp only [hactive, hhold, hpending]
      simp
      omega
    · have hzero : pendingOf queues = 0 := by omega
      simp [hactive, hhold, hzero, hs]

theorem heartbeatStops_iff {w w' : GpuWorld} {es : List GpuEpisode} (hist : GpuHistory w es w') :
    HeartbeatStops es ↔ ∀ e ∈ es, ∀ i, AskedWhileStopping e i →
      i.pending = 0 ∧ holdInForce e.before.record.holdUntil i.now = false := by
  refine forall₂_congr fun e he => forall₂_congr fun i hasked => ?_
  obtain ⟨s', step⟩ := step_of_mem hist he
  obtain ⟨hcall, hreading, hs, hactive⟩ := hasked
  rw [step.heartbeat hcall hreading]
  constructor
  · rintro ⟨reply, hreply, hkeep⟩
    cases hreply
    exact (keepAlive_stopping hs hactive).mp hkeep
  · intro h
    exact ⟨_, rfl, (keepAlive_stopping hs hactive).mpr h⟩

/-- A failed stop is not taken for a stop in any history whose calls trust
stops, and the heartbeats of a pending stop shut the box down exactly when
nothing is queued and no hold is in force. -/
theorem failedStop_not_taken {w w' : GpuWorld} {es : List GpuEpisode}
    (hist : GpuHistory w es w') (steps : Throughout TrustsStops es) :
    FailedStopStands (sightsOf es) ∧
      (HeartbeatStops es ↔ ∀ e ∈ es, ∀ i, AskedWhileStopping e i →
        i.pending = 0 ∧ holdInForce e.before.record.holdUntil i.now = false) :=
  ⟨failedStopStands_of_offResolved (history_stopsKept hist steps).resolved,
    heartbeatStops_iff hist⟩

/-! A stop that fails before the worker ever reported in. -/

def refusedWebhook : Except String WebhookResponse :=
  .ok { ok := false, status := 502, statusText := "Bad Gateway", detail := "" }

/-- The start timeout stops a box that never reported in, the stop webhook
refuses, and the next sweep reads no worker. -/
def unseenStop : List (Call × Setting) :=
  [(.sweep, { config := webhookConfig, now := 0, readings := waitingJobs 30 }),
    (.sweep, { config := webhookConfig, now := 1260000, response := refusedWebhook }),
    (.sweep, { config := webhookConfig, now := 1380000 })]

theorem not_failedStop : ¬ ∀ es w', GpuHistory freshWorld es w' →
    FailedStopStands (sightsOf es) ∧ HeartbeatStops es := by
  intro h
  obtain ⟨hstands, -⟩ := h _ _ (history_playIn unseenStop freshWorld)
  let l := sightsOf (playIn unseenStop freshWorld).1
  have hl : l = l.take 7 ++ .stopFailed :: ((l.drop 8).take 2 ++ .confirmedOff :: l.drop 11) := by
    decide
  rcases hstands _ _ _ _ hl trivial with hstop | ⟨a, b, hab, l₁, l₂, hseen, -⟩
  · revert hstop
    decide
  · have hmem : Sight.worker (some true) ∈ l.take 7 ++ .stopFailed :: a := by
      rw [hseen]
      simp
    have hall : Sight.worker (some true) ∈ l.take 7 ++ .stopFailed :: (l.drop 8).take 2 := by
      rw [hab, ← List.cons_append, ← List.append_assoc]
      exact List.mem_append_left _ hmem
    revert hall
    decide

/-- A stop that is refused after the worker reported in, a heartbeat, and a
sweep that reads the worker gone. -/
def seenStop : List (Call × Setting) :=
  [(.startNow "batch", { config := webhookConfig, now := 0 }),
    (.sweep, { config := webhookConfig, now := 120000, worker := reporting }),
    (.stopNow "done", { config := webhookConfig, now := 240000, response := refusedWebhook }),
    (.heartbeat, { config := webhookConfig, now := 300000 }),
    (.sweep, { config := webhookConfig, now := 360000 })]

theorem failedStop_seenStop :
    FailedStopStands (sightsOf (playIn seenStop freshWorld).1) ∧
      (HeartbeatStops (playIn seenStop freshWorld).1 ↔
        ∀ e ∈ (playIn seenStop freshWorld).1, ∀ i, AskedWhileStopping e i →
          i.pending = 0 ∧ holdInForce e.before.record.holdUntil i.now = false) :=
  failedStop_not_taken (history_playIn seenStop freshWorld) (by decide)

end EventLens.Gpu

import EventLens.GpuForecast

/-!
A hold on the box and the calls made while it lasts. Only a manual start and
the hold controls write another hold; a sweep, a heartbeat and an automatic
start carry the recorded one along. A manual start writes its own idle window
without looking at the hold it replaces.
-/

namespace EventLens.Gpu

open Programs

/-! Programs that keep the hold. -/

/-- A write of another hold. -/
def Rehold (hold : Option ℤ) : GpuOp → Prop
  | .writeState s => s.holdUntil ≠ hold
  | _ => False

section Keeping

variable {α : Type} {hold : Option ℤ} {config : GpuAutostartConfig}
  {pending state : GpuLifecycleState}

theorem quiet_keeps {p : GpuProg α} (hp : Quiet p) : p.Avoids (Rehold hold) := by
  induction p with
  | done value => trivial
  | perform o next ih =>
    refine ⟨fun hbad => ?_, fun r => ih r (hp.2 r)⟩
    have ho := hp.1
    cases o <;> first | exact ho | exact hbad

theorem keeps_exec {p : GpuProg α} (hp : p.Avoids (Rehold hold)) {w w' : GpuWorld}
    {trace : List GpuEvent}
    {value : α} (he : GpuExec p w trace value w') (hw : w.record.holdUntil = hold) :
    w'.record.holdUntil = hold := by
  induction he with
  | done value s => exact hw
  | @perform o next r s s' trace value rest ih =>
    obtain ⟨hgood, hnext⟩ := hp
    apply ih (hnext _)
    cases o with
    | writeState s => exact not_not.mp hgood
    | _ => exact hw

theorem record_keeps {p : GpuProg α} (entry : AuditEntry) (hp : p.Avoids (Rehold hold)) :
    (auditRecord entry >>= fun _ => p).Avoids (Rehold hold) := ⟨fun h => h, fun _ => hp⟩

theorem setState_keeps {p : GpuProg α} {s : GpuLifecycleState} (hs : s.holdUntil = hold)
    (hp : p.Avoids (Rehold hold)) : (setState s >>= fun _ => p).Avoids (Rehold hold) :=
  ⟨fun h => h hs, fun _ => hp⟩

theorem startFailed_keeps {error message : String} (h : pending.holdUntil = hold) :
    (startFailed pending error message).Avoids (Rehold hold) :=
  setState_keeps h (record_keeps _ trivial)

theorem resumeMachine_keeps {target : String} (h : pending.holdUntil = hold) :
    (resumeMachine config pending target).Avoids (Rehold hold) := by
  refine ⟨fun hbad => hbad, fun r => ?_⟩
  cases r with
  | ok payload =>
    refine setState_keeps h ?_
    split
    · trivial
    · exact record_keeps _ trivial
  | error message => exact startFailed_keeps h

theorem startMachine_keeps {target : String} (h : pending.holdUntil = hold) :
    (startMachine config pending target).Avoids (Rehold hold) := by
  refine Prog.avoids_bind ⟨fun hbad => hbad, fun _ => trivial⟩ fun r => ?_
  dsimp only
  split
  · exact setState_keeps h (record_keeps _ trivial)
  · exact resumeMachine_keeps h

theorem startJarvis_keeps (h : pending.holdUntil = hold) :
    (startJarvis config state pending).Avoids (Rehold hold) := by
  refine Prog.avoids_bind (quiet_keeps (quiet_resolveMachineId config state)) fun target => ?_
  split
  · exact startFailed_keeps h
  · exact startMachine_keeps h

theorem startWebhook_keeps {reason : String} (h : pending.holdUntil = hold) :
    (startWebhook config reason pending).Avoids (Rehold hold) := by
  refine Prog.avoids_bind ?_ fun r => ?_
  · unfold callWebhook
    split
    · trivial
    · refine ⟨fun hbad => hbad, fun r => ?_⟩
      cases r <;> trivial
  · cases r with
    | none => trivial
    | some error => exact startFailed_keeps h

/-- An automatic start carries the recorded hold along. -/
theorem beginStart_keeps {reason : String} :
    (beginStart config reason false state).Avoids (Rehold state.holdUntil) := by
  refine ⟨fun hbad => hbad, fun now => setState_keeps rfl (record_keeps _ ?_)⟩
  split
  · exact startJarvis_keeps rfl
  · exact startWebhook_keeps rfl

end Keeping

section Sweep

variable {w w' : GpuWorld} {trace : List GpuEvent}

theorem autoStart_keeps {config : GpuAutostartConfig} {reason : String} {value : GpuLifecycleState}
    (he : GpuExec (start config reason false) w trace value w') :
    w'.record.holdUntil = w.record.holdUntil := by
  obtain ⟨_, rest, rfl, he₁⟩ := exec_perform.mp he
  change GpuExec (if w.record.state = .starting ∨ w.record.state = .running then _
    else beginStart config reason false w.record) w rest value w' at he₁
  split at he₁
  · obtain ⟨rfl, -, rfl⟩ := exec_done.mp he₁
    rfl
  · exact keeps_exec beginStart_keeps he₁ rfl

theorem sweepRecord_keeps {i : SweepReading} {status : JobStatus}
    (he : GpuExec (sweepRecord i.config w.record i.queues i.online i.now) w trace status w')
    (h : ¬ Stops (sights trace)) : w'.record.holdUntil = w.record.holdUntil := by
  have d := sweepRecord_exec he
  generalize hlist : sights trace = l at d h
  generalize hafter : w'.record = s' at d ⊢
  cases d with
  | timedOut hs off late stop => exact absurd (stopStep_stops stop).1 h
  | idleStopped hs on idle t ht free late stop => exact absurd (stopStep_stops stop).1 h
  | started hs trigger start =>
    have htrigger :
      (evaluateTrigger i.config i.queues (pendingOf i.queues)).shouldStart = true := trigger
    simp only [sweepRecord, hs, htrigger, reduceCtorEq, false_and, ↓reduceIte, and_self] at he
    obtain ⟨first, _, _, _, rfl, hstart, he₁⟩ := exec_bind.mp he
    obtain ⟨-, -, rfl⟩ := exec_done.mp he₁
    rw [← hafter]
    exact autoStart_keeps hstart
  | _ => rfl

/-- A sweep that stops nothing carries the recorded hold along. -/
theorem sweep_keeps {status : JobStatus} (he : GpuExec handleGpuLifecycleSweep w trace status w')
    (h : ¬ Stops (sights trace)) : w'.record.holdUntil = w.record.holdUntil := by
  rcases sweep_runs he with ⟨config, -, -, hrecord⟩ |
    ⟨i, -, ⟨rest, t, -, -, -, hrecord⟩ | ⟨check, rest, w₁, rfl, hm, hrecord, hrun⟩⟩
  · rw [hrecord]
  · rw [hrecord]
  · rw [← hrecord]
    refine sweepRecord_keeps hrun fun hstops => h ?_
    rw [sights_append, sights_events, sights_append]
    exact (stops_cons (by simp)).mpr ((stops_probe hm).mpr hstops)

end Sweep

/-! The clock a manual start counts its hold from. -/

def clockOf : GpuEvent → Option ℤ
  | ⟨.now, t⟩ => some t
  | _ => none

/-- The clock readings of a call, in order. -/
def clocks (trace : List GpuEvent) : List ℤ := trace.filterMap clockOf

theorem clocks_append (first rest : List GpuEvent) :
    clocks (first ++ rest) = clocks first ++ clocks rest :=
  List.filterMap_append

/-- The configuration of a manual start and the clock its hold is counted from: the first
reading when the box is up, and the second when it has to be started. -/
def startReading (up : Bool) : List GpuEvent → Option (GpuAutostartConfig × ℤ)
  | ⟨.readConfig, config⟩ :: rest => (clocks rest)[if up then 0 else 1]?.map (fun t => (config, t))
  | _ => none

section ManualStart

variable {w w' : GpuWorld} {trace : List GpuEvent}

theorem assertControllable_clocks {config : GpuAutostartConfig} {allowed : Except String Unit}
    (he : GpuExec (assertControllable config) w trace allowed w') : clocks trace = [] ∧ w' = w := by
  unfold assertControllable at he
  split at he
  · obtain ⟨configured, rest, rfl, he₁⟩ := exec_step.mp he
    change GpuExec (if configured then (if config.jarvislabsMachineId = "" then _ else _)
      else _) w rest allowed w' at he₁
    have hrest : rest = [] ∧ w' = w := by
      split at he₁
      · split at he₁
        · exact ⟨(exec_done.mp he₁).1, (exec_done.mp he₁).2.2⟩
        · exact ⟨(exec_done.mp he₁).1, (exec_done.mp he₁).2.2⟩
      · exact ⟨(exec_done.mp he₁).1, (exec_done.mp he₁).2.2⟩
    rw [hrest.1]
    exact ⟨rfl, hrest.2⟩
  · split at he
    · rw [(exec_done.mp he).1]
      exact ⟨rfl, (exec_done.mp he).2.2⟩
    · rw [(exec_done.mp he).1]
      exact ⟨rfl, (exec_done.mp he).2.2⟩

/-- A manual start leaves a hold of one idle window, counted from its own clock. -/
theorem manualStart_exec {config : GpuAutostartConfig} {reason : String} {value : GpuLifecycleState}
    (he : GpuExec (start config reason true) w trace value w') :
    ∃ t, (clocks trace)[if w.record.state.up then 0 else 1]? = some t ∧
      w'.record.holdUntil = some (t + minutesMs config.idleShutdownMinutes) := by
  obtain ⟨_, rest, rfl, he₁⟩ := exec_perform.mp he
  change GpuExec (if w.record.state = .starting ∨ w.record.state = .running then
    holdStarted config reason w.record else beginStart config reason true w.record) w rest value
      w' at he₁
  split at he₁
  · rename_i hup
    have up : w.record.state.up = true := (up_iff _).mpr hup
    obtain ⟨t, _, rfl, he₂⟩ := exec_step.mp he₁
    obtain ⟨_, _, rfl, he₃⟩ := exec_step.mp he₂
    obtain ⟨_, _, rfl, he₄⟩ := exec_step.mp he₃
    obtain ⟨rfl, -, rfl⟩ := exec_done.mp he₄
    rw [if_pos up]
    exact ⟨t, rfl, rfl⟩
  · rename_i hup
    have down : ¬ w.record.state.up = true := fun h => hup ((up_iff _).mp h)
    obtain ⟨now, _, rfl, he₂⟩ := exec_step.mp he₁
    obtain ⟨t, _, rfl, he₃⟩ := exec_step.mp he₂
    obtain ⟨_, tail, rfl, he₄⟩ := exec_step.mp he₃
    rw [if_neg down]
    refine ⟨t, rfl, keeps_exec (record_keeps _ ?_) he₄ rfl⟩
    split
    · exact startJarvis_keeps rfl
    · exact startWebhook_keeps rfl

/-- A manual start is refused and changes nothing, or leaves the hold it has read. -/
theorem startNow_hold {reason : String} {result : Except String GpuLifecycleState}
    (he : GpuExec (startNow reason) w trace result w') :
    w'.record = w.record ∨ ∃ config t, startReading w.record.state.up trace = some (config, t) ∧
      w'.record.holdUntil = some (t + minutesMs config.idleShutdownMinutes) := by
  obtain ⟨config, _, rfl, he₁⟩ := exec_step.mp he
  obtain ⟨first, allowed, w₁, rest, rfl, hcheck, he₂⟩ := exec_bind.mp he₁
  obtain ⟨hclocks, hw⟩ := assertControllable_clocks hcheck
  rw [hw] at he₂
  cases allowed with
  | error message =>
    obtain ⟨-, -, rfl⟩ := exec_done.mp he₂
    exact Or.inl rfl
  | ok _ =>
    obtain ⟨tail, value, _, _, rfl, hstart, he₃⟩ := exec_bind.mp he₂
    obtain ⟨rfl, -, rfl⟩ := exec_done.mp he₃
    obtain ⟨t, ht, hhold⟩ := manualStart_exec hstart
    refine Or.inr ⟨config, t, ?_, hhold⟩
    have hread :
      (clocks (first ++ (tail ++ [])))[if w.record.state.up then 0 else 1]? = some t := by
      rw [clocks_append, hclocks, List.nil_append, List.append_nil]
      exact ht
    simp only [startReading]
    rw [Option.map_eq_some_iff]
    exact ⟨t, hread, rfl⟩

end ManualStart

/-! A hold and the calls while it lasts. -/

/-- The second hold is there and no earlier than the first. -/
def NotEarlier (first second : Option ℤ) : Prop := ∃ u v, first = some u ∧ second = some v ∧ u ≤ v

theorem NotEarlier.trans {a b c : Option ℤ} (hab : NotEarlier a b) (hbc : NotEarlier b c) :
    NotEarlier a c := by
  obtain ⟨u, v, ha, hb, huv⟩ := hab
  obtain ⟨v', x, hb', hc, hvx⟩ := hbc
  have hv : v = v' := by simpa [hb] using hb'
  exact ⟨u, x, ha, hc, by omega⟩

def Call.setsHold : Call → Bool
  | .holdIdle _ _ | .clearHold _ => true
  | _ => false

/-- A new hold, a release, or a stop that is not the sweep's stop of a running box. -/
def EndsHold (e : GpuEpisode) : Prop :=
  e.call.setsHold = true ∨
    (Stops (sights e.trace) ∧ ¬ (e.call = .sweep ∧ e.before.record.state = .running))

instance (e : GpuEpisode) : Decidable (EndsHold e) := by
  unfold EndsHold
  infer_instance

/-- A call that reads no clock from `t` on and does not end the hold. -/
def DuringHold (t : ℤ) (e : GpuEpisode) : Prop := (∀ now ∈ clocks e.trace, now < t) ∧ ¬ EndsHold e

instance (t : ℤ) (e : GpuEpisode) : Decidable (DuringHold t e) := by
  unfold DuringHold
  infer_instance

/-- A manual start whose idle window reaches the hold that is recorded. -/
def Renews (e : GpuEpisode) : Prop :=
  ∀ reason hold config t, e.call = .startNow reason → e.before.record.holdUntil = some hold →
    startReading e.before.record.state.up e.trace = some (config, t) →
      hold ≤ t + minutesMs config.idleShutdownMinutes

/-- The holds recorded before each call, and the last. -/
def holdsOf (es : List GpuEpisode) (s : GpuLifecycleState) : List (Option ℤ) :=
  es.map (fun e => e.before.record.holdUntil) ++ [s.holdUntil]

structure HoldHonoured (t : ℤ) (es : List GpuEpisode) (s : GpuLifecycleState) : Prop where
  kept : (some t :: holdsOf es s).Pairwise NotEarlier
  unstopped :
    ∀ e ∈ es, e.call = .sweep → e.before.record.state = .running → ¬ Stops (sights e.trace)
  alive : ∀ e ∈ es, e.call = .heartbeat → e.before.record.state = .running →
    ∃ reply, e.answer = .heartbeat reply ∧ reply.keepAlive = true

section Honoured

variable {w w' : GpuWorld} {trace : List GpuEvent}

theorem hold_inForce {hold : Option ℤ} {u now : ℤ} (hu : hold = some u) (hnow : now < u) :
    holdInForce hold now = true := by
  simp [holdInForce, hu, hnow]

/-- A sweep that reads its clock before the hold is over does not stop a running box. -/
theorem sweep_held {status : JobStatus} {u : ℤ}
    (he : GpuExec handleGpuLifecycleSweep w trace status w')
    (hs : w.record.state = .running) (hu : w.record.holdUntil = some u)
    (hclocks : ∀ now ∈ clocks trace, now < u) : ¬ Stops (sights trace) := by
  rcases sweep_runs he with ⟨config, -, rfl, -⟩ |
    ⟨i, -, ⟨rest, t, hoff, -⟩ | ⟨check, rest, w₁, rfl, hm, hrecord, hrun⟩⟩
  · exact (quiet_write (by simp [sights, sight])).2
  · rw [hs] at hoff
    cases hoff
  · intro hstops
    rw [sights_append, sights_events, sights_append] at hstops
    have hlast := (stops_probe hm).mp ((stops_cons (by simp)).mp hstops)
    rcases decision_stop (sweepRecord_exec hrun) hlast with overdue | due
    · have hstarting := overdue.1
      rw [hrecord, hs] at hstarting
      cases hstarting
    · have hfree := due.2.2.1
      have hnow : i.now < u := hclocks i.now (by simp [clocks, SweepReading.events, clockOf])
      rw [hrecord, hold_inForce hu hnow] at hfree
      cases hfree

theorem heartbeat_held {reply : HeartbeatReply} {u : ℤ} (he : GpuExec heartbeat w trace reply w')
    (hu : w.record.holdUntil = some u) (hclocks : ∀ now ∈ clocks trace, now < u) :
    reply.keepAlive = true := by
  obtain ⟨i, report, rfl, -, rfl, -⟩ := heartbeat_exec he
  have hnow : i.now < u := hclocks i.now (by simp [clocks, HeartbeatReading.events, clockOf])
  unfold heartbeatReply
  by_cases hactive : 0 < activeOf i.queues
  · simp [hactive]
  · simp [hactive, hold_inForce hu hnow]

/-- One call while the hold lasts leaves it, or puts a later one in its place. -/
theorem hold_step {e : GpuEpisode} {after : GpuWorld} {t u : ℤ}
    (he : GpuExec e.call.prog e.before e.trace e.answer after)
    (hu : e.before.record.holdUntil = some u)
    (htu : t ≤ u) (hduring : DuringHold t e) (hrenews : Renews e) :
    NotEarlier (some u) after.record.holdUntil ∧
      (e.call = .sweep → e.before.record.state = .running → ¬ Stops (sights e.trace)) ∧
      (e.call = .heartbeat → ∃ reply, e.answer = .heartbeat reply ∧ reply.keepAlive = true) := by
  obtain ⟨call, before, trace, answer⟩ := e
  obtain ⟨hclocks, hends⟩ := hduring
  have hbefore : ∀ now ∈ clocks trace, now < u := fun now hnow => by
    have hlt := hclocks now hnow
    omega
  have hsame :
    after.record.holdUntil = before.record.holdUntil → NotEarlier (some u) after.record.holdUntil :=
    fun h => ⟨u, u, rfl, h.trans hu, le_rfl⟩
  cases call with
  | sweep =>
    obtain ⟨first, status, _, _, rfl, hsweep, he₁⟩ := exec_bind.mp he
    obtain ⟨rfl, -, rfl⟩ := exec_done.mp he₁
    rw [List.append_nil] at hbefore hends ⊢
    have hquiet : ¬ Stops (sights first) := by
      intro hstops
      by_cases hrun : before.record.state = .running
      · exact sweep_held hsweep hrun hu hbefore hstops
      · exact hends (Or.inr ⟨hstops, fun h => hrun h.2⟩)
    exact ⟨hsame (sweep_keeps hsweep hquiet), fun _ _ => hquiet, by simp⟩
  | startNow reason =>
    obtain ⟨first, result, _, _, rfl, hstart, he₁⟩ := exec_bind.mp he
    obtain ⟨rfl, -, rfl⟩ := exec_done.mp he₁
    rw [List.append_nil] at hrenews
    refine ⟨?_, by simp, by simp⟩
    rcases startNow_hold hstart with hrecord | ⟨config, now, hread, hhold⟩
    · exact hsame (by rw [hrecord])
    · exact ⟨u, _, rfl, hhold, hrenews reason u config now rfl hu hread⟩
  | stopNow reason =>
    obtain ⟨first, result, _, _, rfl, hstop, he₁⟩ := exec_bind.mp he
    obtain ⟨rfl, -, rfl⟩ := exec_done.mp he₁
    rw [List.append_nil] at hends
    refine ⟨?_, by simp, by simp⟩
    rcases control_exec (p := fun config => stop config reason) hstop with
      ⟨message, -, -, hrecord⟩ | ⟨config, w₁, rest, next, -, -, -, hsights, hp⟩
    · exact hsame (by rw [hrecord])
    · have hstops : Stops (sights first) := by
        rw [hsights]
        exact (stopStep_stops (stop_exec hp)).1
      exact absurd (Or.inr ⟨hstops, by simp⟩) hends
  | holdIdle minutes userId => exact absurd (Or.inl rfl) hends
  | clearHold userId => exact absurd (Or.inl rfl) hends
  | heartbeat =>
    obtain ⟨first, reply, _, _, rfl, hbeat, he₁⟩ := exec_bind.mp he
    obtain ⟨rfl, rfl, rfl⟩ := exec_done.mp he₁
    rw [List.append_nil] at hbefore
    obtain ⟨-, -, -, -, -, hsame'⟩ := heartbeat_exec hbeat
    exact ⟨hsame (by rw [hsame']), by simp, fun _ => ⟨reply, rfl, heartbeat_held hbeat hu hbefore⟩⟩
  | getStatus =>
    obtain ⟨first, status, _, _, rfl, hstatus, he₁⟩ := exec_bind.mp he
    obtain ⟨rfl, -, rfl⟩ := exec_done.mp he₁
    obtain ⟨-, -, hrecord⟩ := getStatus_exec hstatus
    exact ⟨hsame (by rw [hrecord]), by simp, by simp⟩

theorem pairwise_snoc {l : List (Option ℤ)} {a b : Option ℤ} (h : (l ++ [a]).Pairwise NotEarlier)
    (hab : NotEarlier a b) : (l ++ [a] ++ [b]).Pairwise NotEarlier := by
  rw [List.pairwise_append]
  refine ⟨h, by simp, fun x hx y hy => ?_⟩
  have hy' : y = b := by simpa using hy
  subst hy'
  rcases List.mem_append.mp hx with hl | hlast
  · exact ((List.pairwise_append.mp h).2.2 x hl a (by simp)).trans hab
  · have hx' : x = a := by simpa using hlast
    exact hx' ▸ hab

/-- While no manual start falls short of the recorded hold, the calls after a hold honour it. -/
theorem calls_honour {t : ℤ} {es : List GpuEpisode} (start : w.record.holdUntil = some t)
    (hist : GpuHistory w es w') (steps : Throughout (fun _ e => DuringHold t e ∧ Renews e) es) :
    HoldHonoured t es w'.record := by
  refine hist.invariant (I := fun past s => HoldHonoured t past s.record) ?_ ?_ steps
  · refine ⟨?_, by simp, by simp⟩
    simp [holdsOf, start, NotEarlier]
  · intro past e after honoured hsteps he
    have hlast : NotEarlier (some t) e.before.record.holdUntil := by
      have hfirst := (List.pairwise_cons.mp honoured.kept).1
      exact hfirst _ (by simp [holdsOf])
    obtain ⟨t', u, ht', hu, htu⟩ := hlast
    cases ht'
    obtain ⟨hlater, hunstopped, halive⟩ := hold_step he hu htu hsteps.1 hsteps.2
    refine ⟨?_, fun e' he' => ?_, fun e' he' => ?_⟩
    · have hkept :
        ((some t :: past.map (fun e => e.before.record.holdUntil)) ++ [some u]).Pairwise
        NotEarlier := by
        have hk := honoured.kept
        simpa only [holdsOf, hu, List.cons_append] using hk
      have hnext := pairwise_snoc hkept hlater
      simpa only [holdsOf, List.map_append, List.map_cons, List.map_nil, hu, List.cons_append,
        List.append_assoc] using hnext
    · rcases List.mem_append.mp he' with hpast | hnew
      · exact honoured.unstopped e' hpast
      · have he'' : e' = e := by simpa using hnew
        exact he'' ▸ hunstopped
    · rcases List.mem_append.mp he' with hpast | hnew
      · exact honoured.alive e' hpast
      · have he'' : e' = e := by simpa using hnew
        exact he'' ▸ fun hcall _ => halive hcall

/-- A hold recorded in the course of any history is honoured as long as every manual
start in its time reaches as far as the hold it finds. -/
theorem hold_honoured {es past during : List GpuEpisode} {e : GpuEpisode} {minutes t : ℤ}
    {userId : String}
    {s : GpuLifecycleState} (hist : GpuHistory w es w') (hes : es = past ++ e :: during)
    (hcall : e.call = .holdIdle minutes userId) (hanswer : e.answer = .controlled (.ok s))
    (ht : s.holdUntil = some t) (hduring : ∀ e' ∈ during, DuringHold t e')
    (hrenews : ∀ e' ∈ during, Renews e') : HoldHonoured t during w'.record := by
  obtain ⟨between, hpast, hlater⟩ := hist.parts (hes.trans (List.append_cons past e during))
  have hset : between.record.holdUntil = some t := by
    have hstep := call_exec (hpast.last rfl)
    generalize hlist : sights e.trace = l at hstep
    generalize hafter : between.record = after at hstep ⊢
    rw [hcall, hanswer] at hstep
    cases hstep with
    | held minutes userId trace t' => exact ht
  refine calls_honour hset hlater fun before e' rest hsplit => ?_
  have hmem : e' ∈ during := by simp [hsplit]
  exact ⟨hduring e' hmem, hrenews e' hmem⟩

end Honoured

/-! A batch is started by hand while the box is held for an hour. -/

/-- Started at 0, reported in at 1 minute, held for an hour at 2 minutes; then one more
manual start at 3 minutes, and the sweeps at 4 and at 14. -/
def startedAgain (config : GpuAutostartConfig) : List (Call × Setting) :=
  [(.startNow "batch", { config := webhookConfig, now := 0 }),
    (.sweep, { config := webhookConfig, now := 60_000, worker := reporting }),
    (.holdIdle 60 "operator", { config := webhookConfig, now := 120_000, worker := reporting }),
    (.startNow "more", { config := config, now := 180_000, worker := reporting }),
    (.sweep, { config := webhookConfig, now := 240_000, worker := reporting }),
    (.heartbeat, { config := webhookConfig, now := 840_000, worker := reporting }),
    (.sweep, { config := webhookConfig, now := 840_000, worker := reporting })]

/-- An idle window of two hours. -/
def patientConfig : GpuAutostartConfig := { webhookConfig with idleShutdownMinutes := 120 }

theorem not_hold_honoured : ¬ ∀ w w' es past during e minutes t userId s, GpuHistory w es w' →
    es = past ++ e :: during → e.call = .holdIdle minutes userId → e.answer = .controlled (.ok s) →
    s.holdUntil = some t → (∀ e' ∈ during, DuringHold t e') → HoldHonoured t during w'.record := by
  intro h
  let es := (playIn (startedAgain webhookConfig) freshWorld).1
  have hsplit : es = es.take 2 ++ es.get ⟨2, by decide⟩ :: es.drop 3 := rfl
  have honoured :=
    h freshWorld _ es _ _ _ 60 3_720_000 "operator" _ (history_playIn _ _) hsplit rfl rfl rfl
    (by decide)
  have hlast : es.get ⟨6, by decide⟩ ∈ es.drop 3 := List.mem_iff_getElem.mpr ⟨3, by decide, rfl⟩
  exact honoured.unstopped _ hlast rfl rfl (by decide)

theorem hold_honoured_patient :
    HoldHonoured 3_720_000 ((playIn (startedAgain patientConfig) freshWorld).1.drop 3)
      (playIn (startedAgain patientConfig) freshWorld).2.record := by
  let es := (playIn (startedAgain patientConfig) freshWorld).1
  have hsplit : es = es.take 2 ++ es.get ⟨2, by decide⟩ :: es.drop 3 := rfl
  have hread : ∀ e ∈ es.drop 3, e.call = .sweep ∨ e.call = .heartbeat ∨
      (e.before.record.holdUntil = some 3_720_000 ∧
        startReading e.before.record.state.up e.trace = some (patientConfig, 180_000)) := by decide
  refine hold_honoured (history_playIn _ _) hsplit rfl rfl rfl (by decide) ?_
  intro e he reason hold config t hcall hhold hclock
  rcases hread e he with hsweep | hbeat | ⟨hhold', hclock'⟩
  · rw [hsweep] at hcall
    cases hcall
  · rw [hbeat] at hcall
    cases hcall
  · rw [hhold'] at hhold
    rw [hclock'] at hclock
    cases hhold
    cases hclock
    decide

end EventLens.Gpu

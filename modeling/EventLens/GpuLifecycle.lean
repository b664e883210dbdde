import EventLens.GpuCalls

/-!
What a call of the GPU service can do to the lifecycle record, read off its
complete executions. A sight is an event that bears on the box: a telemetry
reading, a provider command, a record write, or a report on a stop. Each call
is summarized by a relation between the record it finds, the sights of its
execution and the record it leaves.
-/

namespace EventLens.Gpu

open Programs

abbrev GpuExec {α : Type} (p : GpuProg α) (w : GpuWorld) (trace : List GpuEvent) (value : α)
    (w' : GpuWorld) : Prop :=
  Exec gpuHandler p w trace value w'

/-- `worker none` is a failed telemetry reading; the flag of a command says
whether the provider accepted it. -/
inductive Sight
  | worker (reading : Option Bool)
  | machine (status : Option ProviderState)
  | start (accepted : Bool)
  | stop (accepted : Bool)
  | wrote (s : GpuLifecycleState)
  | stopFailed
  | confirmedOff
deriving DecidableEq

def accepted (r : Except String WebhookResponse) : Bool :=
  match r with
  | .ok response => (webhookError response).isNone
  | .error _ => false

def sight : GpuEvent → Option Sight
  | ⟨.readInstances, r⟩ => some (.worker (r.toOption.map mediaOnline))
  | ⟨.jlGet _, r⟩ => some (.machine (providerStateOf r.toOption.join))
  | ⟨.jlResume _ _, r⟩ => some (.start r.isOk)
  | ⟨.jlPause _, r⟩ => some (.stop r.isOk)
  | ⟨.fetch _ _ .start _, r⟩ => some (.start (accepted r))
  | ⟨.fetch _ _ .stop _, r⟩ => some (.stop (accepted r))
  | ⟨.writeState s, _⟩ => some (.wrote s)
  | ⟨.record entry, _⟩ =>
    match entry.action with
    | .stopFailed => some .stopFailed
    | .off => some .confirmedOff
    | _ => none
  | _ => none

def sights (trace : List GpuEvent) : List Sight := trace.filterMap sight

@[simp] theorem sights_nil : sights [] = [] := rfl

@[simp] theorem sights_append (first rest : List GpuEvent) :
    sights (first ++ rest) = sights first ++ sights rest := List.filterMap_append

theorem sights_cons (e : GpuEvent) (rest : List GpuEvent) :
    sights (e :: rest) = (sight e).toList ++ sights rest := by
  unfold sights
  rw [List.filterMap_cons]
  cases sight e <;> rfl

/-! Programs without sights. -/

/-- Operations that show nothing and leave the record alone. -/
def Unseen : GpuOp → Prop
  | .readConfig | .readState | .readQueues | .now | .jlConfigured | .jlList | .readCache
  | .writeCache _ | .readProviderCheck | .writeProviderCheck _ => True
  | _ => False

/-- A program all of whose operations are unseen. -/
def Quiet {α : Type} : GpuProg α → Prop
  | .done _ => True
  | .perform o next => Unseen o ∧ ∀ r, Quiet (next r)

theorem quiet_bind {α β : Type} {p : GpuProg α} {f : α → GpuProg β} (hp : Quiet p)
    (hf : ∀ value, Quiet (f value)) : Quiet (p >>= f) := by
  induction p with
  | done value => exact hf value
  | perform o next ih => exact ⟨hp.1, fun r => ih r (hp.2 r)⟩

theorem quiet_exec {α : Type} {p : GpuProg α} (hp : Quiet p) {w w' : GpuWorld}
    {trace : List GpuEvent} {value : α} (he : GpuExec p w trace value w') :
    sights trace = [] ∧ w'.record = w.record := by
  induction he with
  | done value s => exact ⟨rfl, rfl⟩
  | @perform o next r s s' trace value rest ih =>
    obtain ⟨hsights, hrecord⟩ := ih (hp.2 _)
    have ho : Unseen o := hp.1
    rw [sights_cons, hsights]
    cases o <;> first | exact False.elim ho | exact ⟨rfl, hrecord⟩

theorem quiet_listInstance : Quiet listInstance := by
  refine ⟨trivial, fun config => ⟨trivial, fun r => ?_⟩⟩
  cases r with
  | ok instances => exact ⟨trivial, fun now => ⟨trivial, fun _ => trivial⟩⟩
  | error message => exact ⟨trivial, fun now => ⟨trivial, fun _ => trivial⟩⟩

theorem quiet_refreshInstance : Quiet refreshInstance := by
  refine ⟨trivial, fun configured => ?_⟩
  change Quiet (if configured then listInstance else pure none)
  split
  · exact quiet_listInstance
  · trivial

theorem quiet_getInstance : Quiet getInstance := by
  refine ⟨trivial, fun cache => ?_⟩
  cases cache with
  | none => exact quiet_refreshInstance
  | some cache =>
    refine ⟨trivial, fun now => ?_⟩
    change Quiet (if now - cache.cachedAt < instanceCacheMs then pure cache.cached
      else refreshInstance)
    split
    · trivial
    · exact quiet_refreshInstance

theorem quiet_resolveMachineId (config : GpuAutostartConfig) (state : GpuLifecycleState) :
    Quiet (resolveMachineId config state) :=
  quiet_bind quiet_getInstance (fun _ => trivial)

/-! What starting can do. -/

/-- The box is recorded as coming up or up. -/
def GpuState.up : GpuState → Bool
  | .starting | .running => true
  | .off | .stopping => false

/-- The sights of a provider query that does not report a running box. -/
def Probe (m : List Sight) : Prop :=
  m = [] ∨ ∃ status, status ≠ some .running ∧ m = [.machine status]

/-- The provider of the configuration can be called. -/
def Controllable (config : GpuAutostartConfig) : Prop :=
  if config.provider = .jarvislabs then config.jarvislabsMachineId ≠ ""
  else config.startWebhookUrl ≠ "" ∧ config.stopWebhookUrl ≠ ""

/-- The record after a start, by the way the start ended. A start without a
machine or a webhook to call ends in `aborted`. -/
inductive StartStep (config : GpuAutostartConfig) (manual : Bool) (s : GpuLifecycleState) :
    List Sight → GpuLifecycleState → Prop
  | already (up : s.state.up = true) (hm : manual = false) : StartStep config manual s [] s
  | held (up : s.state.up = true) (hm : manual = true) (t : ℤ) :
      StartStep config manual s [.wrote { s with holdUntil := some t }]
        { s with holdUntil := some t }
  | aborted (down : s.state.up = false) (bare : ¬ Controllable config) (now : ℤ)
      (hold : Option ℤ) (error : String) :
      StartStep config manual s
        [.wrote (pendingStart s now hold),
          .wrote { pendingStart s now hold with state := .off, lastError := some error }]
        { pendingStart s now hold with state := .off, lastError := some error }
  | failed (down : s.state.up = false) (now : ℤ) (hold : Option ℤ) (error : String)
      (m : List Sight) (hm : Probe m) :
      StartStep config manual s
        (.wrote (pendingStart s now hold) :: m ++
          [.start false,
            .wrote { pendingStart s now hold with state := .off, lastError := some error }])
        { pendingStart s now hold with state := .off, lastError := some error }
  | adopted (down : s.state.up = false) (now : ℤ) (hold : Option ℤ) (id : String) :
      StartStep config manual s
        [.wrote (pendingStart s now hold), .machine (some .running),
          .wrote { pendingStart s now hold with machineId := some id }]
        { pendingStart s now hold with machineId := some id }
  | resumed (down : s.state.up = false) (now : ℤ) (hold : Option ℤ) (id : String)
      (m : List Sight) (hm : Probe m) :
      StartStep config manual s
        (.wrote (pendingStart s now hold) :: m ++
          [.start true, .wrote { pendingStart s now hold with machineId := some id }])
        { pendingStart s now hold with machineId := some id }
  | posted (down : s.state.up = false) (now : ℤ) (hold : Option ℤ) :
      StartStep config manual s [.wrote (pendingStart s now hold), .start true]
        (pendingStart s now hold)

section Start

variable {config : GpuAutostartConfig} {w w' : GpuWorld} {trace : List GpuEvent}
  {value pending : GpuLifecycleState}

theorem startFailed_exec {error message : String}
    (he : GpuExec (startFailed pending error message) w trace value w') :
    sights trace = [.wrote { pending with state := .off, lastError := some error }] ∧
      w'.record = { pending with state := .off, lastError := some error } := by
  obtain ⟨_, _, rfl, he₁⟩ := exec_perform.mp he
  obtain ⟨_, _, rfl, he₂⟩ := exec_perform.mp he₁
  obtain ⟨rfl, -, rfl⟩ := exec_done.mp he₂
  exact ⟨rfl, rfl⟩

/-- The two ways a resume ends. -/
theorem resumeMachine_exec {target : String}
    (he : GpuExec (resumeMachine config pending target) w trace value w') :
    (∃ id, sights trace = [.start true, .wrote { pending with machineId := some id }] ∧
      w'.record = { pending with machineId := some id }) ∨
    (∃ error, sights trace =
        [.start false, .wrote { pending with state := .off, lastError := some error }] ∧
      w'.record = { pending with state := .off, lastError := some error }) := by
  obtain ⟨r, _, rfl, he₁⟩ := exec_perform.mp he
  cases r with
  | ok payload =>
    left
    obtain ⟨_, _, rfl, he₂⟩ := exec_perform.mp he₁
    refine ⟨(payload.getD { machineId := target }).machineId, ?_⟩
    by_cases hid : (payload.getD { machineId := target }).machineId = target
    · obtain ⟨rfl, -, rfl⟩ := exec_done.mp (by simpa [hid] using he₂)
      exact ⟨rfl, rfl⟩
    · obtain ⟨_, _, rfl, he₃⟩ := exec_perform.mp (by simpa [hid] using he₂)
      obtain ⟨rfl, -, rfl⟩ := exec_done.mp he₃
      exact ⟨rfl, rfl⟩
  | error message =>
    right
    obtain ⟨hsights, hrecord⟩ := startFailed_exec he₁
    exact ⟨message, by rw [sights_cons, hsights]; rfl, hrecord⟩

theorem saysRunning_iff (i : JarvisLabsInstance) :
    saysRunning i = true ↔ providerStateOf (some i) = some .running := by
  unfold saysRunning providerStateOf
  simp only [Option.bind_some]
  cases truthy i.status with
  | none => simp
  | some status => by_cases h : status.toLower = "running" <;> simp [h]

theorem filter_saysRunning (r : Option JarvisLabsInstance) :
    (∃ i, r.filter saysRunning = some i ∧ providerStateOf r = some .running) ∨
      (r.filter saysRunning = none ∧ providerStateOf r ≠ some .running) := by
  cases r with
  | none => exact Or.inr ⟨rfl, by simp [providerStateOf]⟩
  | some i =>
    by_cases h : saysRunning i = true
    · exact Or.inl ⟨i, by simp [Option.filter, h], (saysRunning_iff i).mp h⟩
    · exact Or.inr ⟨by simp [Option.filter, h], fun hp => h ((saysRunning_iff i).mpr hp)⟩

/-- The three ways a start of a known machine ends. -/
theorem startMachine_exec {target : String}
    (he : GpuExec (startMachine config pending target) w trace value w') :
    (∃ id, sights trace =
        [.machine (some .running), .wrote { pending with machineId := some id }] ∧
      w'.record = { pending with machineId := some id }) ∨
    (∃ id m, Probe m ∧
      sights trace = m ++ [.start true, .wrote { pending with machineId := some id }] ∧
      w'.record = { pending with machineId := some id }) ∨
    (∃ error m, Probe m ∧
      sights trace = m ++
        [.start false, .wrote { pending with state := .off, lastError := some error }] ∧
      w'.record = { pending with state := .off, lastError := some error }) := by
  obtain ⟨r, rest, rfl, he₁⟩ := exec_perform.mp he
  have hanswer : gpuHandler (.jlGet target) r w = (r, w) := rfl
  simp only [hanswer, Prog.bind_done] at he₁
  rcases filter_saysRunning r.toOption.join with ⟨i, hi, hrun⟩ | ⟨hi, hrun⟩
  · left
    rw [hi] at he₁
    obtain ⟨_, _, rfl, he₂⟩ := exec_perform.mp he₁
    obtain ⟨_, _, rfl, he₃⟩ := exec_perform.mp he₂
    obtain ⟨rfl, -, rfl⟩ := exec_done.mp he₃
    refine ⟨i.machineId, ?_, rfl⟩
    rw [sights_cons, ← hrun]
    rfl
  · right
    rw [hi] at he₁
    have hprobe : Probe [.machine (providerStateOf r.toOption.join)] :=
      Or.inr ⟨_, hrun, rfl⟩
    rcases resumeMachine_exec he₁ with ⟨id, hsights, hrecord⟩ | ⟨error, hsights, hrecord⟩
    · exact Or.inl ⟨id, _, hprobe, by rw [sights_cons, hsights]; rfl, hrecord⟩
    · exact Or.inr ⟨error, _, hprobe, by rw [sights_cons, hsights]; rfl, hrecord⟩

theorem callWebhook_exec {url authHeader reason : String} {action : WebhookAction}
    {error : Option String}
    (he : GpuExec (callWebhook url authHeader action reason) w trace error w') :
    w' = w ∧ ((∃ message, url = "" ∧ trace = [] ∧ error = some message) ∨
      ∃ r, trace = [⟨.fetch url authHeader action reason, r⟩] ∧ error.isNone = accepted r) := by
  by_cases hurl : url = ""
  · simp only [callWebhook, hurl, ↓reduceIte, Prog.pure_eq_done] at he
    obtain ⟨rfl, rfl, rfl⟩ := exec_done.mp he
    exact ⟨rfl, Or.inl ⟨_, hurl, rfl, rfl⟩⟩
  · simp only [callWebhook, hurl, ↓reduceIte] at he
    obtain ⟨r, _, rfl, he₁⟩ := exec_perform.mp he
    cases r with
    | ok response =>
      obtain ⟨rfl, rfl, rfl⟩ := exec_done.mp he₁
      exact ⟨rfl, Or.inr ⟨.ok response, rfl, rfl⟩⟩
    | error message =>
      obtain ⟨rfl, rfl, rfl⟩ := exec_done.mp he₁
      exact ⟨rfl, Or.inr ⟨.error message, rfl, rfl⟩⟩

theorem chooseMachineId_eq_empty {live : Option JarvisLabsInstance} {s : GpuLifecycleState}
    (h : chooseMachineId live s config = "") : config.jarvislabsMachineId = "" := by
  unfold chooseMachineId truthy at h
  cases hlive : (live.map (fun i => i.machineId)).filter (fun t => t ≠ "") with
  | some id =>
    have hid := (Option.filter_eq_some_iff.mp hlive).2
    rw [hlive] at h
    exact absurd h (by simpa using hid)
  | none =>
    cases hstate : s.machineId.filter (fun t => t ≠ "") with
    | some id =>
      have hid := (Option.filter_eq_some_iff.mp hstate).2
      rw [hlive, hstate] at h
      exact absurd h (by simpa using hid)
    | none =>
      rw [hlive, hstate] at h
      exact h

theorem resolveMachineId_exec {s : GpuLifecycleState} {target : String}
    (he : GpuExec (resolveMachineId config s) w trace target w') (h : target = "") :
    config.jarvislabsMachineId = "" := by
  obtain ⟨first, live, _, rest, rfl, -, he₁⟩ := exec_bind.mp he
  obtain ⟨-, rfl, -⟩ := exec_done.mp he₁
  exact chooseMachineId_eq_empty h

theorem quiet_startHold (manual : Bool) (state : GpuLifecycleState) :
    Quiet (startHold config manual state) := by
  cases manual
  · trivial
  · exact ⟨trivial, fun _ => trivial⟩

theorem beginStart_exec {reason : String} {manual : Bool} {s : GpuLifecycleState}
    (down : s.state.up = false)
    (he : GpuExec (beginStart config reason manual s) w trace value w') :
    StartStep config manual s (sights trace) w'.record := by
  obtain ⟨now, _, rfl, he₁⟩ := exec_step.mp he
  obtain ⟨first, hold, w₁, _, rfl, hhold, he₂⟩ := exec_bind.mp he₁
  obtain ⟨hquiet, -⟩ := quiet_exec (quiet_startHold manual s) hhold
  obtain ⟨_, _, rfl, he₃⟩ := exec_step.mp he₂
  obtain ⟨_, rest, rfl, he₄⟩ := exec_step.mp he₃
  have hstart : sights (⟨.now, now⟩ :: (first ++ ⟨.writeState (pendingStart s now hold), ()⟩ ::
      ⟨.record { action := .start, message := s!"Starting GPU worker — {reason}" }, ()⟩ ::
        rest)) = .wrote (pendingStart s now hold) :: sights rest := by
    rw [sights_cons, sights_append, hquiet, sights_cons, sights_cons]
    rfl
  change StartStep config manual s (sights (⟨.now, now⟩ :: (first ++
    ⟨.writeState (pendingStart s now hold), ()⟩ :: ⟨.record _, ()⟩ :: rest))) _
  rw [hstart]
  change GpuExec (if config.provider = .jarvislabs then startJarvis config s _
    else startWebhook config reason _) _ _ _ _ at he₄
  split at he₄
  · obtain ⟨quiet, target, w₂, tail, rfl, hres, he₅⟩ := exec_bind.mp he₄
    obtain ⟨hnone, -⟩ := quiet_exec (quiet_resolveMachineId config s) hres
    rw [sights_append, hnone, List.nil_append]
    change GpuExec (if target = "" then startFailed _ _ _
      else startMachine config _ target) _ _ _ _ at he₅
    split at he₅
    · rename_i hprovider htarget
      have hbare : ¬ Controllable config := by
        unfold Controllable
        rw [if_pos hprovider]
        exact not_not.mpr (resolveMachineId_exec hres htarget)
      obtain ⟨hsights, hrecord⟩ := startFailed_exec he₅
      rw [hsights, hrecord]
      exact StartStep.aborted down hbare now hold _
    · rcases startMachine_exec he₅ with ⟨id, hsights, hrecord⟩ |
        ⟨id, m, hm, hsights, hrecord⟩ | ⟨error, m, hm, hsights, hrecord⟩
      · rw [hsights, hrecord]
        exact StartStep.adopted down now hold id
      · rw [hsights, hrecord]
        exact StartStep.resumed down now hold id m hm
      · rw [hsights, hrecord]
        exact StartStep.failed down now hold error m hm
  · rename_i hprovider
    obtain ⟨sent, error, w₂, tail, rfl, hhook, he₅⟩ := exec_bind.mp he₄
    obtain ⟨rfl, hsent⟩ := callWebhook_exec hhook
    rcases hsent with ⟨message, hurl, rfl, rfl⟩ | ⟨r, rfl, hr⟩
    · have hbare : ¬ Controllable config := by
        unfold Controllable
        rw [if_neg hprovider]
        exact fun h => h.1 hurl
      obtain ⟨hsights, hrecord⟩ := startFailed_exec he₅
      rw [List.nil_append, hsights, hrecord]
      exact StartStep.aborted down hbare now hold _
    · rw [sights_append, sights_cons, sights_nil, List.append_nil]
      change StartStep config manual s (_ :: ([.start (accepted r)] ++ _)) _
      rw [← hr]
      cases error with
      | none =>
        obtain ⟨rfl, -, rfl⟩ := exec_done.mp he₅
        exact StartStep.posted down now hold
      | some message =>
        obtain ⟨hsights, hrecord⟩ := startFailed_exec he₅
        rw [hsights, hrecord]
        exact StartStep.failed down now hold _ [] (Or.inl rfl)

theorem up_iff (state : GpuState) : state.up = true ↔ state = .starting ∨ state = .running := by
  cases state <;> simp [GpuState.up]

theorem start_exec {reason : String} {manual : Bool}
    (he : GpuExec (start config reason manual) w trace value w') :
    StartStep config manual w.record (sights trace) w'.record := by
  obtain ⟨_, rest, rfl, he₁⟩ := exec_perform.mp he
  rw [sights_cons]
  change StartStep config manual w.record (sights rest) w'.record
  change GpuExec (if w.record.state = .starting ∨ w.record.state = .running then _
    else beginStart config reason manual w.record) w rest value w' at he₁
  split at he₁
  · rename_i hup
    have up : w.record.state.up = true := (up_iff _).mpr hup
    cases manual with
    | false =>
      obtain ⟨rfl, -, rfl⟩ := exec_done.mp he₁
      exact StartStep.already up rfl
    | true =>
      obtain ⟨now, _, rfl, he₂⟩ := exec_perform.mp he₁
      obtain ⟨_, _, rfl, he₃⟩ := exec_perform.mp he₂
      obtain ⟨_, _, rfl, he₄⟩ := exec_perform.mp he₃
      obtain ⟨rfl, -, rfl⟩ := exec_done.mp he₄
      exact StartStep.held up rfl _
  · rename_i hup
    have down : w.record.state.up = false :=
      Bool.eq_false_iff.mpr (fun h => hup ((up_iff _).mp h))
    exact beginStart_exec down he₁

end Start

/-! What stopping can do. -/

/-- The record after a stop, by the way the stop ended. A stop without a
machine or a webhook to call ends in `aborted`. -/
inductive StopStep (s : GpuLifecycleState) : List Sight → GpuLifecycleState → Prop
  | aborted (now : ℤ) (error : String) :
      StopStep s
        [.wrote (pendingStop s now), .wrote { pendingStop s now with lastError := some error },
          .stopFailed]
        { pendingStop s now with lastError := some error }
  | failed (now : ℤ) (error : String) :
      StopStep s
        [.wrote (pendingStop s now), .stop false,
          .wrote { pendingStop s now with lastError := some error }, .stopFailed]
        { pendingStop s now with lastError := some error }
  | stopped (now : ℤ) :
      StopStep s
        [.wrote (pendingStop s now), .stop true,
          .wrote { pendingStop s now with state := .off, since := now, lastStoppedAt := some now }]
        { pendingStop s now with state := .off, since := now, lastStoppedAt := some now }

section Stop

variable {config : GpuAutostartConfig} {w w' : GpuWorld} {trace : List GpuEvent}
  {value stopping : GpuLifecycleState}

theorem stopFailed_exec {error message : String}
    (he : GpuExec (stopFailed stopping error message) w trace value w') :
    sights trace = [.wrote { stopping with lastError := some error }, .stopFailed] ∧
      w'.record = { stopping with lastError := some error } := by
  obtain ⟨_, _, rfl, he₁⟩ := exec_step.mp he
  obtain ⟨_, _, rfl, he₂⟩ := exec_step.mp he₁
  obtain ⟨rfl, -, rfl⟩ := exec_done.mp he₂
  exact ⟨rfl, rfl⟩

theorem stopDone_exec {now : ℤ} (he : GpuExec (stopDone stopping now) w trace value w') :
    sights trace =
        [.wrote { stopping with state := .off, since := now, lastStoppedAt := some now }] ∧
      w'.record = { stopping with state := .off, since := now, lastStoppedAt := some now } := by
  obtain ⟨_, _, rfl, he₁⟩ := exec_step.mp he
  obtain ⟨rfl, -, rfl⟩ := exec_done.mp he₁
  exact ⟨rfl, rfl⟩

theorem stop_exec {reason : String}
    (he : GpuExec (stop config reason) w trace value w') :
    StopStep w.record (sights trace) w'.record := by
  obtain ⟨_, _, rfl, he₁⟩ := exec_step.mp he
  obtain ⟨now, _, rfl, he₂⟩ := exec_step.mp he₁
  obtain ⟨_, _, rfl, he₃⟩ := exec_step.mp he₂
  obtain ⟨_, rest, rfl, he₄⟩ := exec_step.mp he₃
  change StopStep w.record (.wrote (pendingStop w.record now) :: sights rest) _
  change GpuExec (if config.provider = .jarvislabs then stopJarvis config w.record _ now
    else stopWebhook config reason _ now) _ _ _ _ at he₄
  split at he₄
  · obtain ⟨quiet, target, w₂, tail, rfl, hres, he₅⟩ := exec_bind.mp he₄
    obtain ⟨hnone, -⟩ := quiet_exec (quiet_resolveMachineId config w.record) hres
    rw [sights_append, hnone, List.nil_append]
    change GpuExec (if target = "" then stopFailed _ _ _ else _) _ _ _ _ at he₅
    split at he₅
    · obtain ⟨hsights, hrecord⟩ := stopFailed_exec he₅
      rw [hsights, hrecord]
      exact StopStep.aborted now _
    · obtain ⟨r, _, rfl, he₆⟩ := exec_step.mp he₅
      rw [sights_cons]
      cases r with
      | ok _ =>
        obtain ⟨hsights, hrecord⟩ := stopDone_exec he₆
        rw [hsights, hrecord]
        exact StopStep.stopped now
      | error message =>
        obtain ⟨hsights, hrecord⟩ := stopFailed_exec he₆
        rw [hsights, hrecord]
        exact StopStep.failed now _
  · obtain ⟨sent, error, w₂, tail, rfl, hhook, he₅⟩ := exec_bind.mp he₄
    obtain ⟨rfl, hsent⟩ := callWebhook_exec hhook
    rcases hsent with ⟨message, -, rfl, rfl⟩ | ⟨r, rfl, hr⟩
    · obtain ⟨hsights, hrecord⟩ := stopFailed_exec he₅
      rw [List.nil_append, hsights, hrecord]
      exact StopStep.aborted now _
    · rw [sights_append, sights_cons, sights_nil, List.append_nil]
      change StopStep _ (_ :: ([.stop (accepted r)] ++ _)) _
      rw [← hr]
      cases error with
      | none =>
        obtain ⟨hsights, hrecord⟩ := stopDone_exec he₅
        rw [hsights, hrecord]
        exact StopStep.stopped now
      | some message =>
        obtain ⟨hsights, hrecord⟩ := stopFailed_exec he₅
        rw [hsights, hrecord]
        exact StopStep.failed now _

end Stop

end EventLens.Gpu

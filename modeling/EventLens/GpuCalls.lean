import EventLens.GpuService

/-!
The calls of the GPU lifecycle service: starting and stopping the box, the
manual controls, the heartbeat the box polls, the status read by the panel
and the sweep. The long methods of the source are cut at their own comments.
-/

namespace EventLens.Gpu

open Programs

/-! Starting. -/

/-- The record written before the provider is called. -/
def pendingStart (state : GpuLifecycleState) (now : ℤ) (holdUntil : Option ℤ) :
    GpuLifecycleState :=
  { state with
    state := .starting
    since := now
    lastStartedAt := some now
    lastError := none
    idleSince := none
    holdUntil := holdUntil }

/-- A manual start of a box that is already up only holds it up. -/
def holdStarted (config : GpuAutostartConfig) (reason : String) (state : GpuLifecycleState) :
    GpuProg GpuLifecycleState := do
  let now ← dateNow
  let next := { state with holdUntil := some (now + minutesMs config.idleShutdownMinutes) }
  setState next
  auditRecord
    { action := .hold
      message := s!"GPU already {state.state.name}; held up for another " ++
        s!"{config.idleShutdownMinutes} minutes ({reason})" }
  pure next

def startHold (config : GpuAutostartConfig) (manual : Bool) (state : GpuLifecycleState) :
    GpuProg (Option ℤ) := do
  if manual then
    let now ← dateNow
    pure (some (now + minutesMs config.idleShutdownMinutes))
  else pure state.holdUntil

def startFailed (pending : GpuLifecycleState) (error message : String) :
    GpuProg GpuLifecycleState := do
  let failed := { pending with state := .off, lastError := some error }
  setState failed
  auditRecord { action := .startFailed, level := .error, message := message }
  pure failed

/-- Resume the machine, and keep the id the provider hands back. -/
def resumeMachine (config : GpuAutostartConfig) (pending : GpuLifecycleState)
    (target : String) : GpuProg GpuLifecycleState := do
  match ← jarvisResume target config.jarvislabsGpuType with
  | .ok i => do
    let started := { pending with machineId := some i.machineId }
    setState started
    if i.machineId = target then pure started
    else
      auditRecord
        { action := .instanceReassigned
          level := .warning
          message := s!"JarvisLabs resume reassigned the instance: {target} -> " ++ i.machineId }
      pure started
  | .error message => startFailed pending message s!"JarvisLabs resume failed — {message}"

/-- A machine that already runs is adopted: resume would refuse it. -/
def startMachine (config : GpuAutostartConfig) (pending : GpuLifecycleState)
    (target : String) : GpuProg GpuLifecycleState := do
  let current := (← jarvisGet target).toOption.join
  match current.filter saysRunning with
  | some i => do
    let adopted := { pending with machineId := some i.machineId }
    setState adopted
    auditRecord
      { action := .startAdopted
        message := "Instance " ++ i.machineId ++
          " was already running — adopted it instead of resuming" }
    pure adopted
  | none => resumeMachine config pending target

def startJarvis (config : GpuAutostartConfig) (state pending : GpuLifecycleState) :
    GpuProg GpuLifecycleState := do
  let target ← resolveMachineId config state
  if target = "" then
    startFailed pending "no JarvisLabs instance id"
      "GPU start aborted — no JarvisLabs instance id configured"
  else startMachine config pending target

def startWebhook (config : GpuAutostartConfig) (reason : String)
    (pending : GpuLifecycleState) : GpuProg GpuLifecycleState := do
  match ← callWebhook config.startWebhookUrl config.webhookAuthHeader .start reason with
  | some error => startFailed pending error s!"GPU start webhook failed — {error}"
  | none => pure pending

/-- Marked `starting` before the provider is called. -/
def beginStart (config : GpuAutostartConfig) (reason : String) (manual : Bool)
    (state : GpuLifecycleState) : GpuProg GpuLifecycleState := do
  let now ← dateNow
  let holdUntil ← startHold config manual state
  let pending := pendingStart state now holdUntil
  setState pending
  auditRecord { action := .start, message := s!"Starting GPU worker — {reason}" }
  if config.provider = .jarvislabs then startJarvis config state pending
  else startWebhook config reason pending

/-- Idempotent by state, because a duplicate start is a duplicate bill. -/
def start (config : GpuAutostartConfig) (reason : String) (manual : Bool) :
    GpuProg GpuLifecycleState := do
  let state ← getGpuLifecycleState
  if state.state = .starting ∨ state.state = .running then
    if manual then holdStarted config reason state else pure state
  else beginStart config reason manual state

/-! Stopping. -/

def pendingStop (state : GpuLifecycleState) (now : ℤ) : GpuLifecycleState :=
  { state with
    state := .stopping
    since := now
    holdUntil := none
    idleSince := none
    lastError := none }

/-- Left in `stopping`, so that the failure stays visible. -/
def stopFailed (stopping : GpuLifecycleState) (error message : String) :
    GpuProg GpuLifecycleState := do
  let failed := { stopping with lastError := some error }
  setState failed
  auditRecord { action := .stopFailed, level := .error, message := message }
  pure failed

def stopDone (stopping : GpuLifecycleState) (now : ℤ) : GpuProg GpuLifecycleState := do
  let stopped := { stopping with state := .off, since := now, lastStoppedAt := some now }
  setState stopped
  pure stopped

def stopJarvis (config : GpuAutostartConfig) (state stopping : GpuLifecycleState) (now : ℤ) :
    GpuProg GpuLifecycleState := do
  let target ← resolveMachineId config state
  if target = "" then
    stopFailed stopping "no JarvisLabs instance id"
      "GPU stop aborted — no JarvisLabs instance id; the box may still be billing"
  else
    match ← jarvisPause target with
    | .ok _ => stopDone stopping now
    | .error message =>
      stopFailed stopping message (s!"JarvisLabs pause failed — {message}. " ++
        "Falling back to the box's own heartbeat shutdown.")

def stopWebhook (config : GpuAutostartConfig) (reason : String) (stopping : GpuLifecycleState)
    (now : ℤ) : GpuProg GpuLifecycleState := do
  match ← callWebhook config.stopWebhookUrl config.webhookAuthHeader .stop reason with
  | some error =>
    stopFailed stopping error (s!"GPU stop webhook failed — {error}. " ++
      "Falling back to the box's own heartbeat shutdown.")
  | none => stopDone stopping now

def stop (config : GpuAutostartConfig) (reason : String) : GpuProg GpuLifecycleState := do
  let state ← getGpuLifecycleState
  let now ← dateNow
  let stopping := pendingStop state now
  setState stopping
  auditRecord { action := .stop, message := s!"Stopping GPU worker — {reason}" }
  if config.provider = .jarvislabs then stopJarvis config state stopping now
  else stopWebhook config reason stopping now

/-! Manual control. -/

def holdIdle (minutes : ℤ) (userId : String) : GpuProg GpuLifecycleState := do
  let state ← getGpuLifecycleState
  let now ← dateNow
  let holdUntil := now + minutesMs minutes
  let next := { state with holdUntil := some holdUntil }
  setState next
  auditRecord
    { action := .holdSet
      message := s!"Idle shutdown paused for {minutes} minutes — the box will stay up until " ++
        toISOString holdUntil
      userId := some userId }
  pure next

def clearHold (userId : String) : GpuProg GpuLifecycleState := do
  let state ← getGpuLifecycleState
  let config ← getGpuAutostartConfig
  let next := { state with holdUntil := none }
  setState next
  auditRecord
    { action := .holdCleared
      message := s!"Idle shutdown resumed — the box may stop after " ++
        s!"{config.idleShutdownMinutes} idle minutes"
      userId := some userId }
  pure next

/-- The refusal of a manual click against a half configured provider. -/
def assertControllable (config : GpuAutostartConfig) : GpuProg (Except String Unit) := do
  if config.provider = .jarvislabs then
    let configured ← isConfigured
    if configured then
      if config.jarvislabsMachineId = "" then
        pure (.error "No JarvisLabs instance id is configured")
      else pure (.ok ())
    else pure (.error "JarvisLabs control needs JL_API_KEY set on the API host")
  else if config.startWebhookUrl = "" ∨ config.stopWebhookUrl = "" then
    pure (.error "No GPU start/stop webhook is configured")
  else pure (.ok ())

def startNow (reason : String) : GpuProg (Except String GpuLifecycleState) := do
  let config ← getGpuAutostartConfig
  match ← assertControllable config with
  | .ok _ => do
    let next ← start config reason true
    pure (.ok next)
  | .error message => pure (.error message)

def stopNow (reason : String) : GpuProg (Except String GpuLifecycleState) := do
  let config ← getGpuAutostartConfig
  match ← assertControllable config with
  | .ok _ => do
    let next ← stop config reason
    pure (.ok next)
  | .error message => pure (.error message)

/-! The box asks whether to stay up. -/

structure HeartbeatReply where
  keepAlive : Bool
  reason : String
  pending : ℕ
deriving DecidableEq, Repr

/-- The answer after the queues and the hold have been read. -/
def heartbeatReply (config : GpuAutostartConfig) (state : GpuLifecycleState)
    (queues : List GpuQueueSummary) (now : ℤ) : HeartbeatReply :=
  let active := activeOf queues
  let pending := pendingOf queues
  if 0 < active then
    { keepAlive := true, reason := s!"{active} job(s) in flight", pending := pending }
  else if holdInForce state.holdUntil now then
    { keepAlive := true, reason := "manual hold", pending := pending }
  else if 0 < pending then
    { keepAlive := true, reason := s!"{pending} job(s) queued", pending := pending }
  else if state.state = .stopping then
    { keepAlive := false, reason := "shutdown requested", pending := pending }
  else if now - state.since < minutesMs config.idleShutdownMinutes then
    { keepAlive := true, reason := "within idle window", pending := pending }
  else
    { keepAlive := false, reason := "idle window elapsed", pending := pending }

def heartbeat : GpuProg HeartbeatReply := do
  let config ← getGpuAutostartConfig
  let state ← getGpuLifecycleState
  let queues ← getQueueSummary
  if 0 < stuckOf queues then
    let stuck := stuckOf queues
    auditRecord
      { action := .jobsStuck
        level := .warning
        message := s!"{stuck} job(s) have been active far longer than any real job takes — " ++
          "treating them as orphaned so they cannot hold the box up" }
    let now ← dateNow
    pure (heartbeatReply config state queues now)
  else
    let now ← dateNow
    pure (heartbeatReply config state queues now)

/-! The read model of the panel. -/

inductive NextKind
  | start | stop | waiting | none
deriving DecidableEq, Repr

structure NextAction where
  kind : NextKind
  message : String
  etaSeconds : Option ℤ
deriving DecidableEq, Repr

def predictOff (config : GpuAutostartConfig) (queues : List GpuQueueSummary) (pending : ℕ) :
    NextAction :=
  if pending = 0 then
    { kind := .none
      message := "Nothing queued. The box stays off until work arrives."
      etaSeconds := none }
  else
    let shortfall := config.pendingThreshold - (pending : ℤ)
    let untilAgeRule := config.maxPendingAgeMinutes * 60 - oldestWaitingOf queues
    if shortfall ≤ 0 ∨ untilAgeRule ≤ 0 then
      { kind := .start, message := "Starting on the next sweep.", etaSeconds := some 0 }
    else
      { kind := .waiting
        message := s!"Waiting — starts at {config.pendingThreshold} queued jobs " ++
          s!"({shortfall} more) or once the oldest has waited {config.maxPendingAgeMinutes}m."
        etaSeconds := some untilAgeRule }

def predictRunning (config : GpuAutostartConfig) (state : GpuLifecycleState) (pending : ℕ)
    (now : ℤ) : NextAction :=
  if holdInForce state.holdUntil now then
    { kind := .none
      message := "Idle shutdown is paused — the box stays up until the hold expires."
      etaSeconds := state.holdUntil.map (fun t => roundDiv (t - now) 1000) }
  else if 0 < pending then
    { kind := .none, message := s!"Working through {pending} job(s).", etaSeconds := none }
  else
    let idleFor := (state.idleSince.map (fun t => now - t)).getD 0
    let remaining := max 0 (minutesMs config.idleShutdownMinutes - idleFor)
    { kind := .stop
      message := "Queues are empty — stopping once the idle window elapses."
      etaSeconds := some (roundDiv remaining 1000) }

def predictNextAction (config : GpuAutostartConfig) (state : GpuLifecycleState)
    (queues : List GpuQueueSummary) (pending : ℕ) (now : ℤ) : NextAction :=
  if config.enabled then
    match state.state with
    | .off => predictOff config queues pending
    | .running => predictRunning config state pending now
    | .starting =>
      { kind := .none
        message := "Booting — waiting for the worker to report in."
        etaSeconds := none }
    | .stopping => { kind := .none, message := "Shutting down.", etaSeconds := none }
  else
    { kind := .none
      message := "Autostart is off — the box only starts and stops by hand."
      etaSeconds := none }

structure GpuStatus where
  config : GpuAutostartConfig
  state : GpuLifecycleState
  queues : List GpuQueueSummary
  pending : ℕ
  workerOnline : Bool
  serverNow : ℤ
  machine : Option JarvisLabsInstance
  oldestPendingAgeSeconds : Option ℤ
  nextAction : NextAction
  trigger : Trigger
  providerReady : Bool
deriving DecidableEq, Repr

def providerReady (config : GpuAutostartConfig) : GpuProg Bool := do
  if config.provider = .jarvislabs then
    let configured ← isConfigured
    pure (configured && decide (config.jarvislabsMachineId ≠ ""))
  else pure (decide (config.startWebhookUrl ≠ "" ∧ config.stopWebhookUrl ≠ ""))

def getStatus : GpuProg GpuStatus := do
  let config ← getGpuAutostartConfig
  let state ← getGpuLifecycleState
  let queues ← getQueueSummary
  let workerOnline ← isWorkerOnline
  let machine ← getInstance
  let pending := pendingOf queues
  let now ← dateNow
  let ready ← providerReady config
  pure
    { config := config
      state := state
      queues := queues
      pending := pending
      workerOnline := workerOnline
      serverNow := now
      machine := machine
      oldestPendingAgeSeconds := (queues.filterMap (fun q => q.oldestWaitingAgeSeconds)).max?
      nextAction := predictNextAction config state queues pending now
      trigger := evaluateTrigger config queues pending
      providerReady := ready }

/-! The sweep. -/

/-- Adopt a box recorded as off that the provider reports as running. -/
def adoptRunning (state : GpuLifecycleState) : GpuProg JobStatus := do
  let adoptedAt ← dateNow
  setState
    { state with
      state := .starting
      since := adoptedAt
      lastStartedAt := some adoptedAt
      idleSince := none }
  auditRecord
    { action := .stateReconciled
      level := .warning
      message := "The GPU instance is running but was recorded as off — adopting it so idle " ++
        "shutdown applies. It would otherwise have billed indefinitely." }
  pure .success

def reportRunning (state : GpuLifecycleState) : GpuProg JobStatus := do
  let now ← dateNow
  setState { state with state := .running, since := now, lastError := none, idleSince := none }
  auditRecord { action := .running, message := "GPU worker reported in — now running" }
  pure .success

def timeOutStart (config : GpuAutostartConfig) : GpuProg JobStatus := do
  auditRecord
    { action := .startTimeout
      level := .error
      message := s!"GPU worker never reported in within {config.startTimeoutMinutes}m — " ++
        "stopping it rather than paying for a box we cannot use" }
  let _ ← stop config "start timed out"
  pure .success

/-- Write the box down as off, for a worker that is not reporting. -/
def markOff (state : GpuLifecycleState) (entry : AuditEntry) : GpuProg JobStatus := do
  let since ← dateNow
  let stoppedAt ← dateNow
  setState { state with state := .off, since := since, lastStoppedAt := some stoppedAt }
  auditRecord entry
  pure .success

def vanishedEntry : AuditEntry where
  action := .vanished
  level := .warning
  message := "GPU worker stopped reporting — it crashed, or shut itself down via the heartbeat"

def confirmedOffEntry : AuditEntry where
  action := .off
  message := "GPU worker confirmed off — billing has stopped"

/-- The idle countdown of a running box. -/
def sweepRunning (config : GpuAutostartConfig) (state : GpuLifecycleState)
    (pending active : ℕ) (now : ℤ) : GpuProg JobStatus := do
  if pending = 0 ∧ active = 0 then
    match state.idleSince with
    | none => do
      setState { state with idleSince := some now }
      pure .success
    | some idleSince => do
      let idleFor := now - idleSince
      let minutes := roundDiv idleFor 60_000
      if holdInForce state.holdUntil now = false ∧
          minutesMs config.idleShutdownMinutes ≤ idleFor then
        let _ ← stop config s!"idle for {minutes}m"
        pure .success
      else pure .success
  else if state.idleSince.isSome then
    setState { state with idleSince := none }
    pure .success
  else pure .success

/-- The branches after the provider check, in the order of the source. -/
def sweepRecord (config : GpuAutostartConfig) (state : GpuLifecycleState)
    (queues : List GpuQueueSummary) (workerOnline : Bool) (now : ℤ) : GpuProg JobStatus := do
  let pending := pendingOf queues
  if state.state = .starting ∧ workerOnline then reportRunning state
  else if state.state = .starting ∧ minutesMs config.startTimeoutMinutes < now - state.since then
    timeOutStart config
  else if state.state = .running ∧ workerOnline = false then markOff state vanishedEntry
  else if state.state = .stopping ∧ workerOnline = false then markOff state confirmedOffEntry
  else
    let trigger := evaluateTrigger config queues pending
    if state.state = .off ∧ trigger.shouldStart then
      let _ ← start config trigger.reason false
      pure .success
    else if state.state = .running then
      sweepRunning config state pending (activeOf queues) now
    else pure .success

def handleGpuLifecycleSweep : GpuProg JobStatus := do
  let config ← getGpuAutostartConfig
  if config.enabled then
    let state ← getGpuLifecycleState
    let queues ← getQueueSummary
    let workerOnline ← isWorkerOnline
    let now ← dateNow
    if state.state = .off then
      let actual ← getProviderState config state
      if actual = some .running then adoptRunning state
      else sweepRecord config state queues workerOnline now
    else sweepRecord config state queues workerOnline now
  else pure .skipped

/-! A call from outside. -/

inductive Call
  | sweep
  | startNow (reason : String)
  | stopNow (reason : String)
  | holdIdle (minutes : ℤ) (userId : String)
  | clearHold (userId : String)
  | heartbeat
  | getStatus
deriving DecidableEq, Repr

/-- What a call returns. -/
inductive Answer
  | swept (status : JobStatus)
  | controlled (result : Except String GpuLifecycleState)
  | heartbeat (reply : HeartbeatReply)
  | status (status : GpuStatus)

def Call.prog : Call → GpuProg Answer
  | .sweep => do
    let status ← handleGpuLifecycleSweep
    pure (.swept status)
  | .startNow reason => do
    let result ← Gpu.startNow reason
    pure (.controlled result)
  | .stopNow reason => do
    let result ← Gpu.stopNow reason
    pure (.controlled result)
  | .holdIdle minutes userId => do
    let next ← Gpu.holdIdle minutes userId
    pure (.controlled (.ok next))
  | .clearHold userId => do
    let next ← Gpu.clearHold userId
    pure (.controlled (.ok next))
  | .heartbeat => do
    let reply ← Gpu.heartbeat
    pure (.heartbeat reply)
  | .getStatus => do
    let status ← Gpu.getStatus
    pure (.status status)

end EventLens.Gpu

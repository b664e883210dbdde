import EventLens.GpuRecord
import EventLens.Programs

/-!
The GPU lifecycle service. Every await of the source is one operation, so an
interleaving of calls is an interleaving of these operations. The lifecycle
record and the two fields the service keeps in memory are the state; the
configuration, the queues, the telemetry, the clock and the provider answer
from outside. Audit details beyond action, level, message and user are left
out, and so are the process log lines.
-/

namespace EventLens.Gpu

open Programs

inductive WebhookAction
  | start | stop
deriving DecidableEq, Repr

inductive GpuOp
  | readConfig
  | readState
  | writeState (s : GpuLifecycleState)
  | readQueues
  | readInstances
  | now
  | jlConfigured
  | jlList
  | jlGet (machineId : String)
  | jlResume (machineId : String) (gpuType : Option String)
  | jlPause (machineId : String)
  | fetch (url authHeader : String) (action : WebhookAction) (reason : String)
  | record (entry : AuditEntry)
  | readCache
  | writeCache (cache : InstanceCache)
  | readProviderCheck
  | writeProviderCheck (at_ : ℤ)
deriving DecidableEq, Repr

/-- The answer of each operation. A failed provider, telemetry or webhook
call answers with its error text. -/
abbrev GpuRes : GpuOp → Type
  | .readConfig => GpuAutostartConfig
  | .readState => GpuLifecycleState
  | .readQueues => QueueName → QueueReading
  | .readInstances => Except String (List InstanceStatus)
  | .now => ℤ
  | .jlConfigured => Bool
  | .jlList => Except String (List JarvisLabsInstance)
  | .jlGet _ => Except String (Option JarvisLabsInstance)
  | .jlResume _ _ => Except String (Option JarvisLabsInstance)
  | .jlPause _ => Except String Unit
  | .fetch _ _ _ _ => Except String WebhookResponse
  | .readCache => Option InstanceCache
  | .readProviderCheck => ℤ
  | .writeState _ | .record _ | .writeCache _ | .writeProviderCheck _ => Unit

abbrev GpuProg := Prog GpuOp GpuRes
abbrev GpuEvent := Event GpuOp GpuRes
abbrev GpuOracle := Oracle GpuOp GpuRes

/-- The stored lifecycle record and the fields of the service object. -/
structure GpuWorld where
  record : GpuLifecycleState
  lastProviderCheckAt : ℤ := 0
  instanceCache : Option InstanceCache := none
deriving DecidableEq, Repr

/-- The record and the memory answer for themselves; every other answer is
the environment's. -/
def gpuHandler : Handler GpuOp GpuRes GpuWorld
  | .readState, _, w => (w.record, w)
  | .writeState s, _, w => ((), { w with record := s })
  | .readCache, _, w => (w.instanceCache, w)
  | .writeCache c, _, w => ((), { w with instanceCache := some c })
  | .readProviderCheck, _, w => (w.lastProviderCheckAt, w)
  | .writeProviderCheck t, _, w => ((), { w with lastProviderCheckAt := t })
  | .readConfig, r, w => (r, w)
  | .readQueues, r, w => (r, w)
  | .readInstances, r, w => (r, w)
  | .now, r, w => (r, w)
  | .jlConfigured, r, w => (r, w)
  | .jlList, r, w => (r, w)
  | .jlGet _, r, w => (r, w)
  | .jlResume _ _, r, w => (r, w)
  | .jlPause _, r, w => (r, w)
  | .fetch _ _ _ _, r, w => (r, w)
  | .record _, _, w => ((), w)

/-! Single operations under the source's names. -/

abbrev getGpuAutostartConfig : GpuProg GpuAutostartConfig := .perform .readConfig .done
abbrev getGpuLifecycleState : GpuProg GpuLifecycleState := .perform .readState .done
abbrev setState (s : GpuLifecycleState) : GpuProg Unit := .perform (.writeState s) .done
abbrev dateNow : GpuProg ℤ := .perform .now .done
abbrev auditRecord (entry : AuditEntry) : GpuProg Unit := .perform (.record entry) .done
abbrev readQueues : GpuProg (QueueName → QueueReading) := .perform .readQueues .done
abbrev getInstances : GpuProg (Except String (List InstanceStatus)) :=
  .perform .readInstances .done
abbrev isConfigured : GpuProg Bool := .perform .jlConfigured .done
abbrev jarvisList : GpuProg (Except String (List JarvisLabsInstance)) := .perform .jlList .done
abbrev jarvisGet (machineId : String) : GpuProg (Except String (Option JarvisLabsInstance)) :=
  .perform (.jlGet machineId) .done
abbrev jarvisPause (machineId : String) : GpuProg (Except String Unit) :=
  .perform (.jlPause machineId) .done
abbrev readInstanceCache : GpuProg (Option InstanceCache) := .perform .readCache .done
abbrev setInstanceCache (cache : InstanceCache) : GpuProg Unit :=
  .perform (.writeCache cache) .done
abbrev readLastProviderCheckAt : GpuProg ℤ := .perform .readProviderCheck .done
abbrev setLastProviderCheckAt (t : ℤ) : GpuProg Unit := .perform (.writeProviderCheck t) .done

/-- `resume` of the CLI wrapper: a reply without an instance keeps the id. -/
def jarvisResume (target gpuType : String) : GpuProg (Except String JarvisLabsInstance) :=
  .perform (.jlResume target (truthy (some gpuType))) fun
    | .ok payload => .done (.ok (payload.getD { machineId := target }))
    | .error message => .done (.error message)

abbrev webhookPost (url authHeader : String) (action : WebhookAction) (reason : String) :
    GpuProg (Except String WebhookResponse) :=
  .perform (.fetch url authHeader action reason) .done

/-! The queues. -/

/-- A timestamp that JavaScript takes for true. -/
def truthyStamp (t : Option ℤ) : Option ℤ := t.filter (fun t => t ≠ 0)

def summarize (name : QueueName) (reading : QueueReading) (now : ℤ) : GpuQueueSummary :=
  let activeAgeMs := (truthyStamp reading.oldestActive).map (fun t => now - t)
  let stuck := activeAgeMs.any (fun age => decide (stuckActiveAfterMs < age))
  { name := name
    waiting := reading.counts.waiting
    active := reading.counts.active
    delayed := reading.counts.delayed
    failed := reading.counts.failed
    oldestWaitingAgeSeconds :=
      (truthyStamp reading.oldestWaiting).map (fun t => roundDiv (now - t) 1000)
    oldestActiveAgeSeconds := activeAgeMs.map (fun age => roundDiv age 1000)
    liveActive := if stuck then 0 else reading.counts.active }

def getQueueSummary : GpuProg (List GpuQueueSummary) := do
  let readings ← readQueues
  let now ← dateNow
  pure (gpuQueues.map (fun name => summarize name (readings name) now))

def pendingOf (queues : List GpuQueueSummary) : ℕ :=
  (queues.map (fun queue => queue.waiting + queue.liveActive + queue.delayed)).sum

def activeOf (queues : List GpuQueueSummary) : ℕ :=
  (queues.map (fun queue => queue.liveActive)).sum

def stuckOf (queues : List GpuQueueSummary) : ℕ :=
  (queues.map (fun queue => queue.active - queue.liveActive)).sum

def oldestWaitingOf (queues : List GpuQueueSummary) : ℤ :=
  (queues.filterMap (fun queue => queue.oldestWaitingAgeSeconds)).foldl max 0

structure Trigger where
  shouldStart : Bool
  reason : String
deriving DecidableEq, Repr

def evaluateTrigger (config : GpuAutostartConfig) (queues : List GpuQueueSummary)
    (pending : ℕ) : Trigger :=
  let oldest := oldestWaitingOf queues
  let age := roundDiv oldest 60
  if pending = 0 then
    { shouldStart := false, reason := "no pending work" }
  else if config.pendingThreshold ≤ (pending : ℤ) then
    { shouldStart := true
      reason := s!"{pending} pending ≥ threshold {config.pendingThreshold}" }
  else if config.maxPendingAgeMinutes * 60 ≤ oldest then
    { shouldStart := true
      reason := s!"oldest job waiting {age}m ≥ {config.maxPendingAgeMinutes}m" }
  else
    { shouldStart := false
      reason := s!"{pending} pending (< {config.pendingThreshold}), " ++
        s!"oldest {age}m (< {config.maxPendingAgeMinutes}m)" }

/-! Telemetry. -/

def mediaOnline (instances : List InstanceStatus) : Bool :=
  instances.any (fun i => i.roles.contains .media)

/-- An unreadable telemetry store counts as online. -/
def isWorkerOnline : GpuProg Bool := do
  match ← getInstances with
  | .ok instances => pure (mediaOnline instances)
  | .error _ => pure true

/-! The live instance. -/

def pickInstance (configured : String) (instances : List JarvisLabsInstance) :
    Option JarvisLabsInstance :=
  let matched := if configured = "" then none
    else instances.find? (fun row => row.machineId = configured)
  let single := match instances with
    | [only] => some only
    | _ => none
  matched.or single

/-- List the instances and remember the outcome, a failed listing as a miss. -/
def listInstance : GpuProg (Option JarvisLabsInstance) := do
  let config ← getGpuAutostartConfig
  match ← jarvisList with
  | .ok instances => do
    let found := pickInstance config.jarvislabsMachineId instances
    let now ← dateNow
    setInstanceCache { cachedAt := now, cached := found }
    pure found
  | .error _ => do
    let now ← dateNow
    setInstanceCache { cachedAt := now, cached := none }
    pure none

def refreshInstance : GpuProg (Option JarvisLabsInstance) := do
  let configured ← isConfigured
  if configured then listInstance else pure none

def getInstance : GpuProg (Option JarvisLabsInstance) := do
  match ← readInstanceCache with
  | some cache => do
    let now ← dateNow
    if now - cache.cachedAt < instanceCacheMs then pure cache.cached else refreshInstance
  | none => refreshInstance

/-- `live?.machineId || state.machineId || config.jarvislabsMachineId`. -/
def chooseMachineId (live : Option JarvisLabsInstance) (state : GpuLifecycleState)
    (config : GpuAutostartConfig) : String :=
  ((truthy (live.map (fun i => i.machineId))).or (truthy state.machineId)).getD
    config.jarvislabsMachineId

def resolveMachineId (config : GpuAutostartConfig) (state : GpuLifecycleState) :
    GpuProg String := do
  let live ← getInstance
  pure (chooseMachineId live state config)

/-- The status text says the machine is running. -/
def saysRunning (i : JarvisLabsInstance) : Bool :=
  match truthy i.status with
  | some status => status.toLower = "running"
  | none => false

inductive ProviderState
  | running | paused
deriving DecidableEq, Repr

def providerStateOf (i : Option JarvisLabsInstance) : Option ProviderState :=
  match i.bind (fun i => truthy i.status) with
  | some status => if status.toLower = "running" then some .running else some .paused
  | none => none

def queryProviderState (config : GpuAutostartConfig) (state : GpuLifecycleState) :
    GpuProg (Option ProviderState) := do
  let target ← resolveMachineId config state
  if target = "" then pure none
  else
    match ← jarvisGet target with
    | .ok i => pure (providerStateOf i)
    | .error _ => pure none

def getProviderState (config : GpuAutostartConfig) (state : GpuLifecycleState) :
    GpuProg (Option ProviderState) := do
  if config.provider = .jarvislabs then
    let configured ← isConfigured
    if configured then
      let now ← dateNow
      let last ← readLastProviderCheckAt
      if now - last < providerCheckIntervalMs then pure none
      else
        setLastProviderCheckAt now
        queryProviderState config state
    else pure none
  else pure none

/-! Webhooks. -/

def webhookError (response : WebhookResponse) : Option String :=
  if response.ok then none
  else
    let detail := (response.detail.take 200).toString
    let tail := if response.detail = "" then "" else ": " ++ detail
    some (toString response.status ++ " " ++ response.statusText ++ tail)

/-- The error text, or `none` on success. -/
def callWebhook (url authHeader : String) (action : WebhookAction) (reason : String) :
    GpuProg (Option String) := do
  if url = "" then pure (some "no webhook URL configured")
  else
    match ← webhookPost url authHeader action reason with
    | .ok response => pure (webhookError response)
    | .error message => pure (some message)

end EventLens.Gpu

import Mathlib

/-!
The data of the GPU box lifecycle: the stored configuration and lifecycle
record, the queue figures and the audit entries. Instants are milliseconds
since the epoch. A `null` of the source is `none`.
-/

namespace EventLens.Gpu

inductive QueueName
  | mediaProcess | videoTranscode | faceDetection | facialRecognition | smartSearch
  | personThumbnail | selfie | import | match | notification | storageCleanup | background
deriving DecidableEq, Repr

inductive WorkerRole
  | api | ingest | media
deriving DecidableEq, Repr

/-- Which process role consumes each queue. -/
def queueRoles : QueueName → WorkerRole
  | .mediaProcess | .videoTranscode | .faceDetection | .smartSearch | .personThumbnail
  | .selfie => .media
  | .facialRecognition | .import | .match | .notification | .storageCleanup
  | .background => .ingest

def queueNames : List QueueName :=
  [.mediaProcess, .videoTranscode, .faceDetection, .facialRecognition, .smartSearch,
    .personThumbnail, .selfie, .import, .match, .notification, .storageCleanup, .background]

/-- Every queue the GPU box is responsible for. -/
def gpuQueues : List QueueName := queueNames.filter (fun queue => queueRoles queue = .media)

inductive GpuProvider
  | webhook | jarvislabs
deriving DecidableEq, Repr

structure GpuAutostartConfig where
  enabled : Bool
  provider : GpuProvider
  pendingThreshold : ℤ
  maxPendingAgeMinutes : ℤ
  idleShutdownMinutes : ℤ
  startTimeoutMinutes : ℤ
  startWebhookUrl : String
  stopWebhookUrl : String
  webhookAuthHeader : String
  jarvislabsMachineId : String
  jarvislabsGpuType : String
deriving DecidableEq, Repr

def gpuAutostartDefaults : GpuAutostartConfig where
  enabled := false
  provider := .webhook
  pendingThreshold := 25
  maxPendingAgeMinutes := 120
  idleShutdownMinutes := 10
  startTimeoutMinutes := 20
  startWebhookUrl := ""
  stopWebhookUrl := ""
  webhookAuthHeader := ""
  jarvislabsMachineId := ""
  jarvislabsGpuType := ""

instance : Inhabited GpuAutostartConfig := ⟨gpuAutostartDefaults⟩

inductive GpuState
  | off | starting | running | stopping
deriving DecidableEq, Repr

/-- The word the audit messages use for a state. -/
def GpuState.name : GpuState → String
  | .off => "off"
  | .starting => "starting"
  | .running => "running"
  | .stopping => "stopping"

structure GpuLifecycleState where
  state : GpuState
  since : ℤ
  holdUntil : Option ℤ
  idleSince : Option ℤ
  lastStartedAt : Option ℤ
  lastStoppedAt : Option ℤ
  lastError : Option String
  machineId : Option String
deriving DecidableEq, Repr

def gpuLifecycleInitial : GpuLifecycleState where
  state := .off
  since := 0
  holdUntil := none
  idleSince := none
  lastStartedAt := none
  lastStoppedAt := none
  lastError := none
  machineId := none

instance : Inhabited GpuLifecycleState := ⟨gpuLifecycleInitial⟩

structure JobCounts where
  active : ℕ
  failed : ℕ
  delayed : ℕ
  waiting : ℕ
deriving DecidableEq, Repr, Inhabited

/-- What the job store reports about one queue: the depths, the enqueue time
of the oldest waiting job and the start time of the oldest active one. -/
structure QueueReading where
  counts : JobCounts
  oldestWaiting : Option ℤ
  oldestActive : Option ℤ
deriving DecidableEq, Repr, Inhabited

structure GpuQueueSummary where
  name : QueueName
  waiting : ℕ
  active : ℕ
  delayed : ℕ
  failed : ℕ
  oldestWaitingAgeSeconds : Option ℤ
  oldestActiveAgeSeconds : Option ℤ
  liveActive : ℕ
deriving DecidableEq, Repr

/-- The roles a process publishes with its host sample. -/
structure InstanceStatus where
  roles : List WorkerRole
deriving DecidableEq, Repr

structure JarvisLabsInstance where
  machineId : String
  status : Option String := none
deriving DecidableEq, Repr

structure InstanceCache where
  cachedAt : ℤ
  cached : Option JarvisLabsInstance
deriving DecidableEq, Repr

structure WebhookResponse where
  ok : Bool
  status : ℕ
  statusText : String
  detail : String
deriving DecidableEq, Repr

inductive AuditLevel
  | info | warning | error
deriving DecidableEq, Repr

inductive AuditAction
  | holdSet | holdCleared | hold | jobsStuck | stateReconciled | running | startTimeout
  | vanished | off | start | startFailed | startAdopted | instanceReassigned | stop | stopFailed
deriving DecidableEq, Repr

def AuditAction.name : AuditAction → String
  | .holdSet => "gpu.hold.set"
  | .holdCleared => "gpu.hold.cleared"
  | .hold => "gpu.hold"
  | .jobsStuck => "gpu.jobs.stuck"
  | .stateReconciled => "gpu.state.reconciled"
  | .running => "gpu.running"
  | .startTimeout => "gpu.start.timeout"
  | .vanished => "gpu.vanished"
  | .off => "gpu.off"
  | .start => "gpu.start"
  | .startFailed => "gpu.start.failed"
  | .startAdopted => "gpu.start.adopted"
  | .instanceReassigned => "gpu.instance.reassigned"
  | .stop => "gpu.stop"
  | .stopFailed => "gpu.stop.failed"

/-- An entry of the GPU category of the audit log. -/
structure AuditEntry where
  action : AuditAction
  level : AuditLevel := .info
  message : String
  userId : Option String := none
deriving DecidableEq, Repr

inductive JobStatus
  | success | failed | skipped
deriving DecidableEq, Repr

/-! Clock arithmetic. -/

def stuckActiveAfterMs : ℤ := 30 * 60_000
def providerCheckIntervalMs : ℤ := 10 * 60_000
def instanceCacheMs : ℤ := 20_000

def minutesMs (minutes : ℤ) : ℤ := minutes * 60_000

/-- `Math.round(x / n)`: the nearest integer, halves upwards. -/
def roundDiv (x n : ℤ) : ℤ := (2 * x + n) / (2 * n)

private def pad (width : ℕ) (n : ℕ) : String :=
  String.ofList ((Nat.toDigits 10 (10 ^ width + n)).drop 1)

/-- `toISOString` of an instant in the years 0 to 9999. -/
def toISOString (ms : ℤ) : String :=
  let days := ms / 86_400_000
  let rest := (ms % 86_400_000).toNat
  let z := days + 719_468
  let era := z / 146_097
  let doe := z % 146_097
  let yoe := (doe - doe / 1460 + doe / 36_524 - doe / 146_096) / 365
  let doy := doe - (365 * yoe + yoe / 4 - yoe / 100)
  let mp := (5 * doy + 2) / 153
  let day := doy - (153 * mp + 2) / 5 + 1
  let month := if mp < 10 then mp + 3 else mp - 9
  let year := yoe + era * 400 + (if month ≤ 2 then 1 else 0)
  let date := pad 4 year.toNat ++ "-" ++ pad 2 month.toNat ++ "-" ++ pad 2 day.toNat
  let time := pad 2 (rest / 3_600_000) ++ ":" ++ pad 2 (rest / 60_000 % 60) ++ ":" ++
    pad 2 (rest / 1000 % 60) ++ "." ++ pad 3 (rest % 1000)
  date ++ "T" ++ time ++ "Z"

/-- A hold is in force at `now`. -/
def holdInForce (holdUntil : Option ℤ) (now : ℤ) : Bool :=
  match holdUntil with
  | some t => decide (now < t)
  | none => false

/-- A stored string that JavaScript's `||` takes: present and not empty. -/
def truthy (text : Option String) : Option String := text.filter (fun t => t ≠ "")

end EventLens.Gpu

import Mathlib.Data.List.Basic

/-!
The upload queue of the web application and its panel. The queue outlives the
pages: each batch of files has workers of its own, while the list of items, the
count of duplicates and the timer that clears the panel are shared. The browser
runs one task at a time, and between two tasks every function whose `await` has
its answer, in the order of the answers.
-/

namespace EventLens.Panel

inductive UploadState
  | pending | hashing | uploading | done | duplicate | error
deriving DecidableEq, Repr

/-- What the page must not be left for. -/
def UploadState.active : UploadState → Bool
  | .pending | .hashing | .uploading => true
  | .done | .duplicate | .error => false

structure UploadItem where
  id : ℕ
  name : String
  state : UploadState
  progress : ℕ
  error : Option String := none
deriving DecidableEq, Repr

structure File where
  name : String
  type : String
deriving DecidableEq, Repr

structure AssetItem where
  id : String
  type : String
  status : String
  originalFilename : String
  capturedAt : Option String
  createdAt : ℕ
  width : Option ℕ
  height : Option ℕ
  thumbhash : Option String
  thumbUrl : Option String
  previewUrl : Option String
  facesDetectedAt : Option String
  faceCount : ℕ
deriving DecidableEq, Repr

inductive CheckAction
  | accept | reject
deriving DecidableEq, Repr

structure CheckResult where
  id : String
  action : CheckAction
  assetId : Option String := none
deriving DecidableEq, Repr

inductive UploadStatus
  | created | duplicate
deriving DecidableEq, Repr

structure UploadResult where
  id : String
  status : UploadStatus
deriving DecidableEq, Repr

def UPLOAD_CONCURRENCY : ℕ := 3

def DISMISS_AFTER_MS : ℕ := 4000

/-! The store. -/

/-- `fresh` is a map from events to the assets not yet handed over. -/
structure UploadStore where
  items : List UploadItem := []
  nextId : ℕ := 0
  dismissTimer : Option ℕ := none
  duplicates : ℕ := 0
  fresh : List (ℕ × List AssetItem) := []
deriving DecidableEq, Repr

namespace UploadStore

variable (s : UploadStore)

def hasActive : Bool := s.items.any fun item => item.state.active

def drop (id : ℕ) : UploadStore := { s with items := s.items.filter fun item => item.id ≠ id }

def dismiss : UploadStore := { s with items := [], duplicates := 0 }

def freshOf (eventId : ℕ) : List AssetItem :=
  ((s.fresh.find? fun entry => entry.1 = eventId).map Prod.snd).getD []

def takeFresh (eventId : ℕ) : UploadStore :=
  { s with fresh := s.fresh.filter fun entry => entry.1 ≠ eventId }

/-- Only the first item of this id, and none if it is gone. -/
def patch (id : ℕ) (changes : UploadItem → UploadItem) : UploadStore :=
  { s with items := s.items.modify (s.items.findIdx fun item => item.id = id) changes }

def addFresh (eventId : ℕ) (asset : AssetItem) : UploadStore :=
  { s with fresh := (eventId, asset :: s.freshOf eventId) :: (s.takeFresh eventId).fresh }

/-- Every item that is neither done, nor failed, nor a duplicate. -/
def remaining : ℕ := s.items.countP fun item => match item.state with
  | .done | .error | .duplicate => false
  | _ => true

/-- The panel shows its button only then. -/
def Dismissible : Prop := (s.items ≠ [] ∨ 0 < s.duplicates) ∧ s.remaining = 0

instance : Decidable s.Dismissible := by
  unfold Dismissible
  infer_instance

end UploadStore

/-! The batches. -/

/-- A worker waits for the answer about its file, has it and waits for its turn,
or has run out of files. -/
inductive Worker
  | hashing (current : ℕ)
  | checking (current : ℕ) (checksum : String)
  | uploading (current : ℕ)
  | resuming
  | returned
deriving DecidableEq, Repr

def Worker.current? : Worker → Option ℕ
  | .hashing current | .checking current _ | .uploading current => some current
  | .resuming | .returned => none

/-- A call of `enqueue`. The items of its files have consecutive ids; `resolved`
counts the workers that `Promise.all` has heard of; `begun` and `ended` are the
files that `uploadOne` was called with and returned for. -/
structure Batch where
  eventId : ℕ
  files : List File
  first : ℕ
  cursor : ℕ := 0
  workers : List Worker := []
  resolved : ℕ := 0
  settled : Bool := false
  begun : List ℕ := []
  ended : List ℕ := []
deriving DecidableEq, Repr

/-- What goes on once its promise is settled: a worker after `uploadOne`,
`Promise.all` after a worker, `enqueue` after `Promise.all`. -/
inductive Turn
  | resume (worker : ℕ)
  | element
  | settle
deriving DecidableEq, Repr

structure Microtask where
  batch : ℕ
  turn : Turn
deriving DecidableEq, Repr

structure Timer where
  id : ℕ
  due : ℕ
deriving DecidableEq, Repr

structure Tab where
  store : UploadStore := {}
  now : ℕ := 0
  timers : List Timer := []
  nextTimer : ℕ := 1
  batches : List Batch := []
  microtasks : List Microtask := []
deriving DecidableEq, Repr

namespace Tab

variable (t : Tab)

/-- A turn of a worker: it calls `uploadOne` with the next file, or returns. -/
def turn (k w : ℕ) (b : Batch) : Tab :=
  if b.cursor < b.files.length then
    { t with
      store := t.store.patch (b.first + b.cursor) fun item => { item with state := .hashing }
      batches := t.batches.set k { b with
        cursor := b.cursor + 1
        workers := b.workers.set w (.hashing b.cursor)
        begun := b.begun ++ [b.cursor] } }
  else
    { t with
      batches := t.batches.set k { b with workers := b.workers.set w .returned }
      microtasks := t.microtasks ++ [⟨k, .element⟩] }

/-- As many workers more, one after the other. -/
def startWorkers (k : ℕ) : ℕ → Tab → Tab
  | 0, t => t
  | n + 1, t =>
    match t.batches[k]? with
    | none => t
    | some b =>
      startWorkers k n (t.turn k b.workers.length { b with workers := b.workers ++ [.resuming] })

def clearTimer : Tab :=
  match t.store.dismissTimer with
  | none => t
  | some handle =>
    { t with
      store := { t.store with dismissTimer := none }
      timers := t.timers.filter fun timer => timer.id ≠ handle }

def newItems (firstId : ℕ) (files : List File) : List UploadItem :=
  files.mapIdx fun index file =>
    { id := firstId + index, name := file.name, state := .pending, progress := 0 }

def enqueue (eventId : ℕ) (files : List File) : Tab :=
  if files = [] then t
  else
    let t := t.clearTimer
    startWorkers t.batches.length (min UPLOAD_CONCURRENCY files.length)
      { t with
        store := { t.store with
          duplicates := 0
          nextId := t.store.nextId + files.length
          items := newItems t.store.nextId files ++ t.store.items }
        batches := t.batches ++ [{ eventId := eventId, files := files, first := t.store.nextId }] }

/-- `uploadOne` returns. -/
def finish (k w current : ℕ) (b : Batch) (store : UploadStore) : Tab :=
  { t with
    store := store
    batches :=
      t.batches.set k { b with workers := b.workers.set w .resuming, ended := b.ended ++ [current] }
    microtasks := t.microtasks ++ [⟨k, .resume w⟩] }

/-- `uploadOne` goes on to its next `await`. -/
def await (k w : ℕ) (b : Batch) (worker : Worker) (store : UploadStore) : Tab :=
  { t with store := store, batches := t.batches.set k { b with workers := b.workers.set w worker } }

def failed (id : ℕ) (message : String) : UploadStore :=
  t.store.patch id fun item => { item with state := .error, error := some message }

def foundDuplicate (id : ℕ) : UploadStore :=
  { t.store.drop id with duplicates := t.store.duplicates + 1 }

def freshAsset (file : File) (result : UploadResult) (thumbUrl : String) : AssetItem :=
  { id := result.id
    type := if file.type.startsWith "video/" then "video" else "image"
    status := "uploaded"
    originalFilename := file.name
    capturedAt := none
    createdAt := t.now
    width := none
    height := none
    thumbhash := none
    thumbUrl := some thumbUrl
    previewUrl := none
    facesDetectedAt := none
    faceCount := 0 }

/-- The store after a file the server accepted. -/
def accepted (eventId id : ℕ) (file : File) (result : UploadResult)
    (thumbUrl : Except String String) : UploadStore :=
  let store := t.store.patch id fun item => { item with state := .done, progress := 100 }
  match thumbUrl with
  | .ok url => store.addFresh eventId (t.freshAsset file result url)
  | .error message => store.patch id fun item =>
    { item with state := .error, error := some message }

/-- `Promise.all` after a worker. -/
def element (k : ℕ) (b : Batch) : Tab :=
  let t := { t with batches := t.batches.set k { b with resolved := b.resolved + 1 } }
  if b.resolved + 1 = b.workers.length then { t with microtasks :=
    t.microtasks ++ [⟨k, .settle⟩] } else t

/-- After `Promise.all`: the timer is set if every item is done. -/
def settle (k : ℕ) (b : Batch) : Tab :=
  let t := { t with batches := t.batches.set k { b with settled := true } }
  if t.store.items.all fun item => item.state = .done then
    { t with
      store := { t.store with dismissTimer := some t.nextTimer }
      timers := t.timers ++ [⟨t.nextTimer, t.now + DISMISS_AFTER_MS⟩]
      nextTimer := t.nextTimer + 1 }
  else t

/-- The first of the functions that wait for their turn. -/
def microtask : Option Tab :=
  match t.microtasks with
  | [] => none
  | ⟨k, turn⟩ :: rest =>
    let t := { t with microtasks := rest }
    (t.batches[k]?).map fun b =>
      match turn with
      | .resume w => t.turn k w b
      | .element => t.element k b
      | .settle => t.settle k b

/-- What a worker waits for, when the browser is between two tasks. -/
def waiting (k w : ℕ) : Option (Batch × Worker) :=
  if t.microtasks ≠ [] then none
  else (t.batches[k]?).bind fun b => (b.workers[w]?).map fun worker => (b, worker)

def hashed (k w : ℕ) (checksum : Except String String) : Option Tab :=
  match t.waiting k w with
  | some (b, .hashing current) =>
    match checksum with
    | .ok checksum => some (t.await k w b (.checking current checksum) t.store)
    | .error message => some (t.finish k w current b (t.failed (b.first + current) message))
  | _ => none

def checked (k w : ℕ) (answer : Except String (List CheckResult)) : Option Tab :=
  match t.waiting k w with
  | some (b, .checking current _) =>
    match answer with
    | .ok results =>
      if results.head?.map CheckResult.action = some .reject then
        some (t.finish k w current b (t.foundDuplicate (b.first + current)))
      else
        some (t.await k w b (.uploading current)
          (t.store.patch (b.first + current) fun item =>
            { item with state := .uploading, progress := 0 }))
    | .error message => some (t.finish k w current b (t.failed (b.first + current) message))
  | _ => none

def progressed (k w percent : ℕ) : Option Tab :=
  match t.waiting k w with
  | some (b, .uploading current) =>
    some { t with store :=
      t.store.patch (b.first + current) fun item => { item with progress := percent } }
  | _ => none

def uploaded (k w : ℕ) (answer : Except String UploadResult) (thumbUrl : Except String String) :
    Option Tab :=
  match t.waiting k w with
  | some (b, .uploading current) =>
    match answer with
    | .ok result =>
      if result.status = .duplicate then
        some (t.finish k w current b (t.foundDuplicate (b.first + current)))
      else
        (b.files[current]?).map fun file =>
          t.finish k w current b (t.accepted b.eventId (b.first + current) file result thumbUrl)
    | .error message => some (t.finish k w current b (t.failed (b.first + current) message))
  | _ => none

/-- A timer that is due calls `dismiss`. -/
def fire (id : ℕ) : Option Tab :=
  if t.microtasks = [] ∧ t.timers.any (fun timer => timer.id = id ∧ timer.due ≤ t.now) then
    some { t with store := t.store.dismiss, timers := t.timers.filter fun timer => timer.id ≠ id }
  else none

end Tab

/-- What can happen next: calls of the page, answers of the browser and the
server about the file of a worker, a function that waits for its turn, the
user's button, the clock and a timer. -/
inductive Step
  | enqueue (eventId : ℕ) (files : List File)
  | hashed (k w : ℕ) (checksum : Except String String)
  | checked (k w : ℕ) (answer : Except String (List CheckResult))
  | progressed (k w percent : ℕ)
  | uploaded (k w : ℕ) (answer : Except String UploadResult) (thumbUrl : Except String String)
  | microtask
  | dismiss
  | takeFresh (eventId : ℕ)
  | elapse (ms : ℕ)
  | fire (id : ℕ)

def step : Step → Tab → Option Tab
  | .enqueue eventId files, t => some (t.enqueue eventId files)
  | .hashed k w checksum, t => t.hashed k w checksum
  | .checked k w answer, t => t.checked k w answer
  | .progressed k w percent, t => t.progressed k w percent
  | .uploaded k w answer thumbUrl, t => t.uploaded k w answer thumbUrl
  | .microtask, t => t.microtask
  | .dismiss, t => if t.store.Dismissible then some { t with store := t.store.dismiss } else none
  | .takeFresh eventId, t => some { t with store := t.store.takeFresh eventId }
  | .elapse ms, t => some { t with now := t.now + ms }
  | .fire id, t => t.fire id

/-- The steps one after another. -/
def run : List Step → Tab → Option Tab
  | [], t => some t
  | a :: rest, t => (step a t).bind (run rest)

end EventLens.Panel

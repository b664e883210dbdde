import EventLens.KeysetWalks
import EventLens.MediaService

/-!
The backfill of embeddings: the assets of an event that are processed, page by
page, each queued for the model, or only those of them without an embedding.
-/

namespace EventLens.SmartSearch

open Programs
open Media (AssetRow AssetStatus JobStatus)

/-- The assets, and those of them with a row in `smart_search`. -/
structure SearchStore where
  assets : List AssetRow := []
  smartSearch : List ℕ := []
deriving DecidableEq, Repr

inductive SearchJob
  | smartSearch (assetId : ℕ)
deriving DecidableEq, Repr

namespace SearchStore

variable (s : SearchStore)

/-- The conditions of the query on an asset, but for the cursor. -/
def Processed (eventId : ℕ) (onlyMissing : Bool) (a : AssetRow) : Prop :=
  a.eventId = eventId ∧ a.deletedAt = none ∧ a.status = .processed ∧
    (onlyMissing = true → ¬ ∃ assetId ∈ s.smartSearch, assetId = a.id)

instance (eventId : ℕ) (onlyMissing : Bool) (a : AssetRow) :
    Decidable (s.Processed eventId onlyMissing a) := by
  unfold Processed
  infer_instance

def getProcessedAssetIds (eventId : ℕ) (onlyMissing : Bool) (limit : ℕ) (afterId : Option ℕ) :
    List ℕ :=
  (((s.assets.filter (fun a => s.Processed eventId onlyMissing a ∧ ∀ k ∈ afterId, k < a.id)).map
    fun a => a.id).insertionSort (· ≤ ·)).take limit

end SearchStore

inductive SearchError
  | unended
  | other (text : String)
deriving DecidableEq, Repr

inductive SearchOp
  | getProcessedAssetIds (eventId : ℕ) (onlyMissing : Bool) (limit : ℕ) (afterId : Option ℕ)
  | queueAll (items : List SearchJob)
deriving DecidableEq, Repr

abbrev SearchAnswer : SearchOp → Type
  | .getProcessedAssetIds _ _ _ _ => List ℕ
  | .queueAll _ => Unit

abbrev SearchRes (o : SearchOp) : Type := Except SearchError (SearchAnswer o)

abbrev SearchEvent := Event SearchOp SearchRes
abbrev Attempt := ExceptT SearchError (Prog SearchOp SearchRes)

def searchHandler : Handler SearchOp SearchRes SearchStore
  | _, .error e, s => (.error e, s)
  | .getProcessedAssetIds eventId onlyMissing limit afterId, .ok _, s =>
    (.ok (s.getProcessedAssetIds eventId onlyMissing limit afterId), s)
  | .queueAll _, .ok _, s => (.ok (), s)

def call (o : SearchOp) : Attempt (SearchAnswer o) := .mk (.perform o .done)

/-- The pages from a cursor on; an error where the pages allowed do not suffice. -/
def queuePagesBy (size eventId : ℕ) (force : Bool) : ℕ → Option ℕ → Attempt Unit :=
  KeysetWalks.walkPages (fun afterId => call (.getProcessedAssetIds eventId (!force) size afterId))
    (fun page => call (.queueAll (page.map fun id => .smartSearch id))) .unended

/-- `handleQueueAll` with pages of any size. -/
def handleQueueAllBy (size pages eventId : ℕ) (force : Bool) : Attempt JobStatus := do
  queuePagesBy size eventId force pages none
  pure .success

def QUEUE_ALL_PAGE_SIZE : ℕ := 1000

def handleQueueAll (pages eventId : ℕ) (force : Bool) : Attempt JobStatus :=
  handleQueueAllBy QUEUE_ALL_PAGE_SIZE pages eventId force

end EventLens.SmartSearch

import EventLens.AuthService
import EventLens.GalleryRecord
import EventLens.StorageKeys

/-!
The six routes of a participant's gallery. A gallery token is the credential:
its hash finds the participant, and the event must be there and not expired.
What is presigned is kept as the object's key. Rows that no order decides come
in the order of the table.
-/

namespace EventLens.Galleries

open Faces (AssetId FaceId PersonId ParticipantId AssetFace ParticipantMatch)
open Import (AssetType)

inductive GalleryError
  | notFound (text : String)
  | gone (eventName : String) (expiredAt : Option Date) (purged : Bool)
deriving DecidableEq, Repr

structure PresignedUrl where
  key : String
  expiresIn : ℕ
  filename : Option String := none
deriving DecidableEq, Repr

/-- An asset as a gallery shows it. -/
structure GalleryAsset where
  id : AssetId
  type : AssetType
  originalFilename : String
  capturedAt : Option Date
  createdAt : Date
  width : Option ℕ
  height : Option ℕ
  thumbhash : Option String
  thumbUrl : Option PresignedUrl
  previewUrl : Option PresignedUrl
deriving DecidableEq

/-- An asset as the listing of an event and the page of a person show it. -/
structure ListedAsset extends GalleryAsset where
  status : AssetStatus
  facesDetectedAt : Option Date
  faceCount : ℕ
deriving DecidableEq

structure FaceBox where
  id : FaceId
  personId : Option PersonId
  name : String
  x : ℚ
  y : ℚ
  width : ℚ
  height : ℚ
  isCover : Bool
deriving DecidableEq

structure GalleryEvent where
  id : EventId
  name : String
  startsAt : Option Date
  endsAt : Option Date
  showAllPhotos : Bool
  canDownloadAllPhotos : Bool
deriving DecidableEq

/-- A file of the streamed archive: its name and the object it is read from. -/
structure ZipEntry where
  name : String
  key : String
deriving DecidableEq

inductive Response
  | gallery (organization : Option String) (event : GalleryEvent) (status : ParticipantStatus)
      (name : String) (assets : List GalleryAsset)
  | listing (assets : List ListedAsset) (nextCursor : Option (Assets.Cursor ℕ))
  | faces (boxes : List FaceBox)
  | person (id : PersonId) (name : String) (assets : List ListedAsset)
  | redirect (url : PresignedUrl)
  | zip (filename : String) (entries : List ZipEntry)
deriving DecidableEq

def GALLERY_URL_TTL : ℕ := 3600
def DOWNLOAD_URL_TTL : ℕ := 900
def LIST_URL_TTL : ℕ := 3600
def URL_TTL : ℕ := 3600

namespace GalleryStore

variable (s : GalleryStore)

def fileKey (assetId : AssetId) (type : AssetFileType) : Option String :=
  (s.files.find? (fun f => f.assetId = assetId ∧ f.type = type)).map AssetFile.storageKey

/-- A presigned link to a derived file; an empty key counts as none. -/
def presigned (assetId : AssetId) (type : AssetFileType) (expiresIn : ℕ) : Option PresignedUrl :=
  ((s.fileKey assetId type).filter (fun key => key ≠ "")).map
    (fun key => { key := key, expiresIn := expiresIn })

def galleryAsset (expiresIn : ℕ) (a : Asset) : GalleryAsset :=
  { id := a.id
    type := a.type
    originalFilename := a.originalFilename
    capturedAt := a.capturedAt
    createdAt := a.createdAt
    width := a.width
    height := a.height
    thumbhash := a.thumbhash
    thumbUrl := s.presigned a.id .thumbnail expiresIn
    previewUrl := s.presigned a.id .preview expiresIn }

def listedAsset (expiresIn : ℕ) (a : Asset) : ListedAsset :=
  { s.galleryAsset expiresIn a with
    status := a.status
    facesDetectedAt := a.facesDetectedAt
    faceCount := a.faceCount }

/-- Undated assets first. -/
def capturedLater (a b : Asset) : Prop :=
  match a.capturedAt, b.capturedAt with
  | none, _ => True
  | some _, none => False
  | some t, some u => u ≤ t

instance (a b : Asset) : Decidable (capturedLater a b) := by
  unfold capturedLater
  split <;> infer_instance

/-- `ParticipantRepository.getMatchedAssets`. -/
def getMatchedAssets (participantId : ParticipantId) : List Asset :=
  ((s.matchRows.filter (fun m => m.participantId = participantId)).flatMap (fun m =>
    s.assets.filter (fun a => a.id = m.assetId ∧ a.deletedAt = none))).insertionSort capturedLater

/-- `AssetService.list`: the page of the listing, with the rows it is read from. -/
def list (eventId : EventId) (limit : ℕ) (cursor : Option (Assets.Cursor ℕ)) : Response :=
  let page := Assets.AssetService.list (s.assets.map Asset.toAsset) eventId limit cursor none
  .listing
    (page.rows.flatMap (fun row =>
      (s.assets.filter (fun a => a.toAsset = row)).map (s.listedAsset LIST_URL_TTL)))
    page.next

/-- Photos of one person, of this event and live. -/
def getAssetIdsOfPerson (eventId : EventId) (personId : PersonId) : List AssetId :=
  ((s.faces.filter (fun f => f.personId = some personId ∧ f.deleted = false ∧
    s.assets.any (fun a => a.id = f.assetId ∧ a.eventId = eventId ∧ a.deletedAt = none))).map
      AssetFace.assetId).dedup

/-- `PersonService.getAssets`: newest first. -/
def getAssets (eventId : EventId) (personId : PersonId) : Except GalleryError (List ListedAsset) :=
  match s.getPerson eventId personId with
  | none => .error (.notFound "Person not found")
  | some _ =>
    .ok ((((s.getAssetIdsOfPerson eventId personId).filterMap (s.getAsset eventId)).map
      (s.listedAsset URL_TTL)).insertionSort
        (fun a b => b.capturedAt.getD b.createdAt ≤ a.capturedAt.getD a.createdAt))

/-- The live participants who matched through a face, the named ones first, and
the nearest first. -/
def claimants (faceId : FaceId) : List (Participant × ℚ) :=
  ((s.matchRows.filter (fun m => m.viaFaceId = some faceId)).flatMap (fun m =>
    (s.participants.filter (fun p => p.id = m.participantId ∧ p.deletedAt = none)).map
      (fun p => (p, m.distance)))).insertionSort
    (fun a b => b.1.name = "" ∧ a.1.name ≠ "" ∨ (b.1.name = "" ↔ a.1.name = "") ∧ a.2 ≤ b.2)

/-- The live faces of an asset, each with its person and the name of a
participant who matched through it. -/
def getFaces (assetId : AssetId) : List (AssetFace × Option Person × Option String) :=
  ((s.faces.filter (fun f => f.assetId = assetId ∧ f.deleted = false)).insertionSort
    (fun f g => f.id ≤ g.id)).map
    (fun f => (f, f.personId.bind s.person, (s.claimants f.id).head?.map (fun c => c.1.name)))

end GalleryStore

/-! Face boxes. -/

def clamp01 (value : ℚ) : ℚ := min (max value 0) 1

/-- A fraction of the image; a size of zero counts as one. -/
def fraction (coordinate : ℤ) (size : ℕ) : ℚ :=
    clamp01 (coordinate / (if size = 0 then 1 else size : ℕ))

def trimmed (name : Option String) : String :=
  String.ofList (Auth.trim (name.getD "").toList)

def faceBox (f : AssetFace) (person : Option Person) (participantName : Option String) : FaceBox :=
  let x1 := fraction f.boundingBox.x1 f.imageWidth
  let y1 := fraction f.boundingBox.y1 f.imageHeight
  let x2 := fraction f.boundingBox.x2 f.imageWidth
  let y2 := fraction f.boundingBox.y2 f.imageHeight
  let personName := trimmed (person.map Person.name)
  { id := f.id
    personId := f.personId
    name := if personName = "" then trimmed participantName else personName
    x := x1
    y := y1
    width := max 0 (x2 - x1)
    height := max 0 (y2 - y1)
    isCover := (person.bind Person.faceAssetFaceId) = some f.id }

/-- Hidden people stay hidden, and so do boxes of no extent. -/
def toFaceBoxes (rows : List (AssetFace × Option Person × Option String)) : List FaceBox :=
  ((rows.filter (fun row => ¬ row.2.1.any Person.isHidden)).map
    (fun row => faceBox row.1 row.2.1 row.2.2)).filter (fun box => 0 < box.width ∧ 0 < box.height)

/-! The names of an archive. -/

/-- A counter in front of the extension, or at the end. -/
def numbered (filename : String) (counter : ℕ) : String :=
  let behind := filename.toList.reverse.takeWhile (fun c => c ≠ '.')
  let stem := (filename.toList.reverse.drop (behind.length + 1)).reverse
  if stem = [] then filename ++ " (" ++ toString counter ++ ")"
  else String.ofList stem ++ " (" ++ toString counter ++ ")" ++
    String.ofList ('.' :: behind.reverse)

/-- The first of these names that is not used. -/
def unusedName (filename : String) (used : List String) : ℕ → ℕ → String → String
  | 0, _, name => name
  | fuel + 1, counter, name =>
    if name ∈ used then unusedName filename used fuel (counter + 1)
      (numbered filename counter) else name

/-- One name more than there are used ones suffices. -/
def entryName (filename : String) (used : List String) : String :=
  unusedName filename used (used.length + 1) 2 filename

def appendEntry (entries : List ZipEntry) (full : Asset) : List ZipEntry :=
  entries ++
    [{ name := entryName full.originalFilename (entries.map ZipEntry.name), key :=
      full.storageKey }]

/-- Letters, digits, underscores, hyphens and blanks. -/
def safeName (name : String) : String :=
  let kept := Auth.trim (name.toList.filter (fun c =>
    ('a' ≤ c ∧ c ≤ 'z') ∨ ('A' ≤ c ∧ c ≤ 'Z') ∨ ('0' ≤ c ∧ c ≤ '9') ∨ c = '_' ∨ c = '-' ∨ c = ' '))
  if kept = [] then "photos" else String.ofList kept

theorem numbered_injective (filename : String) {i j : ℕ}
    (h : numbered filename i = numbered filename j) :
    i = j := by
  simp only [numbered] at h
  split at h
  · have hlist := congrArg String.toList h
    simp only [String.toList_append, List.append_assoc, List.append_cancel_left_eq,
      List.append_cancel_right_eq] at hlist
    exact Import.toString_injective (String.toList_injective hlist)
  · have hlist := congrArg String.toList h
    simp only [String.toList_append, List.append_assoc, List.append_cancel_left_eq,
      List.append_cancel_right_eq] at hlist
    exact Import.toString_injective (String.toList_injective hlist)

theorem numbered_ne (filename : String) (counter : ℕ) : filename ≠ numbered filename counter := by
  intro h
  have hlength := congrArg (fun name => name.toList.length) h
  simp only [numbered] at hlength
  split at hlength
  · simp only [String.toList_append, List.length_append] at hlength
    have hblank : " (".toList.length = 2 := rfl
    omega
  · rename_i hstem
    have hcut := (List.takeWhile_sublist (l := filename.toList.reverse)
      (fun c => decide (c ≠ '.'))).length_le
    simp only [String.toList_append, List.length_append, String.toList_ofList, List.length_reverse,
      List.length_drop, List.length_cons] at hlength hcut
    have hblank : " (".toList.length = 2 := rfl
    have hstemLength := List.length_pos_of_ne_nil hstem
    simp only [List.length_reverse, List.length_drop] at hstemLength
    omega

/-- The names tried, in turn. -/
def tried (filename : String) : ℕ → ℕ → String → List String
  | 0, _, _ => []
  | fuel + 1, counter, name => name :: tried filename fuel (counter + 1) (numbered filename counter)

theorem tried_eq (filename : String) (fuel counter : ℕ) (name : String) :
    tried filename (fuel + 1) counter name =
      name :: (List.range' counter fuel).map (numbered filename) := by
  induction fuel generalizing counter name with
  | zero => rfl
  | succ fuel ih =>
    rw [tried, ih, List.range'_succ, List.map_cons]

theorem unusedName_free (filename : String) {used : List String} {fuel counter : ℕ} {name : String}
    (h : ¬ tried filename fuel counter name ⊆ used) :
    unusedName filename used fuel counter name ∉ used := by
  induction fuel generalizing counter name with
  | zero => exact absurd (List.nil_subset _) h
  | succ fuel ih =>
    rw [unusedName]
    split
    · rename_i hused
      exact ih fun hrest => h (List.cons_subset.mpr ⟨hused, hrest⟩)
    · assumption

theorem entryName_free (filename : String) (used : List String) :
    entryName filename used ∉ used := by
  refine unusedName_free filename fun hall => ?_
  rw [tried_eq] at hall
  have hnodup : (filename :: (List.range' 2 used.length).map (numbered filename)).Nodup := by
    refine List.nodup_cons.mpr ⟨fun hmem => ?_, ?_⟩
    · obtain ⟨counter, -, heq⟩ := List.mem_map.mp hmem
      exact numbered_ne filename counter heq.symm
    · exact (List.nodup_range' 1).map fun i j h => numbered_injective filename h
  have hlength := (List.subperm_of_subset hnodup hall).length_le
  rw [List.length_cons, List.length_map, List.length_range'] at hlength
  omega

/-! The routes. -/

namespace PublicService

variable (hashSha256 : String → Digest) (s : GalleryStore)

def resolveGallery (token : String) : Except GalleryError (Participant × EventRow) :=
  match s.getByTokenHash (hashSha256 token) with
  | none => .error (.notFound "Gallery not found")
  | some participant =>
    match s.getEvent participant.eventId with
    | none => .error (.notFound "Gallery not found")
    | some event =>
      if isEventExpired event s.clock then
        .error (.gone event.name event.expiresAt (isEventPurged event))
      else .ok (participant, event)

/-- What an opened gallery writes into its participant. -/
def opened (participant : Participant) : UpdateParticipant :=
  { galleryOpenedAt := if participant.galleryOpenedAt = none then some s.clock else none
    awaitingResultNotice :=
      if (participant.status = .processing ∨ participant.status = .pendingMatch) ∧
          participant.awaitingResultNotice = false then some true
      else none }

def getGallery (token : String) : Except GalleryError (Response × GalleryStore) := do
  let (participant, event) ← resolveGallery hashSha256 s token
  let assets := (s.getMatchedAssets participant.id).map (s.galleryAsset GALLERY_URL_TTL)
  let shown : GalleryEvent :=
    { id := event.id
      name := event.name
      startsAt := event.startsAt
      endsAt := event.endsAt
      showAllPhotos := event.participantsSeeAllPhotos
      canDownloadAllPhotos := event.participantsSeeAllPhotos && event.participantsCanDownloadAll }
  pure (.gallery ((s.organization event.orgId).map Organization.name) shown participant.status
      participant.name assets,
    s.updateParticipant participant.id (opened s participant))

def getEventGallery (token : String) (limit : ℕ) (cursor : Option (Assets.Cursor ℕ)) :
    Except GalleryError Response := do
  let (_, event) ← resolveGallery hashSha256 s token
  if event.participantsSeeAllPhotos = false then throw (.notFound "Event photos are not shared")
  else pure (s.list event.id limit cursor)

/-- The one check of both helpers: a match, or a toggle and a live asset. -/
def assertShared (participantId : ParticipantId) (event : EventRow) (shared : Bool)
    (assetId : AssetId) : Except GalleryError Unit :=
  if s.isMatchedAsset participantId assetId then .ok ()
  else if shared = false then .error (.notFound "Asset not found")
  else match s.getAsset event.id assetId with
    | none => .error (.notFound "Asset not found")
    | some _ => .ok ()

def assertViewable (participantId : ParticipantId) (event : EventRow) (assetId : AssetId) :
    Except GalleryError Unit :=
  assertShared s participantId event event.participantsSeeAllPhotos assetId

def assertDownloadable (participantId : ParticipantId) (event : EventRow) (assetId : AssetId) :
    Except GalleryError Unit :=
  assertShared s participantId event
    (event.participantsSeeAllPhotos && event.participantsCanDownloadAll) assetId

def getGalleryAssetFaces (token : String) (assetId : AssetId) : Except GalleryError Response := do
  let (participant, event) ← resolveGallery hashSha256 s token
  assertViewable s participant.id event assetId
  pure (.faces (toFaceBoxes (s.getFaces assetId)))

def getPersonGallery (token : String) (personId : PersonId) : Except GalleryError Response := do
  let (_, event) ← resolveGallery hashSha256 s token
  if event.participantsSeeAllPhotos = false then throw (.notFound "Event photos are not shared")
  else match s.getPerson event.id personId with
    | none => throw (.notFound "Person not found")
    | some person =>
      if person.isHidden then throw (.notFound "Person not found")
      else do
        let assets ← s.getAssets event.id personId
        pure (.person person.id person.name assets)

def getGalleryDownloadUrl (token : String) (assetId : AssetId) : Except GalleryError Response := do
  let (participant, event) ← resolveGallery hashSha256 s token
  assertDownloadable s participant.id event assetId
  match s.getAsset participant.eventId assetId with
  | none => throw (.notFound "Asset not found")
  | some asset =>
    pure (.redirect
      { key := asset.storageKey, expiresIn := DOWNLOAD_URL_TTL, filename :=
        some asset.originalFilename })

/-- An empty selection counts as none. -/
def streamGalleryZip (token : String) (assetIds : Option (List AssetId)) :
    Except GalleryError Response := do
  let (participant, event) ← resolveGallery hashSha256 s token
  let selection := assetIds.getD []
  selection.forM (assertDownloadable s participant.id event)
  let ids :=
    if selection ≠ [] then selection else (s.getMatchedAssets participant.id).map (fun a => a.id)
  if ids = [] then throw (.notFound "No photos to download yet")
  else
    pure (.zip (safeName event.name ++ ".zip")
      ((ids.filterMap (s.getAsset participant.eventId)).foldl appendEntry []))

end PublicService

inductive GalleryRequest
  | getGallery (token : String)
  | getEventGallery (token : String) (limit : ℕ) (cursor : Option (Assets.Cursor ℕ))
  | getGalleryAssetFaces (token : String) (assetId : AssetId)
  | getPersonGallery (token : String) (personId : PersonId)
  | getGalleryDownloadUrl (token : String) (assetId : AssetId)
  | streamGalleryZip (token : String) (assetIds : Option (List AssetId))
deriving DecidableEq

def GalleryRequest.token : GalleryRequest → String
  | .getGallery token | .getEventGallery token _ _ | .getGalleryAssetFaces token _
  | .getPersonGallery token _ | .getGalleryDownloadUrl token _ | .streamGalleryZip token _ => token

def GalleryRequest.answer (hashSha256 : String → Digest) (s : GalleryStore) :
    GalleryRequest → Except GalleryError Response
  | .getGallery token => (PublicService.getGallery hashSha256 s token).map Prod.fst
  | .getEventGallery token limit cursor =>
    PublicService.getEventGallery hashSha256 s token limit cursor
  | .getGalleryAssetFaces token assetId =>
    PublicService.getGalleryAssetFaces hashSha256 s token assetId
  | .getPersonGallery token personId => PublicService.getPersonGallery hashSha256 s token personId
  | .getGalleryDownloadUrl token assetId =>
    PublicService.getGalleryDownloadUrl hashSha256 s token assetId
  | .streamGalleryZip token assetIds => PublicService.streamGalleryZip hashSha256 s token assetIds

end EventLens.Galleries

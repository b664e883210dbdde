import EventLens.MediaRecord
import EventLens.PrefixCodes
import EventLens.StorageKeys

/-!
The keys of the objects, as texts. A key is read in one way only, because an id
has a fixed length: its kind, its ids and what follows them can be told from
it, and it begins with the prefix of its own event and organisation alone.
-/

namespace EventLens.Bucket

open Import (originalKey)
open Media (Folder)
open PrefixCodes

def isHexDigit (c : Char) : Bool := c.isDigit || ('a' ≤ c && c ≤ 'f') || ('A' ≤ c && c ≤ 'F')

/-- Eight, four, four, four and twelve hexadecimal digits with dashes in between. -/
def isUuid (text : String) : Bool :=
  text.length = 36 ∧ ∀ p ∈ text.toList.zipIdx,
    if p.2 ∈ [8, 13, 18, 23] then p.1 = '-' else isHexDigit p.1

structure Uuid where
  text : String
  formed : isUuid text = true
deriving DecidableEq, Repr

namespace StorageKeys

def original (orgId eventId assetId ext : String) : String := originalKey orgId eventId assetId ext

def preview (orgId eventId assetId : String) : String :=
    s!"org/{orgId}/event/{eventId}/preview/{assetId}.jpeg"

def thumb (orgId eventId assetId : String) : String :=
    s!"org/{orgId}/event/{eventId}/thumb/{assetId}.webp"

def video (orgId eventId assetId : String) : String :=
    s!"org/{orgId}/event/{eventId}/video/{assetId}.mp4"

def person (orgId eventId personId : String) : String :=
    s!"org/{orgId}/event/{eventId}/person/{personId}.jpeg"

/-- The first selfie has no number in its key. -/
def selfie (orgId eventId participantId : String) (index : ℕ) : String :=
  if index = 0 then s!"org/{orgId}/event/{eventId}/selfie/{participantId}.jpg"
  else s!"org/{orgId}/event/{eventId}/selfie/{participantId}-{index}.jpg"

def eventPrefix (orgId eventId : String) : String := s!"org/{orgId}/event/{eventId}/"

def orgPrefix (orgId : String) : String := s!"org/{orgId}/"

end StorageKeys

/-- What a key is built from. -/
inductive ObjectName
  | original (orgId eventId assetId : Uuid) (ext : String)
  | preview (orgId eventId assetId : Uuid)
  | thumb (orgId eventId assetId : Uuid)
  | video (orgId eventId assetId : Uuid)
  | person (orgId eventId personId : Uuid)
  | selfie (orgId eventId participantId : Uuid) (index : ℕ)
deriving DecidableEq, Repr

namespace ObjectName

def key : ObjectName → String
  | original orgId eventId assetId ext =>
    StorageKeys.original orgId.text eventId.text assetId.text ext
  | preview orgId eventId assetId => StorageKeys.preview orgId.text eventId.text assetId.text
  | thumb orgId eventId assetId => StorageKeys.thumb orgId.text eventId.text assetId.text
  | video orgId eventId assetId => StorageKeys.video orgId.text eventId.text assetId.text
  | person orgId eventId personId => StorageKeys.person orgId.text eventId.text personId.text
  | selfie orgId eventId participantId index =>
    StorageKeys.selfie orgId.text eventId.text participantId.text index

def orgId : ObjectName → Uuid
  | original orgId _ _ _ | preview orgId _ _ | thumb orgId _ _ | video orgId _ _ | person orgId _ _
  | selfie orgId _ _ _ => orgId

def eventId : ObjectName → Uuid
  | original _ eventId _ _ | preview _ eventId _ | thumb _ eventId _ | video _ eventId _
  | person _ eventId _ | selfie _ eventId _ _ => eventId

/-- The id of the asset, the person or the participant. -/
def id : ObjectName → Uuid
  | original _ _ id _ | preview _ _ id | thumb _ _ id | video _ _ id | person _ _ id
  | selfie _ _ id _ => id

def folder : ObjectName → Folder
  | original .. => .original
  | preview .. => .preview
  | thumb .. => .thumb
  | video .. => .video
  | person .. => .person
  | selfie .. => .selfie

/-- What follows the id. -/
def suffix : ObjectName → String
  | original _ _ _ ext => ext
  | preview .. => ".jpeg"
  | thumb .. => ".webp"
  | video .. => ".mp4"
  | person .. => ".jpeg"
  | selfie _ _ _ index => if index = 0 then ".jpg" else s!"-{index}.jpg"

end ObjectName

/-- Everything that `StorageKeys` builds. -/
inductive Built
  | object (name : ObjectName)
  | eventPrefix (orgId eventId : Uuid)
  | orgPrefix (orgId : Uuid)
deriving DecidableEq, Repr

def Built.text : Built → String
  | object name => name.key
  | eventPrefix orgId eventId => StorageKeys.eventPrefix orgId.text eventId.text
  | orgPrefix orgId => StorageKeys.orgPrefix orgId.text

def startsWith (key pfx : String) : Prop := pfx.toList <+: key.toList

instance (key pfx : String) : Decidable (startsWith key pfx) :=
    inferInstanceAs (Decidable (_ <+: _))

/-! How the texts are put together. -/

def folderText : Folder → String
  | .original => "original/"
  | .person => "person/"
  | .preview => "preview/"
  | .selfie => "selfie/"
  | .thumb => "thumb/"
  | .video => "video/"

theorem uuid_prefixFree : PrefixFree (fun id : Uuid => id.text.toList) := by
  refine prefixFree_of_length (n := 36) (fun id => ?_) (fun a b h => ?_)
  · have hformed := of_decide_eq_true id.formed
    rw [String.length_toList]
    exact hformed.1
  · cases a
    cases b
    obtain rfl := String.toList_injective h
    rfl

theorem folder_prefixFree : PrefixFree (fun folder => (folderText folder).toList) := by
  intro a b
  cases a <;> cases b <;> decide

theorem orgPrefix_toList (orgId : Uuid) : (StorageKeys.orgPrefix orgId.text).toList =
    "org/".toList ++ orgId.text.toList ++ "/".toList := by
  simp only [StorageKeys.orgPrefix, String.toList_append, toString]

theorem eventPrefix_toList (orgId eventId : Uuid) :
    (StorageKeys.eventPrefix orgId.text eventId.text).toList =
      (StorageKeys.orgPrefix orgId.text).toList ++
      ("event/".toList ++ eventId.text.toList ++ "/".toList) := by
  simp only [StorageKeys.eventPrefix, StorageKeys.orgPrefix, String.toList_append, toString]
  simp

theorem key_toList (name : ObjectName) : name.key.toList =
    (StorageKeys.eventPrefix name.orgId.text name.eventId.text).toList ++
      ((folderText name.folder).toList ++ (name.id.text.toList ++ name.suffix.toList)) := by
  cases name with
  | selfie orgId eventId participantId index =>
    by_cases hindex : index = 0
    · simp [ObjectName.key, ObjectName.orgId, ObjectName.eventId, ObjectName.id, ObjectName.folder,
        ObjectName.suffix, StorageKeys.selfie, StorageKeys.eventPrefix, folderText, hindex,
          toString]
    · simp [ObjectName.key, ObjectName.orgId, ObjectName.eventId, ObjectName.id, ObjectName.folder,
        ObjectName.suffix, StorageKeys.selfie, StorageKeys.eventPrefix, folderText, hindex,
          toString]
  | _ =>
    simp [ObjectName.key, ObjectName.orgId, ObjectName.eventId, ObjectName.id, ObjectName.folder,
      ObjectName.suffix, StorageKeys.original, originalKey, StorageKeys.preview, StorageKeys.thumb,
      StorageKeys.video, StorageKeys.person, StorageKeys.eventPrefix, folderText, toString]

theorem orgPrefix_prefixFree :
    PrefixFree (fun orgId : Uuid => (StorageKeys.orgPrefix orgId.text).toList) := by
  rw [funext orgPrefix_toList]
  exact (uuid_prefixFree.after _).before _

theorem eventPrefix_prefixFree :
    PrefixFree (fun p : Uuid × Uuid => (StorageKeys.eventPrefix p.1.text p.2.text).toList) := by
  rw [funext fun p : Uuid × Uuid => eventPrefix_toList p.1 p.2]
  exact orgPrefix_prefixFree.append ((uuid_prefixFree.after _).before _)

/-! What a key begins with. -/

theorem key_startsWith_eventPrefix (name : ObjectName) (orgId eventId : Uuid) :
    startsWith name.key (StorageKeys.eventPrefix orgId.text eventId.text) ↔
      name.orgId = orgId ∧ name.eventId = eventId := by
  rw [startsWith, key_toList]
  have hread :=
    eventPrefix_prefixFree.prefix_append_iff (a := (orgId, eventId)) (b :=
    (name.orgId, name.eventId))
    (t := (folderText name.folder).toList ++ (name.id.text.toList ++ name.suffix.toList))
  rw [hread, Prod.mk.injEq]
  exact and_congr eq_comm eq_comm

theorem eventPrefix_startsWith_orgPrefix (orgId eventId orgId' : Uuid) :
    startsWith (StorageKeys.eventPrefix orgId.text eventId.text)
    (StorageKeys.orgPrefix orgId'.text) ↔
      orgId = orgId' := by
  rw [startsWith, eventPrefix_toList, orgPrefix_prefixFree.prefix_append_iff]
  exact eq_comm

theorem key_startsWith_orgPrefix (name : ObjectName) (orgId : Uuid) :
    startsWith name.key (StorageKeys.orgPrefix orgId.text) ↔ name.orgId = orgId := by
  rw [startsWith, key_toList, eventPrefix_toList, List.append_assoc,
    orgPrefix_prefixFree.prefix_append_iff]
  exact eq_comm

/-! What a key is built from. -/

theorem selfieSuffix_injective {orgId eventId id orgId' eventId' id' : Uuid} {index index' : ℕ}
    (h : (ObjectName.selfie orgId eventId id index).suffix =
      (ObjectName.selfie orgId' eventId' id' index').suffix) : index = index' := by
  have hlist := congrArg String.toList h
  by_cases hfirst : index = 0 <;> by_cases hfirst' : index' = 0
  · rw [hfirst, hfirst']
  · simp [ObjectName.suffix, hfirst, hfirst', toString] at hlist
  · simp [ObjectName.suffix, hfirst, hfirst', toString] at hlist
  · simp only [ObjectName.suffix, hfirst, hfirst', if_false, String.toList_append] at hlist
    have hnumber := List.append_cancel_left (List.append_cancel_right hlist)
    exact Import.toString_injective (String.toList_injective hnumber)

theorem key_injective : Function.Injective ObjectName.key := by
  intro name name' h
  have hlist := congrArg String.toList h
  rw [key_toList, key_toList] at hlist
  obtain ⟨hevent, hrest⟩ := eventPrefix_prefixFree.split (a := (name.orgId, name.eventId))
    (b := (name'.orgId, name'.eventId)) hlist
  obtain ⟨hfolder, hrest⟩ := folder_prefixFree.split hrest
  obtain ⟨hid, hsuffix⟩ := uuid_prefixFree.split hrest
  obtain ⟨horg, hevent⟩ := Prod.mk.inj hevent
  have hsuffix := String.toList_injective hsuffix
  cases name with
  | original orgId eventId assetId ext =>
    cases name' <;> cases hfolder
    cases horg
    cases hevent
    cases hid
    cases hsuffix
    rfl
  | selfie orgId eventId participantId index =>
    cases name' <;> cases hfolder
    cases horg
    cases hevent
    cases hid
    rw [selfieSuffix_injective hsuffix]
  | _ =>
    cases name' <;> cases hfolder
    cases horg
    cases hevent
    cases hid
    rfl

/-- No two of them are built alike. -/
theorem text_injective : Function.Injective Built.text := by
  have hkey : ∀ (name : ObjectName) (orgId eventId : Uuid),
      name.key ≠ StorageKeys.eventPrefix orgId.text eventId.text := by
    intro name orgId eventId h
    obtain ⟨rfl, rfl⟩ := (key_startsWith_eventPrefix name orgId eventId).mp (h ▸ List.prefix_refl _)
    have hlist := congrArg String.toList h
    rw [key_toList, List.append_right_eq_self] at hlist
    revert hlist
    cases name.folder <;> simp [folderText]
  have hevent : ∀ orgId eventId orgId' : Uuid,
      StorageKeys.eventPrefix orgId.text eventId.text ≠ StorageKeys.orgPrefix orgId'.text := by
    intro orgId eventId orgId' h
    obtain rfl :=
      (eventPrefix_startsWith_orgPrefix orgId eventId orgId').mp (h ▸ List.prefix_refl _)
    have hlist := congrArg String.toList h
    rw [eventPrefix_toList, List.append_right_eq_self] at hlist
    simp at hlist
  have horg :
    ∀ (name : ObjectName) (orgId : Uuid), name.key ≠ StorageKeys.orgPrefix orgId.text := by
    intro name orgId h
    obtain rfl := (key_startsWith_orgPrefix name orgId).mp (h ▸ List.prefix_refl _)
    have hlist := congrArg String.toList h
    rw [key_toList, eventPrefix_toList, List.append_assoc, List.append_right_eq_self] at hlist
    simp at hlist
  intro a b h
  cases a with
  | object name =>
    cases b with
    | object name' => rw [key_injective h]
    | eventPrefix orgId eventId => exact absurd h (hkey name orgId eventId)
    | orgPrefix orgId => exact absurd h (horg name orgId)
  | eventPrefix orgId eventId =>
    cases b with
    | object name => exact absurd h.symm (hkey name orgId eventId)
    | eventPrefix orgId' eventId' =>
      have hpair : (orgId, eventId) = (orgId', eventId') :=
        eventPrefix_prefixFree.injective (congrArg String.toList h)
      obtain ⟨rfl, rfl⟩ := Prod.mk.inj hpair
      rfl
    | orgPrefix orgId' => exact absurd h (hevent orgId eventId orgId')
  | orgPrefix orgId =>
    cases b with
    | object name => exact absurd h.symm (horg name orgId)
    | eventPrefix orgId' eventId => exact absurd h.symm (hevent orgId' eventId orgId)
    | orgPrefix orgId' => rw [orgPrefix_prefixFree.injective (congrArg String.toList h)]

/-! The keys of the media tables, where ids are numbers that stand for UUIDs. -/

def nameOf (uuid : ℕ → Uuid) (key : Media.StorageKey) : ObjectName :=
  match key.folder with
  | .original => .original (uuid key.orgId) (uuid key.eventId) (uuid key.id) key.ext
  | .preview => .preview (uuid key.orgId) (uuid key.eventId) (uuid key.id)
  | .thumb => .thumb (uuid key.orgId) (uuid key.eventId) (uuid key.id)
  | .video => .video (uuid key.orgId) (uuid key.eventId) (uuid key.id)
  | .person => .person (uuid key.orgId) (uuid key.eventId) (uuid key.id)
  | .selfie => .selfie (uuid key.orgId) (uuid key.eventId) (uuid key.id) key.index

theorem nameOf_owner (uuid : ℕ → Uuid) (key : Media.StorageKey) :
    (nameOf uuid key).orgId = uuid key.orgId ∧ (nameOf uuid key).eventId = uuid key.eventId := by
  unfold nameOf
  cases key.folder <;> exact ⟨rfl, rfl⟩

/-- A key is under an event there just if its text begins with the event's prefix. -/
theorem under_iff_startsWith {uuid : ℕ → Uuid} {ids : Set ℕ} (huuid : Set.InjOn uuid ids)
    {key : Media.StorageKey}
    {p : Media.EventPrefix} (horg : key.orgId ∈ ids ∧ p.orgId ∈ ids)
    (hevent : key.eventId ∈ ids ∧ p.eventId ∈ ids) :
    key.under p = true ↔ startsWith (nameOf uuid key).key
      (StorageKeys.eventPrefix (uuid p.orgId).text (uuid p.eventId).text) := by
  obtain ⟨hsameOrg, hsameEvent⟩ := nameOf_owner uuid key
  rw [key_startsWith_eventPrefix, hsameOrg, hsameEvent, huuid.eq_iff horg.1 horg.2,
    huuid.eq_iff hevent.1 hevent.2]
  exact decide_eq_true_iff

end EventLens.Bucket

import EventLens.GalleryLinks
import EventLens.GalleryService

/-!
What a gallery shows. An answer exposes assets, objects and faces; each of them
should belong to a live asset of the participant's event that is matched to the
participant or shared with all. Five of the routes keep to this. The faces of a
matched asset are shown without a look at the asset itself, so they outlive it.
-/

namespace EventLens.Galleries

open Faces (AssetId FaceId PersonId ParticipantId AssetFace ParticipantMatch)

/-- Something an answer lets its reader see. -/
inductive Item
  | asset (id : AssetId)
  | object (key : String)
  | face (id : FaceId)
deriving DecidableEq, Repr

def urlItems (url : Option PresignedUrl) : List Item := url.toList.map (fun u => .object u.key)

def GalleryAsset.items (a : GalleryAsset) : List Item :=
  .asset a.id :: (urlItems a.thumbUrl ++ urlItems a.previewUrl)

def Response.items : Response → List Item
  | .gallery _ _ _ _ assets => assets.flatMap GalleryAsset.items
  | .listing assets nextCursor =>
    assets.flatMap (fun a => a.toGalleryAsset.items) ++ nextCursor.toList.map (fun c => .asset c.id)
  | .faces boxes => boxes.map (fun box => .face box.id)
  | .person _ _ assets => assets.flatMap (fun a => a.toGalleryAsset.items)
  | .redirect url => [.object url.key]
  | .zip _ entries => entries.map (fun entry => .object entry.key)

def GalleryRequest.downloads : GalleryRequest → Prop
  | .getGalleryDownloadUrl _ _ | .streamGalleryZip _ _ => True
  | _ => False

/-- What is stored of an asset. -/
def Belongs (s : GalleryStore) (a : Asset) : Item → Prop
  | .asset id => id = a.id
  | .object key => key = a.storageKey ∨ ∃ f ∈ s.files, f.assetId = a.id ∧ f.storageKey = key
  | .face id => ∃ f ∈ s.faces, f.id = id ∧ f.assetId = a.id

/-- A live participant of the token, in an event that is there and open. -/
structure Holder (hashSha256 : String → Digest) (s : GalleryStore) (token : String)
    (p : Participant)
    (event : EventRow) : Prop where
  stored : p ∈ s.participants
  hashed : p.galleryTokenHash = hashSha256 token
  live : p.deletedAt = none
  within : event ∈ s.events ∧ event.id = p.eventId ∧ event.deletedAt = none
  unexpired : ¬ isEventExpired event s.clock

/-- A live asset of the participant's event, matched or shared. -/
structure Permitted (s : GalleryStore) (downloads : Prop) (p : Participant) (event : EventRow)
    (a : Asset) : Prop where
  stored : a ∈ s.assets
  own : a.eventId = p.eventId
  live : a.deletedAt = none
  shared : s.isMatchedAsset p.id a.id = true ∨ event.participantsSeeAllPhotos = true ∧
    (downloads → event.participantsCanDownloadAll = true)

/-- Where the request is answered, what it shows is permitted. -/
def Private (hashSha256 : String → Digest) (s : GalleryStore) (request : GalleryRequest) : Prop :=
  ∀ response, request.answer hashSha256 s = .ok response →
    ∃ p event, Holder hashSha256 s request.token p event ∧
      ∀ item ∈ response.items, ∃ a, Permitted s request.downloads p event a ∧ Belongs s a item

/-- The faces of a matched asset that is deleted are asked for, and there are
some to show. -/
def ShowsDeleted (hashSha256 : String → Digest) (s : GalleryStore)
    (request : GalleryRequest) : Prop :=
  ∃ token p event a f, request = .getGalleryAssetFaces token a.id ∧
    s.getByTokenHash (hashSha256 token) = some p ∧ s.getEvent p.eventId = some event ∧
      ¬ isEventExpired event s.clock ∧ a ∈ s.assets ∧ a.deletedAt ≠ none ∧
        s.isMatchedAsset p.id a.id = true ∧ f ∈ s.faces ∧ f.assetId = a.id ∧ f.deleted = false ∧
          (∀ person ∈ f.personId.bind s.person, person.isHidden = false) ∧
            0 < (faceBox f none none).width ∧ 0 < (faceBox f none none).height

section Privacy

variable {hashSha256 : String → Digest} {s : GalleryStore}

theorem mem_of_getByTokenHash {tokenHash : Digest} {p : Participant}
    (h : s.getByTokenHash tokenHash = some p) :
    p ∈ s.participants ∧ p.galleryTokenHash = tokenHash ∧ p.deletedAt = none :=
  ⟨List.mem_of_find?_eq_some h, by simpa using List.find?_some h⟩

theorem mem_of_getEvent {id : EventId} {event : EventRow} (h : s.getEvent id = some event) :
    event ∈ s.events ∧ event.id = id ∧ event.deletedAt = none :=
  ⟨List.mem_of_find?_eq_some h, by simpa using List.find?_some h⟩

theorem mem_of_getAsset {eventId : EventId} {assetId : AssetId} {a : Asset}
    (h : s.getAsset eventId assetId = some a) :
    a ∈ s.assets ∧ a.id = assetId ∧ a.eventId = eventId ∧ a.deletedAt = none :=
  ⟨List.mem_of_find?_eq_some h, by simpa using List.find?_some h⟩

open PublicService

/-- Every route passes here. -/
theorem resolveGallery_ok {token : String} {p : Participant} {event : EventRow} :
    resolveGallery hashSha256 s token = .ok (p, event) ↔
      s.getByTokenHash (hashSha256 token) = some p ∧ s.getEvent p.eventId = some event ∧
        ¬ isEventExpired event s.clock := by
  unfold resolveGallery
  cases hparticipant : s.getByTokenHash (hashSha256 token) with
  | none => simp
  | some participant =>
    simp only [Option.some.injEq]
    cases hevent : s.getEvent participant.eventId with
    | none =>
      constructor
      · intro h
        cases h
      · rintro ⟨rfl, h, -⟩
        rw [hevent] at h
        cases h
    | some found =>
      simp only
      split
      · rename_i hexpired
        constructor
        · intro h
          cases h
        · rintro ⟨rfl, h, hopen⟩
          rw [hevent] at h
          cases h
          exact absurd hexpired hopen
      · rename_i hopen
        constructor
        · intro h
          cases h
          exact ⟨rfl, hevent, hopen⟩
        · rintro ⟨rfl, h, -⟩
          rw [hevent] at h
          cases h
          rfl

theorem holder_of_resolveGallery {token : String} {p : Participant} {event : EventRow}
    (h : resolveGallery hashSha256 s token = .ok (p, event)) :
    Holder hashSha256 s token p event := by
  obtain ⟨hparticipant, hevent, hopen⟩ := resolveGallery_ok.mp h
  obtain ⟨hstored, htoken, hlive⟩ := mem_of_getByTokenHash hparticipant
  exact ⟨hstored, htoken, hlive, mem_of_getEvent hevent, hopen⟩

/-- A route that answers has resolved its token. -/
theorem resolved {α : Type} {token : String} {f : Participant × EventRow → Except GalleryError α}
    {answer : α} (h : (resolveGallery hashSha256 s token >>= f) = .ok answer) :
    ∃ p event, resolveGallery hashSha256 s token = .ok (p, event) ∧ f (p, event) = .ok answer := by
  cases hresolve : resolveGallery hashSha256 s token with
  | error e =>
    rw [hresolve] at h
    cases h
  | ok found =>
    rw [hresolve] at h
    exact ⟨found.1, found.2, rfl, h⟩

/-! What is shown of an asset belongs to it. -/

theorem belongs_presigned {a : Asset} {type : AssetFileType} {expiresIn : ℕ} {item : Item}
    (h : item ∈ urlItems (s.presigned a.id type expiresIn)) : Belongs s a item := by
  obtain ⟨url, hurl, rfl⟩ := List.mem_map.mp h
  obtain ⟨key, hkey, rfl⟩ := Option.map_eq_some_iff.mp (Option.mem_toList.mp hurl)
  obtain ⟨hfile, -⟩ := Option.filter_eq_some_iff.mp hkey
  obtain ⟨f, hf, rfl⟩ := Option.map_eq_some_iff.mp hfile
  have hasset : f.assetId = a.id ∧ f.type = type := by simpa using List.find?_some hf
  exact .inr ⟨f, List.mem_of_find?_eq_some hf, hasset.1, rfl⟩

theorem belongs_galleryAsset {a : Asset} {expiresIn : ℕ} {item : Item}
    (h : item ∈ (s.galleryAsset expiresIn a).items) : Belongs s a item := by
  rcases List.mem_cons.mp h with rfl | h
  · rfl
  · rcases List.mem_append.mp h with h | h
    · exact belongs_presigned h
    · exact belongs_presigned h

theorem belongs_listedAsset {a : Asset} {expiresIn : ℕ} {item : Item}
    (h : item ∈ (s.listedAsset expiresIn a).toGalleryAsset.items) : Belongs s a item :=
  belongs_galleryAsset h

variable {p : Participant} {event : EventRow}

/-- A matched asset that is there is of the participant's event. -/
theorem own_of_matched (hsound : s.links.Sound) (hp : p ∈ s.participants) {a : Asset}
    (ha : a ∈ s.assets) (hmatched : s.isMatchedAsset p.id a.id = true) : a.eventId = p.eventId := by
  obtain ⟨m, hm, hpair⟩ := List.any_eq_true.mp hmatched
  obtain ⟨hparticipant, hasset⟩ := of_decide_eq_true hpair
  obtain ⟨-, -, hsame⟩ := hsound.matched (pairOf m) (List.mem_map_of_mem hm)
  refine (hsame p.eventId a.eventId ?_ ?_).symm
  · exact List.mem_map.mpr ⟨p, hp, by rw [pairOf, hparticipant]⟩
  · exact List.mem_map.mpr ⟨a, ha, by rw [pairOf, hasset]⟩

theorem asset_unique (hsound : s.links.Sound) {a b : Asset} (ha : a ∈ s.assets) (hb : b ∈ s.assets)
    (hid : a.id = b.id) : a = b := by
  have hnodup := hsound.assetIds
  rw [GalleryStore.links, List.map_map] at hnodup
  exact List.inj_on_of_nodup_map hnodup ha hb hid

theorem permitted_matched (hsound : s.links.Sound) (hp : p ∈ s.participants) {a : Asset}
    (ha : a ∈ s.getMatchedAssets p.id) (downloads : Prop) : Permitted s downloads p event a := by
  obtain ⟨m, hm, hmem⟩ := List.mem_flatMap.mp ((List.mem_insertionSort _).mp ha)
  obtain ⟨hrow, hparticipant⟩ := List.mem_filter.mp hm
  obtain ⟨hstored, hasset⟩ := List.mem_filter.mp hmem
  obtain ⟨hid, hlive⟩ := of_decide_eq_true hasset
  have hmatched : s.isMatchedAsset p.id a.id = true :=
    List.any_eq_true.mpr ⟨m, hrow, decide_eq_true ⟨of_decide_eq_true hparticipant, hid.symm⟩⟩
  exact ⟨hstored, own_of_matched hsound hp hstored hmatched, hlive, .inl hmatched⟩

/-- A shared asset that the event's query finds. -/
theorem permitted_shared {eventId : EventId} {assetId : AssetId} {a : Asset} {downloads : Prop}
    (hevent : eventId = p.eventId) (ha : s.getAsset eventId assetId = some a)
    (hshared : event.participantsSeeAllPhotos = true)
    (hdownload : downloads → event.participantsCanDownloadAll = true) :
    Permitted s downloads p event a := by
  obtain ⟨hstored, -, hown, hlive⟩ := mem_of_getAsset ha
  exact ⟨hstored, hown.trans hevent, hlive, .inr ⟨hshared, hdownload⟩⟩

/-- The check passes for a match, and for a live asset where the toggles allow. -/
theorem assertShared_ok {participantId : ParticipantId} {shared : Bool} {assetId : AssetId} :
    assertShared s participantId event shared assetId = .ok () ↔
      s.isMatchedAsset participantId assetId = true ∨
        shared = true ∧ (s.getAsset event.id assetId).isSome = true := by
  unfold assertShared
  by_cases hmatched : s.isMatchedAsset participantId assetId = true
  · simp [hmatched]
  · rw [if_neg hmatched, or_iff_right hmatched]
    cases shared with
    | false => simp
    | true =>
      rw [if_neg (by simp)]
      cases s.getAsset event.id assetId with
      | none => simp
      | some a => simp

/-! The routes. -/

theorem getGallery_private (hsound : s.links.Sound) (token : String) :
    Private hashSha256 s (.getGallery token) := by
  intro response h
  obtain ⟨result, hresult, rfl⟩ :
    ∃ result, PublicService.getGallery hashSha256 s token = .ok result ∧
      result.1 = response := by
    change (PublicService.getGallery hashSha256 s token).map Prod.fst = .ok response at h
    cases hgallery : PublicService.getGallery hashSha256 s token with
    | error e =>
      rw [hgallery] at h
      cases h
    | ok result =>
      rw [hgallery] at h
      exact ⟨result, rfl, Except.ok.inj h⟩
  obtain ⟨p, event, hresolve, hanswer⟩ := resolved hresult
  cases hanswer
  have hholder := holder_of_resolveGallery hresolve
  refine ⟨p, event, hholder, fun item hitem => ?_⟩
  obtain ⟨shown, hshown, hitem⟩ := List.mem_flatMap.mp hitem
  obtain ⟨a, ha, rfl⟩ := List.mem_map.mp hshown
  exact ⟨a, permitted_matched hsound hholder.stored ha _, belongs_galleryAsset hitem⟩

theorem mem_list {assets : List (Assets.Asset ℕ)} {eventId limit : ℕ}
    {cursor : Option (Assets.Cursor ℕ)} {row : Assets.Asset ℕ}
    (h : row ∈ (Assets.AssetService.list assets eventId limit cursor none).rows) :
    row ∈ assets ∧ row.eventId = eventId ∧ row.deletedAt = none := by
  have hfetched : row ∈ Assets.AssetRepository.list assets eventId (limit + 1)
      (cursor.map Assets.decodeCursor) none := by
    simp only [Assets.AssetService.list, Keyset.page] at h
    split at h
    · exact List.mem_of_mem_take h
    · exact h
  have hordered := List.mem_of_mem_take hfetched
  have hselected : row ∈ assets.filter (Assets.listed eventId none) := by
    cases cursor with
    | none => exact (List.mem_insertionSort _).mp hordered
    | some c => exact (List.mem_filter.mp ((List.mem_insertionSort _).mp hordered)).1
  obtain ⟨hmem, hlisted⟩ := List.mem_filter.mp hselected
  simp only [Assets.listed, Bool.and_true, Bool.and_eq_true, decide_eq_true_eq,
    Option.isNone_iff_eq_none] at hlisted
  exact ⟨hmem, hlisted⟩

theorem mem_list_next {assets : List (Assets.Asset ℕ)} {eventId limit : ℕ}
    {cursor : Option (Assets.Cursor ℕ)} {c : Assets.Cursor ℕ}
    (h : (Assets.AssetService.list assets eventId limit cursor none).next = some c) :
    ∃ row ∈ (Assets.AssetService.list assets eventId limit cursor none).rows, row.id = c.id := by
  simp only [Assets.AssetService.list, Keyset.page] at h ⊢
  split at h
  · rename_i hmore
    obtain ⟨row, hrow, rfl⟩ := Option.map_eq_some_iff.mp h
    rw [if_pos hmore]
    exact ⟨row, List.mem_of_getLast? hrow, rfl⟩
  · cases h

theorem getEventGallery_private (token : String) (limit : ℕ) (cursor : Option (Assets.Cursor ℕ)) :
    Private hashSha256 s (.getEventGallery token limit cursor) := by
  intro response h
  obtain ⟨p, event, hresolve, hanswer⟩ := resolved h
  have hholder := holder_of_resolveGallery hresolve
  simp only at hanswer
  split at hanswer
  · cases hanswer
  · rename_i hshared
    cases hanswer
    have hpermitted : ∀ row ∈ (Assets.AssetService.list (s.assets.map Asset.toAsset) event.id limit
        cursor none).rows, ∀ a ∈ s.assets, a.toAsset = row → Permitted s False p event a := by
      rintro row hrow a ha rfl
      obtain ⟨-, hevent, hlive⟩ := mem_list hrow
      exact ⟨ha, hevent.trans hholder.within.2.1, hlive,
        .inr ⟨Bool.not_eq_false _ |>.mp hshared, fun h => h.elim⟩⟩
    refine ⟨p, event, hholder, fun item hitem => ?_⟩
    rcases List.mem_append.mp hitem with hitem | hitem
    · obtain ⟨shown, hshown, hitem⟩ := List.mem_flatMap.mp hitem
      obtain ⟨row, hrow, hshown⟩ := List.mem_flatMap.mp hshown
      obtain ⟨a, ha, rfl⟩ := List.mem_map.mp hshown
      obtain ⟨hmem, hsame⟩ := List.mem_filter.mp ha
      exact ⟨a, hpermitted row hrow a hmem (of_decide_eq_true hsame), belongs_listedAsset hitem⟩
    · obtain ⟨c, hc, rfl⟩ := List.mem_map.mp hitem
      obtain ⟨row, hrow, hid⟩ := mem_list_next (Option.mem_toList.mp hc)
      obtain ⟨a, ha, hsame⟩ := List.mem_map.mp (mem_list hrow).1
      refine ⟨a, hpermitted row hrow a ha hsame, ?_⟩
      change c.id = a.toAsset.id
      rw [hsame, hid]

theorem getPersonGallery_private (token : String) (personId : PersonId) :
    Private hashSha256 s (.getPersonGallery token personId) := by
  intro response h
  obtain ⟨p, event, hresolve, hanswer⟩ := resolved h
  have hholder := holder_of_resolveGallery hresolve
  simp only at hanswer
  split at hanswer
  · cases hanswer
  · rename_i hshared
    cases hperson : s.getPerson event.id personId with
    | none =>
      rw [hperson] at hanswer
      cases hanswer
    | some person =>
      rw [hperson] at hanswer
      simp only at hanswer
      split at hanswer
      · cases hanswer
      · unfold GalleryStore.getAssets at hanswer
        rw [hperson] at hanswer
        cases hanswer
        refine ⟨p, event, hholder, fun item hitem => ?_⟩
        obtain ⟨shown, hshown, hitem⟩ := List.mem_flatMap.mp hitem
        obtain ⟨a, ha, rfl⟩ := List.mem_map.mp ((List.mem_insertionSort _).mp hshown)
        obtain ⟨id, -, hfound⟩ := List.mem_filterMap.mp ha
        refine ⟨a, permitted_shared hholder.within.2.1 hfound ?_ fun h => h.elim,
          belongs_listedAsset hitem⟩
        exact Bool.not_eq_false _ |>.mp hshared

/-- What passed the download check and is still there. -/
theorem permitted_download {assetId : AssetId} {a : Asset}
    (hchecked : assertDownloadable s p.id event assetId = .ok ())
    (ha : s.getAsset p.eventId assetId = some a) : Permitted s True p event a := by
  obtain ⟨hstored, hid, hown, hlive⟩ := mem_of_getAsset ha
  refine ⟨hstored, hown, hlive, ?_⟩
  rcases assertShared_ok.mp hchecked with hmatched | ⟨hshared, -⟩
  · rw [hid]
    exact .inl hmatched
  · rw [Bool.and_eq_true] at hshared
    exact .inr ⟨hshared.1, fun _ => hshared.2⟩

theorem getGalleryDownloadUrl_private (token : String) (assetId : AssetId) :
    Private hashSha256 s (.getGalleryDownloadUrl token assetId) := by
  intro response h
  obtain ⟨p, event, hresolve, hanswer⟩ := resolved h
  have hholder := holder_of_resolveGallery hresolve
  simp only at hanswer
  cases hchecked : assertDownloadable s p.id event assetId with
  | error e =>
    rw [hchecked] at hanswer
    cases hanswer
  | ok _ =>
    rw [hchecked] at hanswer
    cases hasset : s.getAsset p.eventId assetId with
    | none =>
      rw [hasset] at hanswer
      cases hanswer
    | some a =>
      rw [hasset] at hanswer
      cases hanswer
      refine ⟨p, event, hholder, fun item hitem => ?_⟩
      rw [List.mem_singleton.mp hitem]
      exact ⟨a, permitted_download hchecked hasset, .inl rfl⟩

theorem keys_appendEntry {a : Asset} {entries : List ZipEntry} {entry : ZipEntry}
    (h : entry ∈ appendEntry entries a) : entry ∈ entries ∨ entry.key = a.storageKey := by
  rcases List.mem_append.mp h with h | h
  · exact .inl h
  · rw [List.mem_singleton.mp h]
    exact .inr rfl

/-- An archive holds originals of the assets it is made of. -/
theorem keys_archive {assets : List Asset} {entries : List ZipEntry} {entry : ZipEntry}
    (h : entry ∈ assets.foldl appendEntry entries) :
    entry ∈ entries ∨ ∃ a ∈ assets, entry.key = a.storageKey := by
  induction assets generalizing entries with
  | nil => exact .inl h
  | cons a assets ih =>
    rcases ih h with h | ⟨b, hb, hkey⟩
    · rcases keys_appendEntry h with h | hkey
      · exact .inl h
      · exact .inr ⟨a, List.mem_cons_self, hkey⟩
    · exact .inr ⟨b, List.mem_cons_of_mem a hb, hkey⟩

theorem forM_ok {ids : List AssetId} {check : AssetId → Except GalleryError PUnit}
    (h : ids.forM check = .ok ()) : ∀ id ∈ ids, check id = .ok () := by
  induction ids with
  | nil => exact fun _ hid => absurd hid List.not_mem_nil
  | cons first ids ih =>
    change (check first >>= fun _ => ids.forM check) = .ok () at h
    cases hfirst : check first with
    | error e =>
      rw [hfirst] at h
      cases h
    | ok _ =>
      rw [hfirst] at h
      intro id hid
      rcases List.mem_cons.mp hid with rfl | hid
      · exact hfirst
      · exact ih h id hid

theorem streamGalleryZip_private (hsound : s.links.Sound) (token : String)
    (assetIds : Option (List AssetId)) :
    Private hashSha256 s (.streamGalleryZip token assetIds) := by
  intro response h
  obtain ⟨p, event, hresolve, hanswer⟩ := resolved h
  have hholder := holder_of_resolveGallery hresolve
  simp only at hanswer
  cases hchecked : (assetIds.getD []).forM (assertDownloadable s p.id event) with
  | error e =>
    rw [hchecked] at hanswer
    cases hanswer
  | ok _ =>
    rw [hchecked] at hanswer
    generalize hids : (if assetIds.getD [] ≠ [] then assetIds.getD []
      else (s.getMatchedAssets p.id).map (fun a => a.id)) = ids at hanswer
    change (if ids = [] then _ else _) = _ at hanswer
    split at hanswer
    · cases hanswer
    · cases hanswer
      refine ⟨p, event, hholder, fun item hitem => ?_⟩
      obtain ⟨entry, hentry, rfl⟩ := List.mem_map.mp hitem
      obtain ⟨a, ha, hkey⟩ := (keys_archive hentry).resolve_left List.not_mem_nil
      obtain ⟨id, hid, hasset⟩ := List.mem_filterMap.mp ha
      refine ⟨a, ?_, .inl hkey⟩
      rw [← hids] at hid
      split at hid
      · exact permitted_download (forM_ok hchecked id hid) hasset
      · obtain ⟨b, hb, rfl⟩ := List.mem_map.mp hid
        obtain ⟨hstored, hid, hown, hlive⟩ := mem_of_getAsset hasset
        have hmatched : Permitted s True p event b :=
          permitted_matched hsound hholder.stored hb True
        exact asset_unique hsound hstored hmatched.stored hid ▸ hmatched

/-! The faces of an asset. -/

theorem mem_faceBoxes {assetId : AssetId} {box : FaceBox} :
    box ∈ toFaceBoxes (s.getFaces assetId) ↔
      ∃ f ∈ s.faces, f.assetId = assetId ∧ f.deleted = false ∧
        (∀ person ∈ f.personId.bind s.person, person.isHidden = false) ∧
          box = faceBox f (f.personId.bind s.person)
            ((s.claimants f.id).head?.map (fun c => c.1.name)) ∧ 0 < box.width ∧
            0 < box.height := by
  simp only [toFaceBoxes, GalleryStore.getFaces, List.mem_filter, List.mem_map,
    List.mem_insertionSort,
    decide_eq_true_eq]
  constructor
  · rintro ⟨⟨_, ⟨⟨f, ⟨hf, hasset, hlive⟩, rfl⟩, hshown⟩, rfl⟩, hextent⟩
    refine ⟨f, hf, hasset, hlive, fun person hperson => ?_, rfl, hextent⟩
    have hnone := fun hidden => hshown ((Option.any_eq_true _ _).mpr ⟨person, hperson, hidden⟩)
    exact Bool.not_eq_true _ |>.mp hnone
  · rintro ⟨f, hf, hasset, hlive, hshown, rfl, hextent⟩
    refine ⟨⟨_, ⟨⟨f, ⟨hf, hasset, hlive⟩, rfl⟩, fun hidden => ?_⟩, rfl⟩, hextent⟩
    obtain ⟨person, hperson, hhidden⟩ := (Option.any_eq_true _ _).mp hidden
    rw [hshown person hperson] at hhidden
    cases hhidden

theorem getGalleryAssetFaces_ok {token : String} {assetId : AssetId} {response : Response} :
    PublicService.getGalleryAssetFaces hashSha256 s token assetId = .ok response ↔
      ∃ p event, resolveGallery hashSha256 s token = .ok (p, event) ∧
        assertViewable s p.id event assetId = .ok () ∧
          response = .faces (toFaceBoxes (s.getFaces assetId)) := by
  constructor
  · intro h
    obtain ⟨p, event, hresolve, hanswer⟩ := resolved h
    refine ⟨p, event, hresolve, ?_⟩
    simp only at hanswer
    cases hchecked : assertViewable s p.id event assetId with
    | error e =>
      rw [hchecked] at hanswer
      cases hanswer
    | ok _ =>
      rw [hchecked] at hanswer
      cases hanswer
      exact ⟨rfl, rfl⟩
  · rintro ⟨p, event, hresolve, hchecked, rfl⟩
    unfold PublicService.getGalleryAssetFaces
    rw [hresolve]
    change (assertViewable s p.id event assetId >>= fun _ => _) = _
    rw [hchecked]
    rfl

/-- The faces of a live matched or shared asset are permitted. -/
theorem getGalleryAssetFaces_private (hsound : s.links.Sound) {token : String} {assetId : AssetId}
    (hnot : ¬ ShowsDeleted hashSha256 s (.getGalleryAssetFaces token assetId)) :
    Private hashSha256 s (.getGalleryAssetFaces token assetId) := by
  intro response h
  obtain ⟨p, event, hresolve, hchecked, rfl⟩ := getGalleryAssetFaces_ok.mp h
  have hholder := holder_of_resolveGallery hresolve
  refine ⟨p, event, hholder, fun item hitem => ?_⟩
  obtain ⟨box, hbox, rfl⟩ := List.mem_map.mp hitem
  obtain ⟨f, hf, rfl, hfaceLive, hshown, rfl, hextent⟩ := mem_faceBoxes.mp hbox
  rcases assertShared_ok.mp hchecked with hmatched | ⟨hshared, hthere⟩
  · obtain ⟨m, hm, hpair⟩ := List.any_eq_true.mp hmatched
    obtain ⟨e, he⟩ := hsound.stored (pairOf m) (List.mem_map_of_mem hm)
    obtain ⟨a, ha, heq⟩ := List.mem_map.mp he
    have hid : a.id = f.assetId := (congrArg Prod.fst heq).trans (of_decide_eq_true hpair).2
    rw [← hid] at hmatched
    refine ⟨a, ⟨ha, own_of_matched hsound hholder.stored ha hmatched, ?_, .inl hmatched⟩, f,
      hf, rfl,
      hid.symm⟩
    by_contra hdeleted
    obtain ⟨hparticipant, hevent, hopen⟩ := resolveGallery_ok.mp hresolve
    exact hnot ⟨token, p, event, a, f, by
      rw [hid], hparticipant, hevent, hopen, ha, hdeleted, hmatched,
      hf, hid.symm, hfaceLive, hshown, hextent⟩
  · obtain ⟨a, ha⟩ := Option.isSome_iff_exists.mp hthere
    exact ⟨a, permitted_shared hholder.within.2.1 ha hshared fun h => h.elim, f, hf, rfl,
      (mem_of_getAsset ha).2.1.symm⟩

/-- The faces of a deleted asset are not permitted. -/
theorem not_private (hsound : s.links.Sound) {request : GalleryRequest}
    (h : ShowsDeleted hashSha256 s request) : ¬ Private hashSha256 s request := by
  obtain ⟨token, p, event, a, f, rfl, hparticipant, hevent, hopen, ha, hdeleted, hmatched,
    hf, hasset,
    hlive, hshown, hextent⟩ := h
  intro hprivate
  obtain ⟨_, _, -, hitems⟩ := hprivate _ (getGalleryAssetFaces_ok.mpr
    ⟨p, event, resolveGallery_ok.mpr ⟨hparticipant, hevent, hopen⟩,
      assertShared_ok.mpr (.inl hmatched),
      rfl⟩)
  have hbox := mem_faceBoxes.mpr ⟨f, hf, hasset, hlive, hshown, rfl, hextent⟩
  obtain ⟨b, hpermitted, g, hg, hface, hbelongs⟩ := hitems (.face f.id) (List.mem_map_of_mem hbox)
  have hsame : g = f := List.inj_on_of_nodup_map hsound.faceIds hg hf hface
  have hab : b = a := asset_unique hsound hpermitted.stored ha (by rw [← hbelongs, hsame, hasset])
  exact hdeleted (hab ▸ hpermitted.live)

/-- A request keeps to what is permitted, unless it asks for the faces of a
matched asset that is deleted. -/
theorem gallery_private_iff (hashSha256 : String → Digest) (changes : List Change)
    (request : GalleryRequest) : Private hashSha256 (after changes) request ↔
      ¬ ShowsDeleted hashSha256 (after changes) request := by
  have hsound := sound_after changes
  refine ⟨fun hprivate h => not_private hsound h hprivate, fun hnot => ?_⟩
  cases request with
  | getGallery token => exact getGallery_private hsound token
  | getEventGallery token limit cursor => exact getEventGallery_private token limit cursor
  | getGalleryAssetFaces token assetId => exact getGalleryAssetFaces_private hsound hnot
  | getPersonGallery token personId => exact getPersonGallery_private token personId
  | getGalleryDownloadUrl token assetId => exact getGalleryDownloadUrl_private token assetId
  | streamGalleryZip token assetIds => exact streamGalleryZip_private hsound token assetIds

end Privacy

/-- A photo is matched to a guest, and then deleted. -/
def matchedThenDeleted : List Change :=
  [.createOrganization "Studio", .createEvent 0 "Wedding", .createAsset 0 .image "a.jpg" "a",
    .upsertParticipant { eventId := 0, email := "g@x", name := "Guest", galleryTokenHash := "t" },
    .refreshFaces [{ id := 0, assetId := 0, imageHeight := 10, imageWidth := 10, boundingBox :=
      ⟨1, 1, 4, 4⟩ }]
      [],
    .searchMatches 0 [(0, 0)], .insertMatches 0, .deleteMany 0 [0]]

/-- The faces of the deleted photo are still shown. -/
theorem not_gallery_private : ¬ ∀ (hashSha256 : String → Digest) (changes : List Change)
    (request : GalleryRequest), Private hashSha256 (after changes) request := by
  intro h
  refine not_private (sound_after matchedThenDeleted) ?_
    (h id matchedThenDeleted (.getGalleryAssetFaces "t" 0))
  let s := after matchedThenDeleted
  refine ⟨"t", (s.participants[0]?).get (by decide), (s.events[0]?).get (by decide),
    (s.assets[0]?).get (by decide), (s.faces[0]?).get (by decide), by
      decide,
    by decide, by decide, by decide, by decide, by decide,
    by decide, by decide, by decide, by decide, by decide,
    by decide +kernel, by decide +kernel⟩

end EventLens.Galleries

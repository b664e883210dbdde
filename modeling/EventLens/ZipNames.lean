import EventLens.GalleryService

/-!
The entries of a streamed archive, for an organiser's selection and for a
participant's. Each asset's name is looked for by a loop over numbered variants,
here as a relation between the turns and the name it stops with. An id asked
for twice is put in twice, the second time under a numbered name.
-/

namespace EventLens.Galleries

open Faces (AssetId)

namespace AssetService

variable (s : GalleryStore)

/-- `AssetService.streamZip`. Ids without a live asset of the event are passed over. -/
def streamZip (eventId : EventId) (ids : List AssetId) : String × List ZipEntry :=
  (safeName (((s.getEvent eventId).map (fun event => event.name)).getD "photos") ++ ".zip",
    (ids.filterMap (s.getAsset eventId)).foldl appendEntry [])

end AssetService

/-- The loop `for (counter = 2; used.has(name); counter++)`, from a counter and
a name to the name it stops with. -/
inductive NamingLoop (filename : String) (used : List String) : ℕ → String → String → Prop
  | stop {counter : ℕ} {name : String} (hfree : name ∉ used) :
    NamingLoop filename used counter name name
  | turn {counter : ℕ} {name last : String} (hused : name ∈ used)
      (hrest : NamingLoop filename used (counter + 1) (numbered filename counter) last) :
      NamingLoop filename used counter name last

section Naming

variable {filename name last : String} {used : List String} {fuel counter : ℕ}

/-- The names tried are the filename and then its numbered variants. -/
theorem NamingLoop.last_eq (h : NamingLoop filename used counter name last) :
    last = name ∨ ∃ k, counter ≤ k ∧ last = numbered filename k := by
  induction h with
  | stop hfree => exact .inl rfl
  | @turn counter name last hused hrest ih =>
    rcases ih with rfl | ⟨k, hk, rfl⟩
    · exact .inr ⟨counter, le_refl counter, rfl⟩
    · exact .inr ⟨k, by omega, rfl⟩

theorem NamingLoop.unique {other : String} (h : NamingLoop filename used counter name last)
    (hother : NamingLoop filename used counter name other) : last = other := by
  induction h with
  | stop hfree =>
    cases hother with
    | stop => rfl
    | turn hused => exact absurd hused hfree
  | turn hused hrest ih =>
    cases hother with
    | stop hfree => exact absurd hused hfree
    | turn _ hrest' => exact ih hrest'

/-- With fuel to reach an unused name the loop stops with it. -/
theorem unusedName_loop (h : unusedName filename used fuel counter name ∉ used) :
    NamingLoop filename used counter name (unusedName filename used fuel counter name) := by
  induction fuel generalizing counter name with
  | zero => exact .stop h
  | succ fuel ih =>
    rw [unusedName] at h ⊢
    by_cases hused : name ∈ used
    · rw [if_pos hused] at h ⊢
      exact .turn hused (ih h)
    · rw [if_neg hused] at h ⊢
      exact .stop hused

theorem entryName_loop (filename : String) (used : List String) :
    NamingLoop filename used 2 filename (entryName filename used) :=
  unusedName_loop (entryName_free filename used)

end Naming

/-- An entry for each asset of a sequence: read from its object and named by
the loop, which stops, from the names before it. -/
structure Zipped (assets : List Asset) (entries : List ZipEntry) : Prop where
  keys : entries.map ZipEntry.key = assets.map Asset.storageKey
  distinct : (entries.map ZipEntry.name).Nodup
  stops : ∀ i a, assets[i]? = some a → ∃ e, entries[i]? = some e ∧
    ∀ name, NamingLoop a.originalFilename ((entries.take i).map ZipEntry.name) 2
      a.originalFilename name ↔
      name = e.name
  named : List.Forall₂ (fun a e => e.name = a.originalFilename ∨
    ∃ k, 2 ≤ k ∧ e.name = numbered a.originalFilename k) assets entries

section Archive

variable {assets : List Asset} {entries : List ZipEntry} {a : Asset}

theorem Zipped.snoc (h : Zipped assets entries) (a : Asset) :
    Zipped (assets ++ [a]) (appendEntry entries a) := by
  have hloop := entryName_loop a.originalFilename (entries.map ZipEntry.name)
  have hlength : assets.length = entries.length := h.named.length_eq
  constructor
  case keys => simp [appendEntry, h.keys]
  case distinct =>
    rw [appendEntry, List.map_append]
    refine List.nodup_append.mpr ⟨h.distinct, List.nodup_singleton _, ?_⟩
    intro name hname other hother heq
    rw [heq, List.mem_singleton.mp hother] at hname
    exact entryName_free a.originalFilename (entries.map ZipEntry.name) hname
  case stops =>
    intro i b hb
    by_cases hi : i < assets.length
    · rw [List.getElem?_append_left hi] at hb
      obtain ⟨e, he, hstops⟩ := h.stops i b hb
      refine ⟨e, ?_, ?_⟩
      · rw [appendEntry, List.getElem?_append_left (by omega), he]
      · rw [appendEntry, List.take_append_of_le_length (by omega)]
        exact hstops
    · have hi : i = assets.length := by
        have := (List.getElem?_eq_some_iff.mp hb).1
        simp only [List.length_append, List.length_singleton] at this
        omega
      subst hi
      obtain rfl : a = b := by simpa using hb
      refine ⟨_, by rw [appendEntry, hlength, List.getElem?_concat_length], ?_⟩
      rw [appendEntry, hlength, List.take_left]
      exact fun name => ⟨fun hname => hname.unique hloop, fun hname => hname ▸ hloop⟩
  case named => exact List.rel_append h.named (.cons hloop.last_eq .nil)

/-- The archive of any sequence of assets. -/
theorem zipped_archive (assets : List Asset) : Zipped assets (assets.foldl appendEntry []) := by
  induction assets using List.reverseRecOn with
  | nil => exact ⟨rfl, List.nodup_nil, by simp, .nil⟩
  | append_singleton assets a ih =>
    rw [List.foldl_append]
    exact ih.snoc a

end Archive

section Services

variable {hashSha256 : String → Digest} {s : GalleryStore} {token : String}
  {assetIds : Option (List AssetId)}
  {filename : String} {entries : List ZipEntry}

/-- The ids of a gallery's archive: the selection, or everything matched. -/
def galleryZipIds (s : GalleryStore) (participant : Participant)
    (assetIds : Option (List AssetId)) :
    List AssetId :=
  if assetIds.getD [] ≠ [] then assetIds.getD []
  else (s.getMatchedAssets participant.id).map (fun a => a.id)

theorem streamGalleryZip_ok
    (h : PublicService.streamGalleryZip hashSha256 s token assetIds = .ok (.zip filename entries)) :
    ∃ participant event,
    PublicService.resolveGallery hashSha256 s token = .ok (participant, event) ∧
      entries = ((galleryZipIds s participant assetIds).filterMap
        (s.getAsset participant.eventId)).foldl appendEntry [] := by
  unfold PublicService.streamGalleryZip at h
  cases hresolve : PublicService.resolveGallery hashSha256 s token with
  | error e => simp [hresolve, bind, Except.bind] at h
  | ok found =>
    obtain ⟨participant, event⟩ := found
    refine ⟨participant, event, rfl, ?_⟩
    simp only [hresolve, bind, Except.bind] at h
    cases hallowed :
      (assetIds.getD []).forM (PublicService.assertDownloadable s participant.id event) with
    | error e => simp [hallowed] at h
    | ok u =>
      simp only [hallowed, pure, Except.pure] at h
      change (if galleryZipIds s participant assetIds = [] then _ else _) = _ at h
      by_cases hnone : galleryZipIds s participant assetIds = []
      · rw [if_pos hnone] at h
        cases h
      · rw [if_neg hnone] at h
        cases h
        rfl

/-- Both archives have one entry for each time the id of a live asset is asked
for, under different names of the given form; the same assets get the same names. -/
theorem zip_entry_names (hashSha256 : String → Digest) (s : GalleryStore) :
    (∀ eventId ids, Zipped (ids.filterMap (s.getAsset eventId))
    (AssetService.streamZip s eventId ids).2) ∧
      ∀ token assetIds filename entries,
        PublicService.streamGalleryZip hashSha256 s token assetIds = .ok (.zip filename entries) →
        ∃ participant event,
        PublicService.resolveGallery hashSha256 s token = .ok (participant, event) ∧
          Zipped ((galleryZipIds s participant assetIds).filterMap (s.getAsset participant.eventId))
          entries ∧
          ∀ eventId ids, ids.filterMap (s.getAsset eventId) =
              (galleryZipIds s participant assetIds).filterMap (s.getAsset participant.eventId) →
            (AssetService.streamZip s eventId ids).2 = entries := by
  refine ⟨fun eventId ids => zipped_archive _, ?_⟩
  intro token assetIds filename entries h
  obtain ⟨participant, event, hresolve, rfl⟩ := streamGalleryZip_ok h
  refine ⟨participant, event, hresolve, zipped_archive _, ?_⟩
  intro eventId ids hsame
  simp only [AssetService.streamZip, hsame]

def photo : Asset :=
  { id := 7, eventId := 1, orgId := 1, type := .image, originalFilename :=
    "a.b.jpg", createdAt := 0,
    storageKey := "key" }

/-- The digest of one token, and the tokens themselves for all others. -/
def oneDigest (token : String) : Digest :=
  if token = "t" then "e3b98a4da31a127d4bde6e43033f66ba274cab0eb7eb1c70ec41402bf6273dd8" else token

/-- A participant with two photos of one name. -/
def namesakes : GalleryStore :=
  { events := [{ id := 1, orgId := 1, name := "Gala" }]
    assets := [photo, { photo with id := 8, storageKey := "other" }]
    participants :=
      [{ id := 3, eventId := 1, email := "a@b", name := "A", galleryTokenHash := oneDigest "t" }]
    matchRows := [{ participantId := 3, assetId := 7, viaFaceId := none, distance := 0 },
      { participantId := 3, assetId := 8, viaFaceId := none, distance := 0 }] }

def namesakeEntries : List ZipEntry :=
  [⟨"a.b.jpg", "key"⟩, ⟨"a.b (2).jpg", "other"⟩, ⟨"a.b (3).jpg", "key"⟩]

/-- Both of them asked for, and the first one once more. -/
theorem zip_entry_names_namesakes :
    ∃ participant event,
    PublicService.resolveGallery oneDigest namesakes "t" = .ok (participant, event) ∧
      Zipped ((galleryZipIds namesakes participant (some [7, 8, 7])).filterMap
        (namesakes.getAsset participant.eventId)) namesakeEntries ∧
      ∀ eventId ids, ids.filterMap (namesakes.getAsset eventId) =
          (galleryZipIds namesakes participant (some [7, 8, 7])).filterMap
            (namesakes.getAsset participant.eventId) →
        (AssetService.streamZip namesakes eventId ids).2 = namesakeEntries :=
  (zip_entry_names oneDigest namesakes).2 "t" (some [7, 8, 7]) "Gala.zip" namesakeEntries
    (by decide)

/-- A photo asked for twice is in the archive twice. -/
theorem not_one_entry_per_asset :
    ¬ ∀ (s : GalleryStore) (eventId : EventId) (ids : List AssetId) (a : Asset),
      s.getAsset eventId a.id = some a → a.id ∈ ids →
      ((AssetService.streamZip s eventId ids).2.map ZipEntry.key).count a.storageKey = 1 := by
  intro h
  have honce := h { assets := [photo] } 1 [7, 7] photo (by decide) (by decide)
  rw [AssetService.streamZip, (zipped_archive _).keys] at honce
  exact absurd honce (by decide)

end Services

end EventLens.Galleries

import EventLens.FaceRows
import EventLens.GalleryRecord
import Mathlib.Data.List.Nodup

/-!
What stays true of the gallery tables over any changes. Ids are given out once,
and assets and participants keep their events, so a match names an asset of its
participant's event however late it is inserted. Only the ids, events and pairs
of the rows matter for this; they are taken out as links.
-/

namespace EventLens.Galleries

open Faces (AssetId FaceId ParticipantId AssetFace ParticipantMatch FaceSearchResult)

/-- A match as a participant and an asset. -/
def pairOf (m : ParticipantMatch) : ParticipantId × AssetId := (m.participantId, m.assetId)

structure Links where
  assets : List (AssetId × EventId)
  faces : List FaceId
  participants : List (ParticipantId × EventId)
  matched : List (ParticipantId × AssetId)
  searched : List (ParticipantId × AssetId)
  nextAsset : AssetId
  nextFace : FaceId
  nextParticipant : ParticipantId

def GalleryStore.links (s : GalleryStore) : Links where
  assets := s.assets.map (fun a => (a.id, a.eventId))
  faces := s.faces.map AssetFace.id
  participants := s.participants.map (fun p => (p.id, p.eventId))
  matched := s.matchRows.map pairOf
  searched := s.searched.flatten.map pairOf
  nextAsset := s.nextAsset
  nextFace := s.nextFace
  nextParticipant := s.nextParticipant

/-- The participant and the asset, where both are there, are of one event. -/
def Links.Within (l : Links) (m : ParticipantId × AssetId) : Prop :=
  m.1 < l.nextParticipant ∧ m.2 < l.nextAsset ∧
    ∀ d e, (m.1, d) ∈ l.participants → (m.2, e) ∈ l.assets → d = e

structure Links.Sound (l : Links) : Prop where
  assetIds : (l.assets.map Prod.fst).Nodup
  faceIds : l.faces.Nodup
  participantIds : (l.participants.map Prod.fst).Nodup
  assetsIssued : ∀ a ∈ l.assets, a.1 < l.nextAsset
  facesIssued : ∀ f ∈ l.faces, f < l.nextFace
  participantsIssued : ∀ p ∈ l.participants, p.1 < l.nextParticipant
  stored : ∀ m ∈ l.matched, ∃ e, (m.2, e) ∈ l.assets
  matched : ∀ m ∈ l.matched, l.Within m
  searched : ∀ m ∈ l.searched, l.Within m

namespace Links

variable {l : Links}

/-- Rows go. -/
theorem Sound.shrink (h : l.Sound) {l' : Links} (hassets : l'.assets.Sublist l.assets)
    (hfaces : l'.faces.Sublist l.faces) (hparticipants : l'.participants.Sublist l.participants)
    (hmatched : l'.matched ⊆ l.matched) (hsearched : l'.searched ⊆ l.searched)
    (hstored : ∀ m ∈ l'.matched, ∃ e, (m.2, e) ∈ l'.assets)
    (hnext : l'.nextAsset = l.nextAsset ∧ l'.nextFace = l.nextFace ∧
      l'.nextParticipant = l.nextParticipant) : l'.Sound := by
  obtain ⟨hnextAsset, hnextFace, hnextParticipant⟩ := hnext
  have hwithin : ∀ m, l.Within m → l'.Within m := by
    rintro m ⟨hp, ha, hsame⟩
    refine ⟨hnextParticipant ▸ hp, hnextAsset ▸ ha, fun d e hd he => ?_⟩
    exact hsame d e (hparticipants.subset hd) (hassets.subset he)
  exact
    { assetIds := h.assetIds.sublist (hassets.map Prod.fst)
      faceIds := h.faceIds.sublist hfaces
      participantIds := h.participantIds.sublist (hparticipants.map Prod.fst)
      assetsIssued := fun a ha => hnextAsset ▸ h.assetsIssued a (hassets.subset ha)
      facesIssued := fun f hf => hnextFace ▸ h.facesIssued f (hfaces.subset hf)
      participantsIssued :=
        fun p hp => hnextParticipant ▸ h.participantsIssued p (hparticipants.subset hp)
      stored := hstored
      matched := fun m hm => hwithin m (h.matched m (hmatched hm))
      searched := fun m hm => hwithin m (h.searched m (hsearched hm)) }

/-- An asset or a participant is added under the next id. -/
theorem Sound.grow (h : l.Sound) {l' : Links} (newAssets newParticipants : List EventId)
    (hassets : l'.assets = l.assets ++ newAssets.map (fun e => (l.nextAsset, e)))
    (hparticipants : l'.participants =
      l.participants ++ newParticipants.map (fun e => (l.nextParticipant, e)))
    (hassetsOne : newAssets.length ≤ 1) (hparticipantsOne : newParticipants.length ≤ 1)
    (hnextAsset : l'.nextAsset = l.nextAsset + newAssets.length)
    (hnextParticipant : l'.nextParticipant = l.nextParticipant + newParticipants.length)
    (hfaces : l'.faces = l.faces) (hnextFace : l'.nextFace = l.nextFace)
    (hmatched : l'.matched = l.matched) (hsearched : l'.searched = l.searched) : l'.Sound := by
  have hnodup : ∀ {next : ℕ} {rows : List (ℕ × EventId)} {new : List EventId}, new.length ≤ 1 →
      (rows.map Prod.fst).Nodup → (∀ r ∈ rows, r.1 < next) →
      ((rows ++ new.map (fun e => (next, e))).map Prod.fst).Nodup := by
    intro next rows new hone hrows hissued
    rw [List.map_append]
    refine List.nodup_append.mpr ⟨hrows, ?_, ?_⟩
    · match new, hone with
      | [], _ => exact List.nodup_nil
      | [e], _ => exact List.nodup_singleton _
    · intro i hi j hj heq
      obtain ⟨r, hr, rfl⟩ := List.mem_map.mp hi
      simp only [List.map_map, List.mem_map, Function.comp_apply] at hj
      obtain ⟨_, -, rfl⟩ := hj
      exact absurd (hissued r hr) (by omega)
  have hold : ∀ {next i : ℕ} {e : EventId} {rows : List (ℕ × EventId)} {new : List EventId},
      i < next → (i, e) ∈ rows ++ new.map (fun e => (next, e)) → (i, e) ∈ rows := by
    intro next i e rows new hi hmem
    rcases List.mem_append.mp hmem with hmem | hmem
    · exact hmem
    · obtain ⟨_, -, heq⟩ := List.mem_map.mp hmem
      cases heq
      exact absurd hi (Nat.lt_irrefl _)
  have hissued : ∀ {next : ℕ} {rows : List (ℕ × EventId)} {new : List EventId},
      (∀ r ∈ rows, r.1 < next) → ∀ r ∈ rows ++ new.map (fun e => (next, e)),
        r.1 < next + new.length := by
    intro next rows new hrows r hr
    rcases List.mem_append.mp hr with hr | hr
    · exact Nat.lt_add_right _ (hrows r hr)
    · obtain ⟨e, he, rfl⟩ := List.mem_map.mp hr
      have := List.length_pos_of_mem he
      simp only
      omega
  have hwithin : ∀ m, l.Within m → l'.Within m := by
    rintro m ⟨hp, ha, hsame⟩
    refine ⟨hnextParticipant ▸ Nat.lt_add_right _ hp, hnextAsset ▸ Nat.lt_add_right _ ha,
      fun d e hd he => hsame d e ?_ ?_⟩
    · rw [hparticipants] at hd
      exact hold hp hd
    · rw [hassets] at he
      exact hold ha he
  refine ⟨?_, hfaces ▸ h.faceIds, ?_, ?_, ?_, ?_, ?_, ?_, ?_⟩
  · rw [hassets]
    exact hnodup hassetsOne h.assetIds h.assetsIssued
  · rw [hparticipants]
    exact hnodup hparticipantsOne h.participantIds h.participantsIssued
  · rw [hassets, hnextAsset]
    exact hissued h.assetsIssued
  · rw [hfaces, hnextFace]
    exact h.facesIssued
  · rw [hparticipants, hnextParticipant]
    exact hissued h.participantsIssued
  · intro m hm
    obtain ⟨e, he⟩ := h.stored m (hmatched ▸ hm)
    exact ⟨e, hassets ▸ List.mem_append_left _ he⟩
  · exact fun m hm => hwithin m (h.matched m (hmatched ▸ hm))
  · exact fun m hm => hwithin m (h.searched m (hsearched ▸ hm))

/-- Pairs within an event are found, or inserted. -/
theorem Sound.note (h : l.Sound) {l' : Links}
    (hrows : l'.assets = l.assets ∧ l'.faces = l.faces ∧ l'.participants = l.participants)
    (hnext : l'.nextAsset = l.nextAsset ∧ l'.nextFace = l.nextFace ∧
      l'.nextParticipant = l.nextParticipant)
    (hmatched : ∀ m ∈ l'.matched, m ∈ l.matched ∨ (∃ e, (m.2, e) ∈ l.assets) ∧ l.Within m)
    (hsearched : ∀ m ∈ l'.searched, l.Within m) : l'.Sound := by
  obtain ⟨hassets, hfaces, hparticipants⟩ := hrows
  obtain ⟨hnextAsset, hnextFace, hnextParticipant⟩ := hnext
  have hwithin : ∀ m, l.Within m → l'.Within m := by
    rintro m ⟨hp, ha, hsame⟩
    exact ⟨hnextParticipant ▸ hp, hnextAsset ▸ ha, fun d e hd he =>
      hsame d e (hparticipants ▸ hd) (hassets ▸ he)⟩
  refine ⟨hassets ▸ h.assetIds, hfaces ▸ h.faceIds, hparticipants ▸ h.participantIds, ?_, ?_, ?_,
    fun m hm => ?_, fun m hm => hwithin m ?_, fun m hm => hwithin m (hsearched m hm)⟩
  · rw [hassets, hnextAsset]
    exact h.assetsIssued
  · rw [hfaces, hnextFace]
    exact h.facesIssued
  · rw [hparticipants, hnextParticipant]
    exact h.participantsIssued
  · rw [hassets]
    rcases hmatched m hm with hm | ⟨hstored, -⟩
    · exact h.stored m hm
    · exact hstored
  · rcases hmatched m hm with hm | ⟨-, hm⟩
    · exact h.matched m hm
    · exact hm

end Links

/-! The changes. -/

section Changes

variable {s : GalleryStore}

theorem GalleryStore.asset_mem {id : AssetId} {a : Asset} (h : s.asset id = some a) :
    a ∈ s.assets ∧ a.id = id :=
  ⟨List.mem_of_find?_eq_some h, by simpa using List.find?_some h⟩

theorem map_kept {ρ α : Type} {g : ρ → α} {f : ρ → ρ} (hg : ∀ r, g (f r) = g r) (rows : List ρ) :
    (rows.map f).map g = rows.map g := by
  rw [List.map_map]
  exact List.map_congr_left fun r _ => hg r

theorem pairOf_removeFaces (faceIds : List FaceId) :
    (s.removeFaces faceIds).matchRows.map pairOf = s.matchRows.map pairOf := by
  rw [GalleryStore.removeFaces, List.map_map]
  exact List.map_congr_left fun _ _ => rfl

theorem sound_removeFaces (h : s.links.Sound) (faceIds : List FaceId) :
    (s.removeFaces faceIds).links.Sound := by
  refine h.shrink (List.Sublist.refl _) (List.filter_sublist.map _) (List.Sublist.refl _) ?_
    (List.Subset.refl _) ?_ ⟨rfl, rfl, rfl⟩
  · rw [GalleryStore.links, pairOf_removeFaces]
    exact List.Subset.refl _
  · rw [GalleryStore.links, pairOf_removeFaces]
    exact h.stored

theorem sound_addFaces (h : s.links.Sound) (facesToAdd : List AssetFace) :
    (s.addFaces facesToAdd).links.Sound := by
  have hnew : (facesToAdd.zipIdx.map (fun new => { new.1 with id := s.nextFace + new.2 })).map
      AssetFace.id = (List.range facesToAdd.length).map (fun i => s.nextFace + i) := by
    rw [List.map_map, List.range_eq_range', ← List.zipIdx_map_snd 0 facesToAdd, List.map_map]
    rfl
  have hfaces : (s.addFaces facesToAdd).links.faces =
      s.links.faces ++ (List.range facesToAdd.length).map (fun i => s.nextFace + i) := by
    rw [← hnew]
    exact List.map_append
  refine { h with faceIds := ?_, facesIssued := ?_ }
  · rw [hfaces]
    refine List.nodup_append.mpr ⟨h.faceIds, ?_, ?_⟩
    · exact List.nodup_range.map fun i j hij => Nat.add_left_cancel hij
    · intro i hi j hj heq
      obtain ⟨k, -, rfl⟩ := List.mem_map.mp hj
      have hissued := h.facesIssued i hi
      change i < s.nextFace at hissued
      exact absurd (heq ▸ hissued) (Nat.not_lt.mpr (Nat.le_add_right _ k))
  · rw [hfaces]
    change ∀ f ∈ _, f < s.nextFace + facesToAdd.length
    intro f hf
    rcases List.mem_append.mp hf with hf | hf
    · exact Nat.lt_add_right _ (h.facesIssued f hf)
    · obtain ⟨k, hk, rfl⟩ := List.mem_map.mp hf
      exact Nat.add_lt_add_left (List.mem_range.mp hk) _

theorem sound_removeEvent (h : s.links.Sound) (eventId : EventId) :
    (s.removeEvent eventId).links.Sound := by
  have hmatched : (s.removeEvent eventId).links.matched ⊆ s.links.matched := by
    refine List.Subset.trans (List.filter_sublist.map _).subset ?_
    rw [pairOf_removeFaces]
    exact List.Subset.refl _
  refine h.shrink (List.filter_sublist.map _) (List.filter_sublist.map _)
    (List.filter_sublist.map _)
    hmatched (List.Subset.refl _) (fun m hm => ?_) ⟨rfl, rfl, rfl⟩
  obtain ⟨e, he⟩ := h.stored m (hmatched hm)
  obtain ⟨row, hrow, rfl⟩ := List.mem_map.mp hm
  obtain ⟨a, ha, heq⟩ := List.mem_map.mp he
  obtain ⟨-, hkept⟩ := List.mem_filter.mp hrow
  refine ⟨e, List.mem_map.mpr ⟨a, List.mem_filter.mpr ⟨ha, ?_⟩, heq⟩⟩
  refine decide_eq_true fun hevent => (of_decide_eq_true hkept).1 ?_
  refine List.mem_map.mpr ⟨a, List.mem_filter.mpr ⟨ha, decide_eq_true hevent⟩, ?_⟩
  exact congrArg Prod.fst heq

theorem sound_eraseParticipant (h : s.links.Sound) (participantId : ParticipantId) :
    (s.apply (.eraseParticipant participantId)).links.Sound := by
  have hmatched : (s.apply (.eraseParticipant participantId)).links.matched ⊆ s.links.matched :=
    (List.filter_sublist.map _).subset
  exact h.shrink (List.Sublist.refl _) (List.Sublist.refl _) (List.filter_sublist.map _) hmatched
    (List.Subset.refl _) (fun m hm => h.stored m (hmatched hm)) ⟨rfl, rfl, rfl⟩

theorem candidate_eq_some {eventId : EventId} {faceId : FaceId} {distance : ℚ}
    {hit : FaceSearchResult}
    (h : s.candidate eventId faceId distance = some hit) :
    ∃ a ∈ s.assets, a.id = hit.assetId ∧ a.eventId = eventId := by
  unfold GalleryStore.candidate at h
  obtain ⟨f, -, h⟩ := Option.bind_eq_some_iff.mp h
  obtain ⟨a, ha, h⟩ := Option.bind_eq_some_iff.mp h
  obtain ⟨hmem, hid⟩ := GalleryStore.asset_mem ha
  split at h
  · rename_i hlive
    cases h
    exact ⟨a, hmem, hid, hlive.1⟩
  · cases h

/-- The best hits name assets that were hit. -/
theorem assetId_noteBest {P : AssetId → Prop} {best hits : List FaceSearchResult}
    (hbest : ∀ b ∈ best, P b.assetId) (hhits : ∀ hit ∈ hits, P hit.assetId) :
    ∀ b ∈ hits.foldl Faces.noteBest best, P b.assetId := by
  induction hits generalizing best with
  | nil => exact hbest
  | cons hit hits ih =>
    refine ih (fun b hb => ?_) fun b hb => hhits b (List.mem_cons_of_mem hit hb)
    unfold Faces.noteBest at hb
    split at hb
    · obtain ⟨before, hbefore, rfl⟩ := List.mem_map.mp hb
      split
      · exact hhits hit List.mem_cons_self
      · exact hbest before hbefore
    · rcases List.mem_append.mp hb with hb | hb
      · exact hbest b hb
      · rw [List.mem_singleton.mp hb]
        exact hhits hit List.mem_cons_self

theorem unique_event {rows : List (ℕ × EventId)} (hids : (rows.map Prod.fst).Nodup) {i : ℕ}
    {d e : EventId} (hd : (i, d) ∈ rows) (he : (i, e) ∈ rows) : d = e :=
  congrArg Prod.snd (List.inj_on_of_nodup_map hids hd he rfl)

/-- What a search finds is of the participant's event. -/
theorem within_matchesFor (h : s.links.Sound) {p : Participant} (hp : p ∈ s.participants)
    {found : List (FaceId × ℚ)} {m : ParticipantMatch} (hm : m ∈ s.matchesFor p found) :
    s.links.Within (pairOf m) := by
  obtain ⟨b, hb, rfl⟩ := List.mem_map.mp hm
  have hpLink : (p.id, p.eventId) ∈ s.links.participants :=
    List.mem_map_of_mem (f := fun p : Participant => (p.id, p.eventId)) hp
  have hhits : ∀ hit ∈ found.filterMap (fun hit => s.candidate p.eventId hit.1 hit.2),
      (hit.assetId, p.eventId) ∈ s.links.assets := by
    intro hit hhit
    obtain ⟨_, -, hcandidate⟩ := List.mem_filterMap.mp hhit
    obtain ⟨a, ha, haid, haevent⟩ := candidate_eq_some hcandidate
    exact List.mem_map.mpr ⟨a, ha, by rw [haid, haevent]⟩
  have hasset : (b.assetId, p.eventId) ∈ s.links.assets :=
    assetId_noteBest (P := fun id => (id, p.eventId) ∈ s.links.assets)
      (fun b hb => absurd hb List.not_mem_nil) hhits b hb
  refine ⟨h.participantsIssued (p.id, p.eventId) hpLink,
    h.assetsIssued (b.assetId, p.eventId) hasset,
    fun d e hd he => ?_⟩
  rw [unique_event h.participantIds hd hpLink, unique_event h.assetIds he hasset]

theorem sound_searchMatches (h : s.links.Sound) (participantId : ParticipantId)
    (found : List (FaceId × ℚ)) : (s.apply (.searchMatches participantId found)).links.Sound := by
  rw [GalleryStore.apply]
  cases hfound : s.participant participantId with
  | none => exact h
  | some p =>
    refine h.note ⟨rfl, rfl, rfl⟩ ⟨rfl, rfl, rfl⟩ (fun m hm => .inl hm) fun m hm => ?_
    change m ∈ (s.searched ++ [s.matchesFor p found]).flatten.map pairOf at hm
    rw [List.flatten_append, List.map_append, List.flatten_singleton] at hm
    rcases List.mem_append.mp hm with hm | hm
    · exact h.searched m hm
    · obtain ⟨row, hrow, rfl⟩ := List.mem_map.mp hm
      exact within_matchesFor h (List.mem_of_find?_eq_some hfound) hrow

theorem sound_insertMatches (h : s.links.Sound) (index : ℕ) :
    (s.apply (.insertMatches index)).links.Sound := by
  rw [GalleryStore.apply]
  cases hinserts : s.searched[index]? with
  | none => exact h
  | some inserts =>
    have hpending : ∀ m ∈ inserts, pairOf m ∈ s.links.searched := fun m hm =>
      List.mem_map_of_mem (List.mem_flatten.mpr ⟨inserts, List.mem_of_getElem? hinserts, hm⟩)
    have hrest : ((s.searched.eraseIdx index).flatten.map pairOf) ⊆ s.links.searched := by
      intro m hm
      obtain ⟨row, hrow, rfl⟩ := List.mem_map.mp hm
      obtain ⟨rows, hrows, hmem⟩ := List.mem_flatten.mp hrow
      exact List.mem_map_of_mem (List.mem_flatten.mpr ⟨rows, List.mem_of_mem_eraseIdx hrows, hmem⟩)
    simp only [GalleryStore.insertMatches]
    split
    · rename_i hall
      refine h.note ⟨rfl, rfl, rfl⟩ ⟨rfl, rfl, rfl⟩ (fun m hm => ?_) fun m hm =>
        h.searched m (hrest hm)
      obtain ⟨row, hrow, rfl⟩ := List.mem_map.mp hm
      rcases Faces.mem_addMatch hrow with hrow | hrow
      · exact .inl (List.mem_map_of_mem hrow)
      · have hthere := List.all_eq_true.mp hall row hrow
        simp only [decide_eq_true_eq] at hthere
        obtain ⟨a, ha⟩ := Option.isSome_iff_exists.mp hthere.2.1
        obtain ⟨hmem, hid⟩ := GalleryStore.asset_mem ha
        refine .inr ⟨⟨a.eventId, List.mem_map.mpr ⟨a, hmem, ?_⟩⟩, h.searched _ (hpending row hrow)⟩
        rw [hid]
        rfl
    · exact h.note ⟨rfl, rfl, rfl⟩ ⟨rfl, rfl, rfl⟩ (fun m hm => .inl hm) fun m hm =>
        h.searched m (hrest hm)

theorem sound_upsertParticipant (h : s.links.Sound) (dto : ParticipantUpsert) :
    (s.upsertParticipant dto).links.Sound := by
  simp only [GalleryStore.upsertParticipant]
  split
  · refine h.note ⟨rfl, rfl, map_kept (fun p => ?_) s.participants⟩ ⟨rfl, rfl, rfl⟩
      (fun m hm => .inl hm) h.searched
    split
    · rfl
    · rfl
  · exact h.grow [] [dto.eventId] (List.append_nil _).symm
      List.map_append (Nat.zero_le 1) le_rfl rfl rfl rfl rfl rfl rfl

/-- Every change keeps the links sound. -/
theorem sound_apply (h : s.links.Sound) (change : Change) : (s.apply change).links.Sound := by
  have hkept : ∀ {s' : GalleryStore}, s'.links.assets = s.links.assets →
      s'.links.participants = s.links.participants → s'.links.faces = s.links.faces →
      s'.links.matched = s.links.matched → s'.links.searched = s.links.searched →
      s'.nextAsset = s.nextAsset ∧ s'.nextFace = s.nextFace ∧
        s'.nextParticipant = s.nextParticipant → s'.links.Sound := by
    intro s' hassets hparticipants hfaces hmatched hsearched hnext
    exact h.note ⟨hassets, hfaces, hparticipants⟩ hnext (fun m hm => .inl (hmatched ▸ hm))
      fun m hm => h.searched m (hsearched ▸ hm)
  cases change with
  | createOrganization name => exact h
  | createEvent orgId name =>
    rw [GalleryStore.apply]
    split
    · exact h
    · exact h
  | updateEvent eventId dto => exact h
  | softDeleteEvent eventId => exact h
  | removeEvent eventId => exact sound_removeEvent h eventId
  | createAsset eventId type originalFilename storageKey =>
    rw [GalleryStore.apply]
    cases s.event eventId with
    | none => exact h
    | some event =>
      exact h.grow [eventId] [] List.map_append
        (List.append_nil _).symm le_rfl (Nat.zero_le 1) rfl rfl rfl rfl rfl rfl
  | updateAsset assetId dto =>
    refine hkept (map_kept (fun a => ?_) s.assets) rfl rfl rfl rfl ⟨rfl, rfl, rfl⟩
    split
    · rfl
    · rfl
  | upsertFile file =>
    rw [GalleryStore.apply, GalleryStore.upsertFile]
    split
    · split
      · exact h
      · exact h
    · exact h
  | deleteMany eventId ids =>
    refine hkept (map_kept (fun a => ?_) s.assets) rfl rfl rfl rfl ⟨rfl, rfl, rfl⟩
    split
    · rfl
    · rfl
  | refreshFaces facesToAdd faceIdsToRemove =>
    rw [GalleryStore.apply]
    split
    · exact sound_addFaces (sound_removeFaces h faceIdsToRemove) facesToAdd
    · exact h
  | createPerson eventId faceAssetFaceId =>
    rw [GalleryStore.apply]
    split
    · exact h
    · exact h
  | updatePerson eventId personId dto => exact h
  | reassignFaces faceIds newPersonId =>
    rw [GalleryStore.apply]
    split
    · refine hkept rfl rfl (map_kept (fun f => ?_) s.faces) rfl rfl ⟨rfl, rfl, rfl⟩
      split
      · rfl
      · rfl
    · exact h
  | deletePersons ids =>
    refine hkept rfl rfl (map_kept (fun f => ?_) s.faces) rfl rfl ⟨rfl, rfl, rfl⟩
    rfl
  | upsertParticipant dto =>
    rw [GalleryStore.apply]
    split
    · exact sound_upsertParticipant h dto
    · exact h
  | updateParticipant participantId dto =>
    refine hkept rfl (map_kept (fun p => ?_) s.participants) rfl rfl rfl ⟨rfl, rfl, rfl⟩
    split
    · rfl
    · rfl
  | softDeleteAndScrub participantId =>
    refine hkept rfl (map_kept (fun p => ?_) s.participants) rfl rfl rfl ⟨rfl, rfl, rfl⟩
    split
    · rfl
    · rfl
  | eraseParticipant participantId => exact sound_eraseParticipant h participantId
  | searchMatches participantId found => exact sound_searchMatches h participantId found
  | insertMatches index => exact sound_insertMatches h index
  | tick now => exact h

/-- The links are sound after any changes. -/
theorem sound_after (changes : List Change) : (after changes).links.Sound := by
  have hrun : ∀ (changes : List Change) (s : GalleryStore), s.links.Sound →
      (changes.foldl GalleryStore.apply s).links.Sound := by
    intro changes
    induction changes with
    | nil => exact fun _ h => h
    | cons change changes ih => exact fun s h => ih _ (sound_apply h change)
  refine hrun changes {} ⟨List.nodup_nil, List.nodup_nil, List.nodup_nil, ?_, ?_, ?_, ?_, ?_, ?_⟩
  all_goals exact fun _ hmem => absurd hmem List.not_mem_nil

end Changes

end EventLens.Galleries

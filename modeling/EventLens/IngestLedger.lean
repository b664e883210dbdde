import EventLens.ImportLedger
import EventLens.IngestHands
import EventLens.IngestQuota
import Mathlib

/-!
The asset table, the bucket and the staged files as one ledger. Uploads and
cloud imports, deletions, event removals and the cleanup jobs that these queue
run side by side and any service may fail: every live asset keeps its object, and
the object is the content that the row names, unless the removal of its event
has queued the cleanup of the event's prefix; live assets of an event have
different content; an upload that was answered names an asset with the uploaded
content, or the event is gone.
-/

namespace EventLens.Ingest

open Programs Contract
open Import (ImportOp ImportRes ImportCall ImportError ImportItem ItemId Extension stagingPath
  originalKey stagingPath_injective stagingPath_marked originalKey_injective toString_injective)

/-! Files and objects. -/

section Objects

variable {name content : String} {objects : List (String × String)} {object : String × String}

theorem mem_putObject : object ∈ putObject name content objects ↔
    (object ∈ objects ∧ object.1 ≠ name) ∨ object = (name, content) := by
  simp [putObject]

theorem mem_removeObjects {names : List String} :
    object ∈ removeObjects names objects ↔ object ∈ objects ∧ object.1 ∉ names := by
  simp [removeObjects]

theorem putObject_nodup (h : (objects.map Prod.fst).Nodup) :
    ((putObject name content objects).map Prod.fst).Nodup := by
  rw [putObject, List.map_append]
  refine (h.sublist (List.filter_sublist.map _)).append (List.nodup_singleton _) ?_
  intro key hkey hname
  obtain ⟨object, hobject, rfl⟩ := List.mem_map.mp hkey
  have hne := of_decide_eq_true (List.mem_filter.mp hobject).2
  exact hne (List.mem_singleton.mp hname)

theorem removeObjects_nodup {names : List String} (h : (objects.map Prod.fst).Nodup) :
    ((removeObjects names objects).map Prod.fst).Nodup :=
  h.sublist (List.filter_sublist.map _)

end Objects

section Staging

variable {s : IngestStore} {path other content : String}

theorem stagedFile_put : stagedFile { s with staged := putObject path content s.staged } path =
    some content := by
  have hnone :
    (s.staged.filter (fun file => file.1 ≠ path)).find? (fun file => file.1 = path) = none := by
    simp [List.find?_eq_none]
  simp only [stagedFile, putObject, List.find?_append, hnone]
  simp

theorem stagedFile_put_ne (h : other ≠ path) :
    stagedFile { s with staged := putObject path content s.staged } other = stagedFile s other := by
  have hfilter : (s.staged.filter (fun file => file.1 ≠ path)).find? (fun file => file.1 = other) =
      s.staged.find? (fun file => file.1 = other) := by
    rw [List.find?_filter]
    congr 1
    funext file
    by_cases hfile : file.1 = other
    · simp [hfile, h]
    · simp [hfile]
  simp only [stagedFile, putObject, List.find?_append, hfilter]
  simp [Ne.symm h]

theorem stagedFile_remove : stagedFile { s with staged := removeObjects [path] s.staged } path =
    none := by
  simp [stagedFile, removeObjects]

theorem stagedFile_remove_ne (h : other ≠ path) :
    stagedFile { s with staged := removeObjects [path] s.staged } other = stagedFile s other := by
  have hfilter : (removeObjects [path] s.staged).find? (fun file => file.1 = other) =
      s.staged.find? (fun file => file.1 = other) := by
    rw [removeObjects, List.find?_filter]
    congr 1
    funext file
    by_cases hfile : file.1 = other
    · simp [hfile, h]
    · simp [hfile]
  simp only [stagedFile, hfilter]

theorem stagedFile_new (h : freshPath s path = true) :
    stagedFile { s with staged := s.staged ++ [(path, content)] } path = some content := by
  have hnone : s.staged.find? (fun file => file.1 = path) = none := by
    have hall := List.all_eq_true.mp (Bool.and_eq_true_iff.mp h).1
    refine List.find?_eq_none.mpr fun file hfile hsame => ?_
    exact absurd (of_decide_eq_true hsame) (of_decide_eq_true (hall file hfile))
  simp only [stagedFile, List.find?_append, hnone]
  simp

theorem stagedFile_new_ne (h : other ≠ path) :
    stagedFile { s with staged := s.staged ++ [(path, content)] } other = stagedFile s other := by
  simp [stagedFile, List.find?_append, Ne.symm h]

end Staging

/-! The ledger. -/

/-- The id is a number that was given out. -/
def Numbered (s : IngestStore) (id : String) : Prop := ∃ n < s.nextUuid, id = toString n

/-- The event is not there, and its id will not be given out again. -/
def Gone (s : IngestStore) (eventId : String) : Prop :=
  Issued s eventId ∧ ∀ event ∈ s.events, event.id ≠ eventId

/-- The asset of this id is in the event with this content, or the event is
gone. -/
def Recorded (s : IngestStore) (eventId checksum id : String) : Prop :=
  (∃ a ∈ s.assets, a.id = id ∧ a.eventId = eventId ∧ a.checksum = checksum) ∨ Gone s eventId

/-- No two live assets of an event have the same content. -/
def Single (assets : List AssetRow) : Prop :=
  assets.Pairwise (fun a b => a.deleted = false → b.deleted = false → a.eventId = b.eventId →
    a.checksum ≠ b.checksum)

/-- The original of the asset is kept under the asset's own key. -/
def Named (a : AssetRow) : Prop :=
  ∃ orgId ext, Extension ext ∧ a.storageKey = originalKey orgId a.eventId a.id ext

/-- No removal has queued the cleanup of a prefix of this key. -/
def Kept (s : IngestStore) (key : String) : Prop :=
  ∀ pfx, Cleanup.cleanupPrefix pfx ∈ s.cleanups → ¬ pfx.toList <+: key.toList

/-- The object is in the bucket with this content, or its prefix is cleaned up. -/
def Backed (s : IngestStore) (key content : String) : Prop :=
  Kept s key → (key, content) ∈ s.bucket

/-- The tables and the bucket agree. -/
structure Stocked (s : IngestStore) : Prop where
  catalogued : Catalogued s
  homes : ∀ a ∈ s.assets, ∃ event ∈ s.events, event.id = a.eventId
  named : ∀ a ∈ s.assets, Named a
  single : Single s.assets
  objects : ∀ a ∈ s.assets, a.deleted = false → Backed s a.storageKey a.checksum
  keys : (s.bucket.map Prod.fst).Nodup
  answered : ∀ eventId file result,
    (IngestCall.uploadAsset eventId file, IngestReply.uploaded result) ∈ s.answered →
      Recorded s eventId file.checksum result.id

/-- The tables and the bucket agree, and asset ids are the assets' own. -/
structure Coherent (s : IngestStore) : Prop extends Stocked s where
  ids : (s.assets.map AssetRow.id).Nodup
  numbered : ∀ a ∈ s.assets, Numbered s a.id

/-- The id that a call has drawn and not made a row of. -/
def Stage.unspent : Stage → Option String
  | .drawn _ _ id | .placed _ _ id _ | .lost _ id _ => some id
  | _ => none

/-- How many rows and calls have the id. -/
def spent (S : Multiset HandNote) (s : IngestStore) (id : String) : ℕ :=
  (s.assets.map AssetRow.id).count id + S.countP (fun g => g.1.unspent = some id)

def Ids (S : Multiset HandNote) (s : IngestStore) : Prop :=
  ∀ id, spent S s id ≤ 1 ∧ (0 < spent S s id → Numbered s id)

/-- A path that no import uses. -/
def Unmarked (path : String) : Prop := "import-".toList.isPrefixOf path.toList = false

/-- What each item's file holds, `f`, with the files that are staged: those of
the imports hold what their items' files do, those of the uploads in progress
are there and their own. -/
structure Files (f : ItemId → Option String) (S : Multiset HandNote) (s : IngestStore) : Prop where
  items : ∀ i ∈ s.items, i.id < s.nextItemId ∧ remoteFile s i.remoteId = f i.id
  bounded : ∀ x, s.nextItemId ≤ x → f x = none
  staged : ∀ x content, stagedFile s (stagingPath x) = some content → f x = some content
  present : ∀ g ∈ S, ∀ path ∈ g.2.path, Unmarked path → ∃ content, stagedFile s path = some content
  apart : ∀ path, Unmarked path → S.countP (fun g => g.2.path = some path) ≤ 1

/-- The content of the load is that of the file it comes from. -/
def Load.Sourced (f : ItemId → Option String) (s : IngestStore) (own : Option String) (l : Load) :
    Prop :=
  match l.origin with
  | .upload path => own = some path ∧ Unmarked path ∧ stagedFile s path = some l.checksum
  | .item x => f x = some l.checksum

/-- What the stage of a call says about files, objects and rows. -/
def Stage.Sourced (f : ItemId → Option String) (s : IngestStore) (own : Option String) :
    Stage → Prop
  | .asked _ file => own = some file.stagingPath ∧ Unmarked file.stagingPath ∧
      stagedFile s file.stagingPath = some file.checksum
  | .chosen x item | .admitted x item _ | .fetched x item _ =>
      x < s.nextItemId ∧ remoteFile s item.remoteId = f x
  | .hashed x _ _ checksum => f x = some checksum
  | .looking l | .weighing l _ _ | .unseen l _ | .drawn l _ _ => l.Sourced f s own
  | .placed l _ id key => OriginalOf l id key ∧ Backed s key l.checksum
  | .lost l id key => OriginalOf l id key
  | .stored l id _ => Recorded s l.eventId l.checksum id
  | .linking l winner => ∀ id ∈ winner, Recorded s l.eventId l.checksum id
  | _ => True

structure Ledger (f : ItemId → Option String) (S : Multiset HandNote) (s : IngestStore) : Prop where
  stocked : Stocked s
  ids : Ids S s
  files : Files f S s
  sourced : ∀ g ∈ S, g.1.Sourced f s g.2.path

/-- A live asset has this id, or a call may still give it to one. -/
def Held (S : Multiset HandNote) (s : IngestStore) (id : String) : Prop :=
  (∃ a ∈ s.assets, a.id = id ∧ a.deleted = false) ∨ ∃ g ∈ S, g.1.unspent = some id

/-- The key is that of the asset of this id. -/
def KeyOf (id key : String) : Prop :=
  ∃ orgId eventId ext, Extension ext ∧ key = originalKey orgId eventId id ext

/-- The key of an asset that was deleted. -/
def Retired (S : Multiset HandNote) (s : IngestStore) (key : String) : Prop :=
  ∃ id, KeyOf id key ∧ Numbered s id ∧ ¬ Held S s id

/-- What a cleanup job is to delete are objects of deleted assets, also while
its call has yet to queue it, and every job that runs was queued. -/
structure Spared (S : Multiset HandNote) (s : IngestStore) : Prop where
  queued : ∀ keys, Cleanup.cleanupKeys keys ∈ s.cleanups → ∀ key ∈ keys, Retired S s key
  removed : ∀ g ∈ S, ∀ key ∈ g.2.removed, Retired S s key
  jobs : ∀ g ∈ S, ∀ job ∈ g.2.job, job ∈ s.cleanups

section Parts

variable {f f' : ItemId → Option String} {s s' : IngestStore} {g g' : HandNote}
  {N S S' : Multiset HandNote}

theorem Ledger.coherent (h : Ledger f S s) : Coherent s where
  toStocked := h.stocked
  ids := List.nodup_iff_count_le_one.mpr fun id => (Nat.le_add_right _ _).trans (h.ids id).1
  numbered a ha := by
    have hcount : 0 < (s.assets.map AssetRow.id).count a.id :=
      List.count_pos_iff.mpr (List.mem_map_of_mem ha)
    exact (h.ids a.id).2 (hcount.trans_le (Nat.le_add_right _ _))

theorem Numbered.mono {id : String} (h : Numbered s id) (hs : s.nextUuid ≤ s'.nextUuid) :
    Numbered s' id := by
  obtain ⟨n, hn, hid⟩ := h
  exact ⟨n, hn.trans_le hs, hid⟩

theorem spent_cons (id : String) :
    spent (g ::ₘ N) s id = spent N s id + if g.1.unspent = some id then 1 else 0 := by
  rw [spent, Multiset.countP_cons, ← Nat.add_assoc]
  rfl

theorem Ids.mono (h : Ids S s) (hspent : ∀ id, spent S' s' id ≤ spent S s id)
    (hs : s.nextUuid ≤ s'.nextUuid) : Ids S' s' := by
  intro id
  obtain ⟨hone, hnumbered⟩ := h id
  exact ⟨(hspent id).trans hone, fun hpos => (hnumbered (hpos.trans_le (hspent id))).mono hs⟩

/-- An id that a call has drawn is that of no row. -/
theorem Ids.unused {id : String} (h : Ids (g ::ₘ N) s) (hg : g.1.unspent = some id) :
    spent N s id = 0 := by
  have hone := (h id).1
  rw [spent_cons, if_pos hg] at hone
  omega

theorem Ids.drawn {id : String} (h : Ids (g ::ₘ N) s) (hg : g.1.unspent = some id) :
    Numbered s id := by
  refine (h id).2 ?_
  rw [spent_cons, if_pos hg]
  omega

theorem Gone.mono {eventId : String} (h : Gone s eventId) (hs : Extends s s') :
    Gone s' eventId := by
  refine ⟨h.1.mono hs, fun event hevent hid => ?_⟩
  rcases hs.events event hevent with hold | hnew
  · exact h.2 event hold hid
  · exact absurd (h.1 _ (hid.symm.trans hnew)) (lt_irrefl _)

theorem OriginalOf.keyOf {l : Load} {id key : String} (h : OriginalOf l id key) : KeyOf id key := by
  obtain ⟨ext, hext, hkey⟩ := h
  exact ⟨l.orgId, l.eventId, ext, hext, hkey⟩

theorem Named.keyOf {a : AssetRow} (h : Named a) : KeyOf a.id a.storageKey := by
  obtain ⟨orgId, ext, hext, hkey⟩ := h
  exact ⟨orgId, a.eventId, ext, hext, hkey⟩

/-- Keys of different assets differ. -/
theorem key_ne {id id' key key' : String} (h : KeyOf id key) (hid : Numbered s id)
    (h' : KeyOf id' key') (hid' : Numbered s id') (hne : id' ≠ id) : key' ≠ key := by
  obtain ⟨orgId, eventId, ext, hext, rfl⟩ := h
  obtain ⟨orgId', eventId', ext', hext', rfl⟩ := h'
  obtain ⟨n, -, rfl⟩ := hid
  obtain ⟨m, -, rfl⟩ := hid'
  intro hsame
  exact hne (congrArg toString (originalKey_injective hext' hext hsame))

theorem Kept.mono {key : String} (h : Kept s' key) (hs : s.cleanups ⊆ s'.cleanups) : Kept s key :=
  fun pfx hpfx => h pfx (hs hpfx)

theorem Backed.mono {key content : String} (h : Backed s key content)
    (hs : s.cleanups ⊆ s'.cleanups)
    (hbucket : (key, content) ∈ s.bucket → (key, content) ∈ s'.bucket) : Backed s' key content :=
  fun hkept => hbucket (h (hkept.mono hs))

/-- Sources and records outlive a change that leaves them alone. -/
theorem Stage.Sourced.mono {own : Option String} {k : Stage} (h : k.Sourced f s own)
    (hbounded : ∀ x, s.nextItemId ≤ x → f x = none) (hnext : s.nextItemId ≤ s'.nextItemId)
    (hf : ∀ x < s.nextItemId, f' x = f x) (hremote : s'.remote = s.remote)
    (hstaged : ∀ path, own = some path → Unmarked path → stagedFile s' path = stagedFile s path)
    (hbucket : ∀ l used id key, k = .placed l used id key → Backed s key l.checksum →
      Backed s' key l.checksum)
    (hrecorded : ∀ eventId checksum id, Recorded s eventId checksum id →
      Recorded s' eventId checksum id) : k.Sourced f' s' own := by
  have hknown : ∀ x content, f x = some content → f' x = some content := by
    intro x content hx
    by_cases hlt : x < s.nextItemId
    · rw [hf x hlt, hx]
    · rw [hbounded x (Nat.le_of_not_lt hlt)] at hx
      cases hx
  have hitem : ∀ x remoteId, x < s.nextItemId ∧ remoteFile s remoteId = f x →
      x < s'.nextItemId ∧ remoteFile s' remoteId = f' x := by
    rintro x remoteId ⟨hlt, hfile⟩
    refine ⟨hlt.trans_le hnext, ?_⟩
    rw [hf x hlt, ← hfile, remoteFile, remoteFile, hremote]
  have hload : ∀ l : Load, l.Sourced f s own → l.Sourced f' s' own := by
    intro l hl
    unfold Load.Sourced at hl ⊢
    split
    · rename_i path horigin
      rw [horigin] at hl
      obtain ⟨hown, hunmarked, hcontent⟩ := hl
      exact ⟨hown, hunmarked, (hstaged path hown hunmarked).trans hcontent⟩
    · rename_i x horigin
      rw [horigin] at hl
      exact hknown x _ hl
  cases k with
  | asked eventId file =>
    obtain ⟨hown, hunmarked, hcontent⟩ := h
    exact ⟨hown, hunmarked, (hstaged _ hown hunmarked).trans hcontent⟩
  | chosen x item => exact hitem x _ h
  | admitted x item job => exact hitem x _ h
  | fetched x item job => exact hitem x _ h
  | hashed x item job checksum => exact hknown x _ h
  | looking l => exact hload l h
  | weighing l org used => exact hload l h
  | unseen l used => exact hload l h
  | drawn l used id => exact hload l h
  | placed l used id key => exact ⟨h.1, hbucket l used id key rfl h.2⟩
  | lost l id key => exact h
  | stored l id key => exact hrecorded _ _ _ h
  | linking l winner => exact fun id hid => hrecorded _ _ _ (h id hid)
  | _ => trivial

/-- Nothing changes but jobs, queues, further cleanups and the columns of items
that name no file. -/
structure Still (s s' : IngestStore) : Prop where
  catalogue : SameCatalogue s s'
  bucket : s'.bucket = s.bucket
  cleanups : s.cleanups ⊆ s'.cleanups
  staged : s'.staged = s.staged
  remote : s'.remote = s.remote
  answered : s'.answered = s.answered
  nextItemId : s'.nextItemId = s.nextItemId
  items : ∀ i ∈ s'.items, ∃ i₀ ∈ s.items, i₀.id = i.id ∧ i₀.remoteId = i.remoteId

theorem recorded_mono {eventId checksum id : String}
    (hassets : ∀ a ∈ s.assets, ∃ a' ∈ s'.assets, a'.id = a.id ∧ a'.eventId = a.eventId ∧
      a'.checksum = a.checksum) (hs : Extends s s') (h : Recorded s eventId checksum id) :
    Recorded s' eventId checksum id := by
  rcases h with ⟨a, ha, hid, hevent, hchecksum⟩ | hgone
  · obtain ⟨a', ha', hid', hevent', hchecksum'⟩ := hassets a ha
    exact .inl ⟨a', ha', hid'.trans hid, hevent'.trans hevent, hchecksum'.trans hchecksum⟩
  · exact .inr (hgone.mono hs)

theorem SameCatalogue.recorded {eventId checksum id : String} (hs : SameCatalogue s s')
    (h : Recorded s eventId checksum id) : Recorded s' eventId checksum id :=
  recorded_mono (fun a ha => ⟨a, hs.assets ▸ ha, rfl, rfl, rfl⟩) hs.extends h

theorem Still.stocked (hs : Still s s') (h : Stocked s) : Stocked s' where
  catalogued := hs.catalogue.catalogued h.catalogued
  homes := by
    rw [hs.catalogue.assets, hs.catalogue.events]
    exact h.homes
  named := by
    rw [hs.catalogue.assets]
    exact h.named
  single := by
    rw [hs.catalogue.assets]
    exact h.single
  objects a ha hlive := by
    rw [hs.catalogue.assets] at ha
    exact (h.objects a ha hlive).mono hs.cleanups fun hmem => hs.bucket ▸ hmem
  keys := by
    rw [hs.bucket]
    exact h.keys
  answered eventId file result hmem := by
    rw [hs.answered] at hmem
    exact hs.catalogue.recorded (h.answered eventId file result hmem)

theorem Still.ledger (hs : Still s s') (h : Ledger f S s) : Ledger f S s' where
  stocked := hs.stocked h.stocked
  ids := by
    refine h.ids.mono (fun id => ?_) hs.catalogue.nextUuid
    rw [spent, hs.catalogue.assets, spent]
  files := by
    have hfile : ∀ path, stagedFile s' path = stagedFile s path := by
      intro path
      rw [stagedFile, hs.staged, stagedFile]
    refine ⟨fun i hi => ?_, ?_, ?_, ?_, h.files.apart⟩
    · obtain ⟨i₀, hi₀, hid, hremote⟩ := hs.items i hi
      have hknown := h.files.items i₀ hi₀
      rw [hid, hremote, remoteFile] at hknown
      rw [hs.nextItemId, remoteFile, hs.remote]
      exact hknown
    · rw [hs.nextItemId]
      exact h.files.bounded
    · intro x content hcontent
      rw [hfile] at hcontent
      exact h.files.staged x content hcontent
    · intro g hg path hpath hunmarked
      rw [hfile]
      exact h.files.present g hg path hpath hunmarked
  sourced g hg := by
    refine (h.sourced g hg).mono h.files.bounded hs.nextItemId.ge (fun _ _ => rfl) hs.remote
      (fun path _ _ => ?_)
      (fun l used id key _ hbacked => hbacked.mono hs.cleanups fun hmem => hs.bucket ▸ hmem)
      fun _ _ _ => hs.catalogue.recorded
    rw [stagedFile, hs.staged, stagedFile]

/-- A call goes on, and what it holds stays what it was. -/
theorem Ledger.advance (h : Ledger f (g ::ₘ N) s) (hpath : g'.2.path = g.2.path)
    (hunspent : g'.1.unspent = none ∨ g'.1.unspent = g.1.unspent)
    (hsourced : g'.1.Sourced f s g'.2.path) : Ledger f (g' ::ₘ N) s where
  stocked := h.stocked
  ids := by
    refine h.ids.mono (fun id => ?_) le_rfl
    rw [spent_cons, spent_cons]
    rcases hunspent with hnone | hsame
    · rw [hnone, if_neg (by simp)]
      omega
    · rw [hsame]
  files := by
    refine ⟨h.files.items, h.files.bounded, h.files.staged, fun k hk path hkpath hunmarked => ?_,
      fun path hunmarked => ?_⟩
    · rcases Multiset.mem_cons.mp hk with rfl | hk
      · rw [hpath] at hkpath
        exact h.files.present g (Multiset.mem_cons_self g N) path hkpath hunmarked
      · exact h.files.present k (Multiset.mem_cons_of_mem hk) path hkpath hunmarked
    · have hone := h.files.apart path hunmarked
      rw [Multiset.countP_cons] at hone ⊢
      rw [hpath]
      exact hone
  sourced k hk := by
    rcases Multiset.mem_cons.mp hk with rfl | hk
    · exact hsourced
    · exact h.sourced k (Multiset.mem_cons_of_mem hk)

/-! Statements that stir nothing. -/

/-- Statements on files, objects, assets, events or the list of items, and the
drawing of an id. -/
def IngestOp.stirs : IngestOp → Bool
  | .createAsset _ | .createEvent _ _ | .hardDelete _ _ | .softDeleteMany _ _
  | .imports (.downloadToFile _ _ _) | .imports (.putFile _ _ _) | .imports (.createAsset _)
  | .imports (.deleteKeys _) | .imports (.removeFile _) | .imports (.insertItems _)
  | .imports .randomUUID => true
  | _ => false

theorem still_self : Still s s :=
  ⟨sameCatalogue_self, rfl, fun _ hjob => hjob, rfl, rfl, rfl, rfl,
    fun i hi => ⟨i, hi, rfl, rfl⟩⟩

theorem still_world (w : Import.ImportWorld) (hnext : w.nextItemId = s.nextItemId)
    (hitems : ∀ i ∈ w.items, ∃ i₀ ∈ s.items, i₀.id = i.id ∧ i₀.remoteId = i.remoteId) :
    Still s { s with toImportWorld := w } :=
  ⟨⟨rfl, rfl, rfl, le_rfl⟩, rfl, fun _ hjob => hjob, rfl, rfl, rfl, hnext, hitems⟩

theorem items_updateItems {k : ItemId} {change : ImportItem → ImportItem}
    (hid : ∀ i, (change i).id = i.id) (hremote : ∀ i, (change i).remoteId = i.remoteId) :
    ∀ i ∈ (s.updateItems k change).items, ∃ i₀ ∈ s.items, i₀.id = i.id ∧
      i₀.remoteId = i.remoteId := by
  intro i hi
  rcases mem_updateRow.mp hi with ⟨i₀, hi₀, -, rfl⟩ | ⟨hi, -⟩
  · exact ⟨i₀, hi₀, (hid i₀).symm, (hremote i₀).symm⟩
  · exact ⟨i, hi, rfl, rfl⟩

theorem still_imports {o : ImportOp} (ho : (IngestOp.imports o).stirs = false) (r : ImportRes o) :
    Still s (importedHandler o r s).2 := by
  have hsame : ∀ i ∈ s.items, ∃ i₀ ∈ s.items, i₀.id = i.id ∧ i₀.remoteId = i.remoteId :=
    fun i hi => ⟨i, hi, rfl, rfl⟩
  cases o with
  | downloadToFile token fileId path => cases ho
  | putFile path key mimeType => cases ho
  | createAsset asset => cases ho
  | deleteKeys keys => cases ho
  | removeFile path => cases ho
  | insertItems items => cases ho
  | randomUUID => cases ho
  | hashFile path =>
    rcases hashFile_cases path r s with ⟨e, he⟩ | ⟨content, -, he⟩
    · exact he ▸ still_self
    · exact he ▸ still_self
  | findByChecksum eventId checksum => cases r <;> exact still_self
  | repointItem k j dto =>
    refine still_world _ rfl (items_updateItems ?_ ?_)
    · intro i
      unfold Import.Repoint.apply
      split <;> rfl
    · intro i
      unfold Import.Repoint.apply
      split <;> rfl
  | markItem k dto => exact still_world _ rfl (items_updateItems (fun _ => rfl) fun _ => rfl)
  | queueImportFiles ks => cases r <;> exact still_world _ rfl hsame
  | _ => exact still_world _ rfl hsame

theorem still_handler {o : IngestOp} (ho : o.stirs = false) (r : IngestRes o) :
    Still s (ingestHandler o r s).2 := by
  cases o with
  | imports o => exact still_imports ho r
  | createAsset row => cases ho
  | createEvent orgId dto => cases ho
  | hardDelete orgId eventId => cases ho
  | softDeleteMany eventId ids => cases ho
  | queueCleanup job =>
    exact ⟨⟨rfl, rfl, rfl, le_rfl⟩, rfl, fun _ => List.mem_append_left _, rfl, rfl, rfl, rfl,
      fun i hi => ⟨i, hi, rfl, rfl⟩⟩
  | listObjects pfx cursor => cases r <;> exact still_self
  | _ => exact still_self

theorem findByChecksum_recorded {eventId checksum id : String}
    (h : (s.findByChecksum eventId checksum).map AssetRow.id = some id) :
    Recorded s eventId checksum id := by
  obtain ⟨a, hfound, rfl⟩ := Option.map_eq_some_iff.mp h
  have hmem := List.mem_of_find?_eq_some hfound
  have hrow := List.find?_some (p := fun a : AssetRow => a.eventId = eventId ∧
    a.checksum = checksum ∧ a.deleted = false) hfound
  obtain ⟨hevent, hchecksum, -⟩ := of_decide_eq_true hrow
  exact .inl ⟨a, hmem, rfl, hevent, hchecksum⟩

/-- What a look-up by checksum leads to. -/
theorem findByChecksum_cases (eventId checksum : String) (r : Except ImportError (Option String)) :
    (∃ e, (ingestHandler (.imports (.findByChecksum eventId checksum)) r s).1 = .error e) ∨
      ∃ found, (ingestHandler (.imports (.findByChecksum eventId checksum)) r s).1 = .ok found ∧
        ∀ id ∈ found, Recorded s eventId checksum id := by
  cases r with
  | error e => exact .inl ⟨e, rfl⟩
  | ok _ => exact .inr ⟨_, rfl, fun id hid => findByChecksum_recorded hid⟩

theorem Load.failed_sourced (own : Option String) (l : Load) :
    l.failed.unspent = none ∧ l.failed.Sourced f s own := by
  rw [Load.failed]
  split <;> exact ⟨rfl, trivial⟩

/-- The stage after a statement of an import that stirs nothing, up to the size
of its file. -/
theorem fetching_sourced {k : Stage} {own : Option String} {o : ImportOp} (r : ImportRes o)
    (hfiles : Files f S s) (hk : k.Sourced f s own) (hpermit : k.Permits (.imports o))
    (ho : (IngestOp.imports o).stirs = false)
    (hearly : (∃ x, k = .starting x) ∨ (∃ x item, k = .chosen x item) ∨
      (∃ x item job, k = .admitted x item job) ∨ (∃ x item job, k = .fetched x item job) ∨
      ∃ x item job checksum, k = .hashed x item job checksum) :
    (k.note ⟨.imports o, (importedHandler o r s).1⟩).unspent = none ∧
      (k.note ⟨.imports o, (importedHandler o r s).1⟩).Sourced f s own := by
  rcases hearly with ⟨x, rfl⟩ | ⟨x, item, rfl⟩ | ⟨x, item, job, rfl⟩ | ⟨x, item, job, rfl⟩ |
    ⟨x, item, job, checksum, rfl⟩
  · cases o with
    | getItem k =>
      obtain rfl : k = x := hpermit
      have hanswer : (importedHandler (.getItem k) r s).1 = findRow ImportItem.id k s.items := rfl
      rw [hanswer]
      cases hfound : findRow ImportItem.id k s.items with
      | none => exact ⟨rfl, trivial⟩
      | some item =>
        obtain ⟨hitem, rfl⟩ := mem_of_findRow hfound
        change (if item.status = .pending then _ else _ : Stage).unspent = none ∧
          (if item.status = .pending then _ else _ : Stage).Sourced f s own
        split
        · exact ⟨rfl, hfiles.items item hitem⟩
        · exact ⟨rfl, trivial⟩
    | _ => cases hpermit
  · cases o with
    | getJob j =>
      generalize (importedHandler (.getJob j) r s).1 = answer
      cases answer with
      | none => exact ⟨rfl, trivial⟩
      | some job =>
        change (if job.status = .cancelled then _ else _ : Stage).unspent = none ∧
          (if job.status = .cancelled then _ else _ : Stage).Sourced f s own
        split
        · exact ⟨rfl, trivial⟩
        · exact ⟨rfl, hk⟩
    | _ => cases hpermit
  · cases o with
    | requireAccount orgId accountId =>
      generalize (importedHandler (.requireAccount orgId accountId) r s).1 = answer
      cases answer with
      | ok account => exact ⟨rfl, hk⟩
      | error e => exact ⟨rfl, trivial⟩
    | getFreshAccessToken accountId =>
      generalize (importedHandler (.getFreshAccessToken accountId) r s).1 = answer
      cases answer with
      | ok token => exact ⟨rfl, hk⟩
      | error e => exact ⟨rfl, trivial⟩
    | makeStagingFolder =>
      generalize (importedHandler .makeStagingFolder r s).1 = answer
      cases answer with
      | ok _ => exact ⟨rfl, hk⟩
      | error e => exact ⟨rfl, trivial⟩
    | markItem y dto => exact ⟨rfl, hk⟩
    | downloadToFile token fileId path => cases ho
    | _ => cases hpermit
  · cases o with
    | hashFile path =>
      obtain rfl : path = stagingPath x := hpermit
      rcases hashFile_cases (stagingPath x) r s with ⟨e, he⟩ | ⟨content, hcontent, he⟩
      · rw [he]
        exact ⟨rfl, trivial⟩
      · rw [he]
        exact ⟨rfl, hfiles.staged x content hcontent⟩
    | _ => cases hpermit
  · cases o with
    | fileSize path =>
      generalize (importedHandler (.fileSize path) r s).1 = answer
      cases answer with
      | ok size => exact ⟨rfl, hk⟩
      | error e => exact ⟨rfl, trivial⟩
    | _ => cases hpermit

theorem weighing_sourced {l : Load} {org : Option Organization} {used : Option ℕ}
    {own : Option String} {o : IngestOp} (r : IngestRes o) (hl : l.Sourced f s own)
    (hpermit : (Stage.weighing l org used).Permits o) :
    ((Stage.weighing l org used).note ⟨o, r⟩).unspent = none ∧
      ((Stage.weighing l org used).note ⟨o, r⟩).Sourced f s own := by
  cases o with
  | getOrg k =>
    cases r with
    | none => exact ⟨rfl, trivial⟩
    | some found => exact ⟨rfl, hl⟩
  | getOrgStorageBytes k => exact ⟨rfl, hl⟩
  | countForOrg k =>
    cases org with
    | none => exact ⟨rfl, trivial⟩
    | some org =>
      cases used with
      | none => exact ⟨rfl, trivial⟩
      | some used =>
        change (if used + l.size ≤ (limitsFor org).storageBytes then _ else _ : Stage).unspent =
          none ∧
          (if used + l.size ≤ (limitsFor org).storageBytes then _ else _ : Stage).Sourced f s own
        split
        · exact ⟨rfl, hl⟩
        · exact ⟨rfl, trivial⟩
  | imports o => cases o <;> cases hpermit
  | _ => cases hpermit

theorem planning_sourced {orgId : String} {org : Option Organization} {own : Option String}
    {o : IngestOp} (r : IngestRes o) (hpermit : (Stage.planning orgId org).Permits o) :
    ((Stage.planning orgId org).note ⟨o, r⟩).unspent = none ∧
      ((Stage.planning orgId org).note ⟨o, r⟩).Sourced f s own := by
  cases o with
  | getOrg k => cases r <;> exact ⟨rfl, trivial⟩
  | getOrgStorageBytes k => exact ⟨rfl, trivial⟩
  | countForOrg k =>
    cases org with
    | none => exact ⟨rfl, trivial⟩
    | some org =>
      change (if r < (limitsFor org).events then _ else _ : Stage).unspent = none ∧
        (if r < (limitsFor org).events then _ else _ : Stage).Sourced f s own
      split <;> exact ⟨rfl, trivial⟩
  | imports o => cases o <;> cases hpermit
  | _ => cases hpermit

theorem looking_sourced {l : Load} {own : Option String} {o : IngestOp} (r : IngestRes o)
    (hl : l.Sourced f s own) (hpermit : (Stage.looking l).Permits o) :
    ((Stage.looking l).note ⟨o, (ingestHandler o r s).1⟩).unspent = none ∧
      ((Stage.looking l).note ⟨o, (ingestHandler o r s).1⟩).Sourced f s own := by
  cases o with
  | imports o =>
    cases o with
    | findByChecksum eventId checksum =>
      obtain ⟨rfl, rfl⟩ := hpermit
      rcases findByChecksum_cases (s := s) l.eventId l.checksum r with
        ⟨e, he⟩ | ⟨found, he, hfound⟩
      · rw [he]
        exact l.failed_sourced own
      · rw [he]
        cases found with
        | some existing => exact ⟨rfl, hfound⟩
        | none =>
          obtain ⟨eventId, orgId, checksum, size, origin⟩ := l
          cases origin <;> exact ⟨rfl, hl⟩
    | _ => cases hpermit
  | _ => cases hpermit

theorem stored_sourced {l : Load} {id key : String} {own : Option String} {o : IngestOp}
    (r : IngestRes o) (hk : (Stage.stored l id key).Sourced f s own)
    (hpermit : (Stage.stored l id key).Permits o) (ho : o.stirs = false) :
    ((Stage.stored l id key).note ⟨o, (ingestHandler o r s).1⟩).unspent = none ∧
      ((Stage.stored l id key).note ⟨o, (ingestHandler o r s).1⟩).Sourced f s own := by
  cases o with
  | imports o =>
    cases o with
    | queueAssetProcess assetId =>
      generalize (ingestHandler (.imports (.queueAssetProcess assetId)) r s).1 = answer
      cases answer with
      | ok _ => exact ⟨rfl, hk⟩
      | error e => exact l.failed_sourced own
    | removeFile path => cases ho
    | markItem k dto => exact ⟨rfl, trivial⟩
    | _ => cases hpermit
  | _ => cases hpermit

theorem cleared_sourced {l : Load} {own : Option String} {o : IngestOp} (r : IngestRes o)
    (hpermit : (Stage.cleared l).Permits o) (ho : o.stirs = false) :
    ((Stage.cleared l).note ⟨o, (ingestHandler o r s).1⟩).unspent = none ∧
      ((Stage.cleared l).note ⟨o, (ingestHandler o r s).1⟩).Sourced f s own := by
  cases o with
  | imports o =>
    cases o with
    | removeFile path => cases ho
    | findByChecksum eventId checksum =>
      obtain ⟨rfl, rfl⟩ := hpermit
      rcases findByChecksum_cases (s := s) l.eventId l.checksum r with
        ⟨e, he⟩ | ⟨found, he, hfound⟩
      · rw [he]
        exact l.failed_sourced own
      · rw [he]
        exact ⟨rfl, hfound⟩
    | _ => cases hpermit
  | _ => cases hpermit

/-- A statement that stirs nothing leads to a stage that is right about files,
objects and rows. -/
theorem noted_sourced {k : Stage} {own : Option String} {o : IngestOp} (r : IngestRes o)
    (hfiles : Files f S s) (hk : k.Sourced f s own) (hpermit : k.Permits o)
    (ho : o.stirs = false) :
    (k.note ⟨o, (ingestHandler o r s).1⟩).unspent = none ∧
      (k.note ⟨o, (ingestHandler o r s).1⟩).Sourced f s own := by
  cases k with
  | idle => exact ⟨rfl, trivial⟩
  | asked eventId file =>
    cases o with
    | getEvent k =>
      obtain rfl : k = eventId := hpermit
      change (Stage.note _ ⟨.getEvent k, s.getEvent k⟩).unspent = none ∧
        (Stage.note _ ⟨.getEvent k, s.getEvent k⟩).Sourced f s own
      cases s.getEvent k with
      | none => exact ⟨rfl, trivial⟩
      | some event => exact ⟨rfl, hk⟩
    | imports o => cases o <;> cases hpermit
    | _ => cases hpermit
  | starting x =>
    cases o with
    | imports o => exact fetching_sourced r hfiles hk hpermit ho (.inl ⟨x, rfl⟩)
    | _ => cases hpermit
  | chosen x item =>
    cases o with
    | imports o => exact fetching_sourced r hfiles hk hpermit ho (.inr (.inl ⟨x, item, rfl⟩))
    | _ => cases hpermit
  | admitted x item job =>
    cases o with
    | imports o =>
      exact fetching_sourced r hfiles hk hpermit ho (.inr (.inr (.inl ⟨x, item, job, rfl⟩)))
    | _ => cases hpermit
  | fetched x item job =>
    cases o with
    | imports o =>
      exact fetching_sourced r hfiles hk hpermit ho (.inr (.inr (.inr (.inl ⟨x, item, job, rfl⟩))))
    | _ => cases hpermit
  | hashed x item job checksum =>
    cases o with
    | imports o =>
      exact fetching_sourced r hfiles hk hpermit ho
        (.inr (.inr (.inr (.inr ⟨x, item, job, checksum, rfl⟩))))
    | _ => cases hpermit
  | looking l => exact looking_sourced r hk hpermit
  | weighing l org used => exact weighing_sourced _ hk hpermit
  | unseen l used =>
    cases o with
    | imports o =>
      cases o with
      | randomUUID => cases ho
      | _ => cases hpermit
    | _ => cases hpermit
  | drawn l used id =>
    cases o with
    | imports o =>
      cases o with
      | putFile path key mimeType => cases ho
      | _ => cases hpermit
    | _ => cases hpermit
  | placed l used id key =>
    cases o with
    | imports o =>
      cases o with
      | createAsset asset => cases ho
      | _ => cases hpermit
    | createAsset row => cases ho
    | _ => cases hpermit
  | stored l id key => exact stored_sourced r hk hpermit ho
  | lost l id key =>
    cases o with
    | imports o =>
      cases o with
      | deleteKeys keys => cases ho
      | _ => cases hpermit
    | _ => cases hpermit
  | cleared l => exact cleared_sourced r hpermit ho
  | linking l winner =>
    cases o with
    | imports o =>
      cases o with
      | removeFile path => cases ho
      | markItem k dto => exact ⟨rfl, trivial⟩
      | _ => cases hpermit
    | _ => cases hpermit
  | marked l x status assetId =>
    cases o with
    | imports o => cases o <;> exact ⟨rfl, trivial⟩
    | _ => cases hpermit
  | failed x =>
    cases o with
    | imports o => cases o <;> exact ⟨rfl, trivial⟩
    | _ => cases hpermit
  | planning orgId org => exact planning_sourced _ hpermit
  | planned orgId count =>
    cases o with
    | getBySlug slug => exact ⟨rfl, trivial⟩
    | createEvent k dto => cases ho
    | imports o => cases o <;> cases hpermit
    | _ => cases hpermit

/-- The staged file of a call changes hands only when it is removed. -/
theorem path_note {o : IngestOp} (ho : o.stirs = false) (h : Hand) (r : IngestRes o) :
    (h.note ⟨o, r⟩).path = h.path := by
  cases o with
  | imports o =>
    cases o with
    | removeFile path => cases ho
    | requireEvent eventId => cases r <;> rfl
    | _ => rfl
  | _ => rfl

theorem ledger_quiet {o : IngestOp} (r : IngestRes o) (h : Ledger f (g ::ₘ N) s)
    (hpermit : g.1.Permits o) (ho : o.stirs = false) :
    Ledger f ((stages.both hands).note g ⟨o, (ingestHandler o r s).1⟩ ::ₘ N)
      (ingestHandler o r s).2 := by
  obtain ⟨hunspent, hsourced⟩ := noted_sourced r h.files (h.sourced g (Multiset.mem_cons_self g N))
    hpermit ho
  have hpath := path_note ho g.2 (ingestHandler o r s).1
  refine (still_handler ho r).ledger (h.advance hpath (.inl hunspent) ?_)
  change Stage.Sourced f s (g.2.note ⟨o, (ingestHandler o r s).1⟩).path _
  rw [hpath]
  exact hsourced

/-! Files come and go. -/

theorem handler_imports (o : ImportOp) (r : ImportRes o) (s : IngestStore) :
    ingestHandler (.imports o) r s = importedHandler o r s := rfl

theorem unmarked_ne {path : String} (h : Unmarked path) (x : ItemId) : path ≠ stagingPath x := by
  intro heq
  rw [Unmarked, heq, stagingPath_marked] at h
  cases h

/-- An upload's file is staged for one call only. -/
theorem Files.own (h : Files f (g ::ₘ N) s) {path : String} (hunmarked : Unmarked path)
    (hg : g.2.path = some path) : ∀ k ∈ N, k.2.path ≠ some path := by
  intro k hk hpath
  have hone := h.apart path hunmarked
  have hpos : 0 < N.countP (fun k => k.2.path = some path) := Multiset.countP_pos.mpr ⟨k, hk, hpath⟩
  rw [Multiset.countP_cons, if_pos hg] at hone
  omega

/-- Files are staged or removed, those of the other calls apart. -/
theorem Ledger.restage (h : Ledger f (g ::ₘ N) s) {staged : List (String × String)}
    (hs' : s' = { s with staged := staged })
    (himports : ∀ x content, stagedFile s' (stagingPath x) = some content → f x = some content)
    (hothers : ∀ k ∈ N, ∀ path ∈ k.2.path, Unmarked path → stagedFile s' path = stagedFile s path)
    (hpath : ∀ path ∈ g'.2.path, Unmarked path →
      (∃ content, stagedFile s' path = some content) ∧ ∀ k ∈ N, k.2.path ≠ some path)
    (hunspent : g'.1.unspent = none) (hsourced : g'.1.Sourced f s' g'.2.path) :
    Ledger f (g' ::ₘ N) s' := by
  have hsame : SameCatalogue s s' := by
    rw [hs']
    exact ⟨rfl, rfl, rfl, le_rfl⟩
  have hassets : s'.assets = s.assets := hsame.assets
  refine ⟨?_, ?_, ⟨?_, ?_, himports, ?_, ?_⟩, ?_⟩
  · rw [hs']
    exact { h.stocked with
      catalogued :=
        ⟨h.stocked.catalogued.ids, h.stocked.catalogued.issued, h.stocked.catalogued.homed⟩ }
  · refine h.ids.mono (fun id => ?_) hsame.nextUuid
    rw [spent_cons, spent_cons, hunspent, if_neg (by simp), spent, spent, hassets]
    omega
  · rw [hs']
    exact h.files.items
  · rw [hs']
    exact h.files.bounded
  · intro k hk path hkpath hunmarked
    rcases Multiset.mem_cons.mp hk with rfl | hk
    · exact (hpath path hkpath hunmarked).1
    · rw [hothers k hk path hkpath hunmarked]
      exact h.files.present k (Multiset.mem_cons_of_mem hk) path hkpath hunmarked
  · intro path hunmarked
    have hone := h.files.apart path hunmarked
    rw [Multiset.countP_cons] at hone ⊢
    by_cases hg : g'.2.path = some path
    · have hnone : N.countP (fun k => k.2.path = some path) = 0 :=
        Multiset.countP_eq_zero.mpr (hpath path hg hunmarked).2
      rw [hnone, if_pos hg]
    · rw [if_neg hg]
      omega
  · intro k hk
    rcases Multiset.mem_cons.mp hk with rfl | hk
    · exact hsourced
    · refine (h.sourced k (Multiset.mem_cons_of_mem hk)).mono h.files.bounded ?_ (fun _ _ => rfl) ?_
        (fun path hkpath hunmarked => hothers k hk path hkpath hunmarked) ?_
        fun _ _ _ => hsame.recorded
      · rw [hs']
      · rw [hs']
      · intro l used id key _ hbacked
        rw [hs']
        exact hbacked

/-- A worker stages the file of its item. -/
theorem ledger_download {x : ItemId} {item : ImportItem} {job : Import.ImportJob} {hand : Hand}
    {token fileId path : String} (r : Except ImportError Unit)
    (h : Ledger f ((.admitted x item job, hand) ::ₘ N) s)
    (hpermit : (Stage.admitted x item job).Permits (.imports (.downloadToFile token fileId path))) :
    Ledger f ((stages.both hands).note (.admitted x item job, hand)
        ⟨.imports (.downloadToFile token fileId path),
          (ingestHandler (.imports (.downloadToFile token fileId path)) r s).1⟩ ::ₘ N)
      (ingestHandler (.imports (.downloadToFile token fileId path)) r s).2 := by
  obtain ⟨rfl, rfl⟩ := hpermit
  have hsource := h.sourced _ (Multiset.mem_cons_self _ N)
  rcases downloadToFile_cases token item.remoteId (stagingPath x) r s with
    ⟨e, he⟩ | ⟨content, hcontent, he⟩
  · rw [handler_imports, he]
    exact h.advance rfl (.inl rfl) trivial
  · rw [handler_imports, he]
    have hother : ∀ path, Unmarked path →
        stagedFile { s with staged := putObject (stagingPath x) content s.staged } path =
          stagedFile s path := fun path hunmarked => stagedFile_put_ne (unmarked_ne hunmarked x)
    refine h.restage rfl (fun y found hfound => ?_) (fun k _ path _ => hother path) ?_ rfl hsource
    · by_cases hy : stagingPath y = stagingPath x
      · obtain rfl := stagingPath_injective hy
        rw [stagedFile_put] at hfound
        rw [← hsource.2, hcontent, hfound]
      · rw [stagedFile_put_ne hy] at hfound
        exact h.files.staged y found hfound
    · intro path hpath hunmarked
      refine ⟨?_, h.files.own hunmarked hpath⟩
      rw [hother path hunmarked]
      exact h.files.present _ (Multiset.mem_cons_self _ N) path hpath hunmarked

/-- A call removes its staged file once it no longer needs it. -/
theorem ledger_discard {path : String} (r : Unit) (h : Ledger f (g ::ₘ N) s)
    (hpermit : g.1.Permits (.imports (.removeFile path))) (hhand : g.2.path = some path) :
    Ledger f ((stages.both hands).note g ⟨.imports (.removeFile path),
        (ingestHandler (.imports (.removeFile path)) r s).1⟩ ::ₘ N)
      (ingestHandler (.imports (.removeFile path)) r s).2 := by
  have hsource := h.sourced g (Multiset.mem_cons_self g N)
  have hgone : ∀ other content,
      stagedFile { s with staged := removeObjects [path] s.staged } other = some content →
        stagedFile s other = some content := by
    intro other content hcontent
    by_cases hother : other = path
    · rw [hother, stagedFile_remove] at hcontent
      cases hcontent
    · rw [stagedFile_remove_ne hother] at hcontent
      exact hcontent
  refine h.restage rfl (fun x content hcontent => ?_)
    (fun k hk other hkpath hunmarked => ?_) ?_ ?_ ?_
  · exact h.files.staged x content (hgone _ _ hcontent)
  · refine stagedFile_remove_ne fun heq => ?_
    rw [heq] at hkpath hunmarked
    exact h.files.own hunmarked hhand k hk hkpath
  · intro other hother
    cases hother
  · obtain ⟨k, hand⟩ := g
    cases k <;> first | rfl | cases hpermit
  · obtain ⟨k, hand⟩ := g
    cases k with
    | stored l id key => exact hsource
    | linking l winner => exact hsource
    | idle => trivial
    | cleared l => trivial
    | marked l x status assetId => trivial
    | failed x => trivial
    | _ => cases hpermit

/-! Objects come and go. -/

/-- The ids that count, when one call's part of them changes. -/
theorem Ids.replace (h : Ids (g ::ₘ N) s) (hs : s.nextUuid ≤ s'.nextUuid)
    (hspent : ∀ id,
    (s'.assets.map AssetRow.id).count id + (if g'.1.unspent = some id then 1 else 0) ≤
      (s.assets.map AssetRow.id).count id + if g.1.unspent = some id then 1 else 0) :
    Ids (g' ::ₘ N) s' := by
  refine h.mono (fun id => ?_) hs
  rw [spent_cons, spent_cons, spent, spent]
  have hid := hspent id
  omega

/-- The key of the object that a call has in hand is no asset's. -/
theorem Ledger.key_apart (h : Ledger f (g ::ₘ N) s) {l : Load} {id key : String}
    (hg : g.1.unspent = some id) (hkey : OriginalOf l id key) {a : AssetRow} (ha : a ∈ s.assets) :
    a.storageKey ≠ key := by
  refine key_ne hkey.keyOf (h.ids.drawn hg) (h.stocked.named a ha).keyOf
    (h.coherent.numbered a ha) fun hid => ?_
  have hunused := h.ids.unused hg
  have hcount : 0 < (s.assets.map AssetRow.id).count id :=
    List.count_pos_iff.mpr (hid ▸ List.mem_map_of_mem ha)
  rw [spent] at hunused
  omega

/-- Nor is it that of another call. -/
theorem Ledger.key_own (h : Ledger f (g ::ₘ N) s) {l l' : Load} {id id' key key' : String}
    {k : HandNote} (hg : g.1.unspent = some id) (hkey : OriginalOf l id key) (hk : k ∈ N)
    (hk' : k.1.unspent = some id') (hkey' : OriginalOf l' id' key') : key' ≠ key := by
  have hunused := h.ids.unused hg
  have hposition : 0 < N.countP (fun k => k.1.unspent = some id') :=
    Multiset.countP_pos.mpr ⟨k, hk, hk'⟩
  have hnumbered : Numbered s id' := by
    refine (h.ids id').2 ?_
    rw [spent_cons, spent]
    omega
  refine key_ne hkey.keyOf (h.ids.drawn hg) hkey'.keyOf hnumbered fun hid => ?_
  rw [spent, ← hid] at hunused
  omega

/-- An object under a key of one call's own is put or deleted. -/
theorem Ledger.rebucket (h : Ledger f (g ::ₘ N) s) {l : Load} {id key : String}
    {bucket : List (String × String)} (hg : g.1.unspent = some id) (hkey : OriginalOf l id key)
    (hkeys : (bucket.map Prod.fst).Nodup)
    (hothers : ∀ object ∈ s.bucket, object.1 ≠ key → object ∈ bucket)
    (hpath : g'.2.path = g.2.path) (hunspent : g'.1.unspent = none ∨ g'.1.unspent = some id)
    (hsourced : g'.1.Sourced f { s with bucket := bucket } g'.2.path) :
    Ledger f (g' ::ₘ N) { s with bucket := bucket } := by
  have hsame : SameCatalogue s { s with bucket := bucket } := ⟨rfl, rfl, rfl, le_rfl⟩
  have hadvanced : Ledger f ((.idle, g.2) ::ₘ N) s := h.advance rfl (.inl rfl) trivial
  refine ⟨?_, ?_,
    ⟨hadvanced.files.items, hadvanced.files.bounded, hadvanced.files.staged, ?_, ?_⟩, ?_⟩
  · refine ⟨hsame.catalogued h.stocked.catalogued, h.stocked.homes, h.stocked.named,
      h.stocked.single, fun a ha hlive => ?_, hkeys, h.stocked.answered⟩
    refine (h.stocked.objects a ha hlive).mono (fun _ hjob => hjob) fun hmem => ?_
    exact hothers _ hmem (h.key_apart hg hkey ha)
  · refine h.ids.replace le_rfl fun other => ?_
    rcases hunspent with hnone | hsome
    · rw [hnone, if_neg (by simp)]
      exact Nat.le_add_right _ _
    · rw [hsome, hg]
  · intro k hk path hkpath hunmarked
    rcases Multiset.mem_cons.mp hk with rfl | hk
    · rw [hpath] at hkpath
      exact h.files.present g (Multiset.mem_cons_self g N) path hkpath hunmarked
    · exact h.files.present k (Multiset.mem_cons_of_mem hk) path hkpath hunmarked
  · intro path hunmarked
    have hone := h.files.apart path hunmarked
    rw [Multiset.countP_cons] at hone ⊢
    rw [hpath]
    exact hone
  · intro k hk
    rcases Multiset.mem_cons.mp hk with rfl | hk
    · exact hsourced
    · have hsource := h.sourced k (Multiset.mem_cons_of_mem hk)
      refine hsource.mono h.files.bounded le_rfl (fun _ _ => rfl) rfl (fun _ _ _ => rfl) ?_
        fun _ _ _ => hsame.recorded
      intro l' used id' key' hplaced hbacked
      have hsource' := hsource
      rw [hplaced] at hsource'
      refine hbacked.mono (fun _ hjob => hjob) fun hmem => ?_
      exact hothers _ hmem (h.key_own hg hkey hk (by rw [hplaced]; rfl) hsource'.1)

/-- A call stores its file under the key of the id it has drawn. -/
theorem ledger_put {l : Load} {used : Option ℕ} {id path key mimeType : String} {hand : Hand}
    (r : Except ImportError Unit) (h : Ledger f ((.drawn l used id, hand) ::ₘ N) s)
    (hpermit : (Stage.drawn l used id).Permits (.imports (.putFile path key mimeType))) :
    Ledger f ((stages.both hands).note (.drawn l used id, hand)
        ⟨.imports (.putFile path key mimeType),
          (ingestHandler (.imports (.putFile path key mimeType)) r s).1⟩ ::ₘ N)
      (ingestHandler (.imports (.putFile path key mimeType)) r s).2 := by
  obtain ⟨rfl, hkey⟩ := hpermit
  have hsource : l.Sourced f s hand.path := h.sourced _ (Multiset.mem_cons_self _ N)
  rcases putFile_cases l.path key mimeType r s with ⟨e, he⟩ | ⟨content, hcontent, he⟩
  · rw [handler_imports, he]
    exact h.advance rfl (.inl (l.failed_sourced hand.path (f := f) (s := s)).1)
      (l.failed_sourced hand.path).2
  · have hsum : content = l.checksum := by
      unfold Load.Sourced at hsource
      unfold Load.path at hcontent
      split at hsource
      · rename_i path horigin
        rw [horigin] at hcontent
        exact Option.some.inj (hcontent.symm.trans hsource.2.2)
      · rename_i x horigin
        rw [horigin] at hcontent
        exact Option.some.inj ((h.files.staged x content hcontent).symm.trans hsource)
    rw [handler_imports, he]
    refine h.rebucket rfl hkey (putObject_nodup h.stocked.keys) (fun object hobject hne => ?_) rfl
      (.inr rfl) ⟨hkey, fun _ => ?_⟩
    · exact mem_putObject.mpr (.inl ⟨hobject, hne⟩)
    · exact mem_putObject.mpr (.inr (by rw [hsum]))

/-- A call that has lost to another deletes the object that it has put. -/
theorem ledger_clear {l : Load} {id key : String} {keys : List String} {hand : Hand}
    (r : Except ImportError Unit)
    (h : Ledger f ((.lost l id key, hand) ::ₘ N) s)
    (hpermit : (Stage.lost l id key).Permits (.imports (.deleteKeys keys))) :
    Ledger f ((stages.both hands).note (.lost l id key, hand) ⟨.imports (.deleteKeys keys),
        (ingestHandler (.imports (.deleteKeys keys)) r s).1⟩ ::ₘ N)
      (ingestHandler (.imports (.deleteKeys keys)) r s).2 := by
  obtain rfl : keys = [key] := hpermit
  have hkey : OriginalOf l id key := h.sourced _ (Multiset.mem_cons_self _ N)
  cases r with
  | error e => exact h.advance rfl (.inl rfl) trivial
  | ok _ =>
    refine h.rebucket rfl hkey (removeObjects_nodup h.stocked.keys)
      (fun object hobject hne => ?_) rfl
      (.inl rfl) trivial
    exact mem_removeObjects.mpr ⟨hobject, fun hmem => hne (List.mem_singleton.mp hmem)⟩

/-! Rows come and go. -/

/-- A change of the tables that the bucket and the staged files do not see. -/
theorem Ledger.retable (h : Ledger f (g ::ₘ N) s) (hstocked : Stocked s')
    (hids : Ids (g' ::ₘ N) s') (hbucket : s'.bucket = s.bucket)
    (hcleanups : s'.cleanups = s.cleanups) (hstaged : s'.staged = s.staged)
    (hremote : s'.remote = s.remote) (hnext : s'.nextItemId = s.nextItemId)
    (hitems : ∀ i ∈ s'.items, i ∈ s.items) (hpath : g'.2.path = g.2.path)
    (hrecorded : ∀ eventId checksum id, Recorded s eventId checksum id →
      Recorded s' eventId checksum id)
    (hsourced : g'.1.Sourced f s' g'.2.path) : Ledger f (g' ::ₘ N) s' := by
  have hadvanced : Ledger f ((.idle, g'.2) ::ₘ N) s := h.advance hpath (.inl rfl) trivial
  have hfile : ∀ path, stagedFile s' path = stagedFile s path := by
    intro path
    rw [stagedFile, hstaged, stagedFile]
  refine ⟨hstocked, hids, ⟨fun i hi => ?_, ?_, fun x content hx => ?_, ?_, ?_⟩, fun k hk => ?_⟩
  · rw [hnext, remoteFile, hremote]
    exact h.files.items i (hitems i hi)
  · rw [hnext]
    exact h.files.bounded
  · rw [hfile] at hx
    exact h.files.staged x content hx
  · intro k hk path hkpath hunmarked
    rw [hfile]
    rcases Multiset.mem_cons.mp hk with rfl | hk
    · exact hadvanced.files.present _ (Multiset.mem_cons_self _ N) path hkpath hunmarked
    · exact h.files.present k (Multiset.mem_cons_of_mem hk) path hkpath hunmarked
  · intro path hunmarked
    have hone := hadvanced.files.apart path hunmarked
    rw [Multiset.countP_cons] at hone ⊢
    exact hone
  · rcases Multiset.mem_cons.mp hk with rfl | hk
    · exact hsourced
    · exact (h.sourced k (Multiset.mem_cons_of_mem hk)).mono h.files.bounded hnext.ge
        (fun _ _ => rfl) hremote (fun path _ _ => hfile path)
        (fun l used id key _ hbacked =>
          hbacked.mono (fun _ hjob => hcleanups.symm ▸ hjob) fun hmem => hbucket ▸ hmem) hrecorded

theorem stocked_insertAsset {row : AssetRow} (h : Stocked s)
    (hevent : ∃ event ∈ s.events, event.id = row.eventId)
    (hfree : s.findByChecksum row.eventId row.checksum = none) (hnamed : Named row)
    (hobject : Backed s row.storageKey row.checksum) : Stocked (s.insertAsset row) := by
  refine ⟨catalogued_insertAsset h.catalogued hevent, fun a ha => ?_, fun a ha => ?_, ?_,
    fun a ha hlive => ?_, h.keys, fun eventId file result hmem => ?_⟩
  · rcases List.mem_append.mp ha with ha | ha
    · exact h.homes a ha
    · rw [List.mem_singleton.mp ha]
      exact hevent
  · rcases List.mem_append.mp ha with ha | ha
    · exact h.named a ha
    · rw [List.mem_singleton.mp ha]
      exact hnamed
  · refine List.pairwise_append.mpr ⟨h.single, List.pairwise_singleton _ _, fun a ha b hb => ?_⟩
    intro hlive _ hsame hchecksum
    rw [List.mem_singleton.mp hb] at hsame hchecksum
    have hmiss := List.find?_eq_none.mp hfree a ha
    exact hmiss (decide_eq_true ⟨hsame, hchecksum, hlive⟩)
  · rcases List.mem_append.mp ha with ha | ha
    · exact h.objects a ha hlive
    · rw [List.mem_singleton.mp ha]
      exact hobject
  · exact recorded_mono (fun a ha => ⟨a, List.mem_append_left _ ha, rfl, rfl, rfl⟩)
      ⟨rfl, le_rfl, fun _ hevent => .inl hevent⟩ (h.answered eventId file result hmem)

/-- The insertion of the row of an object that was put. -/
theorem Ledger.insert {l : Load} {used : Option ℕ} {id key : String} {hand : Hand} {row : AssetRow}
    (h : Ledger f ((.placed l used id key, hand) ::ₘ N) s) (hrow : RowOf l id key row)
    (r : Except ImportError Unit) :
    Ledger f ((Stage.insertion l id key (insertRow row r s).1, hand) ::ₘ N)
    (insertRow row r s).2 := by
  obtain ⟨hkey, hobject⟩ := h.sourced _ (Multiset.mem_cons_self _ N)
  have hfailed := l.failed_sourced hand.path (f := f) (s := s)
  rcases insertRow_cases row r s with ⟨e, he⟩ | ⟨hanswer, hfree, hevent⟩
  · rw [he]
    cases e with
    | assetChecksumConstraint text => exact h.advance rfl (.inr rfl) hkey
    | rateLimit ms => exact h.advance rfl (.inl hfailed.1) hfailed.2
    | other text => exact h.advance rfl (.inl hfailed.1) hfailed.2
  · rw [hanswer]
    have hnamed : Named row := by
      obtain ⟨ext, hext, hname⟩ := hkey
      exact ⟨l.orgId, ext, hext, by rw [hrow.storageKey, hrow.eventId, hrow.id, hname]⟩
    have hstocked : Stocked (s.insertAsset row) :=
      stocked_insertAsset h.stocked hevent hfree hnamed
        (by rw [hrow.storageKey, hrow.checksum]; exact hobject)
    refine h.retable hstocked (h.ids.replace le_rfl fun other => ?_) rfl rfl rfl rfl rfl
      (fun _ hi => hi) rfl ?_ ?_
    · have hids :
        (s.insertAsset row).assets.map AssetRow.id = s.assets.map AssetRow.id ++ [id] := by
        rw [IngestStore.insertAsset, List.map_append, List.map_singleton, hrow.id]
      rw [hids, List.count_append, List.count_singleton]
      by_cases hid : id = other
      · simp [hid, Stage.insertion, Stage.unspent]
      · simp [hid, Stage.insertion, Stage.unspent]
    · intro eventId checksum id
      exact recorded_mono (fun a ha => ⟨a, List.mem_append_left _ ha, rfl, rfl, rfl⟩)
        ⟨rfl, le_rfl, fun _ hevent => .inl hevent⟩
    · exact .inl ⟨row, List.mem_append_right _ (List.mem_singleton_self row), hrow.id, hrow.eventId,
        hrow.checksum⟩

/-- The id that is given out is no row's and no call's. -/
theorem Ids.fresh (h : Ids S s) : spent S s (toString s.nextUuid) = 0 := by
  by_contra hne
  obtain ⟨n, hn, hid⟩ := (h _).2 (Nat.pos_of_ne_zero hne)
  rw [toString_injective hid] at hn
  exact lt_irrefl _ hn

theorem Ids.draw (h : Ids (g ::ₘ N) s) (hs : s'.nextUuid = s.nextUuid + 1)
    (hassets : s'.assets = s.assets) (hg' : g'.1.unspent = some (toString s.nextUuid)) :
    Ids (g' ::ₘ N) s' := by
  have hrest : ∀ id, spent N s' id = spent N s id := by
    intro id
    rw [spent, hassets, spent]
  intro id
  obtain ⟨hone, hnumbered⟩ := h id
  have hfresh := h.fresh
  rw [spent_cons] at hone hnumbered hfresh
  rw [spent_cons, hg', hrest]
  by_cases hid : toString s.nextUuid = id
  · rw [hid] at hfresh
    rw [hid, if_pos rfl]
    exact ⟨by omega, fun _ => ⟨s.nextUuid, by omega, hid.symm⟩⟩
  · rw [if_neg fun hsome => hid (Option.some.inj hsome)]
    refine ⟨by omega, fun hpos => ?_⟩
    exact (hnumbered (hpos.trans_le (Nat.le_add_right _ _))).mono (by omega)

theorem ledger_draw (r : String) (h : Ledger f (g ::ₘ N) s)
    (hpermit : g.1.Permits (.imports .randomUUID)) :
    Ledger f ((stages.both hands).note g ⟨.imports .randomUUID,
        (ingestHandler (.imports .randomUUID) r s).1⟩ ::ₘ N)
      (ingestHandler (.imports .randomUUID) r s).2 := by
  have hstill : Still s { s with nextUuid := s.nextUuid + 1 } :=
    ⟨⟨rfl, rfl, rfl, Nat.le_succ _⟩, rfl, fun _ hjob => hjob, rfl, rfl, rfl, rfl,
      fun i hi => ⟨i, hi, rfl, rfl⟩⟩
  have hkept := hstill.ledger h
  obtain ⟨k, hand⟩ := g
  cases k with
  | idle => exact hkept.advance rfl (.inl rfl) trivial
  | unseen l used =>
    have hsource := hkept.sourced _ (Multiset.mem_cons_self _ N)
    exact hkept.retable hkept.stocked (h.ids.draw rfl rfl rfl) rfl rfl rfl rfl rfl
      (fun _ hi => hi) rfl (fun _ _ _ hr => hr) hsource
  | _ => cases hpermit

theorem createEvent_cases (k : String) (dto : CreateEvent) (r : Except ImportError EventRow)
    (s : IngestStore) : (ingestHandler (.createEvent k dto) r s).2 = s ∨
      (ingestHandler (.createEvent k dto) r s).2 = s.createEvent k dto := by
  cases r with
  | error e => exact .inl rfl
  | ok event =>
    change (if s.slugTaken dto.slug then _ else _ : Except ImportError EventRow × IngestStore).2 =
      s ∨
      (if s.slugTaken dto.slug then _ else _ : Except ImportError EventRow × IngestStore).2 = _
    split
    · exact .inl rfl
    · exact .inr rfl

theorem extends_createEvent (k : String) (dto : CreateEvent) : Extends s (s.createEvent k dto) := by
  refine ⟨rfl, Nat.le_succ _, fun event hevent => ?_⟩
  rcases List.mem_append.mp hevent with hevent | hevent
  · exact .inl hevent
  · rw [List.mem_singleton.mp hevent]
    exact .inr rfl

/-- A new event takes nobody's id. -/
theorem ledger_event {k : String} {dto : CreateEvent} {count : ℕ} {hand : Hand}
    (r : Except ImportError EventRow) (h : Ledger f ((.planned k count, hand) ::ₘ N) s) :
    Ledger f ((.idle, hand) ::ₘ N) (ingestHandler (.createEvent k dto) r s).2 := by
  have hsame : Ledger f ((.idle, hand) ::ₘ N) s := h.advance rfl (.inl rfl) trivial
  rcases createEvent_cases k dto r s with hstate | hstate
  · rw [hstate]
    exact hsame
  · rw [hstate]
    have hrecorded : ∀ eventId checksum id, Recorded s eventId checksum id →
        Recorded (s.createEvent k dto) eventId checksum id := fun _ _ _ =>
      recorded_mono (fun a ha => ⟨a, ha, rfl, rfl, rfl⟩) (extends_createEvent k dto)
    refine hsame.retable ⟨catalogued_createEvent h.stocked.catalogued k dto, fun a ha => ?_,
      h.stocked.named, h.stocked.single, h.stocked.objects, h.stocked.keys,
      fun eventId file result hmem => hrecorded _ _ _ (h.stocked.answered eventId file result hmem)⟩
      (hsame.ids.mono (fun _ => le_rfl) (Nat.le_succ _)) rfl rfl rfl rfl rfl (fun _ hi => hi) rfl
        hrecorded trivial
    obtain ⟨event, hevent, hid⟩ := h.stocked.homes a ha
    exact ⟨event, List.mem_append_left _ hevent, hid⟩

/-- An event goes with its assets. -/
theorem ledger_hardDelete (k eventId : String) {hand : Hand}
    (h : Ledger f ((.idle, hand) ::ₘ N) s) :
    Ledger f ((.idle, hand) ::ₘ N) (s.hardDelete k eventId) := by
  have hcatalogued := catalogued_hardDelete h.stocked.catalogued k eventId
  have hextends : Extends s (s.hardDelete k eventId) := extends_hardDelete k eventId
  by_cases hevent : s.events.any (fun event => event.id = eventId ∧ event.orgId = k)
  · have hstate : s.hardDelete k eventId = { s with
        events := s.events.filter (fun event => event.id ≠ eventId)
        assets := s.assets.filter (fun a => a.eventId ≠ eventId)
        jobs := s.jobs.filter (fun job => job.eventId ≠ eventId)
        items := s.items.filter (fun item => item.eventId ≠ eventId) } := by
      rw [IngestStore.hardDelete, if_pos hevent]
    have hrecorded : ∀ e checksum id, Recorded s e checksum id →
        Recorded (s.hardDelete k eventId) e checksum id := by
      rw [hstate] at hextends ⊢
      rintro e checksum id (⟨a, ha, hid, rfl, hchecksum⟩ | hgone)
      · by_cases hsame : a.eventId = eventId
        · refine .inr ⟨(h.stocked.catalogued.homed a ha).mono hextends, fun event hmem => ?_⟩
          rw [hsame]
          exact of_decide_eq_true (List.mem_filter.mp hmem).2
        · exact .inl ⟨a, List.mem_filter.mpr ⟨ha, decide_eq_true hsame⟩, hid, rfl, hchecksum⟩
      · exact .inr (hgone.mono hextends)
    rw [hstate] at hcatalogued hrecorded ⊢
    refine h.retable ⟨hcatalogued, fun a ha => ?_, fun a ha => ?_, ?_, fun a ha => ?_,
      h.stocked.keys,
      fun e file result hmem =>
        hrecorded _ _ _ (h.stocked.answered e file result hmem)⟩ ?_ rfl rfl rfl rfl rfl
      (fun i hi => (List.mem_filter.mp hi).1) rfl hrecorded trivial
    · obtain ⟨ha, hother⟩ := List.mem_filter.mp ha
      obtain ⟨event, hevent, hid⟩ := h.stocked.homes a ha
      refine ⟨event, List.mem_filter.mpr ⟨hevent, decide_eq_true ?_⟩, hid⟩
      rw [hid]
      exact of_decide_eq_true hother
    · exact h.stocked.named a (List.mem_filter.mp ha).1
    · exact h.stocked.single.sublist List.filter_sublist
    · exact h.stocked.objects a (List.mem_filter.mp ha).1
    · refine h.ids.replace le_rfl fun id => Nat.add_le_add_right ?_ _
      exact (List.filter_sublist.map AssetRow.id).count_le id
  · rw [IngestStore.hardDelete, if_neg hevent]
    exact h

/-- Deleted assets keep their rows. -/
theorem ledger_softDeleteMany (eventId : String) (ids : List String) {hand : Hand}
    (h : Ledger f ((.idle, hand) ::ₘ N) s) :
    Ledger f ((.idle, hand) ::ₘ N) (s.softDeleteMany eventId ids) := by
  have hrow : ∀ a : AssetRow, ∃ deleted, (if a.eventId = eventId ∧ a.id ∈ ids then
      { a with deleted := true } else a) = { a with deleted := deleted } ∧
        (deleted = false → a.deleted = false) := by
    intro a
    split
    · exact ⟨true, rfl, fun hlive => by cases hlive⟩
    · exact ⟨a.deleted, rfl, id⟩
  have hrows : ∀ a' ∈ (s.softDeleteMany eventId ids).assets, ∃ a ∈ s.assets, ∃ deleted,
      a' = { a with deleted := deleted } ∧ (deleted = false → a.deleted = false) := by
    intro a' ha'
    obtain ⟨a, ha, rfl⟩ := List.mem_map.mp ha'
    obtain ⟨deleted, hdeleted, hlive⟩ := hrow a
    exact ⟨a, ha, deleted, hdeleted, hlive⟩
  have hrecorded : ∀ e checksum id, Recorded s e checksum id →
      Recorded (s.softDeleteMany eventId ids) e checksum id := by
    intro e checksum id
    refine recorded_mono (fun a ha => ⟨_, List.mem_map_of_mem ha, ?_⟩)
      ⟨rfl, le_rfl, fun _ hevent => .inl hevent⟩
    obtain ⟨deleted, hdeleted, -⟩ := hrow a
    rw [hdeleted]
    exact ⟨rfl, rfl, rfl⟩
  refine h.retable ⟨catalogued_softDeleteMany h.stocked.catalogued eventId ids, fun a' ha' => ?_,
    fun a' ha' => ?_, ?_, fun a' ha' hlive => ?_, h.stocked.keys,
    fun e file result hmem =>
      hrecorded _ _ _ (h.stocked.answered e file result hmem)⟩ ?_ rfl rfl rfl rfl rfl
    (fun _ hi => hi) rfl hrecorded trivial
  · obtain ⟨a, ha, deleted, rfl, -⟩ := hrows a' ha'
    exact h.stocked.homes a ha
  · obtain ⟨a, ha, deleted, rfl, -⟩ := hrows a' ha'
    exact h.stocked.named a ha
  · refine List.pairwise_map.mpr (h.stocked.single.imp fun {a b} hab => ?_)
    obtain ⟨deleted, ha, hlive⟩ := hrow a
    obtain ⟨deleted', hb, hlive'⟩ := hrow b
    rw [ha, hb]
    exact fun hd hd' => hab (hlive hd) (hlive' hd')
  · obtain ⟨a, ha, deleted, rfl, hdeleted⟩ := hrows a' ha'
    exact h.stocked.objects a ha (hdeleted hlive)
  · have hids :
      (s.softDeleteMany eventId ids).assets.map AssetRow.id = s.assets.map AssetRow.id := by
      rw [IngestStore.softDeleteMany, List.map_map]
      refine List.map_congr_left fun a _ => ?_
      obtain ⟨deleted, hdeleted, -⟩ := hrow a
      rw [Function.comp_apply, hdeleted]
    refine h.ids.replace le_rfl fun id => ?_
    rw [hids]

/-- What the files of the new items hold, beside those known. -/
def contents (f : ItemId → Option String) (s : IngestStore) (items : List Import.NewItem) :
    ItemId → Option String := fun x =>
  if x < s.nextItemId then f x
  else (findRow ImportItem.id x (Import.freshRows s.nextItemId items)).bind
    fun item => remoteFile s item.remoteId

theorem files_addItems (items : List Import.NewItem) (h : Files f S s) :
    Files (contents f s items) S { s with toTables := s.addItems items } := by
  have hold : ∀ x < s.nextItemId, contents f s items x = f x := fun x hx => if_pos hx
  refine ⟨fun i hi => ?_, fun x hx => ?_, fun x content hx => ?_, h.present, h.apart⟩
  · rcases List.mem_append.mp hi with hi | hi
    · obtain ⟨hlt, hfile⟩ := h.items i hi
      exact ⟨hlt.trans_le (Nat.le_add_right _ _), hfile.trans (hold i.id hlt).symm⟩
    · obtain ⟨_, -, hle, -⟩ := Import.mem_freshRows hi
      refine ⟨Import.freshRows_below hi, ?_⟩
      rw [contents, if_neg (Nat.not_lt_of_le hle), findRow_of_mem (Import.freshRows_nodup _ _) hi]
      rfl
  · have hle : s.nextItemId + items.length ≤ x := hx
    have hnone : findRow ImportItem.id x (Import.freshRows s.nextItemId items) = none := by
      refine findRow_eq_none.mpr fun i hi hid => ?_
      have hlt := Import.freshRows_below hi
      exact Nat.not_lt_of_le hle (hid ▸ hlt)
    rw [contents, if_neg (Nat.not_lt_of_le ((Nat.le_add_right _ _).trans hle)), hnone]
    rfl
  · have hknown := h.staged x content hx
    rw [hold x, hknown]
    by_contra hge
    rw [h.bounded x (Nat.le_of_not_lt hge)] at hknown
    cases hknown

theorem insertItems_state (items : List Import.NewItem) (r : Except ImportError (List ImportItem)) :
    (ingestHandler (.imports (.insertItems items)) r s).2 =
      if Import.uniqueFiles (s.items ++ Import.freshRows s.nextItemId items) then
        { s with toTables := s.addItems items } else s := by
  have hanswer : ingestHandler (.imports (.insertItems items)) r s =
      ((Import.importHandler (.insertItems items) r s.toImportWorld).1,
        { s with toImportWorld :=
          (Import.importHandler (.insertItems items) r s.toImportWorld).2 }) :=
    rfl
  rw [hanswer]
  change { s with toImportWorld := (if Import.uniqueFiles _ then _ else _ :
    Except ImportError (List ImportItem) × Import.ImportWorld).2 } = _
  split <;> rfl

/-- A listing adds items, whose files hold what they hold. -/
theorem ledger_list {items : List Import.NewItem} {hand : Hand}
    (r : Except ImportError (List ImportItem)) (h : Ledger f ((.idle, hand) ::ₘ N) s) :
    ∃ f', Ledger f' ((.idle, hand) ::ₘ N)
    (ingestHandler (.imports (.insertItems items)) r s).2 := by
  rw [insertItems_state]
  split
  · have hsame : SameCatalogue s { s with toTables := s.addItems items } := ⟨rfl, rfl, rfl, le_rfl⟩
    refine ⟨contents f s items, ⟨?_, h.ids, files_addItems items h.files, fun k hk => ?_⟩⟩
    · exact ⟨hsame.catalogued h.stocked.catalogued, h.stocked.homes, h.stocked.named,
        h.stocked.single,
        h.stocked.objects, h.stocked.keys, h.stocked.answered⟩
    · exact (h.sourced k hk).mono h.files.bounded (Nat.le_add_right _ _) (fun x hx => if_pos hx) rfl
        (fun _ _ _ => rfl) (fun _ _ _ _ _ hbacked => hbacked) fun _ _ _ => hsame.recorded
  · exact ⟨f, h⟩

/-! Cleanup jobs. -/

/-- Objects go that no live asset and no call needs. -/
theorem Ledger.sweep (h : Ledger f S s) {keys : List String}
    (hassets : ∀ a ∈ s.assets, a.deleted = false → Kept s a.storageKey → a.storageKey ∉ keys)
    (hplaced : ∀ k ∈ S, ∀ l used id key, k.1 = .placed l used id key → Kept s key → key ∉ keys) :
    Ledger f S { s with bucket := removeObjects keys s.bucket } := by
  have hsame : SameCatalogue s { s with bucket := removeObjects keys s.bucket } :=
    ⟨rfl, rfl, rfl, le_rfl⟩
  refine ⟨⟨hsame.catalogued h.stocked.catalogued, h.stocked.homes, h.stocked.named,
    h.stocked.single, fun a ha hlive hkept => ?_, removeObjects_nodup h.stocked.keys,
    h.stocked.answered⟩, h.ids.mono (fun _ => le_rfl) le_rfl,
    ⟨h.files.items, h.files.bounded, h.files.staged, h.files.present, h.files.apart⟩,
    fun k hk => ?_⟩
  · exact mem_removeObjects.mpr ⟨h.stocked.objects a ha hlive hkept, hassets a ha hlive hkept⟩
  · refine (h.sourced k hk).mono h.files.bounded le_rfl (fun _ _ => rfl) rfl (fun _ _ _ => rfl)
      (fun l used id key hstage hbacked hkept => ?_) fun _ _ _ => hsame.recorded
    exact mem_removeObjects.mpr ⟨hbacked hkept, hplaced k hk l used id key hstage hkept⟩

/-- The key of a deleted asset is that of no live one and of no call. -/
theorem Retired.spares {key : String} (h : Retired S s key) (hledger : Ledger f S s) :
    (∀ a ∈ s.assets, a.deleted = false → a.storageKey ≠ key) ∧
      ∀ k ∈ S, ∀ l used id other, k.1 = .placed l used id other → other ≠ key := by
  obtain ⟨id, hkey, hid, hfree⟩ := h
  refine ⟨fun a ha hlive => ?_, fun k hk l used id' other hstage => ?_⟩
  · refine key_ne hkey hid (hledger.stocked.named a ha).keyOf (hledger.coherent.numbered a ha)
      fun hsame => ?_
    exact hfree (.inl ⟨a, ha, hsame, hlive⟩)
  · have hunspent : k.1.unspent = some id' := by rw [hstage]; rfl
    have hsource := hledger.sourced k hk
    rw [hstage] at hsource
    have hnumbered : Numbered s id' := by
      refine (hledger.ids id').2 ?_
      have hpos : 0 < S.countP (fun k => k.1.unspent = some id') :=
        Multiset.countP_pos.mpr ⟨k, hk, hunspent⟩
      rw [spent]
      omega
    refine key_ne hkey hid hsource.1.keyOf hnumbered fun hsame => ?_
    exact hfree (.inr ⟨k, hk, hsame ▸ hunspent⟩)

/-- What a queued cleanup job deletes, nobody needs. -/
theorem Spared.covered {job : Cleanup} {key : String} (h : Spared S s) (hledger : Ledger f S s)
    (hjob : job ∈ s.cleanups) (hcovers : job.Covers key) :
    (∀ a ∈ s.assets, a.deleted = false → Kept s a.storageKey → a.storageKey ≠ key) ∧
      ∀ k ∈ S, ∀ l used id other, k.1 = .placed l used id other → Kept s other → other ≠ key := by
  cases job with
  | cleanupKeys keys =>
    obtain ⟨hrows, hcalls⟩ := (h.queued keys hjob key hcovers).spares hledger
    exact ⟨fun a ha hlive _ => hrows a ha hlive,
      fun k hk l used id other hstage _ => hcalls k hk l used id other hstage⟩
  | cleanupPrefix pfx =>
    have hother : ∀ other, Kept s other → other ≠ key := by
      rintro other hkept rfl
      exact hkept pfx hjob hcovers
    exact ⟨fun a _ _ => hother a.storageKey, fun _ _ _ _ _ other _ => hother other⟩

/-- A cleanup job deletes objects. -/
theorem ledger_sweep {keys : List String} {hand : Hand} (r : Except ImportError Unit)
    (h : Ledger f ((.idle, hand) ::ₘ N) s) (hspared : Spared ((.idle, hand) ::ₘ N) s)
    (hsweeps : hand.Sweeps (.imports (.deleteKeys keys))) :
    Ledger f ((.idle, hand) ::ₘ N) (ingestHandler (.imports (.deleteKeys keys)) r s).2 := by
  obtain ⟨job, hhand, hcovers⟩ := hsweeps
  have hjob := hspared.jobs _ (Multiset.mem_cons_self _ N) job hhand
  cases r with
  | error e => exact h
  | ok _ =>
    refine h.sweep (fun a ha hlive hkept hmem => ?_)
      fun k hk l used id key hstage hkept hmem => ?_
    · exact (hspared.covered h hjob (hcovers _ hmem)).1 a ha hlive hkept rfl
    · exact (hspared.covered h hjob (hcovers _ hmem)).2 k hk l used id key hstage hkept rfl

/-! Every step. -/

/-- A file is staged or an object put on the way to an asset only, and deleted
by a cleanup. -/
theorem idle_places {o : IngestOp} {hand : Hand} (ho : o.places = true)
    (h : o.places = false ∨ Stage.idle ≠ .idle ∨ hand.Sweeps o) : hand.Sweeps o := by
  rcases h with hno | hne | hsweeps
  · rw [ho] at hno
    cases hno
  · exact absurd rfl hne
  · exact hsweeps

/-- Statements that stir something, each by the calls it is for. -/
theorem ledger_stir {o : IngestOp} (r : IngestRes o) (h : Ledger f (g ::ₘ N) s)
    (hspared : Spared (g ::ₘ N) s) (hpermit : (stages.both hands).permits g o)
    (ho : o.stirs = true) :
    ∃ f', Ledger f' ((stages.both hands).note g ⟨o, (ingestHandler o r s).1⟩ ::ₘ N)
      (ingestHandler o r s).2 := by
  obtain ⟨hstage, hhand, hplaces⟩ := hpermit
  obtain ⟨k, hand⟩ := g
  cases o with
  | createAsset row =>
    cases k with
    | placed l used id key => exact ⟨f, h.insert hstage.2 r⟩
    | _ => cases hstage
  | createEvent orgId dto =>
    cases k with
    | planned k count =>
      obtain rfl : orgId = k := hstage
      exact ⟨f, ledger_event r h⟩
    | _ => cases hstage
  | hardDelete orgId eventId =>
    cases k with
    | idle => exact ⟨f, ledger_hardDelete orgId eventId h⟩
    | _ => cases hstage
  | softDeleteMany eventId ids =>
    cases k with
    | idle => exact ⟨f, (ledger_softDeleteMany eventId ids h).advance rfl (.inl rfl) trivial⟩
    | _ => cases hstage
  | imports o =>
    cases o with
    | downloadToFile token fileId path =>
      cases k with
      | admitted x item job => exact ⟨f, ledger_download r h hstage⟩
      | idle => exact (idle_places rfl hplaces).elim
      | _ => cases hstage
    | putFile path key mimeType =>
      cases k with
      | drawn l used id => exact ⟨f, ledger_put r h hstage⟩
      | idle => exact (idle_places rfl hplaces).elim
      | _ => cases hstage
    | createAsset asset =>
      cases k with
      | placed l used id key => exact ⟨f, h.insert hstage.2 r⟩
      | _ => cases hstage
    | deleteKeys keys =>
      cases k with
      | lost l id key => exact ⟨f, ledger_clear r h hstage⟩
      | idle => exact ⟨f, ledger_sweep r h hspared (idle_places rfl hplaces)⟩
      | _ => cases hstage
    | removeFile path => exact ⟨f, ledger_discard r h hstage hhand⟩
    | insertItems items =>
      cases k with
      | idle => exact ledger_list r h
      | _ => cases hstage
    | randomUUID => exact ⟨f, ledger_draw r h hstage⟩
    | _ => cases ho
  | _ => cases ho

theorem ledger_perform {o : IngestOp} (r : IngestRes o) (h : Ledger f (g ::ₘ N) s)
    (hspared : Spared (g ::ₘ N) s) (hpermit : (stages.both hands).permits g o) :
    ∃ f', Ledger f' ((stages.both hands).note g ⟨o, (ingestHandler o r s).1⟩ ::ₘ N)
      (ingestHandler o r s).2 := by
  by_cases ho : o.stirs = true
  · exact ledger_stir r h hspared hpermit ho
  · exact ⟨f, ledger_quiet r h hpermit.1 (Bool.eq_false_of_not_eq_true ho)⟩

/-! Deleted assets stay deleted. -/

theorem Retired.mono {key : String} (h : Retired S s key) (hs : s.nextUuid ≤ s'.nextUuid)
    (hheld : ∀ id, Numbered s id → Held S' s' id → Held S s id) : Retired S' s' key := by
  obtain ⟨id, hkey, hid, hfree⟩ := h
  exact ⟨id, hkey, hid.mono hs, fun hheld' => hfree (hheld id hid hheld')⟩

/-- A live row after a statement was live before, or is that of the id that the
call has drawn. -/
theorem live_handler {o : IngestOp} (r : IngestRes o) (hpermit : g.1.Permits o) {a : AssetRow}
    (ha : a ∈ (ingestHandler o r s).2.assets) (hlive : a.deleted = false) :
    (∃ a₀ ∈ s.assets, a₀.id = a.id ∧ a₀.deleted = false) ∨ g.1.unspent = some a.id := by
  obtain ⟨k, hand⟩ := g
  have hinsert : ∀ {l : Load} {id key : String} {row : AssetRow} r, RowOf l id key row →
      k.unspent = some id → a ∈ (insertRow row r s).2.assets →
        (∃ a₀ ∈ s.assets, a₀.id = a.id ∧ a₀.deleted = false) ∨ k.unspent = some a.id := by
    intro l id key row r hrow hunspent ha
    rcases insertRow_cases row r s with ⟨e, he⟩ | ⟨he, -, -⟩
    · rw [he] at ha
      exact .inl ⟨a, ha, rfl, hlive⟩
    · rw [he] at ha
      rcases List.mem_append.mp ha with ha | ha
      · exact .inl ⟨a, ha, rfl, hlive⟩
      · rw [List.mem_singleton.mp ha, hrow.id]
        exact .inr hunspent
  by_cases ho : o.changes = true
  · cases o with
    | createAsset row =>
      cases k with
      | placed l used id key => exact hinsert r hpermit.2 rfl ha
      | _ => cases hpermit
    | imports o =>
      cases o with
      | createAsset asset =>
        cases k with
        | placed l used id key => exact hinsert r hpermit.2 rfl ha
        | _ => cases hpermit
      | _ => cases ho
    | createEvent orgId dto =>
      rcases createEvent_cases orgId dto r s with hstate | hstate <;>
        · rw [hstate] at ha
          exact .inl ⟨a, ha, rfl, hlive⟩
    | hardDelete orgId eventId =>
      change a ∈ (s.hardDelete orgId eventId).assets at ha
      rw [IngestStore.hardDelete] at ha
      split at ha
      · exact .inl ⟨a, (List.mem_filter.mp ha).1, rfl, hlive⟩
      · exact .inl ⟨a, ha, rfl, hlive⟩
    | softDeleteMany eventId ids =>
      obtain ⟨a₀, ha₀, rfl⟩ := List.mem_map.mp ha
      split at hlive
      · cases hlive
      · rename_i hother
        rw [if_neg hother]
        exact .inl ⟨a₀, ha₀, rfl, hlive⟩
    | _ => cases ho
  · have hsame := sameCatalogue_handler (s := s) (Bool.eq_false_of_not_eq_true ho) r
    exact .inl ⟨a, hsame.assets ▸ ha, rfl, hlive⟩

theorem Load.failed_unspent (l : Load) : l.failed.unspent = none := by
  unfold Load.failed
  split <;> rfl

theorem insertion_unspent {l : Load} {id key other : String} (r : Except ImportError Unit)
    (h : (Stage.insertion l id key r).unspent = some other) : some id = some other := by
  unfold Stage.insertion at h
  split at h
  · cases h
  · exact h
  · rw [l.failed_unspent] at h
    cases h

/-- An id in the hands of a call was there before, or is the one just drawn. -/
theorem unspent_note {k : Stage} {e : IngestEvent} {id : String}
    (h : (k.note e).unspent = some id) :
    k.unspent = some id ∨ e = ⟨.imports .randomUUID, id⟩ := by
  unfold Stage.note at h
  split at h <;> (try split at h) <;> (try split at h) <;>
    first
    | exact .inl h
    | cases h; done
    | exact .inl (insertion_unspent _ h)
    | exact absurd ((Load.failed_unspent _).symm.trans h) (by simp)
    | exact .inr (by cases h; rfl)

/-- Nobody comes to hold an id that was given out before. -/
theorem held_perform {o : IngestOp} (r : IngestRes o) (hpermit : g.1.Permits o) {id : String}
    (hid : Numbered s id)
    (h : Held ((stages.both hands).note g ⟨o, (ingestHandler o r s).1⟩ ::ₘ N)
      (ingestHandler o r s).2 id) : Held (g ::ₘ N) s id := by
  have hmem := Multiset.mem_cons_self g N
  rcases h with ⟨a, ha, rfl, hlive⟩ | ⟨k, hk, hunspent⟩
  · rcases live_handler r hpermit ha hlive with hold | hdrawn
    · exact .inl hold
    · exact .inr ⟨g, hmem, hdrawn⟩
  · rcases Multiset.mem_cons.mp hk with rfl | hk
    · rcases unspent_note hunspent with hold | hdrawn
      · exact .inr ⟨g, hmem, hold⟩
      · obtain ⟨rfl, hanswer⟩ := Sigma.mk.inj_iff.mp hdrawn
        obtain ⟨n, hn, hnumber⟩ := hid
        have hsame : toString s.nextUuid = toString n := (eq_of_heq hanswer).trans hnumber
        rw [toString_injective hsame] at hn
        exact absurd hn (lt_irrefl _)
    · exact .inr ⟨k, Multiset.mem_cons_of_mem hk, hunspent⟩

/-- Organisations stay, and every event that is there is new or was there. -/
theorem extends_handler (o : IngestOp) (r : IngestRes o) : Extends s (ingestHandler o r s).2 := by
  have hinsert : ∀ (row : AssetRow) r, Extends s (insertRow row r s).2 := by
    intro row r
    rcases insertRow_cases row r s with ⟨e, he⟩ | ⟨he, -, -⟩ <;>
      · rw [he]
        exact ⟨rfl, le_rfl, fun _ hevent => .inl hevent⟩
  by_cases ho : o.changes = true
  · cases o with
    | createAsset row => exact hinsert row r
    | imports o =>
      cases o with
      | createAsset asset => exact hinsert (importedRow asset) r
      | _ => cases ho
    | createEvent orgId dto =>
      rcases createEvent_cases orgId dto r s with hstate | hstate
      · rw [hstate]
        exact sameCatalogue_self.extends
      · rw [hstate]
        exact extends_createEvent orgId dto
    | hardDelete orgId eventId => exact extends_hardDelete orgId eventId
    | softDeleteMany eventId ids => exact ⟨rfl, le_rfl, fun _ hevent => .inl hevent⟩
    | _ => cases ho
  · exact (sameCatalogue_handler (Bool.eq_false_of_not_eq_true ho) r).extends

theorem insertRow_cleanups (row : AssetRow) (r : Except ImportError Unit) :
    (insertRow row r s).2.cleanups = s.cleanups := by
  rcases insertRow_cases row r s with ⟨e, he⟩ | ⟨he, -, -⟩
  · rw [he]
  · rw [he]
    rfl

theorem imports_cleanups (o : ImportOp) (r : ImportRes o) :
    (importedHandler o r s).2.cleanups = s.cleanups := by
  cases o with
  | downloadToFile token fileId path =>
    rcases downloadToFile_cases token fileId path r s with ⟨e, he⟩ | ⟨content, -, he⟩ <;> rw [he]
  | hashFile path =>
    rcases hashFile_cases path r s with ⟨e, he⟩ | ⟨content, -, he⟩ <;> rw [he]
  | putFile path key mimeType =>
    rcases putFile_cases path key mimeType r s with ⟨e, he⟩ | ⟨content, -, he⟩
    · rw [he]
    · rw [he]
      rfl
  | findByChecksum eventId checksum => cases r <;> rfl
  | createAsset asset => exact insertRow_cleanups (importedRow asset) r
  | _ => rfl

/-- The cleanup jobs after a statement: those of before, and the one it queues. -/
theorem cleanups_handler (o : IngestOp) (r : IngestRes o) :
    (ingestHandler o r s).2.cleanups = s.cleanups ∨
      ∃ job, o = .queueCleanup job ∧ (ingestHandler o r s).2.cleanups = s.cleanups ++ [job] := by
  cases o with
  | imports o => exact .inl (imports_cleanups o r)
  | createAsset row => exact .inl (insertRow_cleanups row r)
  | createEvent orgId dto =>
    rcases createEvent_cases orgId dto r s with hstate | hstate <;>
      · rw [hstate]
        exact .inl rfl
  | hardDelete orgId eventId =>
    change (s.hardDelete orgId eventId).cleanups = s.cleanups ∨ _
    rw [IngestStore.hardDelete]
    split <;> exact .inl rfl
  | queueCleanup job => exact .inr ⟨job, rfl, rfl⟩
  | listObjects pfx cursor => cases r <;> exact .inl rfl
  | _ => exact .inl rfl

theorem cleanups_grow (o : IngestOp) (r : IngestRes o) :
    s.cleanups ⊆ (ingestHandler o r s).2.cleanups := by
  rcases cleanups_handler o r with hsame | ⟨job, -, hmore⟩
  · exact fun _ hjob => hsame.symm ▸ hjob
  · rw [hmore]
    exact List.subset_append_left _ _

/-- The assets that a call deletes are there no more. -/
theorem retired_selected {hand hand' : Hand} {eventId : String} {ids : List String}
    (h : Ledger f ((.idle, hand) ::ₘ N) s) {a : AssetRow} (ha : a ∈ s.selected eventId ids) :
    Retired ((.idle, hand') ::ₘ N) (s.softDeleteMany eventId ids) a.storageKey := by
  obtain ⟨hmem, hselected⟩ := List.mem_filter.mp ha
  obtain ⟨hevent, hids, -⟩ := of_decide_eq_true hselected
  have hcount : 0 < (s.assets.map AssetRow.id).count a.id :=
    List.count_pos_iff.mpr (List.mem_map_of_mem hmem)
  refine ⟨a.id, (h.stocked.named a hmem).keyOf, (h.coherent.numbered a hmem).mono le_rfl, ?_⟩
  rintro (⟨b, hb, hid, hlive⟩ | ⟨k, hk, hunspent⟩)
  · obtain ⟨b₀, hb₀, rfl⟩ := List.mem_map.mp hb
    have hsame : b₀ = a := by
      refine List.inj_on_of_nodup_map h.coherent.ids hb₀ hmem ?_
      rw [← hid]
      split <;> rfl
    rw [hsame, if_pos ⟨hevent, hids⟩] at hlive
    cases hlive
  · rcases Multiset.mem_cons.mp hk with rfl | hk
    · cases hunspent
    · have hcalls : 0 < N.countP (fun k => k.1.unspent = some a.id) :=
        Multiset.countP_pos.mpr ⟨k, hk, hunspent⟩
      have hone := (h.ids a.id).1
      rw [spent_cons, spent] at hone
      omega

theorem removed_note {o : IngestOp} (ho : ∀ eventId ids, o ≠ .softDeleteMany eventId ids)
    (h : Hand) (r : IngestRes o) : (h.note ⟨o, r⟩).removed = h.removed := by
  cases o with
  | imports o =>
    cases o with
    | requireEvent eventId => cases r <;> rfl
    | _ => rfl
  | softDeleteMany eventId ids => exact absurd rfl (ho eventId ids)
  | _ => rfl

theorem job_note (h : Hand) (e : IngestEvent) : (h.note e).job = h.job := by
  unfold Hand.note
  split <;> (try split) <;> rfl

theorem removed_retired {o : IngestOp} (r : IngestRes o) (hledger : Ledger f (g ::ₘ N) s)
    (h : Spared (g ::ₘ N) s) (hpermit : g.1.Permits o)
    (hold : ∀ key, Retired (g ::ₘ N) s key →
      Retired ((stages.both hands).note g ⟨o, (ingestHandler o r s).1⟩ ::ₘ N)
        (ingestHandler o r s).2 key) {key : String}
    (hkey : key ∈ (g.2.note ⟨o, (ingestHandler o r s).1⟩).removed) :
    Retired ((stages.both hands).note g ⟨o, (ingestHandler o r s).1⟩ ::ₘ N)
      (ingestHandler o r s).2 key := by
  by_cases ho : ∃ eventId ids, o = .softDeleteMany eventId ids
  · obtain ⟨eventId, ids, rfl⟩ := ho
    obtain ⟨k, hand⟩ := g
    cases k with
    | idle =>
      obtain ⟨a, ha, rfl⟩ := List.mem_map.mp hkey
      exact retired_selected hledger ha
    | _ => cases hpermit
  · rw [removed_note (fun eventId ids hsame => ho ⟨eventId, ids, hsame⟩)] at hkey
    exact hold key (h.removed g (Multiset.mem_cons_self g N) key hkey)

theorem spared_perform {o : IngestOp} (r : IngestRes o) (hledger : Ledger f (g ::ₘ N) s)
    (h : Spared (g ::ₘ N) s) (hpermit : (stages.both hands).permits g o) :
    Spared ((stages.both hands).note g ⟨o, (ingestHandler o r s).1⟩ ::ₘ N)
      (ingestHandler o r s).2 := by
  have hmem := Multiset.mem_cons_self g N
  have hold : ∀ key, Retired (g ::ₘ N) s key →
      Retired ((stages.both hands).note g ⟨o, (ingestHandler o r s).1⟩ ::ₘ N)
        (ingestHandler o r s).2 key := fun key hkey =>
    hkey.mono (extends_handler o r).nextUuid fun id hid => held_perform r hpermit.1 hid
  refine ⟨fun keys hjob key hkey => ?_, fun k hk key hkey => ?_, fun k hk job hjob => ?_⟩
  · rcases cleanups_handler (s := s) o r with hsame | ⟨job, rfl, hmore⟩
    · exact hold key (h.queued keys (hsame ▸ hjob) key hkey)
    · rw [hmore] at hjob
      rcases List.mem_append.mp hjob with hjob | hjob
      · exact hold key (h.queued keys hjob key hkey)
      · obtain rfl := List.mem_singleton.mp hjob
        have hremoved : keys = g.2.removed := hpermit.2.1
        exact hold key (h.removed g hmem key (hremoved ▸ hkey))
  · rcases Multiset.mem_cons.mp hk with rfl | hk
    · exact removed_retired r hledger h hpermit.1 hold hkey
    · exact hold key (h.removed k (Multiset.mem_cons_of_mem hk) key hkey)
  · refine cleanups_grow o r ?_
    rcases Multiset.mem_cons.mp hk with rfl | hk
    · rw [show ((stages.both hands).note g _).2.job = g.2.job from job_note g.2 _] at hjob
      exact h.jobs g hmem job hjob
    · exact h.jobs k (Multiset.mem_cons_of_mem hk) job hjob

/-- Listings are of the bucket. -/
theorem listed_handler (o : IngestOp) (r : IngestRes o) :
    Listed ⟨o, (ingestHandler o r s).1⟩ := by
  cases o with
  | listObjects pfx cursor =>
    intro list hlist key hkey
    cases r with
    | error e => cases hlist
    | ok _ =>
      cases hlist
      have hunder := Keyset.mem_of_listing hkey
      exact List.isPrefixOf_iff_prefix.mp (List.mem_filter.mp hunder).2
  | _ => trivial

/-! Calls start and end. -/

theorem Ledger.join (h : Ledger f N s) (hunspent : g.1.unspent = none)
    (hpath : ∀ path ∈ g.2.path, ¬ Unmarked path) (hsourced : g.1.Sourced f s g.2.path) :
    Ledger f (g ::ₘ N) s := by
  refine ⟨h.stocked, ?_, ⟨h.files.items, h.files.bounded, h.files.staged, ?_, ?_⟩, ?_⟩
  · refine h.ids.mono (fun id => ?_) le_rfl
    rw [spent_cons, hunspent, if_neg (by simp)]
    omega
  · intro k hk path hkpath hunmarked
    rcases Multiset.mem_cons.mp hk with rfl | hk
    · exact absurd hunmarked (hpath path hkpath)
    · exact h.files.present k hk path hkpath hunmarked
  · intro path hunmarked
    rw [Multiset.countP_cons, if_neg fun hg : g.2.path = some path => hpath path hg hunmarked]
    exact h.files.apart path hunmarked
  · intro k hk
    rcases Multiset.mem_cons.mp hk with rfl | hk
    · exact hsourced
    · exact h.sourced k hk

theorem Ledger.drop (h : Ledger f (g ::ₘ N) s) : Ledger f N s := by
  refine ⟨h.stocked, ?_, ⟨h.files.items, h.files.bounded, h.files.staged,
    fun k hk => h.files.present k (Multiset.mem_cons_of_mem hk), fun path hunmarked => ?_⟩,
    fun k hk => h.sourced k (Multiset.mem_cons_of_mem hk)⟩
  · refine h.ids.mono (fun id => ?_) le_rfl
    rw [spent_cons]
    omega
  · have hone := h.files.apart path hunmarked
    rw [Multiset.countP_cons] at hone
    omega

/-- The file of an upload is staged under a path of its own. -/
theorem ledger_stage {eventId : String} {file : StagedUpload} (h : Ledger f N s)
    (hfresh : freshPath s file.stagingPath = true) :
    Ledger f ((IngestCall.uploadAsset eventId file).start ::ₘ N)
      { s with staged := s.staged ++ [(file.stagingPath, file.checksum)] } := by
  have hunmarked : Unmarked file.stagingPath := by
    have hmark := (Bool.and_eq_true_iff.mp hfresh).2
    rw [Bool.not_eq_true'] at hmark
    exact hmark
  have hfree : stagedFile s file.stagingPath = none := by
    have hall := List.all_eq_true.mp (Bool.and_eq_true_iff.mp hfresh).1
    have hnone : s.staged.find? (fun staged => staged.1 = file.stagingPath) = none := by
      refine List.find?_eq_none.mpr fun staged hstaged hsame => ?_
      exact absurd (of_decide_eq_true hsame) (of_decide_eq_true (hall staged hstaged))
    rw [stagedFile, hnone]
    rfl
  have hidle : Ledger f ((.idle, {}) ::ₘ N) s :=
    h.join rfl (fun path hpath => by cases hpath) trivial
  refine hidle.restage rfl (fun x content hcontent => ?_) (fun k hk path hpath hpathUnmarked => ?_)
    (fun path hpath _ => ?_) rfl ⟨rfl, hunmarked, stagedFile_new hfresh⟩
  · rw [stagedFile_new_ne (unmarked_ne hunmarked x).symm] at hcontent
    exact h.files.staged x content hcontent
  · refine stagedFile_new_ne fun hsame => ?_
    obtain ⟨content, hcontent⟩ := h.files.present k hk path hpath hpathUnmarked
    rw [hsame, hfree] at hcontent
    cases hcontent
  · cases hpath
    refine ⟨⟨_, stagedFile_new hfresh⟩, fun k hk hkpath => ?_⟩
    obtain ⟨content, hcontent⟩ := h.files.present k hk _ hkpath hunmarked
    rw [hfree] at hcontent
    cases hcontent

theorem accept_still {fuel : ℕ} {c : ImportCall} {w : Import.ImportWorld}
    (h : (Import.importServer fuel).accept c s.toImportWorld = some w) :
    Still s { s with toImportWorld := w } := by
  have hsame : ∀ i ∈ s.items, ∃ i₀ ∈ s.items, i₀.id = i.id ∧ i₀.remoteId = i.remoteId :=
    fun i hi => ⟨i, hi, rfl, rfl⟩
  have hqueued : ∀ c, (if c ∈ s.queue then some { s.toImportWorld with queue := s.queue.erase c }
      else none) = some w → Still s { s with toImportWorld := w } := by
    intro c h
    split at h
    · cases h
      exact still_world _ rfl hsame
    · cases h
  cases c with
  | importFolder j => exact hqueued _ h
  | importFile x => exact hqueued _ h
  | createImport job =>
    cases h
    exact still_self
  | cancel eventId j =>
    cases h
    exact still_self

theorem release_still {fuel : ℕ} {c : ImportCall} {verdict : Import.Verdict} {again : Bool}
    {w : Import.ImportWorld}
    (h : (Import.importServer fuel).release c verdict again s.toImportWorld = some w) :
    Still s { s with toImportWorld := w } := by
  have hsame : ∀ i ∈ s.items, ∃ i₀ ∈ s.items, i₀.id = i.id ∧ i₀.remoteId = i.remoteId :=
    fun i hi => ⟨i, hi, rfl, rfl⟩
  cases verdict with
  | unended => cases h
  | failed =>
    cases again <;>
      · cases h
        exact still_world _ rfl hsame
  | _ =>
    cases h
    exact still_world _ rfl hsame

theorem ledger_accept {fuel : ℕ} {c : IngestCall} (h : Ledger f N s)
    (haccept : (ingestServer fuel).accept c s = some s') : Ledger f (c.start ::ₘ N) s' := by
  cases c with
  | imports c =>
    obtain ⟨w, hw, rfl⟩ := Option.map_eq_some_iff.mp haccept
    refine (accept_still hw).ledger (h.join ?_ ?_ ?_)
    · cases c <;> rfl
    · intro path hpath hunmarked
      cases c with
      | importFile x =>
        cases hpath
        exact unmarked_ne hunmarked x rfl
      | _ => cases hpath
    · cases c <;> trivial
  | uploadAsset eventId file =>
    change (if freshPath s file.stagingPath then _ else _) = _ at haccept
    split at haccept
    · rename_i hfresh
      cases haccept
      exact ledger_stage h hfresh
    · cases haccept
  | cleanup job =>
    change (if job ∈ s.cleanups then _ else _) = _ at haccept
    split at haccept
    · cases haccept
      exact h.join rfl (fun path hpath => by cases hpath) trivial
    · cases haccept
  | _ =>
    cases haccept
    exact h.join rfl (fun path hpath => by cases hpath) trivial

/-- Jobs are queued by statements only, and one that starts was queued. -/
theorem accept_cleanups {fuel : ℕ} {c : IngestCall}
    (h : (ingestServer fuel).accept c s = some s') :
    s'.cleanups = s.cleanups ∧ ∀ job ∈ c.hand.job, job ∈ s.cleanups := by
  cases c with
  | imports c =>
    obtain ⟨w, -, rfl⟩ := Option.map_eq_some_iff.mp h
    refine ⟨rfl, fun job hjob => ?_⟩
    cases c <;> cases hjob
  | uploadAsset eventId file =>
    change (if freshPath s file.stagingPath then _ else _) = _ at h
    split at h
    · cases h
      exact ⟨rfl, fun job hjob => by cases hjob⟩
    · cases h
  | cleanup job =>
    change (if job ∈ s.cleanups then _ else _) = _ at h
    split at h
    · rename_i hqueued
      cases h
      refine ⟨rfl, fun other hother => ?_⟩
      cases hother
      exact hqueued
    · cases h
  | _ =>
    cases h
    exact ⟨rfl, fun job hjob => by cases hjob⟩

theorem release_cleanups {fuel : ℕ} {c : IngestCall} {reply : IngestReply} {again : Bool}
    (h : (ingestServer fuel).release c reply again s = some s') : s'.cleanups = s.cleanups := by
  have hanswered : ∀ s' : IngestStore, some { s with answered := s.answered ++ [(c, reply)] } =
      some s' → s'.cleanups = s.cleanups := by
    rintro s' ⟨⟩
    rfl
  cases c with
  | imports c =>
    cases reply with
    | imports verdict =>
      obtain ⟨w, -, rfl⟩ := Option.map_eq_some_iff.mp h
      rfl
    | _ => exact hanswered s' h
  | _ => exact hanswered s' h

theorem start_holds_none (c : IngestCall) : c.start.1.unspent = none ∧ c.start.2.removed = [] := by
  cases c with
  | imports c => cases c <;> exact ⟨rfl, rfl⟩
  | _ => exact ⟨rfl, rfl⟩

theorem spared_accept {fuel : ℕ} {c : IngestCall} (h : Spared N s)
    (haccept : (ingestServer fuel).accept c s = some s') : Spared (c.start ::ₘ N) s' := by
  have hsame := accept_sameCatalogue haccept
  obtain ⟨hcleanups, hjob⟩ := accept_cleanups haccept
  obtain ⟨hunspent, hremoved⟩ := start_holds_none c
  have hold : ∀ key, Retired N s key → Retired (c.start ::ₘ N) s' key := by
    refine fun key hkey => hkey.mono hsame.nextUuid fun id _ hheld => ?_
    rcases hheld with ⟨a, ha, hid⟩ | ⟨k, hk, hid⟩
    · exact .inl ⟨a, hsame.assets ▸ ha, hid⟩
    · rcases Multiset.mem_cons.mp hk with rfl | hk
      · rw [hunspent] at hid
        cases hid
      · exact .inr ⟨k, hk, hid⟩
  refine ⟨fun keys hqueued key hkey => ?_, fun k hk key hkey => ?_, fun k hk job hk' => ?_⟩
  · exact hold key (h.queued keys (hcleanups ▸ hqueued) key hkey)
  · rcases Multiset.mem_cons.mp hk with rfl | hk
    · rw [hremoved] at hkey
      cases hkey
    · exact hold key (h.removed k hk key hkey)
  · rw [hcleanups]
    rcases Multiset.mem_cons.mp hk with rfl | hk
    · exact hjob job hk'
    · exact h.jobs k hk job hk'

theorem spared_release {fuel : ℕ} {c : IngestCall} {reply : IngestReply} {again : Bool}
    (h : Spared (g ::ₘ N) s)
    (hrelease : (ingestServer fuel).release c reply again s = some s') : Spared N s' := by
  have hsame := release_sameCatalogue hrelease
  have hcleanups := release_cleanups hrelease
  have hold : ∀ key, Retired (g ::ₘ N) s key → Retired N s' key := by
    refine fun key hkey => hkey.mono hsame.nextUuid fun id _ hheld => ?_
    rcases hheld with ⟨a, ha, hid⟩ | ⟨k, hk, hid⟩
    · exact .inl ⟨a, hsame.assets ▸ ha, hid⟩
    · exact .inr ⟨k, Multiset.mem_cons_of_mem hk, hid⟩
  refine ⟨fun keys hqueued key hkey => ?_, fun k hk key hkey => ?_, fun k hk job hjob => ?_⟩
  · exact hold key (h.queued keys (hcleanups ▸ hqueued) key hkey)
  · exact hold key (h.removed k (Multiset.mem_cons_of_mem hk) key hkey)
  · exact hcleanups ▸ h.jobs k (Multiset.mem_cons_of_mem hk) job hjob

/-! What a call brings in is its own. -/

/-- The load is that of the call. -/
def Load.Serves (c : IngestCall) (l : Load) : Prop :=
  match l.origin with
  | .upload _ => ∃ file, c = .uploadAsset l.eventId file ∧ l.checksum = file.checksum
  | .item x => c = .imports (.importFile x)

def Stage.Serves (c : IngestCall) : Stage → Prop
  | .asked eventId file => c = .uploadAsset eventId file
  | .starting x | .chosen x _ | .admitted x _ _ | .fetched x _ _ | .hashed x _ _ _
  | .failed x => c = .imports (.importFile x)
  | .looking l | .weighing l _ _ | .unseen l _ | .drawn l _ _ | .placed l _ _ _
  | .stored l _ _ | .lost l _ _ | .cleared l | .linking l _ | .marked l _ _ _ => l.Serves c
  | _ => True

theorem Load.failed_serves {c : IngestCall} {l : Load} (h : l.Serves c) : l.failed.Serves c := by
  unfold Load.Serves at h
  unfold Load.failed
  split
  · trivial
  · rename_i x horigin
    rw [horigin] at h
    exact h

theorem serves_insertion {c : IngestCall} {l : Load} {id key : String} (h : l.Serves c)
    (r : Except ImportError Unit) : (Stage.insertion l id key r).Serves c := by
  unfold Stage.insertion
  split
  · exact h
  · exact h
  · exact l.failed_serves h

theorem serves_note {c : IngestCall} {k : Stage} (h : k.Serves c) (e : IngestEvent) :
    (k.note e).Serves c := by
  unfold Stage.note
  split <;> (try split) <;> (try split) <;>
    first
    | exact h
    | exact trivial
    | exact Load.failed_serves h
    | exact serves_insertion h _
    | exact ⟨_, h, rfl⟩

/-- How a call ends: as its stage says, and with its own load. -/
def IngestCall.Ends (c : IngestCall) (reply : IngestReply) (g : HandNote) : Prop :=
  c.Post reply g.1 ∧ g.1.Serves c

theorem start_serves (c : IngestCall) : c.first.Serves c := by
  cases c with
  | imports c => cases c <;> first | rfl | trivial
  | _ => first | rfl | trivial

theorem call_ends (fuel : ℕ) (c : IngestCall) :
    (stages.both hands).Follows (c.prog fuel) c.Ends c.start := by
  have hboth := follows_both (fun _ _ => rfl) (call_follows fuel c) (call_hands fuel c)
  refine follows_mono _ (fun reply g' hend => ⟨hend.1.1, hend.2⟩) _ _
    (follows_stable (stages.both hands) (I := fun g => g.1.Serves c)
      (fun g e hg => serves_note hg e) (start_serves c) hboth)

/-- An upload that was answered names a row with its content. -/
theorem answer_recorded {eventId : String} {file : StagedUpload} {result : UploadResult}
    (hends : (IngestCall.uploadAsset eventId file).Ends (.uploaded result) g)
    (hsource : g.1.Sourced f s g.2.path) : Recorded s eventId file.checksum result.id := by
  obtain ⟨hpost, hserves⟩ := hends
  obtain ⟨k, hand⟩ := g
  have hown : ∀ l : Load, l.Serves (.uploadAsset eventId file) →
      l.eventId = eventId ∧ l.checksum = file.checksum := by
    intro l hl
    unfold Load.Serves at hl
    split at hl
    · obtain ⟨file', hcall, hchecksum⟩ := hl
      cases hcall
      exact ⟨rfl, hchecksum⟩
    · cases hl
  rcases hpost with ⟨e, hreply, -⟩ | ⟨result', hreply, hend⟩
  · cases hreply
  · cases hreply
    unfold UploadEnd at hend
    split at hend
    · obtain ⟨l, key, rfl⟩ := hend
      obtain ⟨rfl, hchecksum⟩ := hown l hserves
      rw [← hchecksum]
      exact hsource
    · obtain ⟨l, rfl⟩ := hend
      obtain ⟨rfl, hchecksum⟩ := hown l hserves
      rw [← hchecksum]
      exact hsource result.id rfl

theorem ledger_release {fuel : ℕ} {c : IngestCall} {reply : IngestReply} {again : Bool}
    (h : Ledger f (g ::ₘ N) s) (hends : c.Ends reply g)
    (hrelease : (ingestServer fuel).release c reply again s = some s') : Ledger f N s' := by
  have hanswered : some { s with answered := s.answered ++ [(c, reply)] } = some s' →
      Ledger f N s' := by
    rintro ⟨⟩
    have hrest := h.drop
    have hsame : SameCatalogue s { s with answered := s.answered ++ [(c, reply)] } :=
      ⟨rfl, rfl, rfl, le_rfl⟩
    refine ⟨⟨hsame.catalogued h.stocked.catalogued, h.stocked.homes, h.stocked.named,
      h.stocked.single, h.stocked.objects, h.stocked.keys, fun eventId file result hmem => ?_⟩,
      hrest.ids, ⟨hrest.files.items, hrest.files.bounded, hrest.files.staged, hrest.files.present,
        hrest.files.apart⟩, fun k hk => ?_⟩
    · refine hsame.recorded ?_
      rcases List.mem_append.mp hmem with hmem | hmem
      · exact h.stocked.answered eventId file result hmem
      · cases List.mem_singleton.mp hmem
        exact answer_recorded hends (h.sourced g (Multiset.mem_cons_self g N))
    · exact (hrest.sourced k hk).mono hrest.files.bounded le_rfl (fun _ _ => rfl) rfl
        (fun _ _ _ => rfl) (fun _ _ _ _ _ hbacked => hbacked) fun _ _ _ => hsame.recorded
  cases c with
  | imports c =>
    cases reply with
    | imports verdict =>
      obtain ⟨w, hw, rfl⟩ := Option.map_eq_some_iff.mp hrelease
      exact (release_still hw).ledger h.drop
    | _ => exact hanswered hrelease
  | _ => exact hanswered hrelease

theorem ledger_preserves (fuel : ℕ)
    (P : IngestPool → IngestThread → IngestEvent → Prop) :
    Preserves (ingestServer fuel) P (stages.both hands) IngestCall.start IngestCall.Ends
      (fun S s => (∃ f, Ledger f S s) ∧ Spared S s) where
  accept _ _ _ _ h haccept := by
    obtain ⟨⟨f, h⟩, hspared⟩ := h
    exact ⟨⟨f, ledger_accept h haccept⟩, spared_accept hspared haccept⟩
  perform _ _ _ o r _ h hpermit _ := by
    obtain ⟨⟨f, h⟩, hspared⟩ := h
    exact ⟨⟨trivial, listed_handler o r⟩, ledger_perform r h hspared hpermit,
      spared_perform r h hspared hpermit⟩
  release _ _ _ _ _ _ _ h hends hrelease := by
    obtain ⟨⟨f, h⟩, hspared⟩ := h
    exact ⟨⟨f, ledger_release h hends hrelease⟩, spared_release hspared hrelease⟩

end Parts

/-- Nothing is staged, the tables and the bucket agree, and the cleanup jobs are
for deleted assets. -/
structure AtRest (s : IngestStore) : Prop extends Coherent s where
  tables : s.toTables.WellFormed
  staged : s.staged = []
  retired : ∀ keys, Cleanup.cleanupKeys keys ∈ s.cleanups → ∀ key ∈ keys, Retired 0 s key

/-- What the file of each item holds. -/
def holding (s : IngestStore) : ItemId → Option String := fun x =>
  (findRow ImportItem.id x s.items).bind fun item => remoteFile s item.remoteId

theorem AtRest.ledger {s : IngestStore} (h : AtRest s) : Ledger (holding s) 0 s := by
  have hnone : ∀ path, stagedFile s path = none := by
    intro path
    rw [stagedFile, h.staged]
    rfl
  have hspent : ∀ id, spent 0 s id = (s.assets.map AssetRow.id).count id := fun id => rfl
  refine ⟨h.toStocked, fun id => ?_,
    ⟨fun i hi => ?_, fun x hx => ?_, fun x content hx => ?_, ?_, ?_⟩, ?_⟩
  · rw [hspent]
    refine ⟨List.nodup_iff_count_le_one.mp h.ids id, fun hpos => ?_⟩
    obtain ⟨a, ha, rfl⟩ := List.mem_map.mp (List.count_pos_iff.mp hpos)
    exact h.numbered a ha
  · refine ⟨h.tables.below i hi, ?_⟩
    rw [holding, findRow_of_mem h.tables.ids hi]
    rfl
  · have hnothing : findRow ImportItem.id x s.items = none := by
      refine findRow_eq_none.mpr fun i hi hid => ?_
      exact Nat.not_lt_of_le hx (hid ▸ h.tables.below i hi)
    rw [holding, hnothing]
    rfl
  · rw [hnone] at hx
    cases hx
  · exact fun _ hg => absurd hg (Multiset.notMem_zero _)
  · exact fun _ _ => Nat.zero_le _
  · exact fun _ hg => absurd hg (Multiset.notMem_zero _)

theorem AtRest.spared {s : IngestStore} (h : AtRest s) : Spared 0 s :=
  ⟨h.retired, fun _ hg => absurd hg (Multiset.notMem_zero _),
    fun _ hg => absurd hg (Multiset.notMem_zero _)⟩

theorem party_atRest : AtRest partyStore where
  catalogued := party_catalogued
  homes := fun _ ha => absurd ha List.not_mem_nil
  named := fun _ ha => absurd ha List.not_mem_nil
  single := List.Pairwise.nil
  objects := fun _ ha => absurd ha List.not_mem_nil
  keys := List.nodup_nil
  answered := fun _ _ _ hmem => absurd hmem List.not_mem_nil
  ids := List.nodup_nil
  numbered := fun _ ha => absurd ha List.not_mem_nil
  tables := ⟨by decide, by decide, by decide, by decide, by decide⟩
  staged := rfl
  retired := fun _ hjob => absurd hjob List.not_mem_nil

/-- Two uploads of one photo: both find it new and store it, one inserts its
row and the other takes its object back. -/
def collision : List IngestMove :=
  .start (.uploadAsset "event" smallPhoto) ::
    .start (.uploadAsset "event" { smallPhoto with stagingPath := "again" }) ::
    performs (willing 0) 0 7 ++ performs (willing 0) 1 7 ++ performs (willing 0) 0 3 ++
    [.leave 0 false] ++ performs (willing 0) 0 4 ++ [.leave 0 false]

/-- The photo is deleted after another one has come in, and cleaned up. -/
def tidied : List IngestMove :=
  collision ++
    wholeCall (willing 0) (.uploadAsset "event"
      { smallPhoto with stagingPath := "other", checksum := "other" }) 0 10 ++
    wholeCall (willing 0) (.deleteMany "event" ["0"]) 0 2 ++
    wholeCall (willing 0) (.cleanup (.cleanupKeys ["org/org/event/event/original/0.jpg"])) 0 1

end EventLens.Ingest

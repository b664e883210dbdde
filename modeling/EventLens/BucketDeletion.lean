import EventLens.BucketKeys
import EventLens.Keyset
import EventLens.Programs
import Mathlib

/-!
Deletion by prefix. The service lists a bucket page by page, each with a token
for the next; the keys of a page are deleted in batches before the next one is
fetched. What is deleted in the end is what has the prefix, and the prefix of an
event or an organisation is that of its own objects.
-/

namespace EventLens.Bucket

open Programs
open Media (deleteBatch)

/-- An answer of `ListObjectsV2`. -/
structure ListOutput where
  contents : Option (List (Option String))
  isTruncated : Bool
  nextContinuationToken : Option String
deriving DecidableEq, Repr

namespace ListOutput

def keys (list : ListOutput) : List String :=
  ((list.contents.getD []).filterMap id).filter (fun key => key ≠ "")

/-- The loop goes on with a token that is not empty. -/
def next (list : ListOutput) : Option String :=
  (if list.isTruncated then list.nextContinuationToken else none).filter (fun token => token ≠ "")

end ListOutput

/-- A request that fails, and what it has removed by then. -/
structure Failure where
  text : String
  removed : List String := []
deriving DecidableEq, Repr

inductive StorageOp
  | listObjectsV2 (pfx : String) (continuationToken : Option String)
  | deleteObjects (keys : List String)
deriving DecidableEq, Repr

abbrev StorageRes : StorageOp → Type
  | .listObjectsV2 _ _ => Except Failure ListOutput
  | .deleteObjects _ => Except Failure Unit

abbrev StorageEvent := Event StorageOp StorageRes
abbrev Attempt := ExceptT Failure (Prog StorageOp StorageRes)

/-- What the service lists of a bucket under a prefix, from a token on. -/
abbrev Listing := Finset String → String → Option String → ListOutput

def storageHandler (listing : Listing) : Handler StorageOp StorageRes (Finset String)
  | .listObjectsV2 _ _, .error e, s => (.error e, s)
  | .listObjectsV2 pfx token, .ok _, s => (.ok (listing s pfx token), s)
  | .deleteObjects keys, .error e, s =>
    (.error e, s.filter (fun key => ¬ (key ∈ keys ∧ key ∈ e.removed)))
  | .deleteObjects keys, .ok _, s => (.ok (), s.filter (fun key => key ∉ keys))

def listObjects (pfx : String) (continuationToken : Option String) : Attempt ListOutput :=
  .mk (.perform (.listObjectsV2 pfx continuationToken) .done)

def deleteObjects (keys : List String) : Attempt Unit := .mk (.perform (.deleteObjects keys) .done)

def deleteBatches : ℕ → List String → Attempt Unit
  | 0, _ => pure ()
  | n + 1, keys =>
    if keys = [] then pure ()
    else do
      deleteObjects (keys.take deleteBatch)
      deleteBatches n (keys.drop deleteBatch)

def deleteKeys (keys : List String) : Attempt Unit := deleteBatches keys.length keys

/-- The page, if there is anything on it. -/
def deletePage (keys : List String) : Attempt Unit := if keys ≠ [] then deleteKeys keys else pure ()

/-- The listing goes on as long as there is fuel. -/
def deletePrefix (pfx : String) : ℕ → Option String → Attempt Unit
  | 0, _ => throw { text := "unended" }
  | n + 1, token => do
    let list ← listObjects pfx token
    deletePage list.keys
    match list.next with
    | some token => deletePrefix pfx n (some token)
    | none => pure ()

/-- What the service promises about its pages. A token stands at a place in the
order of the keys, `after` it come the keys that are still to be listed; and a
page that is not the last one is not empty. -/
structure Lists (listing : Listing) (after : Option String → String → Prop) : Prop where
  start : ∀ key, after none key
  listed : ∀ s pfx token, ∀ key ∈ (listing s pfx token).keys, key ∈ s ∧ startsWith key pfx
  reached : ∀ s pfx token, ∀ key ∈ s, key ≠ "" → startsWith key pfx → after token key →
    key ∈ (listing s pfx token).keys ∨ ∃ next ∈ (listing s pfx token).next, after (some next) key
  filled : ∀ s pfx token, (listing s pfx token).next ≠ none → (listing s pfx token).keys ≠ []

def Fails : StorageEvent → Prop
  | ⟨.listObjectsV2 _ _, r⟩ => ∃ e, (r : Except Failure ListOutput) = .error e
  | ⟨.deleteObjects _, r⟩ => ∃ e, (r : Except Failure Unit) = .error e

/-! What a deletion comes to. -/

section Deletion

variable {listing : Listing} {after : Option String → String → Prop} {s s' s'' : Finset String}
  {trace : List StorageEvent} {value : Except Failure Unit} {pfx : String} {P Q : String → Prop}

/-- Of the objects only those in `P` go, and all of them when it returns. -/
structure Clears (P : String → Prop) (s : Finset String) (value : Except Failure Unit)
    (s' : Finset String) :
    Prop where
  old : s' ⊆ s
  kept : ∀ key ∈ s, ¬ P key → key ∈ s'
  gone : value = .ok () → ∀ key ∈ s', ¬ P key

theorem clears_none (h : ∀ key ∈ s, ¬ P key) : Clears P s (.ok ()) s :=
  ⟨Finset.Subset.refl _, fun _ hkey _ => hkey, fun _ => h⟩

/-- One deletion and then another. -/
theorem Clears.next (h : Clears P s (.ok ()) s') (h' : Clears Q s' value s'') :
    Clears (fun key => P key ∨ Q key) s value s'' where
  old := h'.old.trans h.old
  kept key hkey hnot :=
    h'.kept key (h.kept key hkey fun hP => hnot (.inl hP)) fun hQ => hnot (.inr hQ)
  gone hvalue key hkey := by
    rintro (hP | hQ)
    · exact h.gone rfl key (h'.old hkey) hP
    · exact h'.gone hvalue key hkey hQ

theorem Clears.failed {e : Failure} (h : Clears P s (.error e) s') (hPQ : ∀ key, P key → Q key) :
    Clears Q s (.error e) s' :=
  ⟨h.old, fun key hkey hnot => h.kept key hkey fun hP => hnot (hPQ key hP), fun hvalue => by
    cases hvalue⟩

theorem Clears.congr (h : Clears P s value s')
    (hPQ : ∀ key ∈ s, P key ↔ Q key) : Clears Q s value s' where
  old := h.old
  kept key hkey hnot := h.kept key hkey fun hP => hnot ((hPQ key hkey).mp hP)
  gone hvalue key hkey hQ := h.gone hvalue key hkey ((hPQ key (h.old hkey)).mpr hQ)

theorem deleteObjects_exec {keys : List String}
    (he : Exec (storageHandler listing) (deleteObjects keys).run s trace value s') :
    Clears (fun key => key ∈ keys) s value s' ∧
    ((∀ event ∈ trace, ¬ Fails event) → value = .ok ()) := by
  obtain ⟨r, rest, rfl, hdone⟩ := exec_perform.mp he
  obtain ⟨rfl, rfl, rfl⟩ := exec_done.mp hdone
  cases r with
  | error e =>
    refine ⟨⟨Finset.filter_subset _ _, fun key hkey hnot => ?_, fun hvalue => by
      cases hvalue⟩, fun hnone => ?_⟩
    · exact Finset.mem_filter.mpr ⟨hkey, fun h => hnot h.1⟩
    · exact absurd ⟨e, rfl⟩ (hnone _ List.mem_cons_self)
  | ok _ =>
    refine ⟨⟨Finset.filter_subset _ _, fun key hkey hnot => ?_, fun _ key hkey => ?_⟩, fun _ => rfl⟩
    · exact Finset.mem_filter.mpr ⟨hkey, hnot⟩
    · exact (Finset.mem_filter.mp hkey).2

/-- The batches are all of the keys. -/
theorem deleteBatches_exec (n : ℕ) {keys : List String} (hn : keys.length ≤ n)
    (he : Exec (storageHandler listing) (deleteBatches n keys).run s trace value s') :
    Clears (fun key => key ∈ keys) s value s' ∧
    ((∀ event ∈ trace, ¬ Fails event) → value = .ok ()) := by
  induction n generalizing keys s trace with
  | zero =>
    obtain ⟨rfl, rfl, rfl⟩ := exec_done.mp he
    obtain rfl := List.length_eq_zero_iff.mp (Nat.le_zero.mp hn)
    exact ⟨clears_none fun _ _ => List.not_mem_nil, fun _ => rfl⟩
  | succ n ih =>
    rw [deleteBatches] at he
    split at he
    · rename_i hnil
      obtain ⟨rfl, rfl, rfl⟩ := exec_done.mp he
      rw [hnil]
      exact ⟨clears_none fun _ _ => List.not_mem_nil, fun _ => rfl⟩
    · rename_i hsome
      have hsplit :
        ∀ key, key ∈ keys ↔ key ∈ keys.take deleteBatch ∨ key ∈ keys.drop deleteBatch := by
        intro key
        rw [← List.mem_append, List.take_append_drop]
      rcases exec_attempt.mp he with ⟨first, _, s₁, rest, rfl, hfirst, hrest⟩ | ⟨e, rfl, hfirst⟩
      · have hdrop : (keys.drop deleteBatch).length ≤ n := by
          have hlength := List.length_pos_of_ne_nil hsome
          rw [List.length_drop, deleteBatch]
          omega
        obtain ⟨hbatch, -⟩ := deleteObjects_exec hfirst
        obtain ⟨hlater, hends⟩ := ih hdrop hrest
        refine ⟨(hbatch.next hlater).congr fun key _ => (hsplit key).symm,
          fun hnone => hends fun event hevent => ?_⟩
        exact hnone event (List.mem_append_right _ hevent)
      · obtain ⟨hbatch, hends⟩ := deleteObjects_exec hfirst
        exact ⟨hbatch.failed fun key hkey => (hsplit key).mpr (.inl hkey), hends⟩

theorem deletePage_exec {keys : List String}
    (he : Exec (storageHandler listing) (deletePage keys).run s trace value s') :
    Clears (fun key => key ∈ keys) s value s' ∧
    ((∀ event ∈ trace, ¬ Fails event) → value = .ok ()) := by
  rw [deletePage] at he
  split at he
  · exact deleteBatches_exec _ le_rfl he
  · rename_i hnil
    obtain ⟨rfl, rfl, rfl⟩ := exec_done.mp he
    rw [not_not.mp hnil]
    exact ⟨clears_none fun _ _ => List.not_mem_nil, fun _ => rfl⟩

/-- From a token on that everything with the prefix is after. -/
theorem deletePrefix_exec (hlists : Lists listing after) (hpfx : pfx ≠ "") (fuel : ℕ)
    {token : Option String}
    (hafter : ∀ key ∈ s, startsWith key pfx → after token key)
    (he : Exec (storageHandler listing) (deletePrefix pfx fuel token).run s trace value s') :
    Clears (fun key => startsWith key pfx) s value s' ∧
      (s.card < fuel → (∀ event ∈ trace, ¬ Fails event) → value = .ok ()) := by
  induction fuel generalizing s trace token with
  | zero =>
    obtain ⟨rfl, rfl, rfl⟩ := exec_done.mp he
    refine ⟨⟨Finset.Subset.refl _, fun _ hkey _ => hkey, fun hvalue => by
      cases hvalue⟩, fun hfuel => ?_⟩
    exact absurd hfuel (Nat.not_lt_zero _)
  | succ fuel ih =>
    have hnonempty : ∀ key, startsWith key pfx → key ≠ "" := by
      rintro key hkey rfl
      exact hpfx (String.toList_injective (List.prefix_nil.mp hkey))
    rcases exec_attempt.mp he with ⟨first, list, s₁, rest, rfl, hlist, hrest⟩ | ⟨e, rfl, hlist⟩
    · obtain ⟨r, rest', rfl, hdone⟩ := exec_perform.mp hlist
      obtain ⟨rfl, hr, rfl⟩ := exec_done.mp hdone
      cases r with
      | error e => cases hr
      | ok answer =>
        cases hr
        have hlisted := hlists.listed s pfx token
        rcases exec_attempt.mp hrest with ⟨second, _, s₂, last, rfl, hdelete, hlast⟩ |
          ⟨e, rfl, hdelete⟩
        · obtain ⟨hpage, -⟩ := deletePage_exec hdelete
          cases hnext : (listing s pfx token).next with
          | none =>
            simp only [hnext] at hlast
            obtain ⟨rfl, rfl, rfl⟩ := exec_done.mp hlast
            refine ⟨hpage.congr fun key hkey => ⟨fun hin => (hlisted key hin).2, fun hstarts => ?_⟩,
              fun _ _ => rfl⟩
            refine (hlists.reached s pfx token key hkey (hnonempty key hstarts) hstarts
              (hafter key hkey hstarts)).resolve_right ?_
            rw [hnext]
            rintro ⟨_, h, -⟩
            cases h
          | some next =>
            simp only [hnext] at hlast
            have hbehind : ∀ key ∈ s₂, startsWith key pfx → after (some next) key := by
              intro key hkey hstarts
              have hold := hpage.old hkey
              obtain ⟨found, hfound, hstands⟩ :=
                (hlists.reached s pfx token key hold (hnonempty key hstarts)
                hstarts (hafter key hold hstarts)).resolve_left (hpage.gone rfl key hkey)
              rw [hnext] at hfound
              cases hfound
              exact hstands
            obtain ⟨hrestClears, hends⟩ := ih hbehind hlast
            refine ⟨(hpage.next hrestClears).congr fun key _ => ⟨?_, .inr⟩, fun hfuel hok => ?_⟩
            · rintro (hin | hstarts)
              · exact (hlisted key hin).2
              · exact hstarts
            · have hfewer : s₂.card < s.card := by
                obtain ⟨key, hkey⟩ := List.exists_mem_of_ne_nil _
                  (hlists.filled s pfx token (by rw [hnext]; exact Option.some_ne_none next))
                refine Finset.card_lt_card ⟨hpage.old, fun hback => ?_⟩
                exact hpage.gone rfl key (hback (hlisted key hkey).1) hkey
              refine hends (by omega) fun event hevent => ?_
              exact hok event (List.mem_append_right _ (List.mem_append_right _ hevent))
        · obtain ⟨hpage, hends⟩ := deletePage_exec hdelete
          refine ⟨hpage.failed fun key hkey => (hlisted key hkey).2,
            fun _ hok => hends fun event hevent => ?_⟩
          exact hok event (List.mem_cons_of_mem _ hevent)
    · obtain ⟨r, rest, rfl, hdone⟩ := exec_perform.mp hlist
      obtain ⟨rfl, hr, rfl⟩ := exec_done.mp hdone
      cases r with
      | ok answer => cases hr
      | error e' =>
        refine ⟨⟨Finset.Subset.refl _, fun _ hkey _ => hkey, fun hvalue => by
          cases hvalue⟩, fun _ hok => ?_⟩
        exact absurd ⟨e', rfl⟩ (hok _ List.mem_cons_self)

end Deletion

/-- A deletion of the prefix removes the objects that are `mine` and no others.
It returns unless a request fails, and one that does has removed none of the
others either. -/
def Removes (listing : Listing) (pfx : String) (mine : ObjectName → Prop) : Prop :=
  ∀ (fuel : ℕ) (s s' : Finset String) (trace : List StorageEvent) (value : Except Failure Unit),
    s.card < fuel →
    Exec (storageHandler listing) (deletePrefix pfx fuel none).run s trace value s' →
      ((∀ event ∈ trace, ¬ Fails event) → value = .ok ()) ∧
      (value = .ok () → ∀ name : ObjectName, name.key ∈ s' ↔ name.key ∈ s ∧ ¬ mine name) ∧
      ∀ name : ObjectName, name.key ∈ s → ¬ mine name → name.key ∈ s'

theorem removes_of_prefix {listing : Listing} {after : Option String → String → Prop} {pfx : String}
    {mine : ObjectName → Prop} (hlists : Lists listing after) (hpfx : pfx ≠ "")
    (hmine : ∀ name : ObjectName, startsWith name.key pfx ↔
    mine name) : Removes listing pfx mine := by
  intro fuel s s' trace value hfuel he
  obtain ⟨hclears, hends⟩ := deletePrefix_exec hlists hpfx fuel (fun key _ _ => hlists.start key) he
  refine ⟨hends hfuel, fun hvalue name => ⟨fun hkey => ⟨hclears.old hkey, fun hname => ?_⟩, ?_⟩, ?_⟩
  · exact hclears.gone hvalue _ hkey ((hmine name).mpr hname)
  · rintro ⟨hkey, hname⟩
    exact hclears.kept _ hkey fun hstarts => hname ((hmine name).mp hstarts)
  · intro name hkey hname
    exact hclears.kept _ hkey fun hstarts => hname ((hmine name).mp hstarts)

theorem orgPrefix_ne (orgId : Uuid) : StorageKeys.orgPrefix orgId.text ≠ "" := by
  intro h
  have hlist := congrArg String.toList h
  rw [orgPrefix_toList] at hlist
  simp at hlist

theorem eventPrefix_ne (orgId eventId : Uuid) :
    StorageKeys.eventPrefix orgId.text eventId.text ≠ "" := by
  intro h
  have hlist := congrArg String.toList h
  rw [eventPrefix_toList] at hlist
  simp at hlist

/-- No two keys or prefixes are built alike; a key begins with the prefixes of
its own event and organisation only, so that a deletion by one of these removes
just their objects. -/
theorem keys_partition_bucket :
    Function.Injective Built.text ∧
      (∀ (name : ObjectName) (orgId eventId : Uuid),
        startsWith name.key (StorageKeys.eventPrefix orgId.text eventId.text) ↔
          name.orgId = orgId ∧ name.eventId = eventId) ∧
      (∀ orgId eventId orgId' : Uuid,
        startsWith (StorageKeys.eventPrefix orgId.text eventId.text)
        (StorageKeys.orgPrefix orgId'.text) ↔
          orgId = orgId') ∧
      ∀ (listing : Listing) (after : Option String → String → Prop), Lists listing after →
        (∀ orgId eventId : Uuid, Removes listing (StorageKeys.eventPrefix orgId.text eventId.text)
          (fun name => name.orgId = orgId ∧ name.eventId = eventId)) ∧
        ∀ orgId : Uuid, Removes listing (StorageKeys.orgPrefix orgId.text)
        (fun name => name.orgId = orgId) := by
  refine ⟨text_injective, key_startsWith_eventPrefix, eventPrefix_startsWith_orgPrefix,
    fun listing after hlists => ?_⟩
  constructor
  · intro orgId eventId
    exact removes_of_prefix hlists (eventPrefix_ne orgId eventId)
      (fun name => key_startsWith_eventPrefix name orgId eventId)
  · intro orgId
    exact removes_of_prefix hlists (orgPrefix_ne orgId)
      (fun name => key_startsWith_orgPrefix name orgId)

/-! A listing in the order of the keys, whose tokens are the last keys. -/

def listInOrder (limit : ℕ) : Listing := fun s pfx token =>
  let page :=
    Keyset.listing id limit
    ((s.filter (fun key => key ≠ "" ∧ startsWith key pfx)).sort (· ≤ ·)) token
  { contents := some (page.rows.map some)
    isTruncated := page.next.isSome
    nextContinuationToken := page.next }

section InOrder

variable {limit : ℕ} {s : Finset String} {pfx : String} {token : Option String} {key : String}

theorem mem_candidates : key ∈ (s.filter (fun key => key ≠ "" ∧ startsWith key pfx)).sort (· ≤ ·) ↔
    key ∈ s ∧ key ≠ "" ∧ startsWith key pfx := by
  rw [Finset.mem_sort, Finset.mem_filter]

theorem keys_listInOrder : (listInOrder limit s pfx token).keys = (Keyset.listing id limit
    ((s.filter (fun key => key ≠ "" ∧ startsWith key pfx)).sort (· ≤ ·)) token).rows := by
  simp only [ListOutput.keys, listInOrder, Option.getD_some, List.filterMap_map,
    Function.comp_def, id_eq,
    List.filterMap_some]
  refine List.filter_eq_self.mpr fun key hkey => decide_eq_true ?_
  exact (mem_candidates.mp (Keyset.mem_of_listing hkey)).2.1

theorem next_listInOrder : (listInOrder limit s pfx token).next = (Keyset.listing id limit
    ((s.filter (fun key => key ≠ "" ∧ startsWith key pfx)).sort (· ≤ ·)) token).next := by
  have htoken : ∀ next : Option String, (∀ last ∈ next, last ≠ "") →
      (if next.isSome then next else none).filter (fun token => token ≠ "") = next := by
    intro next hnext
    cases next with
    | none => rfl
    | some last => simp [hnext last rfl]
  refine htoken _ fun last hlast => ?_
  exact (mem_candidates.mp (Keyset.mem_of_listing (Keyset.mem_rows_of_next hlast))).2.1

theorem listInOrder_lists (hlimit : 1 ≤ limit) :
    Lists (listInOrder limit) (Keyset.BehindCursor id) where
  start key := by rintro last ⟨⟩
  listed s pfx token key hkey := by
    rw [keys_listInOrder] at hkey
    obtain ⟨hmem, -, hstarts⟩ := mem_candidates.mp (Keyset.mem_of_listing hkey)
    exact ⟨hmem, hstarts⟩
  reached s pfx token key hkey hne hstarts hafter := by
    rw [keys_listInOrder, next_listInOrder]
    rcases Keyset.listed_or_behind Function.injective_id hlimit
      (mem_candidates.mpr ⟨hkey, hne, hstarts⟩) hafter with
      hlisted | ⟨last, hlast, hlt⟩
    · exact .inl hlisted
    · refine .inr ⟨last, hlast, fun found hfound => ?_⟩
      cases hfound
      exact hlt
  filled s pfx token hnext := by
    rw [next_listInOrder] at hnext
    rw [keys_listInOrder]
    obtain ⟨last, hlast⟩ := Option.ne_none_iff_exists'.mp hnext
    exact List.ne_nil_of_mem (Keyset.mem_rows_of_next hlast)

end InOrder

def acme : Uuid := ⟨"0b6f1a52-9c3e-4d7a-8f21-5e0c9d4b7a11", by decide⟩
def gala : Uuid := ⟨"3d2e8c47-1f5b-4a96-b0d8-7c41e6f9a205", by decide⟩
def picnic : Uuid := ⟨"3d2e8c47-1f5b-4a96-b0d8-7c41e6f9a206", by decide⟩
def guest : Uuid := ⟨"a94c7d10-62be-4f38-9e15-d80b3f6c2e74", by decide⟩

/-- No request fails. -/
def serving : Oracle StorageOp StorageRes
  | _, .listObjectsV2 _ _ =>
    .ok { contents := none, isTruncated := false, nextContinuationToken := none }
  | _, .deleteObjects _ => .ok ()

/-- The selfie goes with its event; the photo of another event stays. -/
theorem keys_partition_bucket_gala :
    let selfie := ObjectName.selfie acme gala guest 1
    let photo := ObjectName.original acme picnic guest ".jpg"
    let done := run (storageHandler (listInOrder 1000))
      (deletePrefix (StorageKeys.eventPrefix acme.text gala.text) 3 none).run serving {selfie.key,
      photo.key}
    done.value = .ok () ∧ selfie.key ∉ done.state ∧ photo.key ∈ done.state := by
  intro selfie photo done
  have hserved : ∀ event ∈ done.trace, ¬ Fails event := by
    refine run_trace fun n o s => ?_
    cases o <;> rintro ⟨e, he⟩ <;> cases he
  have hlimit : 1 ≤ 1000 := by decide
  have hlists := listInOrder_lists hlimit
  have hcard : ({selfie.key, photo.key} : Finset String).card < 3 :=
    Nat.lt_succ_of_le Finset.card_le_two
  obtain ⟨hends, hobjects, hothers⟩ :=
    (keys_partition_bucket.2.2.2 _ _ hlists).1 acme gala 3 _ _ _ _ hcard
    (exec_run _ _ _ _)
  have hvalue := hends hserved
  have hother : ¬ (photo.orgId = acme ∧ photo.eventId = gala) := by decide
  exact ⟨hvalue, fun hselfie => ((hobjects hvalue selfie).mp hselfie).2 ⟨rfl, rfl⟩,
    hothers photo (by simp) hother⟩

end EventLens.Bucket

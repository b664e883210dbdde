import EventLens.Keyset
import Mathlib.Data.Int.Order.Basic

/-!
The asset listings of an event and of an organisation. The repository selects,
orders and limits rows, the service cuts one page and encodes the cursor of
the next. Both orders put assets without a capture time first. The cursor of
such an asset is read as the epoch by the event listing, and as a place in
the block of undated assets by the organisation listing.
-/

namespace EventLens.Assets

open Keyset

variable {ι : Type} [LinearOrder ι]

/-- The columns of an asset that the listings select by or order by. -/
structure Asset (ι : Type) where
  id : ι
  eventId : ι
  orgId : ι
  capturedAt : Option ℤ := none
  deletedAt : Option ℤ := none
  facesDetectedAt : Option ℤ := none
  faceCount : ℕ := 0
deriving DecidableEq

structure Event (ι : Type) where
  id : ι
  name : String
  deletedAt : Option ℤ := none
  purgedAt : Option ℤ := none
deriving DecidableEq

inductive FaceStatus
  | pending | found | none
deriving DecidableEq

/-- The payload of a cursor token. -/
structure Cursor (ι : Type) where
  capturedAt : Option ℤ
  id : ι
deriving DecidableEq

def encodeCursor (capturedAt : Option ℤ) (id : ι) : Cursor ι :=
    { capturedAt := capturedAt, id := id }

def decodeCursor (cursor : Cursor ι) : Option ℤ × ι := (cursor.capturedAt, cursor.id)

/-! The listing of an event. -/

def FaceStatus.matches (status : FaceStatus) (a : Asset ι) : Bool :=
  match status with
  | .pending => a.facesDetectedAt.isNone
  | .found => a.facesDetectedAt.isSome && decide (0 < a.faceCount)
  | .none => a.facesDetectedAt.isSome && decide (a.faceCount = 0)

/-- The conditions of the event query apart from the cursor. -/
def listed (eventId : ι) (faceStatus : Option FaceStatus) (a : Asset ι) : Bool :=
  decide (a.eventId = eventId) && a.deletedAt.isNone &&
    (match faceStatus with
      | some status => status.matches a
      | none => true)

def epoch : ℤ := 0

/-- Nulls coalesced, so that the tuple compares. -/
def afterCursor (cursorCapturedAt : Option ℤ) (cursorId : ι) (a : Asset ι) : Prop :=
  Below Asset.capturedAt Asset.id (cursorCapturedAt.getD epoch) cursorId a

instance (cursorCapturedAt : Option ℤ) (cursorId : ι) (a : Asset ι) :
    Decidable (afterCursor cursorCapturedAt cursorId a) :=
  inferInstanceAs (Decidable (Below _ _ _ _ _))

namespace AssetRepository

def list (assets : List (Asset ι)) (eventId : ι) (limit : ℕ) (cursor : Option (Option ℤ × ι))
    (faceStatus : Option FaceStatus) : List (Asset ι) :=
  let selected := assets.filter (listed eventId faceStatus)
  let query := match cursor with
    | some (cursorCapturedAt, cursorId) =>
      selected.filter (fun a => afterCursor cursorCapturedAt cursorId a)
    | none => selected
  (orderBy Asset.capturedAt Asset.id query).take limit

end AssetRepository

namespace AssetService

def list (assets : List (Asset ι)) (eventId : ι) (limit : ℕ) (cursor : Option (Cursor ι))
    (faceStatus : Option FaceStatus) : Page (Asset ι) (Cursor ι) :=
  let rows := AssetRepository.list assets eventId (limit + 1) (cursor.map decodeCursor) faceStatus
  page limit (fun last => encodeCursor last.capturedAt last.id) rows

end AssetService

/-- The ordered query without a page limit. -/
def eventListing (assets : List (Asset ι)) (eventId : ι) (faceStatus : Option FaceStatus) :
    List (Asset ι) :=
  orderBy Asset.capturedAt Asset.id (assets.filter (listed eventId faceStatus))

/-- The assets of a client that follows `nextCursor` until it is null. -/
def followEvent (assets : List (Asset ι)) (eventId : ι) (limit : ℕ)
    (faceStatus : Option FaceStatus) (fuel : ℕ) : Option (List (Asset ι)) :=
  follow (fun cursor => AssetService.list assets eventId limit cursor faceStatus) fuel none

/-- The undated rows fill less than a page, or exactly a page and every dated
row lies below the epoch and the identifier of the last undated row. -/
def UndatedFit (limit : ℕ) (rows : List (Asset ι)) : Prop :=
  nulls Asset.capturedAt rows < limit ∨ nulls Asset.capturedAt rows = limit ∧
    ∀ last ∈ (rows.filter (fun a => a.capturedAt.isNone)).getLast?, ∀ a ∈ rows,
      a.capturedAt.isSome → Below Asset.capturedAt Asset.id epoch last.id a

section EventListing

variable {assets : List (Asset ι)} {eventId : ι} {limit : ℕ} {faceStatus : Option FaceStatus}

theorem sorted_eventListing (hids : (assets.map Asset.id).Nodup) :
    (eventListing assets eventId faceStatus).Pairwise (Before Asset.capturedAt Asset.id) :=
  sorted_orderBy (hids.sublist (List.filter_sublist.map Asset.id))

/-- Every matching live asset is listed exactly once. -/
theorem perm_eventListing :
    (eventListing assets eventId faceStatus).Perm (assets.filter (listed eventId faceStatus)) :=
  perm_orderBy _

/-- The rows that the cursor of `x` selects. -/
def selects (x a : Asset ι) : Prop := afterCursor x.capturedAt x.id a

instance : DecidableRel (@selects ι _) :=
  fun _ _ => inferInstanceAs (Decidable (afterCursor _ _ _))

theorem list_start :
    AssetService.list assets eventId limit none faceStatus =
      page limit (fun last => encodeCursor last.capturedAt last.id)
        ((eventListing assets eventId faceStatus).take (limit + 1)) := rfl

theorem list_after (hids : (assets.map Asset.id).Nodup) (x : Asset ι) :
    AssetService.list assets eventId limit (some (encodeCursor x.capturedAt x.id)) faceStatus =
      page limit (fun last => encodeCursor last.capturedAt last.id)
        (((eventListing assets eventId faceStatus).filter (selects x)).take (limit + 1)) := by
  unfold AssetService.list AssetRepository.list eventListing
  rw [← orderBy_filter (hids.sublist (List.filter_sublist.map Asset.id))]
  rfl

/-- A dated row selects the rows behind it. -/
theorem selects_dated {x : Asset ι} (hx : x.capturedAt.isSome) (a : Asset ι) :
    selects x a ↔ Before Asset.capturedAt Asset.id x a := by
  unfold selects afterCursor Before
  cases hcaptured : x.capturedAt with
  | none => simp [hcaptured] at hx
  | some t => rfl

theorem dated_of_selects {x a : Asset ι} (h : selects x a) : a.capturedAt.isSome := by
  unfold selects afterCursor Below at h
  cases hcaptured : a.capturedAt with
  | none => simp [hcaptured] at h
  | some t => rfl

theorem selects_irrefl (x : Asset ι) : ¬ selects x x := by
  intro h
  exact before_asymm x x ((selects_dated (dated_of_selects h) x).mp h)
    ((selects_dated (dated_of_selects h) x).mp h)

theorem selects_chain (hids : (assets.map Asset.id).Nodup) (x : Asset ι) (pre : List (Asset ι))
    (y : Asset ι) (post : List (Asset ι))
    (hsplit : (eventListing assets eventId faceStatus).filter (selects x) = pre ++ y :: post) :
    (eventListing assets eventId faceStatus).filter (selects y) = post := by
  refine chain_of_sorted before_asymm (sorted_eventListing hids) ?_ ?_ x pre y post hsplit
  · intro x y z hxy hyz
    exact below_before hxy ((selects_dated (dated_of_selects hxy) z).mp hyz)
  · intro x y z hxy _
    exact selects_dated (dated_of_selects hxy) z

/-- Where the walk through the event listing leads: everything when one page
is enough, else the first page and the rows its last row selects. -/
theorem followEvent_short (hlength : (eventListing assets eventId faceStatus).length ≤ limit)
    {fuel : ℕ} (hfuel : (eventListing assets eventId faceStatus).length < fuel) :
    followEvent assets eventId limit faceStatus fuel =
      some (eventListing assets eventId faceStatus) :=
  follow_one list_start hlength fuel (by omega)

theorem followEvent_long (hids : (assets.map Asset.id).Nodup) (hlimit : 1 ≤ limit)
    {pre post : List (Asset ι)} {x : Asset ι}
    (hrows : eventListing assets eventId faceStatus = pre ++ x :: post)
    (hpre : limit = pre.length + 1) (hpost : post ≠ []) {fuel : ℕ}
    (hfuel : (eventListing assets eventId faceStatus).length < fuel) :
    followEvent assets eventId limit faceStatus fuel =
      some (pre ++ x :: (eventListing assets eventId faceStatus).filter (selects x)) :=
  follow_start selects_irrefl hlimit list_start (fun x _ => list_after hids x)
    (fun x _ => selects_chain hids x) hrows hpre hpost fuel hfuel

end EventListing

/-! Where the first page ends. -/

section FirstPage

variable {pre post : List (Asset ι)} {x : Asset ι} {limit : ℕ}

theorem filter_selects_undated (hnone : ∀ a ∈ pre, a.capturedAt.isNone) :
    (pre ++ x :: post).filter (selects x) = post.filter (selects x) := by
  have hpre : pre.filter (selects x) = [] := by
    refine List.filter_eq_nil_iff.mpr ?_
    intro a ha hselects
    exact not_null_and_keyed (hnone a ha) (dated_of_selects (of_decide_eq_true hselects))
  rw [List.filter_append, hpre, List.nil_append,
    List.filter_cons_of_neg (by simpa using selects_irrefl x)]

/-- The last row of a full page selects the rows behind it exactly when the
undated rows fit. -/
theorem selects_rest_iff (sorted : (pre ++ x :: post).Pairwise (Before Asset.capturedAt Asset.id))
    (hpre : limit = pre.length + 1) :
    (pre ++ x :: post).filter (selects x) = post ↔ UndatedFit limit (pre ++ x :: post) := by
  by_cases hx : x.capturedAt = none
  · obtain ⟨hnone, hcount⟩ := nulls_of_null sorted hx hpre
    have hbelow : ∀ a, selects x a ↔ Below Asset.capturedAt Asset.id epoch x.id a := by
      intro a
      unfold selects afterCursor
      rw [hx]
      rfl
    rw [filter_selects_undated hnone, List.filter_eq_self]
    constructor
    · intro hall
      have hzero : nulls Asset.capturedAt post = 0 :=
        nulls_eq_zero_iff.mpr (fun a ha => dated_of_selects (of_decide_eq_true (hall a ha)))
      refine Or.inr ⟨by omega, ?_⟩
      rw [last_null hnone hx hzero]
      intro last hlast a ha hdated
      cases hlast
      rcases List.mem_append.mp ha with ha | ha
      · exact (not_null_and_keyed (hnone a ha) hdated).elim
      rcases List.mem_cons.mp ha with rfl | ha
      · simp [hx] at hdated
      · exact (hbelow a).mp (of_decide_eq_true (hall a ha))
    · rintro (hless | ⟨hequal, hrows⟩) a ha
      · omega
      · have hzero : nulls Asset.capturedAt post = 0 := by omega
        rw [last_null hnone hx hzero] at hrows
        have hmem : a ∈ pre ++ x :: post := List.mem_append_right _ (List.mem_cons_of_mem x ha)
        exact decide_eq_true
          ((hbelow a).mpr (hrows x rfl a hmem (nulls_eq_zero_iff.mp hzero a ha)))
  · have hdated : x.capturedAt.isSome := Option.isSome_iff_ne_none.mpr hx
    have hselect : (pre ++ x :: post).filter (selects x) =
        (pre ++ x :: post).filter (Before Asset.capturedAt Asset.id x) :=
      List.filter_congr (fun a _ => decide_eq_decide.mpr (selects_dated hdated a))
    rw [hselect, filter_before before_asymm sorted]
    exact iff_of_true rfl (Or.inl (nulls_of_keyed sorted hdated hpre))

theorem undatedFit_short {rows : List (Asset ι)} (h : rows.length ≤ limit) :
    UndatedFit limit rows := by
  have hle : nulls Asset.capturedAt rows ≤ rows.length := List.countP_le_length
  by_cases hless : nulls Asset.capturedAt rows < limit
  · exact Or.inl hless
  · refine Or.inr ⟨by omega, ?_⟩
    have hall : nulls Asset.capturedAt rows = rows.length := by omega
    intro last _ a ha hdated
    exact (not_null_and_keyed (List.countP_eq_length.mp hall a ha) hdated).elim

end FirstPage

/-- The pages of an event listing concatenate to the listing exactly when the
undated rows fit. -/
theorem followEvent_iff (assets : List (Asset ι)) (hids : (assets.map Asset.id).Nodup)
    (eventId : ι) (limit : ℕ) (hlimit : 1 ≤ limit) (faceStatus : Option FaceStatus) :
    ∃ pages, (∀ fuel, (eventListing assets eventId faceStatus).length < fuel →
        followEvent assets eventId limit faceStatus fuel = some pages) ∧
      (pages = eventListing assets eventId faceStatus ↔
        UndatedFit limit (eventListing assets eventId faceStatus)) := by
  by_cases hlong : limit < (eventListing assets eventId faceStatus).length
  · obtain ⟨pre, x, post, hrows, hpre, hpost⟩ := split_page hlimit hlong
    refine ⟨_, fun fuel hfuel => followEvent_long hids hlimit hrows hpre hpost hfuel, ?_⟩
    have hsorted : (eventListing assets eventId faceStatus).Pairwise
        (Before Asset.capturedAt Asset.id) := sorted_eventListing hids
    rw [hrows] at hsorted ⊢
    rw [List.append_right_inj, List.cons_inj_right]
    exact selects_rest_iff hsorted hpre
  · refine ⟨_, fun fuel hfuel => followEvent_short (by omega) hfuel, ?_⟩
    exact iff_of_true rfl (undatedFit_short (by omega))

/-- Two undated assets of one event. -/
def undatedPair : List (Asset ℕ) :=
  [{ id := 1, eventId := 0, orgId := 0 }, { id := 2, eventId := 0, orgId := 0 }]

theorem not_followEvent : ¬ ∀ (assets : List (Asset ℕ)) (eventId limit : ℕ)
    (faceStatus : Option FaceStatus), (assets.map Asset.id).Nodup → 1 ≤ limit →
    ∃ fuel, followEvent assets eventId limit faceStatus fuel =
      some (eventListing assets eventId faceStatus) := by
  intro h
  obtain ⟨fuel, hall⟩ := h undatedPair 0 1 none (by decide) (by decide)
  match fuel with
  | 0 => cases hall
  | 1 => revert hall; decide
  | fuel + 2 =>
    have hpages : followEvent undatedPair 0 1 none (fuel + 2) =
        some [{ id := 2, eventId := 0, orgId := 0 }] := rfl
    rw [hpages] at hall
    revert hall
    decide

/-- An undated and two dated assets, listed two to a page. -/
def mixedTriple : List (Asset ℕ) :=
  [{ id := 1, eventId := 0, orgId := 0, capturedAt := some 5 },
    { id := 2, eventId := 0, orgId := 0 },
    { id := 3, eventId := 0, orgId := 0, capturedAt := some 5 }]

theorem followEvent_mixedTriple :
    ∃ pages, (∀ fuel, (eventListing mixedTriple 0 none).length < fuel →
        followEvent mixedTriple 0 2 none fuel = some pages) ∧
      (pages = eventListing mixedTriple 0 none ↔ UndatedFit 2 (eventListing mixedTriple 0 none)) :=
  followEvent_iff mixedTriple (by decide) 0 2 (by decide) none

/-! The listing of an organisation. -/

/-- An asset with the name of its event. -/
structure OrgAsset (ι : Type) extends Asset ι where
  eventName : String
deriving DecidableEq

/-- The inner join of assets and events on the conditions of the query. -/
def joinEvents (assets : List (Asset ι)) (events : List (Event ι)) (orgId : ι) :
    List (OrgAsset ι) :=
  (assets.filter (fun a => decide (a.orgId = orgId) && a.deletedAt.isNone)).flatMap fun a =>
    (events.filter (fun e =>
      decide (e.id = a.eventId) && e.deletedAt.isNone && e.purgedAt.isNone)).map fun e =>
        { a with eventName := e.name }

abbrev OrgAsset.captured (r : OrgAsset ι) : Option ℤ := r.capturedAt
abbrev OrgAsset.key (r : OrgAsset ι) : ι := r.id

/-- A null cursor stays among the undated rows. -/
def afterOrgCursor (cursorCapturedAt : Option ℤ) (cursorId : ι) (r : OrgAsset ι) : Prop :=
  match cursorCapturedAt with
  | some capturedAt => Below OrgAsset.captured OrgAsset.key capturedAt cursorId r
  | none => r.capturedAt = none ∧ r.id < cursorId

instance (cursorCapturedAt : Option ℤ) (cursorId : ι) (r : OrgAsset ι) :
    Decidable (afterOrgCursor cursorCapturedAt cursorId r) := by
  unfold afterOrgCursor
  split <;> infer_instance

def AssetRepository.listForOrg (assets : List (Asset ι)) (events : List (Event ι)) (orgId : ι)
    (limit : ℕ) (cursor : Option (Option ℤ × ι)) : List (OrgAsset ι) :=
  let selected := joinEvents assets events orgId
  let query := match cursor with
    | some (cursorCapturedAt, cursorId) =>
      selected.filter (fun r => afterOrgCursor cursorCapturedAt cursorId r)
    | none => selected
  (orderBy OrgAsset.captured OrgAsset.key query).take limit

def AssetService.listForOrg (assets : List (Asset ι)) (events : List (Event ι)) (orgId : ι)
    (limit : ℕ) (cursor : Option (Cursor ι)) : Page (OrgAsset ι) (Cursor ι) :=
  let rows := AssetRepository.listForOrg assets events orgId (limit + 1) (cursor.map decodeCursor)
  page limit (fun last => encodeCursor last.capturedAt last.id) rows

/-- The ordered query without a page limit. -/
def orgListing (assets : List (Asset ι)) (events : List (Event ι)) (orgId : ι) :
    List (OrgAsset ι) :=
  orderBy OrgAsset.captured OrgAsset.key (joinEvents assets events orgId)

/-- The assets of a client that follows `nextCursor` until it is null. -/
def followOrg (assets : List (Asset ι)) (events : List (Event ι)) (orgId : ι) (limit fuel : ℕ) :
    Option (List (OrgAsset ι)) :=
  follow (fun cursor => AssetService.listForOrg assets events orgId limit cursor) fuel none

/-- The undated rows fill less than a page, or there are no others. -/
def UndatedAlone (limit : ℕ) (rows : List (OrgAsset ι)) : Prop :=
  nulls OrgAsset.captured rows < limit ∨ ∀ r ∈ rows, r.capturedAt = none

section OrgListing

variable {assets : List (Asset ι)} {events : List (Event ι)} {orgId : ι} {limit : ℕ}

omit [LinearOrder ι] in
/-- Event ids are unique, so an asset is joined with at most one event. -/
theorem nodup_one_event {a : Asset ι} {found : List (Event ι)}
    (hfound : (found.map Event.id).Nodup) (hid : ∀ e ∈ found, e.id = a.eventId) :
    (found.map (fun _ => a.id)).Nodup := by
  match found with
  | [] => simp
  | [e] => simp
  | e :: e' :: rest =>
    have hsame : e.id = e'.id := (hid e (by simp)).trans (hid e' (by simp)).symm
    simp [hsame] at hfound

theorem nodup_joinEvents (hids : (assets.map Asset.id).Nodup)
    (hevents : (events.map Event.id).Nodup) :
    ((joinEvents assets events orgId).map OrgAsset.key).Nodup := by
  unfold joinEvents
  rw [List.map_flatMap, List.nodup_flatMap]
  constructor
  · intro a _
    rw [List.map_map]
    refine nodup_one_event (hevents.sublist (List.filter_sublist.map Event.id)) ?_
    intro e he
    have hcond := (List.mem_filter.mp he).2
    simp only [Bool.and_eq_true, decide_eq_true_eq] at hcond
    exact hcond.1.1
  · refine List.Pairwise.imp ?_
      (List.pairwise_map.mp (hids.sublist (List.filter_sublist.map Asset.id)))
    intro a b hab i hi hj
    simp only [List.map_map, List.mem_map] at hi hj
    obtain ⟨e, -, rfl⟩ := hi
    obtain ⟨e', -, hb⟩ := hj
    exact hab hb.symm

/-- Every live asset of a live event is listed exactly once. -/
theorem perm_orgListing :
    (orgListing assets events orgId).Perm (joinEvents assets events orgId) := perm_orderBy _

theorem sorted_orgListing (hids : (assets.map Asset.id).Nodup)
    (hevents : (events.map Event.id).Nodup) :
    (orgListing assets events orgId).Pairwise (Before OrgAsset.captured OrgAsset.key) :=
  sorted_orderBy (nodup_joinEvents hids hevents)

/-- The rows that the cursor of `x` selects. -/
def selectsOrg (x r : OrgAsset ι) : Prop := afterOrgCursor x.capturedAt x.id r

instance : DecidableRel (@selectsOrg ι _) :=
  fun _ _ => inferInstanceAs (Decidable (afterOrgCursor _ _ _))

theorem listForOrg_start :
    AssetService.listForOrg assets events orgId limit none =
      page limit (fun last => encodeCursor last.capturedAt last.id)
        ((orgListing assets events orgId).take (limit + 1)) := rfl

theorem listForOrg_after (hids : (assets.map Asset.id).Nodup)
    (hevents : (events.map Event.id).Nodup) (x : OrgAsset ι) :
    AssetService.listForOrg assets events orgId limit (some (encodeCursor x.capturedAt x.id)) =
      page limit (fun last => encodeCursor last.capturedAt last.id)
        (((orgListing assets events orgId).filter (selectsOrg x)).take (limit + 1)) := by
  unfold AssetService.listForOrg AssetRepository.listForOrg orgListing
  rw [← orderBy_filter (nodup_joinEvents hids hevents)]
  rfl

theorem selectsOrg_dated {x : OrgAsset ι} (hx : x.capturedAt.isSome) (r : OrgAsset ι) :
    selectsOrg x r ↔ Before OrgAsset.captured OrgAsset.key x r := by
  unfold selectsOrg afterOrgCursor Before OrgAsset.captured
  cases hcaptured : x.capturedAt with
  | none => simp [hcaptured] at hx
  | some t => rfl

theorem selectsOrg_undated {x : OrgAsset ι} (hx : x.capturedAt = none) (r : OrgAsset ι) :
    selectsOrg x r ↔ r.capturedAt = none ∧ Before OrgAsset.captured OrgAsset.key x r := by
  unfold selectsOrg afterOrgCursor Before OrgAsset.captured OrgAsset.key
  rw [hx]
  cases hcaptured : r.capturedAt <;> simp

theorem selectsOrg_before {x r : OrgAsset ι} (h : selectsOrg x r) :
    Before OrgAsset.captured OrgAsset.key x r := by
  cases hcaptured : x.capturedAt with
  | none => exact ((selectsOrg_undated hcaptured r).mp h).2
  | some t => exact (selectsOrg_dated (by simp [hcaptured]) r).mp h

/-- A cursor selects undated rows from an undated row, and dated ones from a
dated row. -/
theorem selectsOrg_isNone {x r : OrgAsset ι} (h : selectsOrg x r) :
    r.capturedAt = none ↔ x.capturedAt = none := by
  cases hcaptured : x.capturedAt with
  | none => simpa using ((selectsOrg_undated hcaptured r).mp h).1
  | some t =>
    have hx : x.captured.isSome := by simp [hcaptured]
    have hsome := isSome_of_before hx (selectsOrg_before h)
    simpa [Option.isSome_iff_ne_none] using hsome

theorem selectsOrg_chain (hids : (assets.map Asset.id).Nodup)
    (hevents : (events.map Event.id).Nodup) (x : OrgAsset ι) (pre : List (OrgAsset ι))
    (y : OrgAsset ι) (post : List (OrgAsset ι))
    (hsplit : (orgListing assets events orgId).filter (selectsOrg x) = pre ++ y :: post) :
    (orgListing assets events orgId).filter (selectsOrg y) = post := by
  refine chain_of_sorted before_asymm (sorted_orgListing hids hevents) ?_ ?_ x pre y post hsplit
  · intro x y z hxy hyz
    have hxz := before_trans (selectsOrg_before hxy) (selectsOrg_before hyz)
    cases hcaptured : x.capturedAt with
    | none =>
      have hy := (selectsOrg_isNone hxy).mpr hcaptured
      exact (selectsOrg_undated hcaptured z).mpr ⟨(selectsOrg_isNone hyz).mpr hy, hxz⟩
    | some t => exact (selectsOrg_dated (by simp [hcaptured]) z).mpr hxz
  · intro x y z hxy hxz
    cases hcaptured : y.capturedAt with
    | none =>
      have hz := (selectsOrg_isNone hxz).mpr ((selectsOrg_isNone hxy).mp hcaptured)
      rw [selectsOrg_undated hcaptured]
      exact and_iff_right hz
    | some t => exact selectsOrg_dated (by simp [hcaptured]) z

end OrgListing

/-- The last row of a full page selects the rows behind it exactly when the
undated rows fit or stand alone. -/
theorem selectsOrg_rest_iff {pre post : List (OrgAsset ι)} {x : OrgAsset ι} {limit : ℕ}
    (sorted : (pre ++ x :: post).Pairwise (Before OrgAsset.captured OrgAsset.key))
    (hpre : limit = pre.length + 1) :
    (pre ++ x :: post).filter (selectsOrg x) = post ↔ UndatedAlone limit (pre ++ x :: post) := by
  have hbefore := filter_before before_asymm sorted
  by_cases hx : x.capturedAt = none
  · obtain ⟨hnone, hcount⟩ := nulls_of_null sorted hx hpre
    have hselect : (pre ++ x :: post).filter (selectsOrg x) =
        post.filter (fun r => r.capturedAt = none) := by
      calc
        _ = (pre ++ x :: post).filter (fun r => decide (r.capturedAt = none) &&
              decide (Before OrgAsset.captured OrgAsset.key x r)) := by
          refine List.filter_congr (fun r _ => ?_)
          rw [← Bool.decide_and]
          exact decide_eq_decide.mpr (selectsOrg_undated hx r)
        _ = post.filter (fun r => r.capturedAt = none) := by
          rw [← List.filter_filter, hbefore]
    rw [hselect, List.filter_eq_self]
    constructor
    · intro hall
      refine Or.inr fun r hr => ?_
      rcases List.mem_append.mp hr with hr | hr
      · exact Option.isNone_iff_eq_none.mp (hnone r hr)
      rcases List.mem_cons.mp hr with rfl | hr
      · exact hx
      · exact of_decide_eq_true (hall r hr)
    · rintro (hless | hall) r hr
      · omega
      · exact decide_eq_true (hall r (by simp [hr]))
  · have hdated : x.capturedAt.isSome := Option.isSome_iff_ne_none.mpr hx
    have hselect : (pre ++ x :: post).filter (selectsOrg x) =
        (pre ++ x :: post).filter (Before OrgAsset.captured OrgAsset.key x) :=
      List.filter_congr (fun r _ => decide_eq_decide.mpr (selectsOrg_dated hdated r))
    rw [hselect, hbefore]
    exact iff_of_true rfl (Or.inl (nulls_of_keyed sorted hdated hpre))

omit [LinearOrder ι] in
theorem undatedAlone_short {rows : List (OrgAsset ι)} {limit : ℕ} (h : rows.length ≤ limit) :
    UndatedAlone limit rows := by
  have hle : nulls OrgAsset.captured rows ≤ rows.length := List.countP_le_length
  by_cases hless : nulls OrgAsset.captured rows < limit
  · exact Or.inl hless
  · have hall : nulls OrgAsset.captured rows = rows.length := by omega
    refine Or.inr fun r hr => ?_
    exact Option.isNone_iff_eq_none.mp (List.countP_eq_length.mp hall r hr)

/-- The pages of an organisation listing concatenate to the listing exactly
when the undated rows fill less than a page or there are no others. -/
theorem followOrg_iff (assets : List (Asset ι)) (events : List (Event ι))
    (hids : (assets.map Asset.id).Nodup) (hevents : (events.map Event.id).Nodup) (orgId : ι)
    (limit : ℕ) (hlimit : 1 ≤ limit) :
    ∃ pages, (∀ fuel, (orgListing assets events orgId).length < fuel →
        followOrg assets events orgId limit fuel = some pages) ∧
      (pages = orgListing assets events orgId ↔
        UndatedAlone limit (orgListing assets events orgId)) := by
  by_cases hlong : limit < (orgListing assets events orgId).length
  · obtain ⟨pre, x, post, hrows, hpre, hpost⟩ := split_page hlimit hlong
    have hirrefl : ∀ x : OrgAsset ι, ¬ selectsOrg x x :=
      fun x h => before_asymm x x (selectsOrg_before h) (selectsOrg_before h)
    have hfollow : ∀ fuel, (orgListing assets events orgId).length < fuel →
        followOrg assets events orgId limit fuel =
          some (pre ++ x :: (orgListing assets events orgId).filter (selectsOrg x)) :=
      follow_start hirrefl hlimit listForOrg_start (fun x _ => listForOrg_after hids hevents x)
        (fun x _ => selectsOrg_chain hids hevents x) hrows hpre hpost
    refine ⟨_, hfollow, ?_⟩
    have hsorted : (orgListing assets events orgId).Pairwise
        (Before OrgAsset.captured OrgAsset.key) := sorted_orgListing hids hevents
    rw [hrows] at hsorted ⊢
    rw [List.append_right_inj, List.cons_inj_right]
    exact selectsOrg_rest_iff hsorted hpre
  · refine ⟨_, fun fuel hfuel => follow_one listForOrg_start (by omega) fuel (by omega), ?_⟩
    exact iff_of_true rfl (undatedAlone_short (by omega))

def oneEvent : List (Event ℕ) := [{ id := 0, name := "Wedding" }]

theorem not_followOrg : ¬ ∀ (assets : List (Asset ℕ)) (events : List (Event ℕ))
    (orgId limit : ℕ), (assets.map Asset.id).Nodup → (events.map Event.id).Nodup → 1 ≤ limit →
    ∃ fuel, followOrg assets events orgId limit fuel = some (orgListing assets events orgId) := by
  intro h
  obtain ⟨fuel, hall⟩ := h mixedTriple oneEvent 0 1 (by decide) (by decide) (by decide)
  match fuel with
  | 0 => cases hall
  | 1 => revert hall; decide
  | fuel + 2 =>
    have hpages : followOrg mixedTriple oneEvent 0 1 (fuel + 2) =
        some [{ id := 2, eventId := 0, orgId := 0, eventName := "Wedding" }] := rfl
    rw [hpages] at hall
    revert hall
    decide

theorem followOrg_mixedTriple :
    ∃ pages, (∀ fuel, (orgListing mixedTriple oneEvent 0).length < fuel →
        followOrg mixedTriple oneEvent 0 2 fuel = some pages) ∧
      (pages = orgListing mixedTriple oneEvent 0 ↔
        UndatedAlone 2 (orgListing mixedTriple oneEvent 0)) :=
  followOrg_iff mixedTriple oneEvent (by decide) (by decide) 0 2 (by decide)

end EventLens.Assets

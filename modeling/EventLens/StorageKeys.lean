import EventLens.ImportService
import Mathlib

/-!
The names of objects and staged files. The key of an original ends in the id of
its asset and an extension, so that different assets have different keys; the
file an import worker stages is named after its item.
-/

namespace EventLens.Import

/-! Numbers as text. -/

theorem toList_toString (n : ℕ) : (toString n).toList = Nat.toDigits 10 n := by
  change (Nat.repr n).toList = _
  rw [Nat.repr, String.toList_ofList]

theorem isDigit_of_mem_toString {n : ℕ} {c : Char} (hc : c ∈ (toString n).toList) :
    c.isDigit = true := by
  rw [toList_toString] at hc
  exact Nat.isDigit_of_mem_toDigits (by omega) (by omega) hc

theorem toDigits_injective {n m : ℕ} (h : Nat.toDigits 10 n = Nat.toDigits 10 m) : n = m := by
  rw [← Nat.ofDigitChars_ten_toDigits (n := n), h, Nat.ofDigitChars_ten_toDigits]

theorem toString_injective {n m : ℕ} (h : toString n = toString m) : n = m := by
  refine toDigits_injective ?_
  rw [← toList_toString, h, toList_toString]

theorem stagingPath_injective {x y : ItemId} (h : stagingPath x = stagingPath y) : x = y := by
  have hlist := congrArg String.toList h
  simp only [stagingPath, String.toList_append] at hlist
  exact toString_injective (String.toList_injective (List.append_cancel_left hlist))

theorem stagingPath_marked (x : ItemId) :
    "import-".toList.isPrefixOf (stagingPath x).toList = true := by
  have hlist : (stagingPath x).toList = "import-".toList ++ (toString x).toList :=
    String.toList_append
  simp [hlist]

/-! Extensions. -/

/-- No slash, and nothing or a dot in front. -/
def Extension (ext : String) : Prop := '/' ∉ ext.toList ∧ ∀ c ∈ ext.toList.head?, c = '.'

theorem not_slash_toLower {c : Char} (h : c ≠ '/') : c.toLower ≠ '/' := by
  intro hlower
  rw [Char.toLower] at hlower
  split at hlower
  · rename_i hupper
    have hval : c.val + ('a'.val - 'A'.val) = '/'.val := congrArg Char.val hlower
    have hc : c.val = '/'.val - ('a'.val - 'A'.val) := by
      rw [← hval, UInt32.add_sub_cancel]
    rw [hc] at hupper
    exact absurd hupper.1 (by decide)
  · exact h hlower

theorem Extension.toLowerCase {ext : String} (h : Extension ext) :
    Extension (Import.toLowerCase ext) := by
  obtain ⟨hslash, hdot⟩ := h
  rw [Extension, Import.toLowerCase, String.toList_ofList]
  refine ⟨fun hmem => ?_, fun c hc => ?_⟩
  · obtain ⟨c, hc, hlower⟩ := List.mem_map.mp hmem
    split at hlower
    · exact absurd hlower (by decide)
    · refine not_slash_toLower (fun heq => hslash ?_) hlower
      exact heq ▸ hc
  · rw [List.head?_map] at hc
    obtain ⟨d, hd, rfl⟩ := Option.map_eq_some_iff.mp hc
    rw [hdot d hd]
    rfl

theorem extension_extname (filename : String) : Extension (extname filename) := by
  have hbase : ∀ c ∈ (filename.toList.reverse.dropWhile (fun c => c = '/')).takeWhile
      (fun c => c ≠ '/'), c ≠ '/' := by
    intro c hc
    have hall := List.all_eq_true.mp List.all_takeWhile c hc
    exact of_decide_eq_true hall
  rw [extname]
  generalize (filename.toList.reverse.dropWhile (fun c => c = '/')).takeWhile
    (fun c => c ≠ '/') = base at hbase
  have hempty : Extension "" := ⟨List.not_mem_nil, fun c hc => by cases hc⟩
  split
  · exact hempty
  · exact hempty
  · split
    · exact hempty
    · rw [Extension, String.toList_append, String.toList_ofList]
      refine ⟨fun hmem => ?_, fun c hc => (Option.some.inj hc).symm⟩
      rcases List.mem_append.mp hmem with hdot | hmem
      · exact absurd hdot (by decide)
      · rw [String.toList_ofList] at hmem
        exact hbase '/' ((List.takeWhile_sublist _).subset (List.mem_reverse.mp hmem)) rfl

/-! Keys. -/

/-- The part of a key after the last slash and before the first dot in it. -/
def idPart (key : String) : List Char :=
  (key.toList.reverse.takeWhile (fun c => c ≠ '/')).reverse.takeWhile (fun c => c ≠ '.')

theorem idPart_originalKey (orgId eventId : String) {id ext : String} (hext : Extension ext)
    (hslash : '/' ∉ id.toList) (hdot : '.' ∉ id.toList) :
    idPart (originalKey orgId eventId id ext) = id.toList := by
  obtain ⟨hplain, hhead⟩ := hext
  obtain ⟨front, hfront⟩ : ∃ front, (originalKey orgId eventId id ext).toList =
      front ++ '/' :: (id.toList ++ ext.toList) := by
    refine ⟨(s!"org/{orgId}/event/{eventId}/original").toList, ?_⟩
    simp only [originalKey, String.toList_append, toString]
    simp
  have hlast : ∀ c ∈ (id.toList ++ ext.toList).reverse, decide (c ≠ '/') = true := by
    intro c hc
    refine decide_eq_true fun heq => ?_
    subst heq
    rcases List.mem_append.mp (List.mem_reverse.mp hc) with hc | hc
    · exact hslash hc
    · exact hplain hc
  have hid : ∀ c ∈ id.toList, decide (c ≠ '.') = true := by
    intro c hc
    exact decide_eq_true fun heq => hdot (heq ▸ hc)
  rw [idPart, hfront, List.reverse_append, List.reverse_cons, List.append_assoc,
    List.takeWhile_append_of_pos hlast, List.singleton_append,
    List.takeWhile_cons_of_neg (by simp), List.append_nil, List.reverse_reverse,
    List.takeWhile_append_of_pos hid]
  cases hchars : ext.toList with
  | nil => exact List.append_nil _
  | cons c rest =>
    have hc : c = '.' := hhead c (by rw [hchars]; rfl)
    rw [List.takeWhile_cons_of_neg (by simp [hc]), List.append_nil]

/-- Different numbers give different keys. -/
theorem originalKey_injective {orgId eventId ext orgId' eventId' ext' : String} {n m : ℕ}
    (hext : Extension ext) (hext' : Extension ext')
    (h : originalKey orgId eventId (toString n) ext =
    originalKey orgId' eventId' (toString m) ext') :
    n = m := by
  have hplain : ∀ (k : ℕ) (c : Char), c.isDigit = false → c ∉ (toString k).toList := by
    intro k c hc hmem
    rw [isDigit_of_mem_toString hmem] at hc
    cases hc
  have hn := idPart_originalKey orgId eventId hext
    (hplain n '/' rfl) (hplain n '.' rfl)
  have hm := idPart_originalKey orgId' eventId' hext'
    (hplain m '/' rfl) (hplain m '.' rfl)
  rw [h, hm] at hn
  exact toString_injective (String.toList_injective hn.symm)

end EventLens.Import

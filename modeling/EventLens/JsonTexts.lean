import Mathlib.Data.List.Basic
import Mathlib.Tactic.Common

/-!
JSON texts, and where one can be cut in three at two dots so that its end is a
JSON text again: not around a middle without structure. A dot outside the
strings belongs to a number, and numbers have one each. A dot inside a string
leaves an end that is read with its quotes the other way round.
-/

namespace JsonTexts

section Grammar

def isSpace (c : Char) : Bool := c = ' ' || c = '\n' || c = '\r' || c = '\t'

def isHex (c : Char) : Bool := c.isDigit || ('a' ≤ c && c ≤ 'f') || ('A' ≤ c && c ≤ 'F')

def Blank (t : List Char) : Prop := ∀ c ∈ t, isSpace c = true

def Digits (t : List Char) : Prop := t ≠ [] ∧ ∀ c ∈ t, c.isDigit = true

/-- What a backslash may stand before, apart from the four digits of a code unit. -/
def escapes : List Char := ['"', '\\', '/', 'b', 'f', 'n', 'r', 't']

/-- What may stand between the quotes of a string. -/
inductive Chars : List Char → Prop
  | nil : Chars []
  | plain {c : Char} {t : List Char} : c ≠ '"' → c ≠ '\\' → 32 ≤ c.toNat → Chars t → Chars (c :: t)
  | escape {c : Char} {t : List Char} : c ∈ escapes → Chars t → Chars ('\\' :: c :: t)
  | unicode {a b c d : Char} {t : List Char} :
      isHex a = true → isHex b = true → isHex c = true → isHex d = true → Chars t →
        Chars ('\\' :: 'u' :: a :: b :: c :: d :: t)

theorem chars_of_plain {t : List Char}
    (h : ∀ c ∈ t, c ≠ '"' ∧ c ≠ '\\' ∧ 32 ≤ c.toNat) : Chars t := by
  induction t with
  | nil => exact .nil
  | cons c t ih =>
    obtain ⟨hquote, hback, hlow⟩ := h c List.mem_cons_self
    exact .plain hquote hback hlow (ih fun c hc => h c (List.mem_cons_of_mem _ hc))

/-- An integer part without needless zeros, then a fraction and an exponent if it has them. -/
inductive Number : List Char → Prop
  | mk {sign int fraction exponent : List Char} :
      sign ∈ [[], ['-']] →
      Digits int → (int.head? = some '0' → int = ['0']) →
      (fraction = [] ∨ ∃ ds, Digits ds ∧ fraction = '.' :: ds) →
      (exponent = [] ∨ ∃ e ∈ ['e', 'E'], ∃ s ∈ [[], ['+'], ['-']], ∃ ds, Digits ds ∧
        exponent = e :: (s ++ ds)) →
        Number (sign ++ int ++ fraction ++ exponent)

inductive Part
  | value | element | elements | member | members
deriving DecidableEq, Repr

/-- The texts of each part of the grammar. -/
inductive Derives : Part → List Char → Prop
  | null : Derives .value ['n', 'u', 'l', 'l']
  | true : Derives .value ['t', 'r', 'u', 'e']
  | false : Derives .value ['f', 'a', 'l', 's', 'e']
  | number {t : List Char} : Number t → Derives .value t
  | string {t : List Char} : Chars t → Derives .value ('"' :: (t ++ ['"']))
  | emptyArray {w : List Char} : Blank w → Derives .value ('[' :: (w ++ [']']))
  | array {t : List Char} : Derives .elements t → Derives .value ('[' :: (t ++ [']']))
  | emptyObject {w : List Char} : Blank w → Derives .value ('{' :: (w ++ ['}']))
  | object {t : List Char} : Derives .members t → Derives .value ('{' :: (t ++ ['}']))
  | element {w t w' : List Char} :
    Blank w → Derives .value t → Blank w' → Derives .element (w ++ (t ++ w'))
  | elements_one {t : List Char} : Derives .element t → Derives .elements t
  | elements_more {t u : List Char} :
      Derives .element t → Derives .elements u → Derives .elements (t ++ ',' :: u)
  | member {w t w' u : List Char} :
      Blank w → Chars t → Blank w' → Derives .element u →
        Derives .member (w ++ ('"' :: (t ++ ('"' :: (w' ++ ':' :: u)))))
  | members_one {t : List Char} : Derives .member t → Derives .members t
  | members_more {t u : List Char} :
      Derives .member t → Derives .members u → Derives .members (t ++ ',' :: u)

/-- A JSON text. -/
def IsJson (t : List Char) : Prop := Derives .element t

theorem blank_nil : Blank [] := fun _ hc => absurd hc List.not_mem_nil

theorem isJson_of_value {t : List Char} (h : Derives .value t) : IsJson t := by
  have helement : Derives .element ([] ++ (t ++ [])) := .element blank_nil h blank_nil
  rwa [List.nil_append, List.append_nil] at helement

/-- A member without spaces. -/
theorem derives_pair {key u : List Char} (hkey : Chars key) (hu : IsJson u) :
    Derives .member ('"' :: (key ++ '"' :: ':' :: u)) :=
  .member blank_nil hkey blank_nil hu

end Grammar

section Scanning

def structural : List Char := [',', ':', '{', '}', '[', ']']

/-- The characters that the scan takes notice of. -/
def special : List Char := '"' :: '\\' :: '.' :: structural

/-- A text without quotes, backslashes and structure. Dots it may have. -/
def Plain (t : List Char) : Prop := ∀ c ∈ t, c ∉ '"' :: '\\' :: structural

/-- Where a scan is: outside the strings, and whether a dot came since the last
structural character, or inside one, or after its backslash. -/
inductive Mode
  | outside (dotted : Bool)
  | inside
  | escaped
deriving DecidableEq, Repr

def step : Mode → Char → Option Mode
  | .outside dotted, c =>
    if c = '"' then some .inside
    else if c = '\\' then none
    else if c = '.' then if dotted then none else some (.outside true)
    else if c ∈ structural then some (.outside false)
    else some (.outside dotted)
  | .inside, c =>
    if c = '"' then some (.outside false)
    else if c = '\\' then some .escaped
    else some .inside
  | .escaped, c => if c = '.' then none else some .inside

def scan (m : Mode) : List Char → Option Mode
  | [] => some m
  | c :: t => (step m c).bind fun next => scan next t

variable {m : Mode} {dotted : Bool} {t u : List Char} {c : Char}

theorem scan_cons {next : Mode} (h : step m c = some next) : scan m (c :: t) = scan next t := by
  rw [scan, h]
  rfl

theorem scan_append (m : Mode) (t u : List Char) :
    scan m (t ++ u) = (scan m t).bind fun next => scan next u := by
  induction t generalizing m with
  | nil => rfl
  | cons c t ih =>
    simp only [List.cons_append, scan]
    cases step m c with
    | none => rfl
    | some next => exact ih next

theorem scan_trans {next : Mode} (h : scan m t = some next) (u : List Char) :
    scan m (t ++ u) = scan next u := by
  rw [scan_append, h]
  rfl

theorem step_neutral (h : c ∉ special) : step (.outside dotted) c = some (.outside dotted) := by
  simp only [special, List.mem_cons, not_or] at h
  obtain ⟨hquote, hback, hdot, hstruct⟩ := h
  simp [step, hquote, hback, hdot, hstruct]

/-- What is neither special leaves the scan where it is. -/
theorem scan_neutral (h : ∀ c ∈ t, c ∉ special) : scan (.outside dotted) t =
    some (.outside dotted) := by
  induction t with
  | nil => rfl
  | cons c t ih =>
    rw [scan_cons (step_neutral (h c List.mem_cons_self))]
    exact ih fun c hc => h c (List.mem_cons_of_mem _ hc)

theorem not_mem_of_any {p : Char → Bool} {l : List Char} (hall : l.any p = false) (h : p c = true) :
    c ∉ l := by
  intro hc
  rw [List.any_eq_true.mpr ⟨c, hc, h⟩] at hall
  cases hall

theorem neutral_of_digit (h : c.isDigit = true) : c ∉ special := not_mem_of_any (by decide) h

theorem neutral_of_space (h : isSpace c = true) : c ∉ special := not_mem_of_any (by decide) h

theorem neutral_of_hex (h : isHex c = true) : c ∉ special := not_mem_of_any (by decide) h

theorem scan_blank (h : Blank t) : scan (.outside dotted) t = some (.outside dotted) :=
  scan_neutral fun c hc => neutral_of_space (h c hc)

theorem scan_digits (h : Digits t) : scan (.outside dotted) t = some (.outside dotted) :=
  scan_neutral fun c hc => neutral_of_digit (h.2 c hc)

theorem step_inside (hquote : c ≠ '"') (hback : c ≠ '\\') : step .inside c = some .inside := by
  simp [step, hquote, hback]

theorem step_inside_of_hex (h : isHex c = true) : step .inside c = some .inside := by
  have hc := neutral_of_hex h
  simp only [special, List.mem_cons, not_or] at hc
  exact step_inside hc.1 hc.2.1

/-- What stands in a string stays in it. -/
theorem scan_chars (h : Chars t) : scan .inside t = some .inside := by
  induction h with
  | nil => rfl
  | plain hquote hback _ _ ih => rw [scan_cons (step_inside hquote hback)]; exact ih
  | @escape c t hc _ ih =>
    have hdot : c ≠ '.' := fun hdot => absurd (hdot ▸ hc) (by decide : '.' ∉ escapes)
    change (step .escaped c).bind (fun next => scan next t) = _
    simp only [step, hdot, if_false]
    exact ih
  | @unicode a b c d t ha hb hc hd _ ih =>
    change scan .inside (a :: b :: c :: d :: t) = _
    rw [scan_cons (step_inside_of_hex ha), scan_cons (step_inside_of_hex hb),
      scan_cons (step_inside_of_hex hc),
      scan_cons (step_inside_of_hex hd)]
    exact ih

theorem scan_quoted (h : Chars t) :
    scan (.outside dotted) ('"' :: (t ++ ['"'])) = some (.outside false) := by
  change scan .inside (t ++ ['"']) = _
  rw [scan_trans (scan_chars h)]
  rfl

/-- A number has one dot at most. -/
theorem scan_number (h : Number t) : ∃ d, scan (.outside false) t = some (.outside d) := by
  obtain @⟨sign, int, fraction, exponent, hsign, hint, -, hfraction, hexponent⟩ := h
  have hsigned :
    ∀ {d : Bool} {s : List Char}, s ∈ [[], ['+'], ['-']] →
    scan (.outside d) s = some (.outside d) := by
    intro d s hs
    simp only [List.mem_cons, List.not_mem_nil, or_false] at hs
    rcases hs with rfl | rfl | rfl <;> rfl
  have hminus : scan (.outside false) sign = some (.outside false) := by
    simp only [List.mem_cons, List.not_mem_nil, or_false] at hsign
    rcases hsign with rfl | rfl <;> rfl
  rw [List.append_assoc, List.append_assoc, scan_trans hminus, scan_trans (scan_digits hint)]
  have hend : ∀ d : Bool, ∃ d', scan (.outside d) exponent = some (.outside d') := by
    intro d
    rcases hexponent with rfl | ⟨e, he, s, hs, ds, hds, rfl⟩
    · exact ⟨d, rfl⟩
    · have hletter : e ∉ special :=
        not_mem_of_any (p :=
          fun c => ['e', 'E'].contains c) (by decide) (List.contains_iff_mem.mpr he)
      rw [scan_cons (step_neutral hletter), scan_trans (hsigned hs)]
      exact ⟨d, scan_digits hds⟩
  rcases hfraction with rfl | ⟨ds, hds, rfl⟩
  · exact hend false
  · change ∃ d, scan (.outside true) (ds ++ _) = _
    rw [scan_trans (scan_digits hds)]
    exact hend true

/-- Every part of a JSON text is scanned from outside the strings to outside. -/
theorem scan_derives {p : Part} (h : Derives p t) :
    ∃ d, scan (.outside false) t = some (.outside d) := by
  induction h with
  | null | true | false => exact ⟨_, rfl⟩
  | number h => exact scan_number h
  | string h => exact ⟨_, scan_quoted h⟩
  | emptyArray h | emptyObject h =>
    refine ⟨Bool.false, ?_⟩
    change scan (.outside Bool.false) (_ ++ _) = _
    rw [scan_trans (scan_blank h)]
    rfl
  | array _ ih | object _ ih =>
    obtain ⟨d, hd⟩ := ih
    refine ⟨Bool.false, ?_⟩
    change scan (.outside Bool.false) (_ ++ _) = _
    rw [scan_trans hd]
    rfl
  | element hw _ hw' ih =>
    obtain ⟨d, hd⟩ := ih
    rw [scan_trans (scan_blank hw), scan_trans hd]
    exact ⟨d, scan_blank hw'⟩
  | elements_one _ ih | members_one _ ih => exact ih
  | elements_more _ _ iht ihu | members_more _ _ iht ihu =>
    obtain ⟨d, hd⟩ := iht
    rw [scan_trans hd]
    exact ihu
  | @member w t w' u hw ht hw' _ ih =>
    have hkey : '"' :: (t ++ ('"' :: (w' ++ ':' :: u))) = '"' :: (t ++ ['"']) ++
      (w' ++ ':' :: u) := by simp
    rw [scan_trans (scan_blank hw), hkey, scan_trans (scan_quoted ht), scan_trans (scan_blank hw')]
    exact ih

end Scanning

section Cuts

variable {t u : List Char} {a b d : Bool}

/-- Read with its quotes the other way round a text does not end outside the strings too. -/
theorem scan_parity (hout : scan (.outside a) t = some (.outside b)) :
    scan .inside t ≠ some (.outside d) := by
  induction t generalizing a b d with
  | nil => intro h; cases h
  | cons c t ih =>
    intro hin
    by_cases hquote : c = '"'
    · subst hquote
      exact ih (hin : scan (.outside false) t = _) (hout : scan .inside t = _)
    · by_cases hback : c = '\\'
      · subst hback
        cases hout
      · rw [scan, step_inside hquote hback] at hin
        cases hstep : step (.outside a) c with
        | none => rw [scan, hstep] at hout; cases hout
        | some next =>
          have hnext : ∃ a', next = .outside a' := by
            simp only [step, if_neg hquote, if_neg hback] at hstep
            split at hstep
            · split at hstep
              · cases hstep
              · exact ⟨true, (Option.some.inj hstep).symm⟩
            · split at hstep <;> exact ⟨_, (Option.some.inj hstep).symm⟩
          obtain ⟨a', rfl⟩ := hnext
          rw [scan_cons hstep] at hout
          exact ih hout hin

theorem plain_nil : Plain [] := fun _ hc => absurd hc List.not_mem_nil

theorem plain_cons {c : Char} (hc : c ∉ '"' :: '\\' :: structural) (h : Plain t) : Plain (c :: t) :=
  List.forall_mem_cons.mpr ⟨hc, h⟩

theorem plain_append (ht : Plain t) (hu : Plain u) : Plain (t ++ u) :=
  List.forall_mem_append.mpr ⟨ht, hu⟩

theorem plain_digits (h : ∀ c ∈ t, c.isDigit = true) : Plain t :=
  fun c hc => not_mem_of_any (by decide) (h c hc)

theorem scan_inside_plain (h : Plain t) : scan .inside t = some .inside := by
  induction t with
  | nil => rfl
  | cons c t ih =>
    have hc := h c List.mem_cons_self
    simp only [List.mem_cons, not_or] at hc
    rw [scan_cons (step_inside hc.1 hc.2.1)]
    exact ih fun c hc => h c (List.mem_cons_of_mem _ hc)

/-- After a dot outside the strings no other comes before some structure. -/
theorem scan_dotted_plain (h : Plain t) : scan (.outside true) (t ++ '.' :: u) = none := by
  induction t with
  | nil => rfl
  | cons c t ih =>
    have hc := h c List.mem_cons_self
    simp only [List.mem_cons, not_or] at hc
    obtain ⟨hquote, hback, hstruct⟩ := hc
    by_cases hdot : c = '.'
    · subst hdot
      rfl
    · have hneutral : step (.outside true) c = some (.outside true) :=
        step_neutral (by simp [special, hquote, hback, hdot, hstruct])
      rw [List.cons_append, scan_cons hneutral]
      exact ih fun c hc => h c (List.mem_cons_of_mem _ hc)

/-- A JSON text has no JSON text at its end after a plain piece between two dots,
not even after a character or so that means nothing. -/
theorem not_isJson_of_cut {before piece lead rest : List Char}
    (hwhole : IsJson (before ++ '.' :: (piece ++ '.' :: (lead ++ rest)))) (hplain : Plain piece)
    (hlead : ∀ c ∈ lead, c ∉ special) : ¬ IsJson rest := by
  intro hrest
  obtain ⟨d, hd⟩ := scan_derives hwhole
  obtain ⟨d', hd'⟩ : ∃ d, scan (.outside false) (lead ++ rest) = some (.outside d) := by
    rw [scan_trans (scan_neutral hlead)]
    exact scan_derives hrest
  rw [scan_append] at hd
  cases hbefore : scan (.outside false) before with
  | none => rw [hbefore] at hd; cases hd
  | some mode =>
    rw [hbefore] at hd
    change scan mode ('.' :: (piece ++ '.' :: (lead ++ rest))) = _ at hd
    cases mode with
    | outside dotted =>
      cases dotted with
      | true => cases hd
      | false =>
        change scan (.outside true) (piece ++ '.' :: (lead ++ rest)) = _ at hd
        rw [scan_dotted_plain hplain] at hd
        cases hd
    | inside =>
      change scan .inside (piece ++ '.' :: (lead ++ rest)) = _ at hd
      rw [scan_trans (scan_inside_plain hplain)] at hd
      exact scan_parity hd' hd
    | escaped => cases hd

/-- Two ways to cut a text at a letter that is not in the first piece of one of them. -/
theorem split_cases {α : Type*} {x : α} {a b a' b' : List α} (h : a ++ x :: b = a' ++ x :: b')
    (hx : x ∉ a') :
    (a = a' ∧ b = b') ∨ ∃ r, a = a' ++ x :: r ∧ b' = r ++ x :: b := by
  rcases List.append_eq_append_iff.mp h with ⟨e, ha, hb⟩ | ⟨e, ha, hb⟩
  · cases e with
    | nil => exact .inl ⟨by simpa using ha.symm, by simpa using hb⟩
    | cons y e =>
      obtain ⟨rfl, -⟩ := List.cons.inj hb
      exact absurd (ha ▸ List.mem_append_right _ List.mem_cons_self) hx
  · cases e with
    | nil => exact .inl ⟨by simpa using ha, by simpa using hb.symm⟩
    | cons y e =>
      obtain ⟨rfl, hrest⟩ := List.cons.inj hb
      exact .inr ⟨e, ha, hrest⟩

/-- A name, a number and an object joined with dots are found again wherever the
text is cut, if what is cut out is a number and a JSON text too. -/
theorem cut_unique {name piece body name' piece' lead rest : List Char}
    (hjoin : name' ++ '.' :: (piece' ++ '.' :: (lead ++ rest)) = name ++
    '.' :: (piece ++ '.' :: body))
    (hname : '.' ∉ name) (hpiece : '.' ∉ piece) (hbody : IsJson body)
    (hbrace : body.head? = some '{')
    (hplain : Plain piece') (hne : piece' ≠ []) (hlead : ∀ c ∈ lead, c ∉ special)
    (hrest : IsJson rest) :
    name' = name ∧ piece' = piece ∧ lead ++ rest = body := by
  have hnot : '{' ∉ piece' := fun h => hplain _ h (by decide)
  obtain ⟨tail, rfl⟩ : ∃ tail, body = '{' :: tail := ⟨_, (List.cons_head?_tail hbrace).symm⟩
  rcases split_cases hjoin hname with ⟨rfl, hafter⟩ | ⟨r, rfl, hafter⟩
  · rcases split_cases hafter hpiece with ⟨rfl, hends⟩ | ⟨r, rfl, hends⟩
    · exact ⟨rfl, rfl, hends⟩
    · -- the number would reach into the object
      exfalso
      cases r with
      | nil => exact absurd (List.cons.inj hends).1 (by decide)
      | cons y r =>
        obtain ⟨rfl, -⟩ := List.cons.inj hends
        exact hnot (List.mem_append_right _ (List.mem_cons_of_mem _ List.mem_cons_self))
  · exfalso
    rcases split_cases hafter.symm hpiece with ⟨rfl, hends⟩ | ⟨r, rfl, hends⟩
    · -- the number would be the start of the object
      cases piece' with
      | nil => exact hne rfl
      | cons y piece' =>
        obtain ⟨rfl, -⟩ := List.cons.inj hends
        exact hnot List.mem_cons_self
    · rw [hends] at hbody
      exact not_isJson_of_cut hbody hplain hlead hrest

end Cuts

end JsonTexts

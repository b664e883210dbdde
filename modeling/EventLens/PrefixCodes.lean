import Mathlib.Data.List.Infix
import Mathlib.Logic.Function.Basic

/-!
Renderings of values as texts none of which continues another. Such a rendering
can be read off the front of any longer text, and two of them one after the
other are again one; so a text made of several is read in one way only.
-/

namespace PrefixCodes

variable {α β γ : Type} {f : α → List γ} {g : β → List γ}

/-- No text continues another. -/
def PrefixFree (f : α → List γ) : Prop := ∀ a b, f a <+: f b → a = b

theorem PrefixFree.injective (hf : PrefixFree f) : Function.Injective f := by
  intro a b h
  exact hf a b (h ▸ List.prefix_refl _)

theorem prefixFree_of_length {n : ℕ} (hlength : ∀ a, (f a).length = n) (hf : Function.Injective f) :
    PrefixFree f := by
  intro a b h
  exact hf (h.eq_of_length (by rw [hlength, hlength]))

/-- The value in front can be read off, whatever follows. -/
theorem PrefixFree.split (hf : PrefixFree f) {a b : α} {s t : List γ} (h : f a ++ s = f b ++ t) :
    a = b ∧ s = t := by
  have ha : f a <+: f b ++ t := ⟨s, h⟩
  have hb : f b <+: f b ++ t := List.prefix_append _ _
  have hab : a = b := by
    rcases List.prefix_or_prefix_of_prefix ha hb with hle | hle
    · exact hf a b hle
    · exact (hf b a hle).symm
  subst hab
  exact ⟨rfl, List.append_cancel_left h⟩

theorem PrefixFree.prefix_append_iff (hf : PrefixFree f) {a b : α} {t : List γ} :
    f a <+: f b ++ t ↔ a = b := by
  constructor
  · rintro ⟨s, h⟩
    exact (hf.split h).1
  · rintro rfl
    exact List.prefix_append _ _

theorem PrefixFree.append (hf : PrefixFree f) (hg : PrefixFree g) :
    PrefixFree (fun p : α × β => f p.1 ++ g p.2) := by
  rintro ⟨a, b⟩ ⟨a', b'⟩ ⟨t, h⟩
  rw [List.append_assoc] at h
  obtain ⟨rfl, h⟩ := hf.split h
  obtain rfl := hg b b' ⟨t, h⟩
  rfl

/-- A fixed text in front. -/
theorem PrefixFree.after (hf : PrefixFree f) (text : List γ) :
    PrefixFree (fun a => text ++ f a) := by
  intro a b h
  exact hf a b ((List.prefix_append_right_inj text).mp h)

/-- A fixed text behind. -/
theorem PrefixFree.before (hf : PrefixFree f) (text : List γ) :
    PrefixFree (fun a => f a ++ text) := by
  intro a b h
  exact hf.prefix_append_iff.mp ((List.prefix_append _ _).trans h)

end PrefixCodes

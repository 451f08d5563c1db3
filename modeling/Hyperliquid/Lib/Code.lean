/-
# Self-delimiting codes

A code is self-delimiting when a reader that knows nothing but the code finds out where the
first code word ends: from `f x ++ r = f y ++ s` it follows that `x = y` and `r = s`.
Concatenations of such codes are unambiguous without separators, which is what makes a
serialization injective: the code of a record is read field by field, and the code words of
equally many elements of an array one after the other (`SelfDelimiting.flatMap`).
-/
import Mathlib.Data.List.Basic
import Mathlib.Data.List.Flatten

namespace Lib

variable {α ε : Type}

/-- `f` is self-delimiting on the values that satisfy `P`. -/
def SelfDelimiting (P : α → Prop) (f : α → List ε) : Prop :=
  ∀ x y r s, P x → P y → f x ++ r = f y ++ s → x = y ∧ r = s

namespace SelfDelimiting

/-- The code words of two lists of equally many elements, one after the other. -/
theorem flatMap {P : α → Prop} {f : α → List ε} (h : SelfDelimiting P f) :
    ∀ (xs ys : List α) (r s : List ε), xs.length = ys.length → (∀ x ∈ xs, P x) →
      (∀ y ∈ ys, P y) → xs.flatMap f ++ r = ys.flatMap f ++ s → xs = ys ∧ r = s := by
  intro xs
  induction xs with
  | nil =>
    intro ys r s hl _ _ he
    cases ys with
    | nil => exact ⟨rfl, he⟩
    | cons y ys => cases hl
  | cons x xs ih =>
    intro ys r s hl hx hy he
    cases ys with
    | nil => cases hl
    | cons y ys =>
      simp only [List.flatMap_cons, List.append_assoc] at he
      obtain ⟨rfl, hrest⟩ := h x y _ _ (hx x (by simp)) (hy y (by simp)) he
      obtain ⟨rfl, hrs⟩ := ih ys r s (Nat.succ.inj hl) (fun z hz => hx z (by simp [hz]))
        (fun z hz => hy z (by simp [hz])) hrest
      exact ⟨rfl, hrs⟩

end SelfDelimiting

end Lib

/-
# Reordering what a fold consumes

A fold over a list does not see the order of two neighbours that it may take either way round.
`Rearranged A D l l'` says that `l'` is `l` in another order, where the elements that satisfy `A`
keep theirs, and that in neither list an element comes before one that it has to come after
(`D x y`: of the two, `x` comes first).

A fold that may exchange all other neighbours ends alike on both (`Rearranged.foldl`).  Ending
alike is a relation of its own, since the results may differ in what nobody looks at.
-/
import Mathlib.Data.List.Perm.Basic

namespace Lib

section

variable {α : Type}

/-- The second list is the first in another order. -/
structure Rearranged (A : α → Bool) (D : α → α → Prop) (l l' : List α) : Prop where
  perm : l.Perm l'
  kept : l.filter A = l'.filter A
  left : l.Pairwise fun x y => ¬ D y x
  right : l'.Pairwise fun x y => ¬ D y x

variable {A : α → Bool} {D : α → α → Prop} {x : α} {l l' : List α}

/-- The first element of one list, found in the other; if it keeps its place, nothing that does
comes before it. -/
theorem Rearranged.find (h : Rearranged A D (x :: l) l') :
    ∃ a c, l' = a ++ x :: c ∧ (A x = true → ∀ y ∈ a, A y = false) := by
  by_cases hx : A x = true
  · have hkept := h.kept
    rw [List.filter_cons_of_pos hx] at hkept
    obtain ⟨a, c, rfl, hnone, -, -⟩ := List.filter_eq_cons_iff.mp hkept.symm
    exact ⟨a, c, rfl, fun _ y hy => by simpa using hnone y hy⟩
  · obtain ⟨a, c, rfl⟩ := List.append_of_mem (h.perm.mem_iff.mp List.mem_cons_self)
    exact ⟨a, c, rfl, fun hpos => absurd hpos hx⟩

variable {a c : List α}

/-- Nothing that comes before it there must come after it. -/
theorem Rearranged.front (h : Rearranged A D (x :: l) (a ++ x :: c)) :
    ∀ y ∈ a, ¬ D x y ∧ ¬ D y x := by
  intro y hy
  have hperm : l.Perm (a ++ c) := (h.perm.trans List.perm_middle).cons_inv
  have hmem : y ∈ l := hperm.mem_iff.mpr (List.mem_append_left c hy)
  refine ⟨?_, (List.pairwise_cons.mp h.left).1 y hmem⟩
  exact (List.pairwise_append.mp h.right).2.2 y hy x List.mem_cons_self

/-- The rest of both lists. -/
theorem Rearranged.tail (h : Rearranged A D (x :: l) (a ++ x :: c))
    (hnone : A x = true → ∀ y ∈ a, A y = false) : Rearranged A D l (a ++ c) where
  perm := (h.perm.trans List.perm_middle).cons_inv
  kept := by
    have hkept := h.kept
    rw [List.filter_append] at hkept ⊢
    by_cases hx : A x = true
    · have hnil : a.filter A = [] := by
        rw [List.filter_eq_nil_iff]
        intro y hy
        simp [hnone hx y hy]
      rw [List.filter_cons_of_pos hx, List.filter_cons_of_pos hx, hnil] at hkept
      rw [hnil]
      exact (List.cons.inj hkept).2
    · rwa [List.filter_cons_of_neg hx, List.filter_cons_of_neg hx] at hkept
  left := (List.pairwise_cons.mp h.left).2
  right := h.right.sublist (List.Sublist.append_left (List.sublist_cons_self x c) a)

end

section

variable {α β : Type} {f : β → α → β} {R : β → β → Prop}

theorem foldl_rel (hf : ∀ b b' x, R b b' → R (f b x) (f b' x)) (l : List α) {b b' : β}
    (h : R b b') : R (l.foldl f b) (l.foldl f b') := by
  induction l generalizing b b' with
  | nil => exact h
  | cons x l ih => exact ih (hf b b' x h)

/-- An element that may be exchanged with all before it may come first. -/
theorem foldl_front (hR : Equivalence R) (hf : ∀ b b' x, R b b' → R (f b x) (f b' x)) {x : α}
    {a : List α} (hcomm : ∀ y ∈ a, ∀ b, R (f (f b y) x) (f (f b x) y)) (c : List α) (b : β) :
    R ((a ++ x :: c).foldl f b) ((x :: (a ++ c)).foldl f b) := by
  induction a generalizing b with
  | nil => exact hR.refl _
  | cons y a ih =>
    have hrest := ih (fun z hz => hcomm z (List.mem_cons_of_mem y hz)) (f b y)
    have hfirst : R ((a ++ c).foldl f (f (f b y) x)) ((a ++ c).foldl f (f (f b x) y)) :=
      foldl_rel hf (a ++ c) (hcomm y List.mem_cons_self b)
    exact hR.trans hrest hfirst

/-- The reordering rule: a fold that may exchange neighbours, unless both keep their places or one
must come first, ends alike on lists that are the same up to this. -/
theorem Rearranged.foldl (hR : Equivalence R) (hf : ∀ b b' x, R b b' → R (f b x) (f b' x))
    {A : α → Bool} {D : α → α → Prop}
    (hcomm : ∀ b x y, ¬ (A x = true ∧ A y = true) → ¬ D x y → ¬ D y x →
      R (f (f b y) x) (f (f b x) y))
    {l l' : List α} (h : Rearranged A D l l') {b b' : β} (hb : R b b') :
    R (l.foldl f b) (l'.foldl f b') := by
  induction l generalizing l' b b' with
  | nil =>
    rw [List.nil_perm.mp h.perm]
    exact hb
  | cons x l ih =>
    obtain ⟨a, c, rfl, hnone⟩ := h.find
    have hfront : R ((a ++ x :: c).foldl f b') ((x :: (a ++ c)).foldl f b') := by
      refine foldl_front hR hf ?_ c b'
      intro y hy b
      obtain ⟨hxy, hyx⟩ := h.front y hy
      refine hcomm b x y ?_ hxy hyx
      rintro ⟨hx, hy'⟩
      rw [hnone hx y hy] at hy'
      cases hy'
    have hrest : R (l.foldl f (f b x)) ((a ++ c).foldl f (f b' x)) :=
      ih (h.tail hnone) (hf b b' x hb)
    exact hR.trans hrest (hR.symm hfront)

end

end Lib

/-
# Hashes of structures, and collisions

A typed structure is hashed by hashing the concatenation of one 32-byte word for each field:
a value of at most 32 bytes is padded on the left, and a value of any length is replaced by
its own hash.  The first field names the type.

A hash function has collisions, so a digest does not determine what was hashed.  What can be
said for every function `K` is that it does, unless two different messages that were hashed
on the way, one on each side, have the same digest (`Collision`).  The two results say so for
the fields of structures of one shape (`hashStruct_inj`), and for the type names of any two
structures (`hashStruct_type_inj`), which is what separates one type from another.
-/
import Hyperliquid.Lib.Bounded
import Mathlib.Data.List.Forall2

namespace Lib

/-- What a hash function returns. -/
abbrev Digest := Vector UInt8 32

/-! ## 1. Collisions -/

/-- Two different messages, one of each list, with the same digest. -/
def Collision (K : Bytes → Digest) (xs ys : List Bytes) : Prop :=
  ∃ x ∈ xs, ∃ y ∈ ys, x ≠ y ∧ K x = K y

namespace Collision

variable {K : Bytes → Digest} {xs ys xs' ys' : List Bytes}

theorem mono (h : Collision K xs ys) (hx : xs ⊆ xs') (hy : ys ⊆ ys') : Collision K xs' ys' := by
  obtain ⟨x, hxm, y, hym, hne, heq⟩ := h
  exact ⟨x, hx hxm, y, hy hym, hne, heq⟩

/-- Messages with equal digests are equal, or collide. -/
theorem eq_or (xs ys : List Bytes) {x y : Bytes} (hx : x ∈ xs) (hy : y ∈ ys)
    (h : K x = K y) : x = y ∨ Collision K xs ys := by
  by_cases hxy : x = y
  · exact .inl hxy
  · exact .inr ⟨x, hx, y, hy, hxy, h⟩

end Collision

/-! ## 2. Structures -/

/-- A field: of any length, or of at most 32 bytes. -/
inductive Field where
  | dyn (data : Bytes)
  | val (data : Bytes)
deriving DecidableEq

namespace Field

/-- The 32-byte word of a field. -/
def word (K : Bytes → Digest) : Field → Bytes
  | dyn data => (K data).toList
  | val data => List.replicate (32 - data.length) 0 ++ data

/-- A value fits a word. -/
def Fits : Field → Prop
  | dyn _ => True
  | val data => data.length ≤ 32

/-- The messages hashed to compute the word. -/
def messages : Field → List Bytes
  | dyn data => [data]
  | val _ => []

/-- Fields of one kind, and of one length where it is fixed. -/
def SameShape : Field → Field → Prop
  | dyn _, dyn _ => True
  | val s, val t => s.length = t.length
  | _, _ => False

variable {K : Bytes → Digest}

theorem length_word {f : Field} (h : f.Fits) : (f.word K).length = 32 := by
  cases f with
  | dyn data => simp [word]
  | val data =>
    have hle : data.length ≤ 32 := h
    simp only [word, List.length_append, List.length_replicate]
    omega

/-- Fields of one shape with equal words are equal, or a collision was found. -/
theorem eq_or_of_word {f g : Field} (hs : SameShape f g) (h : f.word K = g.word K) :
    f = g ∨ Collision K f.messages g.messages := by
  cases f with
  | dyn s =>
    cases g with
    | val t => exact hs.elim
    | dyn t =>
      have hk : K s = K t := Vector.toList_inj.mp h
      rcases Collision.eq_or [s] [t] (by simp) (by simp) hk with rfl | hc
      · exact .inl rfl
      · exact .inr hc
  | val s =>
    cases g with
    | dyn t => exact hs.elim
    | val t =>
      have hlen : s.length = t.length := hs
      simp only [word, hlen] at h
      exact .inl (by rw [List.append_cancel_left h])

end Field

section

variable (K : Bytes → Digest)

/-- The words of the fields. -/
def structWords (fs : List Field) : Bytes := fs.flatMap (Field.word K)

/-- The hash of a structure. -/
def hashStruct (fs : List Field) : Digest := K (structWords K fs)

/-- All the messages hashed to compute it. -/
def structMessages (fs : List Field) : List Bytes := fs.flatMap Field.messages ++ [structWords K fs]

end

variable {K : Bytes → Digest}

/-- The words of structures of one shape determine the fields, or a collision was found. -/
theorem structWords_inj {fs gs : List Field} (hs : List.Forall₂ Field.SameShape fs gs)
    (hf : ∀ f ∈ fs, f.Fits) (hg : ∀ g ∈ gs, g.Fits)
    (h : structWords K fs = structWords K gs) :
    fs = gs ∨ Collision K (fs.flatMap Field.messages) (gs.flatMap Field.messages) := by
  induction hs with
  | nil => exact .inl rfl
  | @cons f g fs gs hfg _ ih =>
    simp only [structWords, List.flatMap_cons] at h ih
    have hlen : (f.word K).length = (g.word K).length := by
      rw [Field.length_word (hf f (by simp)), Field.length_word (hg g (by simp))]
    obtain ⟨hw, hrest⟩ := List.append_inj h hlen
    rcases Field.eq_or_of_word hfg hw with rfl | hc
    · rcases ih (fun x hx => hf x (by simp [hx])) (fun x hx => hg x (by simp [hx])) hrest with
        rfl | hc
      · exact .inl rfl
      · exact .inr (hc.mono (by simp) (by simp))
    · exact .inr (hc.mono (by simp) (by simp))

/-- Equal hashes of structures of one shape: equal fields, or a collision. -/
theorem hashStruct_inj {fs gs : List Field} (hs : List.Forall₂ Field.SameShape fs gs)
    (hf : ∀ f ∈ fs, f.Fits) (hg : ∀ g ∈ gs, g.Fits) (h : hashStruct K fs = hashStruct K gs) :
    fs = gs ∨ Collision K (structMessages K fs) (structMessages K gs) := by
  rcases Collision.eq_or (structMessages K fs) (structMessages K gs) (by simp [structMessages])
      (by simp [structMessages]) h with hw | hc
  · rcases structWords_inj hs hf hg hw with heq | hc
    · exact .inl heq
    · exact .inr (hc.mono (by simp [structMessages]) (by simp [structMessages]))
  · exact .inr hc

/-- Equal hashes of any two structures: equal type names, or a collision. -/
theorem hashStruct_type_inj {s t : Bytes} {fs gs : List Field}
    (h : hashStruct K (.dyn s :: fs) = hashStruct K (.dyn t :: gs)) :
    s = t ∨ Collision K (structMessages K (.dyn s :: fs)) (structMessages K (.dyn t :: gs)) := by
  rcases Collision.eq_or (structMessages K (.dyn s :: fs))
      (structMessages K (.dyn t :: gs)) (by simp [structMessages])
      (by simp [structMessages]) h with hw | hc
  · simp only [structWords, List.flatMap_cons, Field.word] at hw
    obtain ⟨hk, -⟩ := List.append_inj hw (by simp)
    exact Collision.eq_or _ _ (by simp [structMessages, Field.messages])
      (by simp [structMessages, Field.messages]) (Vector.toList_inj.mp hk)
  · exact .inr hc

end Lib

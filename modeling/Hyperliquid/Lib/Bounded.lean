/-
# Arrays with a count, and character buffers

A C program keeps a variable number of elements in an array of fixed size beside a counter,
and a string in a `char` array with room for its NUL.  The two types here carry the bound as
a field, so a value that overflows its array cannot be built: `push` asks for the proof that
a slot is free, which is what the bounds check in the program provides.

`snprintf` is the C library's: it writes at most what the buffer holds and drops the rest.
Whether anything is dropped is a question about the text (`snprintf_of_fits`).
-/
import Mathlib.Data.List.Basic
import Mathlib.Data.UInt

namespace Lib

/-- A string of bytes: a wire payload, or the characters of a C string. -/
abbrev Bytes := List UInt8

/-! ## 1. An array of `n` slots with its element count -/

/-- The used slots of an array with `n` slots, in order. -/
structure Bounded (α : Type) (n : Nat) where
  elems : List α
  bound : elems.length ≤ n
deriving DecidableEq

namespace Bounded

variable {α : Type} {n : Nat}

/-- The zeroed array. -/
def empty : Bounded α n := ⟨[], Nat.zero_le n⟩

instance : Inhabited (Bounded α n) := ⟨empty⟩

/-- The element counter. -/
def count (b : Bounded α n) : Nat := b.elems.length

/-- Writes the first free slot and increments the counter. -/
def push (b : Bounded α n) (a : α) (h : b.count < n) : Bounded α n :=
  ⟨b.elems ++ [a], by simp only [List.length_append, List.length_singleton]; exact h⟩

/-- The same function on every element. -/
def map {β : Type} (f : α → β) (b : Bounded α n) : Bounded β n :=
  ⟨b.elems.map f, by rw [List.length_map]; exact b.bound⟩

@[simp] theorem elems_empty : (empty : Bounded α n).elems = [] := rfl

@[simp] theorem elems_map {β : Type} (f : α → β) (b : Bounded α n) :
    (b.map f).elems = b.elems.map f := rfl

@[simp] theorem elems_push (b : Bounded α n) (a : α) (h : b.count < n) :
    (b.push a h).elems = b.elems ++ [a] := rfl

theorem count_push (b : Bounded α n) (a : α) (h : b.count < n) :
    (b.push a h).count = b.count + 1 := by
  simp [count]

/-- A property of all elements, after one more. -/
theorem forall_push {b : Bounded α n} {a : α} {P : α → Prop} (h : b.count < n)
    (hb : ∀ x ∈ b.elems, P x) (ha : P a) : ∀ x ∈ (b.push a h).elems, P x := by
  intro x hx
  simp only [elems_push, List.mem_append, List.mem_singleton] at hx
  rcases hx with hx | rfl
  · exact hb x hx
  · exact ha

@[ext] theorem ext {b c : Bounded α n} (h : b.elems = c.elems) : b = c := by
  cases b; cases c; cases h; rfl

theorem map_push {β : Type} (f : α → β) (b : Bounded α n) (a : α) (h : b.count < n)
    (h' : (b.map f).count < n) : (b.push a h).map f = (b.map f).push (f a) h' := by
  ext1
  simp

end Bounded

/-! ## 2. A `char` array and `snprintf` -/

/-- The characters of a C string in an array of `cap + 1` bytes, up to its NUL. -/
structure CString (cap : Nat) where
  chars : Bytes
  fits : chars.length ≤ cap
deriving DecidableEq

namespace CString

variable {cap : Nat}

/-- The zeroed buffer. -/
def empty : CString cap := ⟨[], Nat.zero_le cap⟩

instance : Inhabited (CString cap) := ⟨empty⟩

@[ext] theorem ext {s t : CString cap} (h : s.chars = t.chars) : s = t := by
  cases s; cases t; cases h; rfl

end CString

/-- The bytes of a string literal of the program (all of them are ASCII). -/
def text (s : String) : Bytes := s.toList.map fun c => UInt8.ofNat c.toNat

/-- `snprintf(buf, cap + 1, ...)` for an already formatted text. -/
def snprintf (cap : Nat) (formatted : Bytes) : CString cap :=
  ⟨formatted.take cap, List.length_take_le cap formatted⟩

/-- Nothing is cut when the text fits. -/
theorem snprintf_of_fits {cap : Nat} {s : Bytes} (h : s.length ≤ cap) :
    (snprintf cap s).chars = s :=
  List.take_of_length_le h

/-! ## 3. Writing into a buffer -/

/-- Overwrites `dst` from `offset` on. -/
def memcpy (dst : Bytes) (offset : Nat) (src : Bytes) : Bytes :=
  dst.take offset ++ src ++ dst.drop (offset + src.length)

/-- The bytes below the write position stay, and the new ones follow them. -/
theorem take_memcpy {dst src : Bytes} {offset : Nat} (h : offset ≤ dst.length) :
    (memcpy dst offset src).take (offset + src.length) = dst.take offset ++ src := by
  have hl : (dst.take offset ++ src).length = offset + src.length := by
    simp [List.length_take, Nat.min_eq_left h]
  unfold memcpy
  rw [← hl, List.take_left']
  rfl

end Lib

/-
# How long a MessagePack document is

The bytes of an item, when each item is in its shortest form: one byte for a small integer, a
boolean, a short map or array, and a header of one or two bytes before a string.  A writer is
compact if it takes no more than that for each write (`Writer.Compact`), and then a document takes
no more than the sum over its items (`Compact.length_encode`), which is what a fixed buffer must
hold.
-/
import Hyperliquid.Lib.MsgpackShortest

namespace Lib.Msgpack

/-! ## 1. One item -/

/-- The bytes of a write in its shortest form. -/
def Token.size (t : Token) : Nat := (shortest.bytes t).length

theorem length_writeUinteger (n : Nat) : (writeUinteger n).length ≤ 9 := by
  unfold writeUinteger
  split_ifs
  all_goals simp [length_beBytes]

/-- An integer of 32 bits. -/
theorem length_writeUinteger_of_lt {n : Nat} (h : n < 2 ^ 32) : (writeUinteger n).length ≤ 5 := by
  unfold writeUinteger
  split_ifs
  case neg => omega
  all_goals simp [length_beBytes]

theorem length_writeInteger (i : Int) : (writeInteger i).length ≤ 9 := by
  unfold writeInteger
  split_ifs
  case pos => exact length_writeUinteger _
  all_goals simp [length_beBytes]

/-- An array of up to 15 elements. -/
theorem length_writeArray_of_lt {n : Nat} (h : n < 16) : (writeArray n).length = 1 := by
  unfold writeArray
  rw [if_pos h]
  rfl

/-- A string of up to 31 bytes. -/
theorem length_writeStr_of_lt {s : Bytes} (h : s.length < 32) :
    (writeStr s).length = s.length + 1 := by
  unfold writeStr
  rw [if_pos h, List.length_append, List.length_singleton, Nat.add_comm]

/-- A string of up to 255 bytes. -/
theorem length_writeStr_le {s : Bytes} (h : s.length < 256) :
    (writeStr s).length ≤ s.length + 2 := by
  unfold writeStr
  rw [List.length_append]
  split_ifs
  · simp only [List.length_singleton]
    omega
  · simp only [List.length_cons, length_beBytes]
    omega

theorem size_array {n : UInt32} (h : n.toNat < 16) : (Token.array n).size = 1 :=
  length_writeArray_of_lt h

theorem size_str_short {s : Bytes} (h : s.length < 32) : (Token.str s).size = s.length + 1 :=
  length_writeStr_of_lt h

theorem size_str_le {s : Bytes} (h : s.length < 256) : (Token.str s).size ≤ s.length + 2 :=
  length_writeStr_le h

theorem size_uinteger (v : UInt64) : (Token.uinteger v).size ≤ 9 := length_writeUinteger v.toNat

theorem size_uinteger_of_uint32 (v : UInt32) : (Token.uinteger v.toUInt64).size ≤ 5 := by
  refine length_writeUinteger_of_lt ?_
  rw [UInt32.toNat_toUInt64]
  exact v.toNat_lt

theorem size_integer (v : Int64) : (Token.integer v).size ≤ 9 := length_writeInteger v.toInt

@[simp] theorem size_bool (b : Bool) : (Token.bool b).size = 1 := by
  cases b with
  | false => rfl
  | true => rfl

/-! ## 2. A document -/

/-- The bytes of a sequence of writes, each in its shortest form. -/
def size (ts : List Token) : Nat := (ts.map Token.size).sum

@[simp] theorem size_nil : size [] = 0 := rfl

@[simp] theorem size_cons (t : Token) (ts : List Token) : size (t :: ts) = t.size + size ts := by
  simp [size]

@[simp] theorem size_append (ts us : List Token) : size (ts ++ us) = size ts + size us := by
  simp [size]

/-- The elements of an array, each of which takes at most `k`. -/
theorem size_flatMap_le {α : Type} {f : α → List Token} {k : Nat} (h : ∀ x, size (f x) ≤ k)
    (xs : List α) : size (xs.flatMap f) ≤ xs.length * k := by
  induction xs with
  | nil => exact Nat.zero_le _
  | cons x xs ih =>
    have hx := h x
    rw [List.flatMap_cons, size_append, List.length_cons, Nat.succ_mul]
    omega

/-- The writer takes no more than the shortest forms. -/
def Writer.Compact (w : Writer) : Prop := ∀ t, (w.bytes t).length ≤ t.size

theorem shortest_compact : shortest.Compact := fun _ => Nat.le_refl _

theorem Writer.Compact.length_encode {w : Writer} (hw : w.Compact) (ts : List Token) :
    (w.encode ts).length ≤ size ts := by
  induction ts with
  | nil => exact Nat.le_refl _
  | cons t ts ih =>
    have ht := hw t
    rw [encode_cons, List.length_append, size_cons]
    omega

end Lib.Msgpack

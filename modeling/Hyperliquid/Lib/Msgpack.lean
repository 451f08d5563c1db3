/-
# MessagePack items

A MessagePack document is a stream of items: integers, booleans, strings, and the headers of
maps and arrays, which announce how many items follow.  `decodeItem` is the decoder of the
format for these kinds of item, with all of their forms (`fixint`, `uint 8` to `uint 64`,
`int 8` to `int 64`, `fixstr` to `str 32`, and the map and array headers).

A library that writes MessagePack is a `Writer`: one function for each kind of write.  It
emits standard MessagePack (`Writer.Standard`) when the decoder reads back what was written,
whatever follows.  Then no two different sequences of writes produce the same bytes
(`Writer.items_of_encode`), because each write delimits itself.
-/
import Hyperliquid.Lib.Bounded
import Hyperliquid.Lib.Code

namespace Lib.Msgpack

/-! ## 1. The decoder -/

/-- What one item says. -/
inductive Item where
  | map (pairs : Nat)
  | array (elems : Nat)
  | str (s : Bytes)
  | int (i : Int)
  | bool (b : Bool)
deriving DecidableEq

/-- The big-endian number of the bytes. -/
def beNat (bs : Bytes) : Nat := bs.foldl (fun n b => 256 * n + b.toNat) 0

/-- The first `k` bytes, and the rest. -/
def takeBytes (k : Nat) (bs : Bytes) : Option (Bytes × Bytes) :=
  if bs.length < k then none else some (bs.take k, bs.drop k)

/-- A big-endian number of `k` bytes, and the rest. -/
def takeNat (k : Nat) (bs : Bytes) : Option (Nat × Bytes) :=
  (takeBytes k bs).map fun p => (beNat p.1, p.2)

/-- The signed number that `k` bytes with the unsigned value `n` stand for. -/
def signed (k n : Nat) : Int := if n < 2 ^ (8 * k - 1) then n else (n : Int) - 2 ^ (8 * k)

/-- A string whose length is given. -/
def takeStr (k : Nat) (bs : Bytes) : Option (Item × Bytes) :=
  (takeBytes k bs).map fun p => (.str p.1, p.2)

/-- A string whose length is the next `k` bytes. -/
def takeLenStr (k : Nat) (bs : Bytes) : Option (Item × Bytes) :=
  match takeNat k bs with
  | none => none
  | some (n, rest) => takeStr n rest

/-- An item made of the next `k` bytes, read as a number. -/
def takeItem (k : Nat) (f : Nat → Item) (bs : Bytes) : Option (Item × Bytes) :=
  (takeNat k bs).map fun p => (f p.1, p.2)

/-- The first item of the stream, and the rest. -/
def decodeItem : Bytes → Option (Item × Bytes)
  | [] => none
  | b :: rest =>
    let n := b.toNat
    if n < 0x80 then some (.int n, rest)
    else if n < 0x90 then some (.map (n - 0x80), rest)
    else if n < 0xa0 then some (.array (n - 0x90), rest)
    else if n < 0xc0 then takeStr (n - 0xa0) rest
    else if n = 0xc2 then some (.bool false, rest)
    else if n = 0xc3 then some (.bool true, rest)
    else if n = 0xcc then takeItem 1 (fun v => .int v) rest
    else if n = 0xcd then takeItem 2 (fun v => .int v) rest
    else if n = 0xce then takeItem 4 (fun v => .int v) rest
    else if n = 0xcf then takeItem 8 (fun v => .int v) rest
    else if n = 0xd0 then takeItem 1 (fun v => .int (signed 1 v)) rest
    else if n = 0xd1 then takeItem 2 (fun v => .int (signed 2 v)) rest
    else if n = 0xd2 then takeItem 4 (fun v => .int (signed 4 v)) rest
    else if n = 0xd3 then takeItem 8 (fun v => .int (signed 8 v)) rest
    else if n = 0xd9 then takeLenStr 1 rest
    else if n = 0xda then takeLenStr 2 rest
    else if n = 0xdb then takeLenStr 4 rest
    else if n = 0xdc then takeItem 2 .array rest
    else if n = 0xdd then takeItem 4 .array rest
    else if n = 0xde then takeItem 2 .map rest
    else if n = 0xdf then takeItem 4 .map rest
    else if 0xe0 ≤ n then some (.int ((n : Int) - 256), rest)
    else none

/-! ## 2. Writers -/

/-- One write. -/
inductive Token where
  | map (pairs : UInt32)
  | array (elems : UInt32)
  | str (s : Bytes)
  | uinteger (v : UInt64)
  | integer (v : Int64)
  | bool (b : Bool)
deriving DecidableEq

namespace Token

/-- What the write says. -/
def item : Token → Item
  | map n => .map n.toNat
  | array n => .array n.toNat
  | str s => .str s
  | uinteger v => .int v.toNat
  | integer v => .int v.toInt
  | bool b => .bool b

/-- The write is within the format's limits (only a string can be out of them). -/
def Fits : Token → Prop
  | str s => s.length < 2 ^ 32
  | _ => True

instance : DecidablePred Fits
  | str s => inferInstanceAs (Decidable (s.length < 2 ^ 32))
  | map _ | array _ | uinteger _ | integer _ | bool _ => inferInstanceAs (Decidable True)

end Token

/-- A library that writes MessagePack: the bytes of each write. -/
structure Writer where
  map : UInt32 → Bytes
  array : UInt32 → Bytes
  str : Bytes → Bytes
  uinteger : UInt64 → Bytes
  integer : Int64 → Bytes
  bool : Bool → Bytes

namespace Writer

/-- The bytes of a write. -/
def bytes (w : Writer) : Token → Bytes
  | .map n => w.map n
  | .array n => w.array n
  | .str s => w.str s
  | .uinteger v => w.uinteger v
  | .integer v => w.integer v
  | .bool b => w.bool b

/-- The bytes of a sequence of writes. -/
def encode (w : Writer) (ts : List Token) : Bytes := ts.flatMap w.bytes

@[simp] theorem encode_nil (w : Writer) : w.encode [] = [] := rfl

@[simp] theorem encode_cons (w : Writer) (t : Token) (ts : List Token) :
    w.encode (t :: ts) = w.bytes t ++ w.encode ts := rfl

@[simp] theorem encode_append (w : Writer) (ts us : List Token) :
    w.encode (ts ++ us) = w.encode ts ++ w.encode us := List.flatMap_append

/-- The writer emits standard MessagePack: a decoder reads back each write. -/
def Standard (w : Writer) : Prop :=
  ∀ t rest, t.Fits → decodeItem (w.bytes t ++ rest) = some (t.item, rest)

variable {w : Writer}

/-- No write is empty. -/
theorem Standard.bytes_ne_nil (hw : w.Standard) {t : Token} (ht : t.Fits) : w.bytes t ≠ [] := by
  intro h
  have hd := hw t [] ht
  rw [h] at hd
  exact absurd hd (by simp [decodeItem])

/-- The first write of a stream is determined, and so is what follows it. -/
theorem Standard.bytes_append_inj (hw : w.Standard) {t u : Token} {r s : Bytes}
    (ht : t.Fits) (hu : u.Fits) (h : w.bytes t ++ r = w.bytes u ++ s) :
    t.item = u.item ∧ r = s := by
  have h1 := hw t r ht
  rw [h, hw u s hu] at h1
  simp only [Option.some.injEq, Prod.mk.injEq] at h1
  exact ⟨h1.1.symm, h1.2.symm⟩

/-- Two sequences of writes with the same bytes say the same, item by item. -/
theorem Standard.items_of_encode (hw : w.Standard) :
    ∀ {ts us : List Token}, (∀ t ∈ ts, t.Fits) → (∀ u ∈ us, u.Fits) →
      w.encode ts = w.encode us → ts.map Token.item = us.map Token.item
  | [], [], _, _, _ => rfl
  | [], u :: us, _, hu, h => by
    have hne := hw.bytes_ne_nil (hu u (by simp))
    simp only [encode_nil, encode_cons] at h
    exact absurd (List.append_eq_nil_iff.mp h.symm).1 hne
  | t :: ts, [], ht, _, h => by
    have hne := hw.bytes_ne_nil (ht t (by simp))
    simp only [encode_nil, encode_cons] at h
    exact absurd (List.append_eq_nil_iff.mp h).1 hne
  | t :: ts, u :: us, ht, hu, h => by
    obtain ⟨hi, hr⟩ := hw.bytes_append_inj (ht t (by simp)) (hu u (by simp)) h
    have := hw.items_of_encode (fun x hx => ht x (by simp [hx]))
      (fun x hx => hu x (by simp [hx])) hr
    simp only [List.map_cons, hi, this]

end Writer

end Lib.Msgpack

/-
# The MessagePack writer with the shortest forms

The writer that a MessagePack library is: each item in the shortest form the format has for it.
It emits standard MessagePack (`shortest_standard`), so what is proved for any standard writer
is not about nothing.
-/
import Hyperliquid.Lib.Msgpack

namespace Lib.Msgpack

/-! ## 1. Big-endian numbers -/

/-- The `k` low bytes of a number, big-endian. -/
def beBytes : Nat → Nat → Bytes
  | 0, _ => []
  | k + 1, n => beBytes k (n / 256) ++ [UInt8.ofNat n]

theorem length_beBytes (k n : Nat) : (beBytes k n).length = k := by
  induction k generalizing n with
  | zero => rfl
  | succ k ih => rw [beBytes, List.length_append, ih, List.length_singleton]

theorem beNat_beBytes {k n : Nat} (h : n < 256 ^ k) : beNat (beBytes k n) = n := by
  induction k generalizing n with
  | zero =>
    have hn : n = 0 := by simpa using h
    rw [hn]
    rfl
  | succ k ih =>
    have hdiv : n / 256 < 256 ^ k := by
      rw [Nat.div_lt_iff_lt_mul (by decide), ← Nat.pow_succ]
      exact h
    have hstep : beNat (beBytes (k + 1) n) = 256 * beNat (beBytes k (n / 256)) + n % 256 := by
      simp [beBytes, beNat]
    rw [hstep, ih hdiv]
    omega

theorem takeBytes_append (bs rest : Bytes) :
    takeBytes bs.length (bs ++ rest) = some (bs, rest) := by
  simp [takeBytes]

/-- A number that was written is read back. -/
theorem takeNat_beBytes {k n : Nat} (h : n < 256 ^ k) (rest : Bytes) :
    takeNat k (beBytes k n ++ rest) = some (n, rest) := by
  have htake := takeBytes_append (beBytes k n) rest
  rw [length_beBytes] at htake
  rw [takeNat, htake, Option.map_some, beNat_beBytes h]

theorem takeItem_beBytes {k n : Nat} (h : n < 256 ^ k) (f : Nat → Item) (rest : Bytes) :
    takeItem k f (beBytes k n ++ rest) = some (f n, rest) := by
  rw [takeItem, takeNat_beBytes h, Option.map_some]

theorem takeLenStr_beBytes {k : Nat} {s : Bytes} (h : s.length < 256 ^ k) (rest : Bytes) :
    takeLenStr k (beBytes k s.length ++ (s ++ rest)) = some (.str s, rest) := by
  unfold takeLenStr
  rw [takeNat_beBytes h]
  show takeStr s.length (s ++ rest) = _
  rw [takeStr, takeBytes_append, Option.map_some]

/-- A two's complement number of `k` bytes. -/
theorem signed_of_neg {k : Nat} {i : Int} (hk : 0 < k)
    (hlow : -(2 ^ (8 * k - 1) : Int) ≤ i) (_ : i < 0) : signed k (i + 2 ^ (8 * k)).toNat = i := by
  have hpow : (2 ^ (8 * k) : Int) = 2 * 2 ^ (8 * k - 1) := by
    rw [← pow_succ']
    congr 1
    omega
  have hnonneg : 0 ≤ i + 2 ^ (8 * k) := by
    have hpos : (0 : Int) < 2 ^ (8 * k - 1) := Int.pow_pos (by decide)
    omega
  have hge : ¬ (i + 2 ^ (8 * k)).toNat < 2 ^ (8 * k - 1) := by
    intro hlt
    have hlt' : i + 2 ^ (8 * k) < 2 ^ (8 * k - 1) := by
      have := (Int.toNat_lt hnonneg).mp hlt
      exact_mod_cast this
    omega
  unfold signed
  rw [if_neg hge, Int.toNat_of_nonneg hnonneg]
  omega

/-- A negative number that was written is read back. -/
theorem takeItem_signed {k : Nat} {i m : Int} (hk : 0 < k) (hm : m = 2 ^ (8 * k)) (hneg : i < 0)
    (hlow : -(2 ^ (8 * k - 1) : Int) ≤ i) (rest : Bytes) :
    takeItem k (fun v => .int (signed k v)) (beBytes k (i + m).toNat ++ rest) =
      some (.int i, rest) := by
  have hpow : (256 ^ k : Nat) = 2 ^ (8 * k) := by rw [Nat.pow_mul]
  have hlt : (i + m).toNat < 256 ^ k := by
    rw [hpow]
    have hcast : ((2 ^ (8 * k) : Nat) : Int) = 2 ^ (8 * k) := by push_cast; rfl
    have hpos : 0 < 2 ^ (8 * k) := Nat.pow_pos (by decide)
    omega
  rw [takeItem_beBytes hlt, hm, signed_of_neg hk hlow hneg]

/-! ## 2. The writer -/

def writeUinteger (n : Nat) : Bytes :=
  if n < 0x80 then [UInt8.ofNat n]
  else if n < 0x100 then 0xcc :: beBytes 1 n
  else if n < 0x10000 then 0xcd :: beBytes 2 n
  else if n < 0x100000000 then 0xce :: beBytes 4 n
  else 0xcf :: beBytes 8 n

def writeInteger (i : Int) : Bytes :=
  if 0 ≤ i then writeUinteger i.toNat
  else if -0x20 ≤ i then [UInt8.ofNat (i + 0x100).toNat]
  else if -0x80 ≤ i then 0xd0 :: beBytes 1 (i + 0x100).toNat
  else if -0x8000 ≤ i then 0xd1 :: beBytes 2 (i + 0x10000).toNat
  else if -0x80000000 ≤ i then 0xd2 :: beBytes 4 (i + 0x100000000).toNat
  else 0xd3 :: beBytes 8 (i + 0x10000000000000000).toNat

def writeStr (s : Bytes) : Bytes :=
  (if s.length < 0x20 then [UInt8.ofNat (0xa0 + s.length)]
  else if s.length < 0x100 then 0xd9 :: beBytes 1 s.length
  else if s.length < 0x10000 then 0xda :: beBytes 2 s.length
  else 0xdb :: beBytes 4 s.length) ++ s

def writeArray (n : Nat) : Bytes :=
  if n < 0x10 then [UInt8.ofNat (0x90 + n)]
  else if n < 0x10000 then 0xdc :: beBytes 2 n
  else 0xdd :: beBytes 4 n

def writeMap (n : Nat) : Bytes :=
  if n < 0x10 then [UInt8.ofNat (0x80 + n)]
  else if n < 0x10000 then 0xde :: beBytes 2 n
  else 0xdf :: beBytes 4 n

/-- Every item in its shortest form. -/
def shortest : Writer where
  map n := writeMap n.toNat
  array n := writeArray n.toNat
  str := writeStr
  uinteger v := writeUinteger v.toNat
  integer v := writeInteger v.toInt
  bool b := if b then [0xc3] else [0xc2]

/-! ## 3. It emits standard MessagePack -/

theorem decode_writeUinteger {n : Nat} (h : n < 2 ^ 64) (rest : Bytes) :
    decodeItem (writeUinteger n ++ rest) = some (.int n, rest) := by
  unfold writeUinteger
  split
  · rename_i hn
    have hnat : (UInt8.ofNat n).toNat = n := UInt8.toNat_ofNat_of_lt' (show _ < 256 by omega)
    simp [decodeItem, hnat, hn]
  · split
    · exact takeItem_beBytes (k := 1) (by omega) (fun v => .int v) rest
    · split
      · exact takeItem_beBytes (k := 2) (by omega) (fun v => .int v) rest
      · split
        · exact takeItem_beBytes (k := 4) (by omega) (fun v => .int v) rest
        · exact takeItem_beBytes (k := 8) (by omega) (fun v => .int v) rest

theorem decode_writeInteger {i : Int} (hlow : -2 ^ 63 ≤ i) (hhigh : i < 2 ^ 63)
    (rest : Bytes) : decodeItem (writeInteger i ++ rest) = some (.int i, rest) := by
  unfold writeInteger
  split
  · rename_i hi
    have hu := decode_writeUinteger (n := i.toNat) (by omega) rest
    rwa [Int.toNat_of_nonneg hi] at hu
  · rename_i hneg
    split
    · rename_i hi
      have hnat : (UInt8.ofNat (i + 0x100).toNat).toNat = (i + 0x100).toNat :=
        UInt8.toNat_ofNat_of_lt' (show _ < 256 by omega)
      have hge : 0xe0 ≤ (i + 0x100).toNat := by omega
      have hval : ((i + 0x100).toNat : Int) - 256 = i := by omega
      simp only [List.singleton_append, decodeItem, hnat]
      repeat rw [if_neg (by omega)]
      rw [if_pos hge, hval]
    · split
      · exact takeItem_signed (k := 1) (by decide) rfl (by omega) (by omega) rest
      · split
        · exact takeItem_signed (k := 2) (by decide) rfl (by omega) (by omega) rest
        · split
          · exact takeItem_signed (k := 4) (by decide) rfl (by omega) (by omega) rest
          · exact takeItem_signed (k := 8) (by decide) rfl (by omega) (by omega) rest

theorem decode_writeStr {s : Bytes} (h : s.length < 2 ^ 32) (rest : Bytes) :
    decodeItem (writeStr s ++ rest) = some (.str s, rest) := by
  unfold writeStr
  rw [List.append_assoc]
  split
  · rename_i hs
    have hnat : (UInt8.ofNat (0xa0 + s.length)).toNat = 0xa0 + s.length :=
      UInt8.toNat_ofNat_of_lt' (show _ < 256 by omega)
    simp only [List.singleton_append, decodeItem, hnat]
    rw [if_neg (by omega), if_neg (by omega), if_neg (by omega), if_pos (by omega),
      Nat.add_sub_cancel_left, takeStr, takeBytes_append, Option.map_some]
  · split
    · exact takeLenStr_beBytes (k := 1) (by omega) rest
    · split
      · exact takeLenStr_beBytes (k := 2) (by omega) rest
      · exact takeLenStr_beBytes (k := 4) (by omega) rest

theorem decode_writeArray {n : Nat} (h : n < 2 ^ 32) (rest : Bytes) :
    decodeItem (writeArray n ++ rest) = some (.array n, rest) := by
  unfold writeArray
  split
  · have hnat : (UInt8.ofNat (0x90 + n)).toNat = 0x90 + n :=
      UInt8.toNat_ofNat_of_lt' (show _ < 256 by omega)
    simp only [List.singleton_append, decodeItem, hnat]
    rw [if_neg (by omega), if_neg (by omega), if_pos (by omega), Nat.add_sub_cancel_left]
  · split
    · exact takeItem_beBytes (k := 2) (by omega) _ rest
    · exact takeItem_beBytes (k := 4) (by omega) _ rest

theorem decode_writeMap {n : Nat} (h : n < 2 ^ 32) (rest : Bytes) :
    decodeItem (writeMap n ++ rest) = some (.map n, rest) := by
  unfold writeMap
  split
  · have hnat : (UInt8.ofNat (0x80 + n)).toNat = 0x80 + n :=
      UInt8.toNat_ofNat_of_lt' (show _ < 256 by omega)
    simp only [List.singleton_append, decodeItem, hnat]
    rw [if_neg (by omega), if_pos (by omega), Nat.add_sub_cancel_left]
  · split
    · exact takeItem_beBytes (k := 2) (by omega) _ rest
    · exact takeItem_beBytes (k := 4) (by omega) _ rest

theorem shortest_standard : shortest.Standard := by
  intro t rest ht
  cases t with
  | map n => exact decode_writeMap n.toNat_lt rest
  | array n => exact decode_writeArray n.toNat_lt rest
  | str s => exact decode_writeStr ht rest
  | uinteger v => exact decode_writeUinteger v.toNat_lt rest
  | integer v =>
    exact decode_writeInteger v.le_toInt v.toInt_lt rest
  | bool b => cases b <;> rfl

end Lib.Msgpack

/-
# EIP-712 typed data

A structure is described by its type string, `Name(type name,type name,...)`, and a value of it
gives a value for the name of each member.  The encoder reads the members off the type string,
in the declared order, and encodes each value as its type says; the structure is hashed as the
hash of the type string followed by the words of its members.

This is the encoder of the standard, for members that are not structures or arrays, and it knows
nothing about any particular structure.  A structure that is hashed field by field is conformant
if its fields have the words of its members (`hashStruct_eq`).
-/
import Hyperliquid.Lib.StructHash
import Hyperliquid.Lib.Decimal
import Hyperliquid.Lib.MsgpackShortest

namespace Lib.TypedData

open Msgpack (beBytes beNat length_beBytes)

/-! ## 1. Type strings -/

inductive MemberType where
  | string
  | address
  | uint (bits : Nat)
  | bytes (length : Nat)
deriving DecidableEq

def parseMemberType (s : Bytes) : Option MemberType :=
  if s = text "string" then some .string
  else if s = text "address" then some .address
  else if s.take 4 = text "uint" then
    let bits := readDecimal (s.drop 4)
    if 8 ∣ bits ∧ 0 < bits ∧ bits ≤ 256 then some (.uint bits) else none
  else if s.take 5 = text "bytes" then
    let length := readDecimal (s.drop 5)
    if 0 < length ∧ length ≤ 32 then some (.bytes length) else none
  else none

/-- A member: its name and its type. -/
abbrev Member := Bytes × MemberType

/-- `type name`. -/
def parseMember (s : Bytes) : Option Member :=
  let type := s.takeWhile (· != 0x20)
  (parseMemberType type).map fun t => (s.drop (type.length + 1), t)

/-- The members of `Name(type name,type name,...)`. -/
def parseMembers (s : Bytes) : Option (List Member) :=
  let body := s.drop ((s.takeWhile (· != 0x28)).length + 1)
  if body.getLast? = some 0x29 then (body.dropLast.splitOn 0x2c).mapM parseMember else none

/-! ## 2. The encoder -/

inductive Value where
  | string (s : Bytes)
  | address (a : Vector UInt8 20)
  | uint (n : Nat)
  | bytes (b : Bytes)

/-- A value for the name of each member. -/
abbrev Data := List (Bytes × Value)

section

variable (K : Bytes → Digest)

/-- The 32-byte word of a value: the hash of a string; a number of 256 bits, which an address
is too; bytes, padded on the right. -/
def encodeValue : MemberType → Value → Option Bytes
  | .string, .string s => some (K s).toList
  | .address, .address a => some (beBytes 32 (beNat a.toList))
  | .uint bits, .uint n => if n < 2 ^ bits then some (beBytes 32 n) else none
  | .bytes length, .bytes b =>
    if b.length = length then some (b ++ List.replicate (32 - length) 0) else none
  | _, _ => none

def encodeMember (data : Data) (m : Member) : Option Bytes :=
  (data.lookup m.1).bind (encodeValue K m.2)

/-- `hashStruct` of the standard. -/
def hashStruct (type : Bytes) (data : Data) : Option Digest := do
  let members ← parseMembers type
  let words ← members.mapM (encodeMember K data)
  some (K ((K type).toList ++ words.flatten))

/-- The digest to sign, for the hash of a domain and the hash of a message. -/
def digest (domain message : Digest) : Digest :=
  K ([0x19, 0x01] ++ domain.toList ++ message.toList)

end

/-! ## 3. Structures hashed field by field -/

section

variable {K : Bytes → Digest}

theorem beBytes_zero (k : Nat) : beBytes k 0 = List.replicate k 0 := by
  induction k with
  | zero => rfl
  | succ k ih =>
    rw [List.replicate_succ']
    exact congrArg (· ++ [0]) ih

/-- Padded on the left, the bytes are a larger number's. -/
theorem beBytes_beNat (k : Nat) (bs : Bytes) :
    beBytes (k + bs.length) (beNat bs) = List.replicate k 0 ++ bs := by
  induction bs using List.reverseRecOn with
  | nil =>
    rw [List.append_nil]
    exact beBytes_zero k
  | append_singleton bs b ih =>
    have hnat : beNat (bs ++ [b]) = 256 * beNat bs + b.toNat := by
      simp [beNat]
    have hdiv : (256 * beNat bs + b.toNat) / 256 = beNat bs := by
      have := b.toNat_lt
      omega
    have hlow : UInt8.ofNat (256 * beNat bs + b.toNat) = b := by
      apply UInt8.toNat_inj.mp
      have := b.toNat_lt
      rw [UInt8.toNat_ofNat']
      omega
    rw [List.length_append, List.length_singleton, ← Nat.add_assoc, beBytes, hnat, hdiv, hlow, ih,
      List.append_assoc]

/-- A value of a fixed size is padded on the left. -/
theorem word_val {bs : Bytes} (h : bs.length ≤ 32) :
    (Field.val bs).word K = beBytes 32 (beNat bs) := by
  have hpad := beBytes_beNat (32 - bs.length) bs
  rw [Nat.sub_add_cancel h] at hpad
  exact hpad.symm

theorem encodeValue_string (s : Bytes) :
    encodeValue K .string (.string s) = some ((Field.dyn s).word K) := rfl

theorem encodeValue_address (a : Vector UInt8 20) :
    encodeValue K .address (.address a) = some ((Field.val a.toList).word K) := by
  rw [word_val (a.length_toList.trans_le (by decide))]
  rfl

/-- A number of `8 * k` bits, from its `k` bytes. -/
theorem encodeValue_uint {bits k n : Nat} (hbits : n < 2 ^ bits) (hk : n < 256 ^ k) (hle : k ≤ 32) :
    encodeValue K (.uint bits) (.uint n) = some ((Field.val (beBytes k n)).word K) := by
  have hlen : (beBytes k n).length ≤ 32 := (length_beBytes k n).trans_le hle
  rw [word_val hlen, Msgpack.beNat_beBytes hk]
  exact if_pos hbits

theorem encodeValue_bytes32 (b : Vector UInt8 32) :
    encodeValue K (.bytes 32) (.bytes b.toList) = some ((Field.val b.toList).word K) := by
  have hlen : b.toList.length = 32 := b.length_toList
  have hword : (Field.val b.toList).word K = b.toList := by
    simp [Field.word]
  rw [hword]
  show (if b.toList.length = 32 then some (b.toList ++ List.replicate (32 - 32) 0) else none) = _
  rw [if_pos hlen, Nat.sub_self, List.replicate_zero, List.append_nil]

theorem encodeMember_eq {data : Data} {name : Bytes} {type : MemberType} {v : Value} {f : Field}
    (hlookup : data.lookup name = some v) (hv : encodeValue K type v = some (f.word K)) :
    encodeMember K data (name, type) = some (f.word K) := by
  unfold encodeMember
  rw [hlookup]
  exact hv

/-- Fields with the words of the members, in the declared order. -/
theorem hashStruct_eq {type : Bytes} {members : List Member} {data : Data} {fs : List Field}
    (hparse : parseMembers type = some members)
    (hfields : List.Forall₂ (fun m f => encodeMember K data m = some (f.word K)) members fs) :
    hashStruct K type data = some (Lib.hashStruct K (.dyn type :: fs)) := by
  have hwords : members.mapM (encodeMember K data) = some (fs.map (Field.word K)) := by
    clear hparse
    induction hfields with
    | nil => rfl
    | @cons m f ms fs hm _ ih => simp [List.mapM_cons, hm, ih]
  simp only [hashStruct, hparse, hwords, Option.bind_eq_bind, Option.bind_some]
  rfl

end

end Lib.TypedData

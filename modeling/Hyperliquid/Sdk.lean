/-
# What the application takes from the SDK

The application is compiled against an SDK and a MessagePack library that are not part of its
repository.  They enter the model as a parameter: the structure `Sdk` has one field for each
function the application calls, with the type of its documented contract (a string that was
read fits its buffer with its NUL, a buffer has the length that was asked for).  Every result
holds for all values of the parameter; what a result needs beyond the types is a hypothesis
of its own, named where it is used.

A primitive can also fail, at any call.  The failures, and the answers of the operations that
involve a key, are part of the input of each command (`Env`).
-/
import Hyperliquid.Types
import Hyperliquid.Lib.Tlv
import Hyperliquid.Lib.Fallible
import Hyperliquid.Lib.Msgpack

namespace Hyperliquid

open Lib

/-! ## 1. The SDK -/

structure Sdk where
  /-- `lib_tlv`: the elements of a payload, or nothing if it is malformed. -/
  tlvDecode : Bytes → Option (List TlvData)
  getUint8TFromTlvData : TlvData → Option UInt8
  getUint32TFromTlvData : TlvData → Option UInt32
  getUint64TFromTlvData : TlvData → Option UInt64
  getBoolFromTlvData : TlvData → Option Bool
  /-- With the minimum length, for a buffer of `cap + 1` bytes. -/
  getStringFromTlvData : TlvData → (minLength cap : Nat) → Option (CString cap)
  getBufferFromTlvData : TlvData → (minLength maxLength : Nat) →
    Option { b : Bytes // minLength ≤ b.length ∧ b.length ≤ maxLength }
  /-- `bip32_path_read`: the array it fills, zeroed beyond the path. -/
  bip32PathRead : Bytes → UInt8 → Option (Vector UInt32 maxBip32Path)
  /-- `format_u64` and `format_fpu64_trimmed`, into a buffer of `cap + 1` bytes. -/
  formatU64 : (cap : Nat) → UInt64 → CString cap
  formatFpu64Trimmed : (cap : Nat) → UInt64 → (decimals : Nat) → CString cap
  keccak256 : Bytes → Hash
  sha256 : Bytes → Hash
  /-- The `cmp_write_*` functions. -/
  cmp : Msgpack.Writer
  /-- Is `SCREEN_SIZE_WALLET` defined for the target? -/
  screenSizeWallet : Bool

/-- `memcpy` of a buffer of exactly `ADDRESS_LENGTH` bytes. -/
def addressOfBuffer
    (b : { b : Bytes // addressLength ≤ b.length ∧ b.length ≤ addressLength }) : Address :=
  ⟨b.1.toArray, Nat.le_antisymm b.2.2 b.2.1⟩

/-! ## 2. `bytes_to_lowercase_hex`, as `unit-tests/stubs/os_utils_stubs.c` copies it -/

/-- The characters `hex` of the source. -/
def hexChars : Bytes := text "0123456789abcdef"

theorem hexChars_eq :
    hexChars = [48, 49, 50, 51, 52, 53, 54, 55, 56, 57, 97, 98, 99, 100, 101, 102] := by decide

/-- A hexadecimal digit. -/
def hexDigit (n : Nat) : UInt8 := hexChars.getD n 0

/-- The two digits of a byte. -/
def hexByte (b : UInt8) : Bytes := [hexDigit (b.toNat / 16), hexDigit (b.toNat % 16)]

/-- The digits of a byte string. -/
def lowercaseHex (value : Bytes) : Bytes := value.flatMap hexByte

theorem length_lowercaseHex (value : Bytes) : (lowercaseHex value).length = 2 * value.length := by
  induction value with
  | nil => rfl
  | cons b bs ih =>
    show (hexByte b ++ lowercaseHex bs).length = _
    simp only [List.length_append, ih, hexByte, List.length_cons, List.length_nil]
    omega

/-- The sixteen digits differ. -/
theorem hexDigit_inj : ∀ m n : Fin 16, hexDigit m = hexDigit n → m = n := by
  simp only [hexDigit, hexChars_eq]
  decide

theorem hexByte_inj {b c : UInt8} (h : hexByte b = hexByte c) : b = c := by
  have hb : b.toNat < 256 := b.toNat_lt
  have hc : c.toNat < 256 := c.toNat_lt
  simp only [hexByte, List.cons.injEq, and_true] at h
  have hhi := hexDigit_inj ⟨b.toNat / 16, by omega⟩ ⟨c.toNat / 16, by omega⟩ h.1
  have hlo := hexDigit_inj ⟨b.toNat % 16, by omega⟩ ⟨c.toNat % 16, by omega⟩ h.2
  simp only [Fin.mk.injEq] at hhi hlo
  exact UInt8.toNat_inj.mp (by omega)

/-- The digits determine the bytes. -/
theorem lowercaseHex_inj : ∀ {v w : Bytes}, lowercaseHex v = lowercaseHex w → v = w
  | [], [], _ => rfl
  | [], _ :: _, h => by simp [lowercaseHex, hexByte] at h
  | _ :: _, [], h => by simp [lowercaseHex, hexByte] at h
  | b :: v, c :: w, h => by
    have h' : hexByte b ++ lowercaseHex v = hexByte c ++ lowercaseHex w := h
    obtain ⟨hb, hv⟩ := List.append_inj h' rfl
    rw [hexByte_inj hb, lowercaseHex_inj hv]

/-- Fails when the buffer is too small for the digits and the NUL. -/
def bytesToLowercaseHex (outl : Nat) (value : Bytes) : Option (CString (outl - 1)) :=
  if h : outl < 2 * value.length + 1 then none
  else some ⟨lowercaseHex value, by rw [length_lowercaseHex]; omega⟩

/-! ## 3. The answers of one command's surroundings -/

/-- `bip32_derive_ecdsa_sign_rs_hash_256` on success. -/
structure EcdsaSignature where
  r : Vector UInt8 32
  s : Vector UInt8 32
  parityOdd : Bool
  xGTn : Bool
deriving DecidableEq

/-- How the primitives answer while one command runs. -/
structure Env where
  /-- Whether the successive hash calls succeed (an exhausted list: they fail). -/
  cx : List Bool := []
  /-- `bip32_derive_get_pubkey_256`. -/
  pubkey : Option (Vector UInt8 65) := none
  /-- `bip32_derive_ecdsa_sign_rs_hash_256`. -/
  ecdsa : Option EcdsaSignature := none
  /-- `check_signature_with_pki` reports success for this digest and this signature. -/
  pki : Hash → Bytes → Bool := fun _ _ => false
  /-- What `io_send_sw` and `io_send_response_pointer` return. -/
  send : Int := 0

/-! ## 4. Calling the crypto primitives -/

/-- A call whose arguments matter to an observer: a byte string that was hashed, and a digest
handed to the signing primitive. -/
inductive CxCall where
  | keccak (preimage : Bytes)
  | ecdsaSign (path : Vector UInt32 maxBip32Path) (length : UInt8) (digest : Hash)
deriving DecidableEq

/-- What a command still has to draw from its surroundings, the serialization buffer
`g_raw_buf`, and the calls made so far. -/
structure CxState where
  outcomes : List Bool
  pubkey : Option (Vector UInt8 65)
  ecdsa : Option EcdsaSignature
  rawBuf : Bytes
  calls : List CxCall
deriving DecidableEq

/-- A computation that calls crypto primitives. -/
abbrev Cx := Fallible CxState

/-- The state a command starts from. -/
def Env.cxState (env : Env) (rawBuf : Bytes) : CxState :=
  { outcomes := env.cx, pubkey := env.pubkey, ecdsa := env.ecdsa, rawBuf := rawBuf, calls := [] }

/-- The next hash call: does it return `CX_OK`? -/
def cxOk : Cx Unit := do
  let s ← get
  match s.outcomes with
  | true :: rest => set { s with outcomes := rest }
  | _ => failure

/-- Notes a call. -/
def noteCall (c : CxCall) : Cx Unit := modify fun s => { s with calls := s.calls ++ [c] }

/-- `cx_keccak_init_no_throw`: an empty hash context. -/
def cxKeccakInitNoThrow : Cx Bytes := do
  cxOk
  pure []

/-- `cx_hash_update`: the context holds what was fed to it. -/
def cxHashUpdate (hashCtx data : Bytes) : Cx Bytes := do
  cxOk
  pure (hashCtx ++ data)

/-- `cx_hash_final` of a Keccak context. -/
def cxHashFinal (sdk : Sdk) (hashCtx : Bytes) : Cx Hash := do
  cxOk
  noteCall (.keccak hashCtx)
  pure (sdk.keccak256 hashCtx)

/-- `cx_keccak_256_hash`. -/
def cxKeccak256Hash (sdk : Sdk) (data : Bytes) : Cx Hash := do
  cxOk
  noteCall (.keccak data)
  pure (sdk.keccak256 data)

/-- `bip32_derive_get_pubkey_256`. -/
def bip32DeriveGetPubkey256 : Cx (Vector UInt8 65) := do
  let s ← get
  match s.pubkey with
  | some pk => pure pk
  | none => failure

/-- `bip32_derive_ecdsa_sign_rs_hash_256`. -/
def bip32DeriveEcdsaSignRsHash256 (path : Vector UInt32 maxBip32Path) (length : UInt8)
    (digest : Hash) : Cx EcdsaSignature := do
  noteCall (.ecdsaSign path length digest)
  let s ← get
  match s.ecdsa with
  | some sig => pure sig
  | none => failure

/-! ## 5. What the primitives record -/

/-- The calls of a computation, as a record. -/
def cxCalls : Fallible.Recorder CxState CxCall := ⟨fun _ => True, CxState.calls⟩

theorem records_cxOk : Fallible.Records cxCalls cxOk () [] := by
  intro s a s' _ h
  unfold cxOk at h
  obtain ⟨t, s₁, h1, h2⟩ := Fallible.exec_bind_some.mp h
  cases h1
  split at h2
  · cases h2
    exact ⟨trivial, rfl, (List.append_nil _).symm⟩
  · cases h2

theorem records_noteCall (c : CxCall) : Fallible.Records cxCalls (noteCall c) () [c] := by
  intro s a s' _ h
  cases h
  exact ⟨trivial, rfl, rfl⟩

theorem records_cxKeccakInitNoThrow :
    Fallible.Records cxCalls cxKeccakInitNoThrow [] [] :=
  records_cxOk.bind (Fallible.records_pure _)

theorem records_cxHashUpdate (hashCtx data : Bytes) :
    Fallible.Records cxCalls (cxHashUpdate hashCtx data) (hashCtx ++ data) [] :=
  records_cxOk.bind (Fallible.records_pure _)

theorem records_cxHashFinal (sdk : Sdk) (hashCtx : Bytes) :
    Fallible.Records cxCalls (cxHashFinal sdk hashCtx) (sdk.keccak256 hashCtx)
      [.keccak hashCtx] :=
  records_cxOk.bind ((records_noteCall _).bind (Fallible.records_pure _))

theorem records_cxKeccak256Hash (sdk : Sdk) (data : Bytes) :
    Fallible.Records cxCalls (cxKeccak256Hash sdk data) (sdk.keccak256 data) [.keccak data] :=
  records_cxOk.bind ((records_noteCall _).bind (Fallible.records_pure _))

/-! ## 6. What the primitives depend on -/

/-- Two states that differ in the serialization buffer alone.  All calls so far satisfy `P`. -/
structure SameButRawBuf (P : CxCall → Prop) (s t : CxState) : Prop where
  outcomes : s.outcomes = t.outcomes
  pubkey : s.pubkey = t.pubkey
  ecdsa : s.ecdsa = t.ecdsa
  calls : s.calls = t.calls
  all : ∀ c ∈ s.calls, P c

section

open Fallible (Respects respects_pure)

variable {P : CxCall → Prop}

theorem sameButRawBuf_start (env : Env) (rawBuf rawBuf' : Bytes) :
    SameButRawBuf P (env.cxState rawBuf) (env.cxState rawBuf') :=
  ⟨rfl, rfl, rfl, rfl, fun _ hc => absurd hc List.not_mem_nil⟩

theorem respects_cxOk : Respects (SameButRawBuf P) cxOk := by
  intro s t h
  unfold cxOk
  rw [Fallible.exec_get_bind, Fallible.exec_get_bind, h.outcomes]
  split
  · exact ⟨rfl, rfl, h.pubkey, h.ecdsa, h.calls, h.all⟩
  · exact ⟨rfl, h⟩

theorem respects_noteCall {c : CxCall} (hc : P c) : Respects (SameButRawBuf P) (noteCall c) := by
  intro s t h
  refine ⟨rfl, h.outcomes, h.pubkey, h.ecdsa, congrArg (· ++ [c]) h.calls, ?_⟩
  intro c' hc'
  rcases List.mem_append.mp hc' with hc' | hc'
  · exact h.all c' hc'
  · rw [List.mem_singleton.mp hc']
    exact hc

theorem respects_cxKeccakInitNoThrow : Respects (SameButRawBuf P) cxKeccakInitNoThrow :=
  respects_cxOk.bind fun _ => respects_pure _

theorem respects_cxHashUpdate (hashCtx data : Bytes) :
    Respects (SameButRawBuf P) (cxHashUpdate hashCtx data) :=
  respects_cxOk.bind fun _ => respects_pure _

variable (hP : ∀ message, P (.keccak message))

include hP

theorem respects_cxHashFinal (sdk : Sdk) (hashCtx : Bytes) :
    Respects (SameButRawBuf P) (cxHashFinal sdk hashCtx) :=
  respects_cxOk.bind fun _ => (respects_noteCall (hP _)).bind fun _ => respects_pure _

theorem respects_cxKeccak256Hash (sdk : Sdk) (data : Bytes) :
    Respects (SameButRawBuf P) (cxKeccak256Hash sdk data) :=
  respects_cxOk.bind fun _ => (respects_noteCall (hP _)).bind fun _ => respects_pure _

end

theorem respects_bip32DeriveGetPubkey256 {P : CxCall → Prop} :
    Fallible.Respects (SameButRawBuf P) bip32DeriveGetPubkey256 := by
  intro s t h
  unfold bip32DeriveGetPubkey256
  rw [Fallible.exec_get_bind, Fallible.exec_get_bind, h.pubkey]
  split
  · exact ⟨rfl, h⟩
  · exact ⟨rfl, h⟩

theorem respects_bip32DeriveEcdsaSignRsHash256 {P : CxCall → Prop}
    {path : Vector UInt32 maxBip32Path} {length : UInt8} {digest : Hash}
    (hP : P (.ecdsaSign path length digest)) :
    Fallible.Respects (SameButRawBuf P) (bip32DeriveEcdsaSignRsHash256 path length digest) := by
  refine (respects_noteCall hP).bind fun _ => ?_
  intro s t h
  rw [Fallible.exec_get_bind, Fallible.exec_get_bind, h.ecdsa]
  split
  · exact ⟨rfl, h⟩
  · exact ⟨rfl, h⟩

end Hyperliquid

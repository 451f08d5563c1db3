/-
# EIP-712 hashes (`eip712_common.c` and the three `eip712_*_hash` modules)

An EIP-712 structure is hashed word by word into a running Keccak context.  The domain and the
three kinds of message are each a list of fields (`hashFields`), and each source function is
that list.  A signature is over the hash of `0x19 0x01`, the domain hash and the message hash;
`eip712_sign` is split here after that hash, which is the digest that is signed.

What a successful computation returns and which messages it hashed is given by the hash of
structures of the library (`hashFields_records`).
-/
import Hyperliquid.Sdk
import Hyperliquid.Lib.StructHash

namespace Hyperliquid

open Lib

/-! ## 1. eip712_common.c -/

/-- `EIP_712_MAGIC`. -/
def eip712Magic : Bytes := [0x19, 0x01]

/-- `write_u64_be`. -/
def writeU64Be (value : UInt64) : Bytes :=
  [(value >>> 56).toUInt8, (value >>> 48).toUInt8, (value >>> 40).toUInt8,
   (value >>> 32).toUInt8, (value >>> 24).toUInt8, (value >>> 16).toUInt8,
   (value >>> 8).toUInt8, value.toUInt8]

/-- The hashes of `s_eip712_ctx`. -/
structure Eip712Hashes where
  domainHash : Hash
  messageHash : Hash
deriving DecidableEq

/-- The signature of `s_eip712_ctx`. -/
structure Signature where
  v : UInt8
  r : Vector UInt8 32
  s : Vector UInt8 32
deriving DecidableEq

section

variable (sdk : Sdk)

def eip712HashThenFeed (hashCtx data : Bytes) : Cx Bytes := do
  let tmpHash ← cxKeccak256Hash sdk data
  cxHashUpdate hashCtx tmpHash.toList

def eip712EncodeDynVal (hashCtx data : Bytes) : Cx Bytes := eip712HashThenFeed sdk hashCtx data

def eip712EncodeVal (hashCtx data : Bytes) : Cx Bytes :=
  if data.length > 32 then failure
  else cxHashUpdate hashCtx (List.replicate (32 - data.length) 0 ++ data)

/-- A field, of any length or of at most 32 bytes. -/
def encodeField (hashCtx : Bytes) : Field → Cx Bytes
  | .dyn data => eip712EncodeDynVal sdk hashCtx data
  | .val data => eip712EncodeVal hashCtx data

/-- The fields one after the other. -/
def encodeFields : Bytes → List Field → Cx Bytes
  | hashCtx, [] => pure hashCtx
  | hashCtx, f :: fs => do
    let hashCtx ← encodeField sdk hashCtx f
    encodeFields hashCtx fs

/-- The body that `eip712_compute_domain_hash` and the three `compute_message_hash` share. -/
def hashFields (fs : List Field) : Cx Hash := do
  let hashCtx ← cxKeccakInitNoThrow
  let hashCtx ← encodeFields sdk hashCtx fs
  cxHashFinal sdk hashCtx

/-- The fields of the domain. -/
def domainFields (name version : Bytes) (chainId : UInt64) (verifyingContract : Address) :
    List Field :=
  [.dyn (text
    "EIP712Domain(string name,string version,uint256 chainId,address verifyingContract)"),
   .dyn name, .dyn version, .val (writeU64Be chainId), .val verifyingContract.toList]

def eip712ComputeDomainHash (name version : Bytes) (chainId : UInt64)
    (verifyingContract : Address) : Cx Hash :=
  hashFields sdk (domainFields name version chainId verifyingContract)

/-- The first part of `eip712_sign`: the digest to sign. -/
def eip712SignHash (ctx : Eip712Hashes) : Cx Hash := do
  let hashCtx ← cxKeccakInitNoThrow
  let hashCtx ← cxHashUpdate hashCtx eip712Magic
  let hashCtx ← cxHashUpdate hashCtx ctx.domainHash.toList
  let hashCtx ← cxHashUpdate hashCtx ctx.messageHash.toList
  cxHashFinal sdk hashCtx

def eip712Sign (bip32Path : Vector UInt32 maxBip32Path) (pathLength : UInt8)
    (ctx : Eip712Hashes) : Cx Signature := do
  let hash ← eip712SignHash sdk ctx
  let sig ← bip32DeriveEcdsaSignRsHash256 bip32Path pathLength hash
  pure
    { v := 27 + (if sig.parityOdd then 1 else 0) + (if sig.xGTn then 2 else 0)
      r := sig.r
      s := sig.s }

/-! ## 2. eip712_cid.c, eip712_builder_fee.c, eip712_abstraction.c -/

/-- The three domains have the zero address as verifying contract. -/
def zeroAddress : Address := Vector.replicate addressLength 0

/-- The fields of an `Agent`. -/
def cidFields (source : Bytes) (cid : Hash) : List Field :=
  [.dyn (text "Agent(string source,bytes32 connectionId)"), .dyn source, .val cid.toList]

def eip712CidHash (source : Bytes) (cid : Hash) : Cx Eip712Hashes := do
  let domainHash ← eip712ComputeDomainHash sdk (text "Exchange") (text "1") 1337 zeroAddress
  let messageHash ← hashFields sdk (cidFields source cid)
  pure ⟨domainHash, messageHash⟩

/-- The fields of an `ApproveBuilderFee`. -/
def builderFeeFields (chain maxFeeRate : Bytes) (builder : Address) (nonce : UInt64) :
    List Field :=
  [.dyn (text <|
      "HyperliquidTransaction:ApproveBuilderFee(string hyperliquidChain,string maxFeeRate," ++
      "address builder,uint64 nonce)"),
   .dyn chain, .dyn maxFeeRate, .val builder.toList, .val (writeU64Be nonce)]

def eip712BuilderFeeHash (chainId : UInt64) (chain maxFeeRate : Bytes) (builder : Address)
    (nonce : UInt64) : Cx Eip712Hashes := do
  let domainHash ←
    eip712ComputeDomainHash sdk (text "HyperliquidSignTransaction") (text "1") chainId zeroAddress
  let messageHash ← hashFields sdk (builderFeeFields chain maxFeeRate builder nonce)
  pure ⟨domainHash, messageHash⟩

/-- The fields of a `UserSetAbstraction`. -/
def abstractionFields (chain : Bytes) (user : Address) (abstraction : Bytes) (nonce : UInt64) :
    List Field :=
  [.dyn (text <|
      "HyperliquidTransaction:UserSetAbstraction(string hyperliquidChain,address user," ++
      "string abstraction,uint64 nonce)"),
   .dyn chain, .val user.toList, .dyn abstraction, .val (writeU64Be nonce)]

def eip712AbstractionHash (chainId : UInt64) (chain : Bytes) (user : Address)
    (abstraction : Option Bytes) (nonce : UInt64) : Cx Eip712Hashes :=
  match abstraction with
  | none => failure
  | some abstraction => do
    let domainHash ← eip712ComputeDomainHash sdk (text "HyperliquidSignTransaction") (text "1")
      chainId zeroAddress
    let messageHash ← hashFields sdk (abstractionFields chain user abstraction nonce)
    pure ⟨domainHash, messageHash⟩

end

/-! ## 3. What the computations return and hash -/

open Fallible (Records records_failure records_pure)

/-- The calls that hashed these messages. -/
def keccakCalls (messages : List Bytes) : List CxCall := messages.map .keccak

theorem keccakCalls_append (xs ys : List Bytes) :
    keccakCalls (xs ++ ys) = keccakCalls xs ++ keccakCalls ys := List.map_append

section

variable (sdk : Sdk)

theorem encodeField_records (hashCtx : Bytes) (f : Field) :
    Records cxCalls (encodeField sdk hashCtx f) (hashCtx ++ f.word sdk.keccak256)
      (keccakCalls f.messages) := by
  cases f with
  | dyn data =>
    exact (records_cxKeccak256Hash sdk data).bind (records_cxHashUpdate hashCtx _)
  | val data =>
    show Records cxCalls (eip712EncodeVal hashCtx data) _ _
    unfold eip712EncodeVal
    split
    · exact records_failure _ _
    · exact records_cxHashUpdate hashCtx _

theorem encodeFields_records (fs : List Field) :
    ∀ hashCtx : Bytes,
      Records cxCalls (encodeFields sdk hashCtx fs) (hashCtx ++ structWords sdk.keccak256 fs)
        (keccakCalls (fs.flatMap Field.messages)) := by
  induction fs with
  | nil =>
    intro hashCtx
    exact (List.append_nil hashCtx).symm ▸ records_pure hashCtx
  | cons f fs ih =>
    intro hashCtx
    have h : Records cxCalls (encodeFields sdk hashCtx (f :: fs)) _ _ :=
      Records.bind (encodeField_records sdk hashCtx f) (ih _)
    rw [← keccakCalls_append, List.append_assoc] at h
    exact h

/-- A structure: its hash, after hashing the messages of its fields. -/
theorem hashFields_records (fs : List Field) :
    Records cxCalls (hashFields sdk fs) (hashStruct sdk.keccak256 fs)
      (keccakCalls (structMessages sdk.keccak256 fs)) := by
  have h : Records cxCalls (hashFields sdk fs) _ _ :=
    Records.bind records_cxKeccakInitNoThrow
      (Records.bind (encodeFields_records sdk fs []) (records_cxHashFinal sdk _))
  exact h.congr (by simp [structMessages, keccakCalls])

/-- The message whose hash is signed. -/
def signMessage (ctx : Eip712Hashes) : Bytes :=
  eip712Magic ++ ctx.domainHash.toList ++ ctx.messageHash.toList

theorem eip712SignHash_records (ctx : Eip712Hashes) :
    Records cxCalls (eip712SignHash sdk ctx) (sdk.keccak256 (signMessage ctx))
      (keccakCalls [signMessage ctx]) :=
  records_cxKeccakInitNoThrow.bind ((records_cxHashUpdate [] eip712Magic).bind
    ((records_cxHashUpdate _ _).bind ((records_cxHashUpdate _ _).bind
      (records_cxHashFinal sdk _))))

/-- The messages hashed for a domain hash and a message hash. -/
def hashesMessages (domain message : List Field) : List Bytes :=
  structMessages sdk.keccak256 domain ++ structMessages sdk.keccak256 message

/-- The two hashes of the structures. -/
def hashesOf (domain message : List Field) : Eip712Hashes :=
  ⟨hashStruct sdk.keccak256 domain, hashStruct sdk.keccak256 message⟩

/-- The shape of the three `eip712_*_hash` functions. -/
theorem hashes_records (domain message : List Field) :
    Records cxCalls
      (do
        let domainHash ← hashFields sdk domain
        let messageHash ← hashFields sdk message
        pure (⟨domainHash, messageHash⟩ : Eip712Hashes))
      (hashesOf sdk domain message) (keccakCalls (hashesMessages sdk domain message)) := by
  refine Records.congr (Records.bind (hashFields_records sdk domain)
    (Records.bind (hashFields_records sdk message) (records_pure _))) ?_
  simp [hashesMessages, keccakCalls]

end

theorem length_writeU64Be (v : UInt64) : (writeU64Be v).length = 8 := by
  simp [writeU64Be]

/-- The bytes determine the number. -/
theorem writeU64Be_inj {v w : UInt64} (h : writeU64Be v = writeU64Be w) : v = w := by
  have hv := v.toNat_lt
  have hw := w.toNat_lt
  simp only [writeU64Be, List.cons.injEq, ← UInt8.toNat_inj, UInt64.toNat_toUInt8,
    UInt64.toNat_shiftRight, Nat.shiftRight_eq_div_pow, UInt64.reduceToNat, Nat.reduceMod,
    Nat.reducePow, and_true] at h
  exact UInt64.toNat_inj.mp (by omega)

/-! ## 4. What the computations depend on -/

section

open Fallible (Respects respects_pure respects_failure)

variable (sdk : Sdk) {P : CxCall → Prop} (hP : ∀ message, P (.keccak message))

include hP

theorem encodeField_respects (hashCtx : Bytes) (f : Field) :
    Respects (SameButRawBuf P) (encodeField sdk hashCtx f) := by
  cases f with
  | dyn data =>
    exact (respects_cxKeccak256Hash hP sdk data).bind fun _ => respects_cxHashUpdate _ _
  | val data =>
    show Respects _ (eip712EncodeVal hashCtx data)
    unfold eip712EncodeVal
    split
    · exact respects_failure
    · exact respects_cxHashUpdate _ _

theorem encodeFields_respects (fs : List Field) :
    ∀ hashCtx : Bytes, Respects (SameButRawBuf P) (encodeFields sdk hashCtx fs) := by
  induction fs with
  | nil =>
    intro hashCtx
    exact respects_pure _
  | cons f fs ih =>
    intro hashCtx
    exact (encodeField_respects sdk hP hashCtx f).bind fun _ => ih _

theorem hashFields_respects (fs : List Field) :
    Respects (SameButRawBuf P) (hashFields sdk fs) :=
  respects_cxKeccakInitNoThrow.bind fun _ =>
    (encodeFields_respects sdk hP fs _).bind fun _ => respects_cxHashFinal hP sdk _

/-- The shape of the three `eip712_*_hash` functions. -/
theorem hashes_respects (domain message : List Field) :
    Respects (SameButRawBuf P)
      (do
        let domainHash ← hashFields sdk domain
        let messageHash ← hashFields sdk message
        pure (⟨domainHash, messageHash⟩ : Eip712Hashes)) :=
  (hashFields_respects sdk hP domain).bind fun _ =>
    (hashFields_respects sdk hP message).bind fun _ => respects_pure _

theorem eip712SignHash_respects (ctx : Eip712Hashes) :
    Respects (SameButRawBuf P) (eip712SignHash sdk ctx) :=
  respects_cxKeccakInitNoThrow.bind fun _ => (respects_cxHashUpdate _ _).bind fun _ =>
    (respects_cxHashUpdate _ _).bind fun _ => (respects_cxHashUpdate _ _).bind fun _ =>
      respects_cxHashFinal hP sdk _

end

end Hyperliquid

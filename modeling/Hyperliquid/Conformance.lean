/-
# The digest is the one of EIP-712

An action is signed as typed data: a domain, and a message of one of three types.  What the
application hashes field by field is compared here with the encoder of the standard, which reads
the members and their types off the type strings and knows nothing else about the structures.

The digest that is handed to the signing primitive is the digest of the standard for the domain
and the message of the action (`digest_conforms`).
-/
import Hyperliquid.Lib.TypedData
import Hyperliquid.SignatureCost

namespace Hyperliquid

open Lib Lib.Msgpack
open Fallible (exec_bind_some)

/-! ## 1. The typed data of an action -/

def domainType : Bytes :=
  text "EIP712Domain(string name,string version,uint256 chainId,address verifyingContract)"

def domainData (name version : Bytes) (chainId : Nat) : TypedData.Data :=
  [(text "name", .string name), (text "version", .string version), (text "chainId", .uint chainId),
   (text "verifyingContract", .address zeroAddress)]

/-- The two actions with a chain id are signed in a domain of their own. -/
def Action.domainData (a : Action) : TypedData.Data :=
  match a.type with
  | .approveBuilderFee =>
    Hyperliquid.domainData (text "HyperliquidSignTransaction") (text "1")
      a.approveBuilderFee.signatureChainId.toNat
  | .userSetAbstraction =>
    Hyperliquid.domainData (text "HyperliquidSignTransaction") (text "1")
      a.userSetAbstraction.signatureChainId.toNat
  | _ => Hyperliquid.domainData (text "Exchange") (text "1") 1337

/-- The source of an `Agent`. -/
def Network.source : Network → Bytes
  | .mainnet => text "a"
  | .testnet => text "b"

/-- The chain of the two other messages. -/
def Network.chain : Network → Bytes
  | .mainnet => text "Mainnet"
  | .testnet => text "Testnet"

section

variable (sdk : Sdk) (a : Action) (network : Network) (wallet : Address) (serialized : Bytes)

/-- The hash of the serialized action, its nonce as eight bytes, and a zero byte. -/
def connectionId : Hash :=
  sdk.keccak256 (serialized ++ beBytes 8 a.nonce.toNat ++ [0])

/-- The message, unless the abstraction has no name. -/
def Action.messageData : Option TypedData.Data :=
  match a.type with
  | .approveBuilderFee => some
    [(text "hyperliquidChain", .string network.chain),
     (text "maxFeeRate", .string a.approveBuilderFee.maxFeeRate.chars),
     (text "builder", .address a.approveBuilderFee.builder),
     (text "nonce", .uint a.nonce.toNat)]
  | .userSetAbstraction => (getAbstractionString a.userSetAbstraction).map fun abstraction =>
    [(text "hyperliquidChain", .string network.chain),
     (text "user", .address wallet),
     (text "abstraction", .string abstraction),
     (text "nonce", .uint a.nonce.toNat)]
  | _ => some
    [(text "source", .string network.source),
     (text "connectionId", .bytes (connectionId sdk a serialized).toList)]

/-- The digest of the standard, of the domain and the message of an action. -/
def eip712Digest : Option Hash := do
  let domain ← TypedData.hashStruct sdk.keccak256 domainType a.domainData
  let data ← a.messageData sdk network wallet serialized
  let message ← TypedData.hashStruct sdk.keccak256 (messageType a.type) data
  some (TypedData.digest sdk.keccak256 domain message)

end

/-! ## 2. The structures that are hashed -/

section

variable {K : Bytes → Digest}

/-- The bytes of a number of 64 bits. -/
theorem writeU64Be_eq (v : UInt64) : writeU64Be v = beBytes 8 v.toNat := by
  have hv := v.toNat_lt
  simp only [writeU64Be, beBytes, List.nil_append, List.cons_append, List.cons.injEq,
    ← UInt8.toNat_inj, UInt64.toNat_toUInt8, UInt64.toNat_shiftRight, Nat.shiftRight_eq_div_pow,
    UInt64.reduceToNat, Nat.reduceMod, Nat.reducePow, UInt8.toNat_ofNat', and_true]
  and_intros <;> omega

theorem encodeValue_u64 {bits : Nat} (hbits : 64 ≤ bits) (v : UInt64) :
    TypedData.encodeValue K (.uint bits) (.uint v.toNat) =
      some ((Field.val (writeU64Be v)).word K) := by
  have hlt : v.toNat < 2 ^ bits :=
    v.toNat_lt.trans_le (Nat.pow_le_pow_right (by decide) hbits)
  rw [writeU64Be_eq]
  exact TypedData.encodeValue_uint hlt v.toNat_lt (by decide)

theorem parse_domainType : TypedData.parseMembers domainType = some
    [(text "name", .string), (text "version", .string), (text "chainId", .uint 256),
     (text "verifyingContract", .address)] := by
  decide +kernel

theorem hashStruct_domain (name version : Bytes) (chainId : UInt64) :
    TypedData.hashStruct K domainType (domainData name version chainId.toNat) =
      some (hashStruct K (domainFields name version chainId zeroAddress)) := by
  refine TypedData.hashStruct_eq parse_domainType (.cons ?_ (.cons ?_ (.cons ?_ (.cons ?_ .nil))))
  · exact TypedData.encodeMember_eq rfl (TypedData.encodeValue_string name)
  · exact TypedData.encodeMember_eq rfl (TypedData.encodeValue_string version)
  · exact TypedData.encodeMember_eq rfl (encodeValue_u64 (by decide) chainId)
  · exact TypedData.encodeMember_eq rfl (TypedData.encodeValue_address zeroAddress)

theorem parse_agent : TypedData.parseMembers (text "Agent(string source,bytes32 connectionId)") =
    some [(text "source", .string), (text "connectionId", .bytes 32)] := by
  decide +kernel

theorem parse_approveBuilderFee : TypedData.parseMembers (messageType .approveBuilderFee) = some
    [(text "hyperliquidChain", .string), (text "maxFeeRate", .string), (text "builder", .address),
     (text "nonce", .uint 64)] := by
  decide +kernel

theorem parse_userSetAbstraction : TypedData.parseMembers (messageType .userSetAbstraction) = some
    [(text "hyperliquidChain", .string), (text "user", .address), (text "abstraction", .string),
     (text "nonce", .uint 64)] := by
  decide +kernel

end

section

variable {sdk : Sdk} {a : Action}

theorem hashStruct_domainOf :
    TypedData.hashStruct sdk.keccak256 domainType a.domainData =
      some (hashStruct sdk.keccak256 (domainOf a)) := by
  unfold Action.domainData domainOf
  cases a.type with
  | approveBuilderFee => exact hashStruct_domain _ _ _
  | userSetAbstraction => exact hashStruct_domain _ _ _
  | _ => exact hashStruct_domain _ _ 1337

variable (sdk) in
/-- The three messages: their fields have the words of the members of their types. -/
theorem hashStruct_messageOf (network : Network) (wallet : Address)
    (habs : a.type = .userSetAbstraction → getAbstractionString a.userSetAbstraction ≠ none) :
    ∃ data, a.messageData sdk network wallet (sdk.cmp.encode a.tokens) = some data ∧
      TypedData.hashStruct sdk.keccak256 (messageType a.type) data =
        some (hashStruct sdk.keccak256 (messageOf sdk a network wallet)) := by
  have hchain : (if network == .mainnet then text "Mainnet" else text "Testnet") =
      network.chain := by
    cases network <;> rfl
  have hsource : (if network == .mainnet then text "a" else text "b") = network.source := by
    cases network <;> rfl
  have hcid : connectionId sdk a (sdk.cmp.encode a.tokens) =
      sdk.keccak256 (connectionBytes sdk a) := by
    rw [connectionId, connectionBytes, writeU64Be_eq]
  unfold Action.messageData messageOf
  rw [hchain, hsource, hcid]
  cases hty : a.type with
  | approveBuilderFee =>
    refine ⟨_, rfl, ?_⟩
    refine TypedData.hashStruct_eq parse_approveBuilderFee
      (.cons ?_ (.cons ?_ (.cons ?_ (.cons ?_ .nil))))
    · exact TypedData.encodeMember_eq rfl (TypedData.encodeValue_string _)
    · exact TypedData.encodeMember_eq rfl (TypedData.encodeValue_string _)
    · exact TypedData.encodeMember_eq rfl (TypedData.encodeValue_address _)
    · exact TypedData.encodeMember_eq rfl (encodeValue_u64 (by decide) a.nonce)
  | userSetAbstraction =>
    obtain ⟨name, hname⟩ := Option.ne_none_iff_exists'.mp (habs hty)
    rw [hname]
    refine ⟨_, rfl, ?_⟩
    refine TypedData.hashStruct_eq parse_userSetAbstraction
      (.cons ?_ (.cons ?_ (.cons ?_ (.cons ?_ .nil))))
    · exact TypedData.encodeMember_eq rfl (TypedData.encodeValue_string _)
    · exact TypedData.encodeMember_eq rfl (TypedData.encodeValue_address wallet)
    · exact TypedData.encodeMember_eq rfl (TypedData.encodeValue_string _)
    · exact TypedData.encodeMember_eq rfl (encodeValue_u64 (by decide) a.nonce)
  | _ =>
    refine ⟨_, rfl, ?_⟩
    refine TypedData.hashStruct_eq parse_agent (.cons ?_ (.cons ?_ .nil))
    · exact TypedData.encodeMember_eq rfl (TypedData.encodeValue_string _)
    · exact TypedData.encodeMember_eq rfl (TypedData.encodeValue_bytes32 _)

/-- A stored action has a name for its abstraction. -/
theorem Action.WellFormed.abstraction_named (h : a.WellFormed)
    (hty : a.type = .userSetAbstraction) :
    getAbstractionString a.userSetAbstraction ≠ none := by
  unfold getAbstractionString
  rcases h.abstraction hty with habs | habs | habs <;> rw [habs] <;> exact Option.some_ne_none _

/-- The digest of the standard is the hash of the message that `eip712_sign` builds. -/
theorem eip712Digest_eq (h : a.WellFormed) (network : Network) (wallet : Address) :
    eip712Digest sdk a network wallet (sdk.cmp.encode a.tokens) =
      some (sdk.keccak256 (signMessage (actionHashes sdk a network wallet))) := by
  obtain ⟨data, hdata, hmessage⟩ := hashStruct_messageOf sdk network wallet
    h.abstraction_named
  unfold eip712Digest
  rw [hashStruct_domainOf, hdata]
  show (TypedData.hashStruct sdk.keccak256 (messageType a.type) data >>= _) = _
  rw [hmessage]
  rfl

end

/-! ## 3. What is handed to the signing primitive -/

section

variable (sdk : Sdk) (a : Action) (metadata : ActionMetadata)

theorem signedDigest_respects {P : CxCall → Prop} (hP : ∀ message, P (.keccak message))
    (wallet : Address) :
    Fallible.Respects (SameButRawBuf P) (signedDigest sdk a metadata wallet) :=
  (actionHash_respects sdk hP a metadata wallet).bind fun _ => eip712SignHash_respects sdk hP _

/-- The digest is computed without signing anything, whether it succeeds or fails. -/
theorem signedDigest_calls (wallet : Address) (env : Env) (rawBuf : Bytes) :
    ∀ c ∈ ((signedDigest sdk a metadata wallet).exec (env.cxState rawBuf)).2.calls,
      ∃ message, c = .keccak message := by
  have hrespects :=
    signedDigest_respects sdk a metadata (P := fun c => ∃ message, c = .keccak message)
    (fun message => ⟨message, rfl⟩) wallet
  exact (hrespects _ _ (sameButRawBuf_start env rawBuf rawBuf)).2.all

/-- The signing primitive is called once, whatever it answers. -/
theorem ecdsaSign_calls {β : Type} (path : Vector UInt32 maxBip32Path) (length : UInt8)
    (digest : Hash) (f : EcdsaSignature → β) (s : CxState) :
    (Fallible.exec (do
      let sig ← bip32DeriveEcdsaSignRsHash256 path length digest
      pure (f sig)) s).2.calls = s.calls ++ [.ecdsaSign path length digest] := by
  obtain ⟨outcomes, pubkey, ecdsa, rawBuf, calls⟩ := s
  cases ecdsa <;> rfl

/-- What is signed is the digest, for the path of the session. -/
theorem signWith_signs {signing : SigningCtx} {env : Env} {rawBuf : Bytes}
    {path : Vector UInt32 maxBip32Path} {length : UInt8} {digest : Hash}
    (h : .ecdsaSign path length digest ∈
      ((signWith sdk a metadata signing).exec (env.cxState rawBuf)).2.calls) :
    path = signing.bip32Path ∧ length = signing.bip32PathLength ∧
      ∃ s, (signedDigest sdk a metadata signing.walletAddr).exec (env.cxState rawBuf) =
        (some digest, s) := by
  have hcalls := signedDigest_calls sdk a metadata signing.walletAddr env rawBuf
  rw [signWith_eq, Fallible.exec_bind] at h
  generalize hrun : (signedDigest sdk a metadata signing.walletAddr).exec _ = run at h hcalls
  obtain ⟨o, s⟩ := run
  cases o with
  | none =>
    obtain ⟨message, hc⟩ := hcalls _ h
    cases hc
  | some d =>
    have hmem : CxCall.ecdsaSign path length digest ∈
        s.calls ++ [.ecdsaSign signing.bip32Path signing.bip32PathLength d] := by
      rw [← ecdsaSign_calls]
      exact h
    rcases List.mem_append.mp hmem with hc | hc
    · obtain ⟨message, hc⟩ := hcalls _ hc
      cases hc
    · cases List.mem_singleton.mp hc
      exact ⟨rfl, rfl, s, rfl⟩

/-- With hash calls that succeed, one digest is handed over, after everything is hashed. -/
theorem signWith_hands_over (hcmp : sdk.cmp.Compact) (ha : a.WellFormed) {signing : SigningCtx}
    {env : Env} (rawBuf : Bytes)
    (hcx : ∀ i < signatureCalls a.type, env.cx[i]? = some true) :
    ∃ hashed digest, ((signWith sdk a metadata signing).exec (env.cxState rawBuf)).2.calls =
        hashed ++ [.ecdsaSign signing.bip32Path signing.bip32PathLength digest] ∧
      ∀ c ∈ hashed, ∃ message, c = .keccak message := by
  have hsome := ((hashCalls_signedDigest hcmp ha metadata signing.walletAddr)
    (env.cxState rawBuf)).1.mpr hcx
  have hcalls := signedDigest_calls sdk a metadata signing.walletAddr env rawBuf
  rw [signWith_eq, Fallible.exec_bind]
  generalize (signedDigest sdk a metadata signing.walletAddr).exec _ = run at hsome hcalls ⊢
  obtain ⟨o, s⟩ := run
  obtain ⟨digest, rfl⟩ := Option.isSome_iff_exists.mp hsome
  exact ⟨s.calls, digest, ecdsaSign_calls _ _ _ _ s, hcalls⟩

/-- An `Agent` is hashed after its action was serialized. -/
theorem serialized_of_signedDigest {wallet : Address} {env : Env} {rawBuf : Bytes} {digest : Hash}
    {s : CxState} (hagent : a.type.serializedName ≠ none)
    (h : (signedDigest sdk a metadata wallet).exec (env.cxState rawBuf) = (some digest, s)) :
    ∃ buf, (actionSerialize sdk a).exec
      { ptr := rawBuf, size := maxSerializedActionSize, offset := 0 } = (some (), buf) := by
  obtain ⟨hashes, s₁, hhash, -⟩ := exec_bind_some.mp h
  have hcid : ∃ cid s', (computeConnectionId sdk a 0).exec (env.cxState rawBuf) =
      (some cid, s') := by
    unfold actionHash at hhash
    cases hty : a.type with
    | approveBuilderFee | userSetAbstraction =>
      rw [hty] at hagent
      exact absurd rfl hagent
    | _ =>
      rw [hty] at hhash
      obtain ⟨cid, s₂, hcid, -⟩ := exec_bind_some.mp hhash
      exact ⟨cid, s₂, hcid⟩
  obtain ⟨cid, s₂, hcid⟩ := hcid
  obtain ⟨bytes, s₃, hbytes, -⟩ := exec_bind_some.mp hcid
  unfold serializeIntoRawBuf at hbytes
  rw [Fallible.exec_get_bind] at hbytes
  have hraw : (env.cxState rawBuf).rawBuf = rawBuf := rfl
  rw [hraw] at hbytes
  generalize (actionSerialize sdk a).exec _ = run at hbytes ⊢
  obtain ⟨o, buf⟩ := run
  cases o with
  | none => cases hbytes
  | some u => exact ⟨buf, rfl⟩

end

/-- Any stored action, metadata and signing context: the abstraction has a name, and whatever is
handed to the signing primitive is the digest of the standard for the domain and the message of
the action, with the bytes that `action_serialize` has written under the connection id.  And one
digest is handed over if the hash calls succeed. -/
theorem digest_conforms (sdk : Sdk) {a : Action} (ha : Storable sdk a) (metadata : ActionMetadata)
    (signing : SigningCtx) (env : Env) (rawBuf : Bytes) :
    (a.type = .userSetAbstraction → getAbstractionString a.userSetAbstraction ≠ none) ∧
    (∀ path length digest, .ecdsaSign path length digest ∈
        ((signWith sdk a metadata signing).exec (env.cxState rawBuf)).2.calls →
      path = signing.bip32Path ∧ length = signing.bip32PathLength ∧
      ∃ serialized,
        (a.type.serializedName ≠ none → ∃ buf, (actionSerialize sdk a).exec
          { ptr := rawBuf, size := maxSerializedActionSize, offset := 0 } = (some (), buf) ∧
          buf.ptr.take buf.offset = serialized) ∧
        eip712Digest sdk a metadata.network signing.walletAddr serialized = some digest) ∧
    (sdk.cmp.Compact → (∀ i < signatureCalls a.type, env.cx[i]? = some true) →
      ∃ hashed digest, ((signWith sdk a metadata signing).exec (env.cxState rawBuf)).2.calls =
          hashed ++ [.ecdsaSign signing.bip32Path signing.bip32PathLength digest] ∧
        ∀ c ∈ hashed, ∃ message, c = .keccak message) := by
  refine ⟨ha.wellFormed.abstraction_named, ?_, fun hcmp hcx =>
    signWith_hands_over sdk a metadata hcmp ha.wellFormed rawBuf hcx⟩
  intro path length digest hmem
  obtain ⟨hpath, hlength, s, hrun⟩ := signWith_signs sdk a metadata hmem
  refine ⟨hpath, hlength, sdk.cmp.encode a.tokens, ?_, ?_⟩
  · intro hagent
    obtain ⟨buf, hbuf⟩ := serialized_of_signedDigest sdk a metadata hagent hrun
    exact ⟨buf, hbuf, (actionSerialize_writes sdk a).take_offset hbuf⟩
  · obtain ⟨hdigest, -⟩ := hashed_signedDigest hrun
    rw [hdigest]
    exact eip712Digest_eq ha.wellFormed metadata.network signing.walletAddr

/-- The approval of the tests is signed. -/
theorem digest_conforms_approveBuilderFee :
    ∃ path length digest, .ecdsaSign path length digest ∈
        ((signWith Client.sdk Client.approveBuilderFeeAction (Client.ethMetadata .order) {}).exec
          (Client.env.cxState [])).2.calls ∧
      ∃ serialized, eip712Digest Client.sdk Client.approveBuilderFeeAction .mainnet zeroAddress
        serialized = some digest := by
  have hsigned : ((signWith Client.sdk Client.approveBuilderFeeAction (Client.ethMetadata .order)
      {}).exec (Client.env.cxState [])).2.calls.any
        (fun c => match c with | .ecdsaSign _ _ _ => true | .keccak _ => false) = true := by
    decide +kernel
  obtain ⟨c, hmem, hc⟩ := List.any_eq_true.mp hsigned
  cases c with
  | keccak message => cases hc
  | ecdsaSign path length digest =>
    obtain ⟨-, hdigest, -⟩ := digest_conforms Client.sdk storable_approveBuilderFee
      (Client.ethMetadata .order) {} Client.env []
    obtain ⟨-, -, serialized, -, hconforms⟩ := hdigest path length digest hmem
    exact ⟨path, length, digest, hmem, serialized, hconforms⟩

end Hyperliquid

/-
# The signed digest commits to everything

What is signed for an action is the Keccak hash of a domain hash and a message hash.  The
message is one of three structures: an `ApproveBuilderFee` and a `UserSetAbstraction` hold their
fields, and an `Agent` holds the connection id, which is the hash of the serialized action, its
nonce and a zero byte.

Keccak enters as any function `K`, so a digest determines nothing by itself.  What is shown is
that equal digests mean equal actions, networks and (where it is signed) wallets, unless two
different messages that were hashed on the way, one on each side, have the same `K` value
(`digest_commits`).  The argument goes down the structure: the two hashes, the type of the
message, its fields, and for an `Agent` the bytes under the connection id.
-/
import Hyperliquid.Client
import Hyperliquid.SerializedAction

namespace Hyperliquid

open Lib Lib.Msgpack
open Fallible (Records exec_bind_some records_failure)

/-! ## 1. The digest and the messages under it -/

section

variable (sdk : Sdk)

/-- `action_hash`, and `eip712_sign` up to the signature: the digest that is signed. -/
def signedDigest (action : Action) (metadata : ActionMetadata) (walletAddr : Address) :
    Cx Hash := do
  let hashes ← actionHash sdk action metadata walletAddr
  eip712SignHash sdk hashes

/-- `sign_action` signs that digest. -/
theorem signWith_eq (action : Action) (metadata : ActionMetadata) (signing : SigningCtx) :
    signWith sdk action metadata signing = (do
      let hash ← signedDigest sdk action metadata signing.walletAddr
      let sig ← bip32DeriveEcdsaSignRsHash256 signing.bip32Path signing.bip32PathLength hash
      pure
        { v := 27 + (if sig.parityOdd then 1 else 0) + (if sig.xGTn then 2 else 0)
          r := sig.r
          s := sig.s }) := by
  simp only [signWith, eip712Sign, signedDigest, bind_assoc]

/-- The bytes under a connection id. -/
def connectionBytes (a : Action) : Bytes :=
  sdk.cmp.encode a.tokens ++ writeU64Be a.nonce ++ [0]

/-- The domain an action is signed in. -/
def domainOf (a : Action) : List Field :=
  match a.type with
  | .approveBuilderFee =>
    domainFields (text "HyperliquidSignTransaction") (text "1")
      a.approveBuilderFee.signatureChainId zeroAddress
  | .userSetAbstraction =>
    domainFields (text "HyperliquidSignTransaction") (text "1")
      a.userSetAbstraction.signatureChainId zeroAddress
  | _ => domainFields (text "Exchange") (text "1") 1337 zeroAddress

/-- The message that is signed for an action. -/
def messageOf (a : Action) (network : Network) (wallet : Address) : List Field :=
  match a.type with
  | .approveBuilderFee =>
    builderFeeFields (if network == .mainnet then text "Mainnet" else text "Testnet")
      a.approveBuilderFee.maxFeeRate.chars a.approveBuilderFee.builder a.nonce
  | .userSetAbstraction =>
    abstractionFields (if network == .mainnet then text "Mainnet" else text "Testnet") wallet
      ((getAbstractionString a.userSetAbstraction).getD []) a.nonce
  | _ =>
    cidFields (if network == .mainnet then text "a" else text "b")
      (sdk.keccak256 (connectionBytes sdk a))

/-- What is hashed before the structures: the bytes under the connection id. -/
def connectionMessages (a : Action) : List Bytes :=
  match a.type with
  | .approveBuilderFee | .userSetAbstraction => []
  | _ => [connectionBytes sdk a]

/-- The two hashes. -/
def actionHashes (a : Action) (network : Network) (wallet : Address) : Eip712Hashes :=
  hashesOf sdk (domainOf a) (messageOf sdk a network wallet)

/-- All the messages hashed for the digest. -/
def digestMessages (a : Action) (network : Network) (wallet : Address) : List Bytes :=
  connectionMessages sdk a ++ hashesMessages sdk (domainOf a) (messageOf sdk a network wallet) ++
    [signMessage (actionHashes sdk a network wallet)]

theorem serializeIntoRawBuf_records (a : Action) :
    Records cxCalls (serializeIntoRawBuf sdk a) (sdk.cmp.encode a.tokens) [] := by
  intro s bytes s' _ h
  obtain ⟨s₀, s₁, hget, h⟩ := exec_bind_some.mp h
  cases hget
  generalize hrun : (actionSerialize sdk a).exec _ = res at h
  obtain ⟨result, buf⟩ := res
  obtain ⟨⟨⟩, s₂, hset, h⟩ := exec_bind_some.mp h
  cases hset
  cases result with
  | none => cases h
  | some u =>
    cases h
    exact ⟨trivial, (actionSerialize_writes sdk a).take_offset hrun, (List.append_nil _).symm⟩

theorem computeConnectionId_records (a : Action) :
    Records cxCalls (computeConnectionId sdk a 0) (sdk.keccak256 (connectionBytes sdk a))
      (keccakCalls [connectionBytes sdk a]) :=
  (serializeIntoRawBuf_records sdk a).bind (records_cxKeccakInitNoThrow.bind
    ((records_cxHashUpdate [] _).bind ((records_cxHashUpdate _ _).bind
      ((records_cxHashUpdate _ _).bind (records_cxHashFinal sdk _)))))

/-- An action that is hashed as an `Agent`. -/
theorem cidHash_records (a : Action) (source : Bytes) :
    Records cxCalls
      (do
        let connectionId ← computeConnectionId sdk a 0
        eip712CidHash sdk source connectionId)
      (hashesOf sdk (domainFields (text "Exchange") (text "1") 1337 zeroAddress)
        (cidFields source (sdk.keccak256 (connectionBytes sdk a))))
      (keccakCalls ([connectionBytes sdk a] ++
        hashesMessages sdk (domainFields (text "Exchange") (text "1") 1337 zeroAddress)
          (cidFields source (sdk.keccak256 (connectionBytes sdk a))))) := by
  have hcid : Records cxCalls
      (eip712CidHash sdk source (sdk.keccak256 (connectionBytes sdk a))) _ _ :=
    hashes_records sdk (domainFields (text "Exchange") (text "1") 1337 zeroAddress)
      (cidFields source (sdk.keccak256 (connectionBytes sdk a)))
  rw [keccakCalls_append]
  exact (computeConnectionId_records sdk a).bind hcid

theorem actionHash_records (a : Action) (metadata : ActionMetadata) (wallet : Address) :
    Records cxCalls (actionHash sdk a metadata wallet)
      (actionHashes sdk a metadata.network wallet)
      (keccakCalls (connectionMessages sdk a ++
        hashesMessages sdk (domainOf a) (messageOf sdk a metadata.network wallet))) := by
  unfold actionHash actionHashes domainOf messageOf connectionMessages
  cases a.type with
  | approveBuilderFee => exact hashes_records sdk _ _
  | userSetAbstraction =>
    cases getAbstractionString a.userSetAbstraction with
    | none => exact records_failure _ _
    | some abstraction => exact hashes_records sdk _ _
  | _ => exact cidHash_records sdk a _

theorem signedDigest_records (a : Action) (metadata : ActionMetadata) (wallet : Address) :
    Records cxCalls (signedDigest sdk a metadata wallet)
      (sdk.keccak256 (signMessage (actionHashes sdk a metadata.network wallet)))
      (keccakCalls (digestMessages sdk a metadata.network wallet)) := by
  refine ((actionHash_records sdk a metadata wallet).bind
    (eip712SignHash_records sdk _)).congr ?_
  simp only [digestMessages, keccakCalls, List.map_append]

end

/-! ## 2. Separating the three messages -/

/-- The type that a message names first. -/
def messageType : ActionType → Bytes
  | .approveBuilderFee =>
    text <| "HyperliquidTransaction:ApproveBuilderFee(string hyperliquidChain," ++
      "string maxFeeRate,address builder,uint64 nonce)"
  | .userSetAbstraction =>
    text <| "HyperliquidTransaction:UserSetAbstraction(string hyperliquidChain,address user," ++
      "string abstraction,uint64 nonce)"
  | _ => text "Agent(string source,bytes32 connectionId)"

theorem messageOf_eq_cons (sdk : Sdk) (a : Action) (network : Network) (wallet : Address) :
    ∃ fs, messageOf sdk a network wallet = .dyn (messageType a.type) :: fs := by
  unfold messageOf messageType
  cases a.type <;> exact ⟨_, rfl⟩

/-- The three messages name three types. -/
theorem messageType_cases {t u : ActionType} (h : messageType t = messageType u) :
    (t = .approveBuilderFee ∧ u = .approveBuilderFee) ∨
    (t = .userSetAbstraction ∧ u = .userSetAbstraction) ∨
    (t.serializedName ≠ none ∧ u.serializedName ≠ none) := by
  revert h
  cases t <;> cases u <;> decide

/-! ## 3. Fields -/

section

variable {K : Bytes → Digest}

theorem sameShape_u64 (v w : UInt64) :
    Field.SameShape (.val (writeU64Be v)) (.val (writeU64Be w)) :=
  (length_writeU64Be v).trans (length_writeU64Be w).symm

theorem sameShape_vector {n : Nat} (v w : Vector UInt8 n) :
    Field.SameShape (.val v.toList) (.val w.toList) :=
  v.length_toList.trans w.length_toList.symm

theorem fits_u64 (v : UInt64) : (Field.val (writeU64Be v)).Fits :=
  (length_writeU64Be v).trans_le (by decide)

theorem fits_vector {n : Nat} (hn : n ≤ 32) (v : Vector UInt8 n) : (Field.val v.toList).Fits :=
  v.length_toList.trans_le hn

/-- The chain id of a domain is determined, or a collision was found. -/
theorem domainFields_inj {fs gs : List Field} {name version name' version' : Bytes}
    {chainId chainId' : UInt64} (hf : fs = domainFields name version chainId zeroAddress)
    (hg : gs = domainFields name' version' chainId' zeroAddress)
    (h : hashStruct K fs = hashStruct K gs) :
    chainId = chainId' ∨ Collision K (structMessages K fs) (structMessages K gs) := by
  subst hf hg
  have hshape : List.Forall₂ Field.SameShape (domainFields name version chainId zeroAddress)
      (domainFields name' version' chainId' zeroAddress) :=
    .cons trivial (.cons trivial (.cons trivial (.cons (sameShape_u64 _ _)
      (.cons (sameShape_vector _ _) .nil))))
  have hfits : ∀ n v c, ∀ f ∈ domainFields n v c zeroAddress, f.Fits := by
    intro n v c
    simp only [domainFields, List.forall_mem_cons, List.not_mem_nil, false_implies, implies_true,
      and_true]
    exact ⟨trivial, trivial, trivial, fits_u64 c, fits_vector (by decide) zeroAddress⟩
  rcases hashStruct_inj hshape (hfits _ _ _) (hfits _ _ _) h with hfields | hc
  · simp only [domainFields, List.cons.injEq, Field.val.injEq] at hfields
    exact .inl (writeU64Be_inj hfields.2.2.2.1)
  · exact .inr hc

theorem cidFields_inj {fs gs : List Field} {source source' : Bytes} {cid cid' : Hash}
    (hf : fs = cidFields source cid) (hg : gs = cidFields source' cid')
    (h : hashStruct K fs = hashStruct K gs) :
    (source = source' ∧ cid = cid') ∨
      Collision K (structMessages K fs) (structMessages K gs) := by
  subst hf hg
  have hshape : List.Forall₂ Field.SameShape (cidFields source cid) (cidFields source' cid') :=
    .cons trivial (.cons trivial (.cons (sameShape_vector _ _) .nil))
  have hfits : ∀ s c, ∀ f ∈ cidFields s c, f.Fits := by
    intro s c
    simp only [cidFields, List.forall_mem_cons, List.not_mem_nil, false_implies, implies_true,
      and_true]
    exact ⟨trivial, trivial, fits_vector (by decide) c⟩
  rcases hashStruct_inj hshape (hfits _ _) (hfits _ _) h with hfields | hc
  · simp only [cidFields, List.cons.injEq, Field.dyn.injEq, Field.val.injEq, Vector.toList_inj,
      true_and, and_true] at hfields
    exact .inl hfields
  · exact .inr hc

theorem builderFeeFields_inj {fs gs : List Field} {chain rate chain' rate' : Bytes}
    {builder builder' : Address} {nonce nonce' : UInt64}
    (hf : fs = builderFeeFields chain rate builder nonce)
    (hg : gs = builderFeeFields chain' rate' builder' nonce')
    (h : hashStruct K fs = hashStruct K gs) :
    (chain = chain' ∧ rate = rate' ∧ builder = builder' ∧ nonce = nonce') ∨
      Collision K (structMessages K fs) (structMessages K gs) := by
  subst hf hg
  have hshape : List.Forall₂ Field.SameShape (builderFeeFields chain rate builder nonce)
      (builderFeeFields chain' rate' builder' nonce') :=
    .cons trivial (.cons trivial (.cons trivial (.cons (sameShape_vector _ _)
      (.cons (sameShape_u64 _ _) .nil))))
  have hfits : ∀ c r b n, ∀ f ∈ builderFeeFields c r b n, f.Fits := by
    intro c r b n
    simp only [builderFeeFields, List.forall_mem_cons, List.not_mem_nil, false_implies,
      implies_true, and_true]
    exact ⟨trivial, trivial, trivial, fits_vector (by decide) b, fits_u64 n⟩
  rcases hashStruct_inj hshape (hfits _ _ _ _) (hfits _ _ _ _) h with hfields | hc
  · simp only [builderFeeFields, List.cons.injEq, Field.dyn.injEq, Field.val.injEq,
      Vector.toList_inj, true_and, and_true] at hfields
    obtain ⟨hchain, hrate, hbuilder, hnonce⟩ := hfields
    exact .inl ⟨hchain, hrate, hbuilder, writeU64Be_inj hnonce⟩
  · exact .inr hc

theorem abstractionFields_inj {fs gs : List Field} {chain abs chain' abs' : Bytes}
    {user user' : Address} {nonce nonce' : UInt64}
    (hf : fs = abstractionFields chain user abs nonce)
    (hg : gs = abstractionFields chain' user' abs' nonce')
    (h : hashStruct K fs = hashStruct K gs) :
    (chain = chain' ∧ user = user' ∧ abs = abs' ∧ nonce = nonce') ∨
      Collision K (structMessages K fs) (structMessages K gs) := by
  subst hf hg
  have hshape : List.Forall₂ Field.SameShape (abstractionFields chain user abs nonce)
      (abstractionFields chain' user' abs' nonce') :=
    .cons trivial (.cons trivial (.cons (sameShape_vector _ _) (.cons trivial
      (.cons (sameShape_u64 _ _) .nil))))
  have hfits : ∀ c u a n, ∀ f ∈ abstractionFields c u a n, f.Fits := by
    intro c u a n
    simp only [abstractionFields, List.forall_mem_cons, List.not_mem_nil, false_implies,
      implies_true, and_true]
    exact ⟨trivial, trivial, fits_vector (by decide) u, trivial, fits_u64 n⟩
  rcases hashStruct_inj hshape (hfits _ _ _ _) (hfits _ _ _ _) h with hfields | hc
  · simp only [abstractionFields, List.cons.injEq, Field.dyn.injEq, Field.val.injEq,
      Vector.toList_inj, true_and, and_true] at hfields
    obtain ⟨hchain, huser, habs, hnonce⟩ := hfields
    exact .inl ⟨hchain, huser, habs, writeU64Be_inj hnonce⟩
  · exact .inr hc

end

/-! ## 4. The structures of each kind of action -/

section

variable {sdk : Sdk} {a : Action} (network : Network) (wallet : Address)

theorem domainOf_approveBuilderFee (h : a.type = .approveBuilderFee) :
    domainOf a = domainFields (text "HyperliquidSignTransaction") (text "1")
      a.approveBuilderFee.signatureChainId zeroAddress := by
  simp only [domainOf, h]

theorem domainOf_userSetAbstraction (h : a.type = .userSetAbstraction) :
    domainOf a = domainFields (text "HyperliquidSignTransaction") (text "1")
      a.userSetAbstraction.signatureChainId zeroAddress := by
  simp only [domainOf, h]

theorem messageOf_approveBuilderFee (h : a.type = .approveBuilderFee) :
    messageOf sdk a network wallet =
      builderFeeFields (if network == .mainnet then text "Mainnet" else text "Testnet")
        a.approveBuilderFee.maxFeeRate.chars a.approveBuilderFee.builder a.nonce := by
  simp only [messageOf, h]

theorem messageOf_userSetAbstraction (h : a.type = .userSetAbstraction) :
    messageOf sdk a network wallet =
      abstractionFields (if network == .mainnet then text "Mainnet" else text "Testnet") wallet
        ((getAbstractionString a.userSetAbstraction).getD []) a.nonce := by
  simp only [messageOf, h]

/-- The other actions are hashed as an `Agent`. -/
theorem messageOf_agent (h : a.type.serializedName ≠ none) :
    messageOf sdk a network wallet =
      cidFields (if network == .mainnet then text "a" else text "b")
        (sdk.keccak256 (connectionBytes sdk a)) := by
  unfold messageOf
  cases hty : a.type with
  | approveBuilderFee | userSetAbstraction => exact absurd (by rw [hty]; rfl) h
  | _ => rfl

theorem connectionMessages_agent (h : a.type.serializedName ≠ none) :
    connectionMessages sdk a = [connectionBytes sdk a] := by
  unfold connectionMessages
  cases hty : a.type with
  | approveBuilderFee | userSetAbstraction => exact absurd (by rw [hty]; rfl) h
  | _ => rfl

end

/-! ## 5. Equal digests -/

/-- What a digest commits to. -/
structure SameSigned (a b : Action) (network network' : Network) (wallet wallet' : Address) :
    Prop where
  action : a = b
  network : network = network'
  wallet : a.type = .userSetAbstraction → wallet = wallet'

theorem networkText_inj {n n' : Network} {s t : Bytes} (hst : s ≠ t)
    (h : (if n == .mainnet then s else t) = if n' == .mainnet then s else t) : n = n' := by
  cases n <;> cases n'
  · rfl
  · exact absurd h hst
  · exact absurd h.symm hst
  · rfl

theorem signMessage_inj {c d : Eip712Hashes} (h : signMessage c = signMessage d) :
    c.domainHash = d.domainHash ∧ c.messageHash = d.messageHash := by
  unfold signMessage at h
  obtain ⟨hleft, hmessage⟩ := List.append_inj' h (by simp)
  exact ⟨Vector.toList_inj.mp (List.append_cancel_left hleft), Vector.toList_inj.mp hmessage⟩

/-- The three abstractions have three names. -/
theorem getAbstractionString_inj {u v : UserSetAbstraction}
    (hu : u.abstraction = 0 ∨ u.abstraction = 1 ∨ u.abstraction = 2)
    (hv : v.abstraction = 0 ∨ v.abstraction = 1 ∨ v.abstraction = 2)
    (h : (getAbstractionString u).getD [] = (getAbstractionString v).getD []) :
    u.abstraction = v.abstraction := by
  unfold getAbstractionString at h
  revert h
  rcases hu with hu | hu | hu <;> rcases hv with hv | hv | hv <;> rw [hu, hv] <;> decide

section

variable {sdk : Sdk} {a b : Action} {network network' : Network} {wallet wallet' : Address}

/-- A collision under the two domain hashes. -/
theorem collision_of_domain
    (h : Collision sdk.keccak256 (structMessages sdk.keccak256 (domainOf a))
      (structMessages sdk.keccak256 (domainOf b))) :
    Collision sdk.keccak256 (digestMessages sdk a network wallet)
      (digestMessages sdk b network' wallet') :=
  h.mono (by simp [digestMessages, hashesMessages]) (by simp [digestMessages, hashesMessages])

/-- A collision under the two message hashes. -/
theorem collision_of_message
    (h : Collision sdk.keccak256
      (structMessages sdk.keccak256 (messageOf sdk a network wallet))
      (structMessages sdk.keccak256 (messageOf sdk b network' wallet'))) :
    Collision sdk.keccak256 (digestMessages sdk a network wallet)
      (digestMessages sdk b network' wallet') := by
  refine h.mono (fun x hx => ?_) (fun x hx => ?_) <;>
  simp only [digestMessages, hashesMessages, List.mem_append, hx, or_true, true_or]

/-- Two approvals of a builder's fee. -/
theorem approveBuilderFee_inj (ha : a.WellFormed) (hb : b.WellFormed)
    (hta : a.type = .approveBuilderFee) (htb : b.type = .approveBuilderFee)
    (hdomain : hashStruct sdk.keccak256 (domainOf a) = hashStruct sdk.keccak256 (domainOf b))
    (hmessage : hashStruct sdk.keccak256 (messageOf sdk a network wallet) =
      hashStruct sdk.keccak256 (messageOf sdk b network' wallet')) :
    SameSigned a b network network' wallet wallet' ∨
      Collision sdk.keccak256 (digestMessages sdk a network wallet)
        (digestMessages sdk b network' wallet') := by
  rcases domainFields_inj (domainOf_approveBuilderFee hta) (domainOf_approveBuilderFee htb)
    hdomain with hchainId | hc
  · rcases builderFeeFields_inj (messageOf_approveBuilderFee network wallet hta)
      (messageOf_approveBuilderFee network' wallet' htb) hmessage with
      ⟨hchain, hrate, hbuilder, hnonce⟩ | hc
    · have harm : a.approveBuilderFee = b.approveBuilderFee := by
        cases hA : a.approveBuilderFee
        cases hB : b.approveBuilderFee
        rw [hA, hB] at hchainId hrate hbuilder
        cases hchainId
        cases CString.ext hrate
        cases hbuilder
        rfl
      refine .inl ⟨Action.ext_union (by rw [hta, htb]) hnonce ?_,
        networkText_inj (by decide) hchain, fun h => by rw [hta] at h; cases h⟩
      rw [ha.arm.union_eq, hb.arm.union_eq, hta, htb, harm]
    · exact .inr (collision_of_message hc)
  · exact .inr (collision_of_domain hc)

/-- Two settings of the account abstraction. -/
theorem userSetAbstraction_inj (ha : a.WellFormed) (hb : b.WellFormed)
    (hta : a.type = .userSetAbstraction) (htb : b.type = .userSetAbstraction)
    (hdomain : hashStruct sdk.keccak256 (domainOf a) = hashStruct sdk.keccak256 (domainOf b))
    (hmessage : hashStruct sdk.keccak256 (messageOf sdk a network wallet) =
      hashStruct sdk.keccak256 (messageOf sdk b network' wallet')) :
    SameSigned a b network network' wallet wallet' ∨
      Collision sdk.keccak256 (digestMessages sdk a network wallet)
        (digestMessages sdk b network' wallet') := by
  rcases domainFields_inj (domainOf_userSetAbstraction hta) (domainOf_userSetAbstraction htb)
    hdomain with hchainId | hc
  · rcases abstractionFields_inj (messageOf_userSetAbstraction network wallet hta)
      (messageOf_userSetAbstraction network' wallet' htb) hmessage with
      ⟨hchain, huser, habs, hnonce⟩ | hc
    · have habstraction := getAbstractionString_inj (ha.abstraction hta) (hb.abstraction htb) habs
      have harm : a.userSetAbstraction = b.userSetAbstraction := by
        cases hA : a.userSetAbstraction
        cases hB : b.userSetAbstraction
        rw [hA, hB] at hchainId habstraction
        cases hchainId
        cases habstraction
        rfl
      refine .inl ⟨Action.ext_union (by rw [hta, htb]) hnonce ?_,
        networkText_inj (by decide) hchain, fun _ => huser⟩
      rw [ha.arm.union_eq, hb.arm.union_eq, hta, htb, harm]
    · exact .inr (collision_of_message hc)
  · exact .inr (collision_of_domain hc)

/-- The bytes under a connection id determine the action. -/
theorem connectionBytes_inj (hcmp : sdk.cmp.Standard) (ha : a.WellFormed) (hb : b.WellFormed)
    (hs : a.type.serializedName ≠ none)
    (h : connectionBytes sdk a = connectionBytes sdk b) : a = b := by
  have hbytes := List.append_cancel_right h
  obtain ⟨hencode, hnonce⟩ := List.append_inj' hbytes
    ((length_writeU64Be _).trans (length_writeU64Be _).symm)
  obtain ⟨htype, hunion⟩ := Action.encode_inj hcmp ha hb hs hencode
  exact Action.ext_union htype (writeU64Be_inj hnonce) hunion

/-- Two actions that are hashed as an `Agent`. -/
theorem agent_inj (hcmp : sdk.cmp.Standard) (ha : a.WellFormed) (hb : b.WellFormed)
    (hsa : a.type.serializedName ≠ none) (hsb : b.type.serializedName ≠ none)
    (hmessage : hashStruct sdk.keccak256 (messageOf sdk a network wallet) =
      hashStruct sdk.keccak256 (messageOf sdk b network' wallet')) :
    SameSigned a b network network' wallet wallet' ∨
      Collision sdk.keccak256 (digestMessages sdk a network wallet)
        (digestMessages sdk b network' wallet') := by
  have hagent : ∀ c n w, c.type.serializedName ≠ none →
      [connectionBytes sdk c] ⊆ digestMessages sdk c n w := by
    intro c n w hc
    simp [digestMessages, connectionMessages_agent hc]
  rcases cidFields_inj (messageOf_agent network wallet hsa) (messageOf_agent network' wallet' hsb)
    hmessage with ⟨hsource, hcid⟩ | hc
  · rcases Collision.eq_or _ _ (List.mem_singleton_self _) (List.mem_singleton_self _) hcid with
      hbytes | hc
    · have hab := connectionBytes_inj hcmp ha hb hsa hbytes
      refine .inl ⟨hab, networkText_inj (by decide) hsource, fun h => ?_⟩
      rw [h] at hsa
      exact absurd rfl hsa
    · exact .inr (hc.mono (hagent a _ _ hsa) (hagent b _ _ hsb))
  · exact .inr (collision_of_message hc)

/-- Equal digests: the same was signed, or a collision. -/
theorem digest_inj (hcmp : sdk.cmp.Standard) (ha : a.WellFormed) (hb : b.WellFormed)
    (h : sdk.keccak256 (signMessage (actionHashes sdk a network wallet)) =
      sdk.keccak256 (signMessage (actionHashes sdk b network' wallet'))) :
    SameSigned a b network network' wallet wallet' ∨
      Collision sdk.keccak256 (digestMessages sdk a network wallet)
        (digestMessages sdk b network' wallet') := by
  rcases Collision.eq_or (digestMessages sdk a network wallet)
    (digestMessages sdk b network' wallet') (by simp [digestMessages]) (by simp [digestMessages]) h
    with hsign | hc
  · obtain ⟨hdomain, hmessage⟩ := signMessage_inj hsign
    have htype : messageType a.type = messageType b.type ∨
        Collision sdk.keccak256 (structMessages sdk.keccak256 (messageOf sdk a network wallet))
          (structMessages sdk.keccak256 (messageOf sdk b network' wallet')) := by
      obtain ⟨fs, hfs⟩ := messageOf_eq_cons sdk a network wallet
      obtain ⟨gs, hgs⟩ := messageOf_eq_cons sdk b network' wallet'
      rw [hfs, hgs]
      exact hashStruct_type_inj (by rw [← hfs, ← hgs]; exact hmessage)
    rcases htype with htype | hc
    · rcases messageType_cases htype with ⟨hta, htb⟩ | ⟨hta, htb⟩ | ⟨hsa, hsb⟩
      · exact approveBuilderFee_inj ha hb hta htb hdomain hmessage
      · exact userSetAbstraction_inj ha hb hta htb hdomain hmessage
      · exact agent_inj hcmp ha hb hsa hsb hmessage
    · exact .inr (collision_of_message hc)
  · exact .inr hc

end

/-- The byte strings hashed while the command ran. -/
def CxState.hashed (s : CxState) : List Bytes :=
  s.calls.filterMap fun
    | .keccak message => some message
    | .ecdsaSign _ _ _ => none

theorem hashed_signedDigest {sdk : Sdk} {a : Action} {metadata : ActionMetadata}
    {wallet : Address} {env : Env} {rawBuf : Bytes} {digest : Hash} {s : CxState}
    (h : (signedDigest sdk a metadata wallet).exec (env.cxState rawBuf) = (some digest, s)) :
    digest = sdk.keccak256 (signMessage (actionHashes sdk a metadata.network wallet)) ∧
      s.hashed = digestMessages sdk a metadata.network wallet := by
  obtain ⟨-, hdigest, hcalls⟩ := signedDigest_records sdk a metadata wallet _ _ _ trivial h
  refine ⟨hdigest, ?_⟩
  have hcalls' : s.calls = keccakCalls (digestMessages sdk a metadata.network wallet) := hcalls
  unfold CxState.hashed
  rw [hcalls', keccakCalls, List.filterMap_map]
  exact List.filterMap_some

/-- Two computations of a digest, for any two actions that can be stored, networks and wallets:
if the digests are equal, so are the actions, the networks and, where it is signed, the wallets;
or a message hashed on one side collides with a different one hashed on the other. -/
theorem digest_commits (sdk : Sdk) {a b : Action} {m m' : ActionMetadata}
    {wallet wallet' : Address} {env env' : Env} {rawBuf rawBuf' : Bytes} {digest : Hash}
    {s s' : CxState} (hcmp : sdk.cmp.Standard) (ha : Storable sdk a) (hb : Storable sdk b)
    (h : (signedDigest sdk a m wallet).exec (env.cxState rawBuf) = (some digest, s))
    (h' : (signedDigest sdk b m' wallet').exec (env'.cxState rawBuf') = (some digest, s')) :
    SameSigned a b m.network m'.network wallet wallet' ∨
      Collision sdk.keccak256 s.hashed s'.hashed := by
  obtain ⟨hdigest, hhashed⟩ := hashed_signedDigest h
  obtain ⟨hdigest', hhashed'⟩ := hashed_signedDigest h'
  rw [hhashed, hhashed']
  exact digest_inj hcmp ha.wellFormed hb.wellFormed (hdigest.symm.trans hdigest')

/-- The approval of the tests can be stored. -/
theorem storable_approveBuilderFee : Storable Client.sdk Client.approveBuilderFeeAction :=
  Storable.of_stores (Client.action Client.approveBuilderFeeAction) (Client.ethMetadata .order)
    (by decide +kernel)

/-- The digest of that approval, computed twice. -/
theorem digest_commits_approveBuilderFee :
    ∃ digest s, (signedDigest Client.sdk Client.approveBuilderFeeAction
        (Client.ethMetadata .order) zeroAddress).exec (Client.env.cxState []) =
          (some digest, s) ∧
      (SameSigned Client.approveBuilderFeeAction Client.approveBuilderFeeAction .mainnet .mainnet
          zeroAddress zeroAddress ∨
        Collision Client.sdk.keccak256 s.hashed s.hashed) := by
  have hsome : ((signedDigest Client.sdk Client.approveBuilderFeeAction
      (Client.ethMetadata .order) zeroAddress).exec (Client.env.cxState [])).1.isSome = true := by
    decide +kernel
  generalize hrun : (signedDigest Client.sdk Client.approveBuilderFeeAction
    (Client.ethMetadata .order) zeroAddress).exec (Client.env.cxState []) = run at hsome
  obtain ⟨o, s⟩ := run
  obtain ⟨digest, rfl⟩ := Option.isSome_iff_exists.mp hsome
  exact ⟨digest, s, rfl, digest_commits Client.sdk Lib.Msgpack.shortest_standard
    storable_approveBuilderFee storable_approveBuilderFee hrun hrun⟩

end Hyperliquid

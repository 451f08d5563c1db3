/-
# What a signature takes

A stored action is signed if the hash calls and the ECDSA primitive succeed, and there is no
other way to fail: its serialization fits, its abstraction has a name, and every field that is
encoded as one word fits in a word.  How many hash calls there are depends on the kind of the
action alone (`signatureCalls`).

So in every reachable state the primitives decide alone whether the action that is asked for is
signed (`signed_iff_primitives`).
-/
import Hyperliquid.Digest
import Hyperliquid.SerializedSize
import Hyperliquid.Signing

namespace Hyperliquid

open Lib

open Fallible (Keeps keeps_pure keeps_failure)

/-! ## 1. Hashing leaves the answer of the ECDSA primitive alone -/

theorem keeps_cxOk : Keeps CxState.ecdsa cxOk := by
  intro s
  unfold cxOk
  rw [Fallible.exec_get_bind]
  split
  · rfl
  · rfl

theorem keeps_noteCall (c : CxCall) : Keeps CxState.ecdsa (noteCall c) := by
  intro s
  rfl

theorem keeps_cxKeccakInitNoThrow : Keeps CxState.ecdsa cxKeccakInitNoThrow :=
  keeps_cxOk.bind fun _ => keeps_pure _

theorem keeps_cxHashUpdate (hashCtx data : Bytes) :
    Keeps CxState.ecdsa (cxHashUpdate hashCtx data) := keeps_cxOk.bind fun _ => keeps_pure _

section

variable (sdk : Sdk)

theorem keeps_cxHashFinal (hashCtx : Bytes) : Keeps CxState.ecdsa (cxHashFinal sdk hashCtx) :=
  keeps_cxOk.bind fun _ => (keeps_noteCall _).bind fun _ => keeps_pure _

theorem keeps_cxKeccak256Hash (data : Bytes) : Keeps CxState.ecdsa (cxKeccak256Hash sdk data) :=
  keeps_cxOk.bind fun _ => (keeps_noteCall _).bind fun _ => keeps_pure _

theorem keeps_encodeField (hashCtx : Bytes) (f : Field) :
    Keeps CxState.ecdsa (encodeField sdk hashCtx f) := by
  cases f with
  | dyn data => exact (keeps_cxKeccak256Hash sdk data).bind fun _ => keeps_cxHashUpdate hashCtx _
  | val data =>
    show Keeps CxState.ecdsa (eip712EncodeVal hashCtx data)
    unfold eip712EncodeVal
    split
    · exact keeps_failure
    · exact keeps_cxHashUpdate hashCtx _

theorem keeps_hashFields (fs : List Field) : Keeps CxState.ecdsa (hashFields sdk fs) := by
  have hfields : ∀ hashCtx, Keeps CxState.ecdsa (encodeFields sdk hashCtx fs) := by
    induction fs with
    | nil => exact fun hashCtx => keeps_pure hashCtx
    | cons f fs ih => exact fun hashCtx => (keeps_encodeField sdk hashCtx f).bind fun _ => ih _
  exact keeps_cxKeccakInitNoThrow.bind fun _ => (hfields _).bind fun _ => keeps_cxHashFinal sdk _

/-- The shape of the three `eip712_*_hash` functions. -/
theorem keeps_hashes (domain message : List Field) :
    Keeps CxState.ecdsa (do
      let domainHash ← hashFields sdk domain
      let messageHash ← hashFields sdk message
      pure (⟨domainHash, messageHash⟩ : Eip712Hashes)) :=
  (keeps_hashFields sdk domain).bind fun _ => (keeps_hashFields sdk message).bind fun _ =>
    keeps_pure _

theorem keeps_serializeIntoRawBuf (a : Action) :
    Keeps CxState.ecdsa (serializeIntoRawBuf sdk a) := by
  intro s
  unfold serializeIntoRawBuf
  rw [Fallible.exec_get_bind]
  generalize (actionSerialize sdk a).exec
    { ptr := s.rawBuf, size := maxSerializedActionSize, offset := 0 } = r
  obtain ⟨result, buf⟩ := r
  cases result with
  | none => rfl
  | some u => rfl

theorem keeps_computeConnectionId (a : Action) (endByte : UInt8) :
    Keeps CxState.ecdsa (computeConnectionId sdk a endByte) :=
  (keeps_serializeIntoRawBuf sdk a).bind fun _ => keeps_cxKeccakInitNoThrow.bind fun _ =>
    (keeps_cxHashUpdate _ _).bind fun _ => (keeps_cxHashUpdate _ _).bind fun _ =>
      (keeps_cxHashUpdate _ _).bind fun _ => keeps_cxHashFinal sdk _

theorem keeps_actionHash (a : Action) (metadata : ActionMetadata) (walletAddr : Address) :
    Keeps CxState.ecdsa (actionHash sdk a metadata walletAddr) := by
  unfold actionHash
  split
  · exact keeps_hashes sdk _ _
  · unfold eip712AbstractionHash
    split
    · exact keeps_failure
    · exact keeps_hashes sdk _ _
  · exact (keeps_computeConnectionId sdk a 0).bind fun _ => keeps_hashes sdk _ _

theorem keeps_eip712SignHash (hashes : Eip712Hashes) :
    Keeps CxState.ecdsa (eip712SignHash sdk hashes) :=
  keeps_cxKeccakInitNoThrow.bind fun _ => (keeps_cxHashUpdate _ _).bind fun _ =>
    (keeps_cxHashUpdate _ _).bind fun _ => (keeps_cxHashUpdate _ _).bind fun _ =>
      keeps_cxHashFinal sdk _

/-! ## 2. The hash calls of a signature -/

theorem hashCalls_eip712SignHash (hashes : Eip712Hashes) :
    HashCalls 5 (eip712SignHash sdk hashes) :=
  hashCalls_cxKeccakInitNoThrow.bind fun _ => (hashCalls_cxHashUpdate _ _).bind fun _ =>
    (hashCalls_cxHashUpdate _ _).bind fun _ => (hashCalls_cxHashUpdate _ _).bind fun _ =>
      hashCalls_cxHashFinal sdk _

/-- The shape of the three `eip712_*_hash` functions, again. -/
theorem hashCalls_userHashes {domain message : List Field} {j k : Nat}
    (hdomain : ∀ f ∈ domain, f.Fits) (hmessage : ∀ f ∈ message, f.Fits)
    (hj : (domain.map fieldCalls).sum = j) (hk : (message.map fieldCalls).sum = k) :
    HashCalls (1 + (j + 1) + (1 + (k + 1))) (do
      let domainHash ← hashFields sdk domain
      let messageHash ← hashFields sdk message
      pure (⟨domainHash, messageHash⟩ : Eip712Hashes)) := by
  have h := (hashCalls_hashFields sdk hdomain).bind fun domainHash =>
    (hashCalls_hashFields sdk hmessage).bind fun messageHash =>
      hashCalls_pure (⟨domainHash, messageHash⟩ : Eip712Hashes)
  rw [hj, hk] at h
  exact h

end

/-- The calls of `action_hash`. -/
def hashingCalls : ActionType → Nat
  | .approveBuilderFee | .userSetAbstraction => 20
  | _ => 22

/-- The calls of `action_hash` and of `eip712_sign`. -/
def signatureCalls (t : ActionType) : Nat := hashingCalls t + 5

theorem signatureCalls_le (t : ActionType) : signatureCalls t ≤ 27 := by
  cases t <;> decide

/-- A well-formed abstraction has a name. -/
theorem abstraction_named {a : Action} (h : a.WellFormed) (hty : a.type = .userSetAbstraction) :
    ∃ name, getAbstractionString a.userSetAbstraction = some name := by
  unfold getAbstractionString
  rcases h.abstraction hty with h | h | h
  · exact ⟨_, by rw [h]; rfl⟩
  · exact ⟨_, by rw [h]; rfl⟩
  · exact ⟨_, by rw [h]; rfl⟩

section

variable {sdk : Sdk} {env : Env} {w : World} {a : Action} {m : ActionMetadata}

theorem domainFields_fit (name version : Bytes) (chainId : UInt64) :
    ∀ f ∈ domainFields name version chainId zeroAddress, f.Fits := by
  simp only [domainFields, List.forall_mem_cons, List.not_mem_nil, false_implies, implies_true,
    and_true]
  exact ⟨trivial, trivial, trivial, fits_u64 _, fits_vector (by decide) zeroAddress⟩

/-- Hashing an action fails only where a hash call does. -/
theorem hashCalls_hashing (hcmp : sdk.cmp.Compact) (ha : a.WellFormed) (metadata : ActionMetadata)
    (walletAddr : Address) :
    HashCalls (hashingCalls a.type) (actionHash sdk a metadata walletAddr) := by
  by_cases hname : a.type.serializedName = none
  · unfold actionHash
    cases hty : a.type with
    | approveBuilderFee =>
      refine hashCalls_userHashes sdk (domainFields_fit _ _ _) ?_ rfl rfl
      simp only [builderFeeFields, List.forall_mem_cons, List.not_mem_nil, false_implies,
        implies_true, and_true]
      exact ⟨trivial, trivial, trivial, fits_vector (by decide) _, fits_u64 _⟩
    | userSetAbstraction =>
      obtain ⟨name, hnamed⟩ := abstraction_named ha hty
      dsimp only
      rw [hnamed]
      refine hashCalls_userHashes sdk (domainFields_fit _ _ _) ?_ rfl rfl
      simp only [abstractionFields, List.forall_mem_cons, List.not_mem_nil, false_implies,
        implies_true, and_true]
      exact ⟨trivial, trivial, fits_vector (by decide) _, trivial, fits_u64 _⟩
    | _ =>
      rw [hty] at hname
      cases hname
  · have hcalls : hashingCalls a.type = 22 := by
      cases hty : a.type with
      | approveBuilderFee | userSetAbstraction =>
        rw [hty] at hname
        exact absurd rfl hname
      | _ => rfl
    rw [hcalls]
    exact hashCalls_actionHash hcmp hname metadata walletAddr

/-- So does computing its digest. -/
theorem hashCalls_signedDigest (hcmp : sdk.cmp.Compact) (ha : a.WellFormed)
    (metadata : ActionMetadata) (walletAddr : Address) :
    HashCalls (signatureCalls a.type) (signedDigest sdk a metadata walletAddr) :=
  (hashCalls_hashing hcmp ha metadata walletAddr).bind fun hashes =>
    hashCalls_eip712SignHash sdk hashes

/-! ## 3. When an action is signed -/

/-- The ECDSA primitive decides once the digest is there. -/
theorem exec_eip712Sign_isSome {path : Vector UInt32 maxBip32Path} {length : UInt8}
    {hashes : Eip712Hashes} {s : CxState} :
    ((eip712Sign sdk path length hashes).exec s).1.isSome ↔
      (∀ i < 5, s.outcomes[i]? = some true) ∧ s.ecdsa.isSome := by
  obtain ⟨hcalls, -⟩ := hashCalls_eip712SignHash sdk hashes s
  have hkeeps := keeps_eip712SignHash sdk hashes s
  rw [← hcalls]
  unfold eip712Sign
  rw [Fallible.exec_bind]
  generalize (eip712SignHash sdk hashes).exec s = r at hkeeps ⊢
  obtain ⟨o, s'⟩ := r
  cases o with
  | none => simp
  | some digest =>
    have hkeeps : s'.ecdsa = s.ecdsa := hkeeps
    have hsign : (bip32DeriveEcdsaSignRsHash256 path length digest).exec s' =
        (s'.ecdsa, { s' with calls := s'.calls ++ [.ecdsaSign path length digest] }) := by
      unfold bip32DeriveEcdsaSignRsHash256
      rw [Fallible.exec_bind]
      have hnote : (noteCall (.ecdsaSign path length digest)).exec s' =
          (some (), { s' with calls := s'.calls ++ [.ecdsaSign path length digest] }) := rfl
      rw [hnote]
      dsimp only
      rw [Fallible.exec_get_bind]
      cases h : s'.ecdsa <;> rfl
    dsimp only
    rw [Fallible.exec_bind, hsign, hkeeps]
    cases s.ecdsa <;> simp

/-- A well-formed action is signed if and only if the hash calls and the ECDSA primitive succeed. -/
theorem hashedAndSigned_iff_primitives (hcmp : sdk.cmp.Compact) (ha : a.WellFormed) :
    (∃ sig, HashedAndSigned sdk env w a m sig) ↔
      (∀ i < signatureCalls a.type, env.cx[i]? = some true) ∧ env.ecdsa.isSome := by
  obtain ⟨hcalls, hrest⟩ := hashCalls_hashing hcmp ha m w.signing.walletAddr
    (env.cxState w.rawBuf)
  have hkeeps := keeps_actionHash sdk a m w.signing.walletAddr (env.cxState w.rawBuf)
  have houtcomes : (env.cxState w.rawBuf).outcomes = env.cx := rfl
  have hecdsa : (env.cxState w.rawBuf).ecdsa = env.ecdsa := rfl
  rw [houtcomes] at hcalls hrest
  rw [hecdsa] at hkeeps
  constructor
  · rintro ⟨sig, hashes, s, s', hhash, hsign⟩
    rw [hhash] at hcalls hkeeps
    have hsome : ((eip712Sign sdk w.signing.bip32Path w.signing.bip32PathLength hashes).exec
        s).1.isSome := Option.isSome_iff_exists.mpr ⟨sig, congrArg Prod.fst hsign⟩
    obtain ⟨hlast, hprimitive⟩ := exec_eip712Sign_isSome.mp hsome
    have hfirst := hcalls.mp rfl
    rw [hrest hashes s hhash] at hlast
    refine ⟨?_, hkeeps ▸ hprimitive⟩
    intro i hi
    rcases Nat.lt_or_ge i (hashingCalls a.type) with hlt | hge
    · exact hfirst i hlt
    · have h := hlast (i - hashingCalls a.type) (by unfold signatureCalls at hi; omega)
      rwa [List.getElem?_drop, Nat.add_sub_cancel' hge] at h
  · rintro ⟨hall, hprimitive⟩
    have hsome := hcalls.mpr fun i hi => hall i (by unfold signatureCalls; omega)
    generalize hhash : (actionHash sdk a m w.signing.walletAddr).exec (env.cxState w.rawBuf) = r
      at hsome hkeeps hrest
    obtain ⟨o, s⟩ := r
    obtain ⟨hashes, rfl⟩ := Option.isSome_iff_exists.mp hsome
    have hsign : ((eip712Sign sdk w.signing.bip32Path w.signing.bip32PathLength hashes).exec
        s).1.isSome := by
      rw [exec_eip712Sign_isSome, hrest hashes s rfl]
      refine ⟨?_, ?_⟩
      · intro i hi
        rw [List.getElem?_drop]
        exact hall (hashingCalls a.type + i) (by unfold signatureCalls; omega)
      · exact (congrArg Option.isSome hkeeps).trans hprimitive
    obtain ⟨sig, hsig⟩ := Option.isSome_iff_exists.mp hsign
    exact ⟨sig, hashes, s, _, hhash, Prod.ext hsig rfl⟩

end

/-- The hash calls for this type, and the ECDSA primitive, succeed. -/
def Signable (env : Env) (t : ActionType) : Prop :=
  (∀ i < signatureCalls t, env.cx[i]? = some true) ∧ env.ecdsa.isSome

/-- The two answers differ. -/
theorem SignatureAnswer.not_error {env : Env} {w : World} {a : Action} {sig : Signature}
    {r : Outcome} (h : SignatureAnswer env w a sig r) : ¬ ErrorAnswer env w r := by
  intro herror
  obtain ⟨calls, hevents⟩ := h.events
  obtain ⟨calls', hevents'⟩ := herror.events
  have hmem : Event.signature w.ctx.actionIndex a w.snapshot sig ∈ r.events := by
    rw [hevents]
    simp
  rw [hevents'] at hmem
  simp at hmem

/-- `sign_action` at a well-formed action. -/
theorem signAction_iff_signable {sdk : Sdk} (hcmp : sdk.cmp.Compact) {env : Env} {w : World}
    {a : Action} {m : ActionMetadata} (hwell : a.WellFormed)
    (ha : ctxGetCurrentAction w.ctx = some a) (hm : w.ctx.metadata = some m) :
    ((∃ sig, SignatureAnswer env w a sig (signAction sdk env w)) ↔ Signable env a.type) ∧
      (ErrorAnswer env w (signAction sdk env w) ↔ ¬ Signable env a.type) := by
  have hiff : (∃ sig, HashedAndSigned sdk env w a m sig) ↔ Signable env a.type :=
    hashedAndSigned_iff_primitives hcmp hwell
  rcases signAction_answer sdk env ha hm with ⟨sig, hsig, hanswer⟩ | ⟨hno, hanswer⟩
  · have hsignable := hiff.mp ⟨sig, hsig⟩
    exact ⟨iff_of_true ⟨sig, hanswer⟩ hsignable,
      iff_of_false hanswer.not_error (not_not_intro hsignable)⟩
  · have hunsignable : ¬ Signable env a.type := fun h => (hiff.mpr h).elim hno
    refine ⟨iff_of_false ?_ hunsignable, iff_of_true hanswer hunsignable⟩
    rintro ⟨sig, hsigned⟩
    exact hsigned.not_error hanswer

/-- In every reachable state that holds an action to be signed, in whatever surroundings,
`sign_action` answers with a signature if and only if the hash calls that the kind of the action
takes and the ECDSA primitive succeed; otherwise it answers with an error, and has changed
nothing. -/
theorem signed_iff_primitives (sdk : Sdk) (hcmp : sdk.cmp.Compact) (inputs : List Input)
    (w : World) (hctx : w.ctx = ((app sdk).state inputs).ctx) (a : Action)
    (ha : ctxGetCurrentAction w.ctx = some a) (env : Env) :
    ((∃ sig, SignatureAnswer env w a sig (signAction sdk env w)) ↔ Signable env a.type) ∧
      (ErrorAnswer env w (signAction sdk env w) ↔ ¬ Signable env a.type) := by
  have hinv : SessionInv w.ctx := hctx ▸ sessionInv_state sdk inputs
  have hmem : a ∈ w.ctx.actions.elems := by
    obtain ⟨-, hget⟩ := ctxGetCurrentAction_some ha
    exact List.mem_of_getElem? hget
  obtain ⟨m, hm, -⟩ := hinv.allowed a hmem
  exact signAction_iff_signable hcmp (hinv.wellFormed a hmem) ha hm

theorem signed_iff_primitives_reviewSession :
    ((∃ sig, SignatureAnswer Client.env ((app Client.sdk).state reviewSession)
        Client.approveBuilderFeeAction sig
        (signAction Client.sdk Client.env ((app Client.sdk).state reviewSession))) ↔
      Signable Client.env .approveBuilderFee) ∧
    (ErrorAnswer Client.env ((app Client.sdk).state reviewSession)
        (signAction Client.sdk Client.env ((app Client.sdk).state reviewSession)) ↔
      ¬ Signable Client.env .approveBuilderFee) :=
  signed_iff_primitives Client.sdk Msgpack.shortest_compact reviewSession _ rfl
    Client.approveBuilderFeeAction (by decide +kernel) Client.env

end Hyperliquid

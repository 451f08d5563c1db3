/-
# Actions (`action.c`)

`parse_action` reads one action under the metadata of the session, checks that its type is one
the operation allows, and stores it.  `action_hash` computes the two EIP-712 hashes of a stored
action: an `ApproveBuilderFee` and a `UserSetAbstraction` are typed messages of their own, and
any other action is serialized, and signed through the hash of its bytes, its nonce and a
final zero byte (the connection id).

A stored action satisfies `ActionOk`: the arm of its union is the one of its type, and every
asset in it is the one of the metadata it was read under.
-/
import Hyperliquid.BulkActions
import Hyperliquid.SingleActions
import Hyperliquid.Eip712

namespace Hyperliquid

open Lib Lib.Msgpack

namespace Action

/-! ## 1. The TLV parser -/

/-- `s_action_ctx`.  The sub-contexts of its union are not kept: the action is a unique tag, so
each of them is used at most once, zeroed. -/
structure ActionCtx where
  receivedTags : List Nat := []
  action : Action := {}

instance : TlvContext ActionCtx where
  receivedTags := ActionCtx.receivedTags
  receive t s := { s with receivedTags := t :: s.receivedTags }

/-- `STRUCT_TYPE`. -/
abbrev structType : UInt8 := 0x2c

abbrev tagStructType : Nat := 0x01
abbrev tagStructVersion : Nat := 0x02
abbrev tagActionType : Nat := 0xd0
abbrev tagNonce : Nat := 0xda
abbrev tagAction : Nat := 0xdb

/-- The byte of a `e_action_type`. -/
def actionTypeOfByte (type : UInt8) : Option ActionType :=
  match type with
  | 0 => some .bulkOrder
  | 1 => some .bulkModify
  | 2 => some .bulkCancel
  | 3 => some .updateLeverage
  | 4 => some .approveBuilderFee
  | 5 => some .updateIsolatedMargin
  | 6 => some .userSetAbstraction
  | _ => none

section

variable (sdk : Sdk) (hl : HlContext)

def handleStructType : TlvData → ActionCtx → Except Failure ActionCtx :=
  storing (fun d => (sdk.getUint8TFromTlvData d).filter (· == structType)) fun _ out => out

def handleStructVersion : TlvData → ActionCtx → Except Failure ActionCtx :=
  storing (fun d => (sdk.getUint8TFromTlvData d).filter (· == 1)) fun _ out => out

def handleActionType : TlvData → ActionCtx → Except Failure ActionCtx :=
  storing (fun d => sdk.getUint8TFromTlvData d >>= actionTypeOfByte)
    fun t out => { out with action := { out.action with type := t } }

def handleNonce : TlvData → ActionCtx → Except Failure ActionCtx :=
  storing sdk.getUint64TFromTlvData
    fun n out => { out with action := { out.action with nonce := n } }

/-- Parses the structure of the action's type into the arm of its type. -/
def parseArm (action : Action) (payload : Bytes) : Except Failure ActionUnion :=
  match action.type with
  | .bulkOrder => do
    let c ← parseBulkOrder sdk hl payload { bulkOrder := action.bulkOrder }
    .ok (.bulkOrder c.bulkOrder)
  | .bulkModify => do
    let c ← parseBulkModify sdk hl payload { bulkModify := action.bulkModify }
    .ok (.bulkModify c.bulkModify)
  | .bulkCancel => do
    let c ← parseBulkCancel sdk hl payload { bulkCancel := action.bulkCancel }
    .ok (.bulkCancel c.bulkCancel)
  | .updateLeverage => do
    let c ← parseUpdateLeverage sdk hl payload { updateLeverage := action.updateLeverage }
    .ok (.updateLeverage c.updateLeverage)
  | .approveBuilderFee => do
    let c ← parseApproveBuilderFee sdk payload { approveBuilderFee := action.approveBuilderFee }
    .ok (.approveBuilderFee c.approveBuilderFee)
  | .updateIsolatedMargin => do
    let c ← parseUpdateIsolatedMargin sdk hl payload
      { updateIsolatedMargin := action.updateIsolatedMargin }
    .ok (.updateIsolatedMargin c.updateIsolatedMargin)
  | .userSetAbstraction => do
    let c ← parseUserSetAbstraction sdk payload
      { userSetAbstraction := action.userSetAbstraction }
    .ok (.userSetAbstraction c.userSetAbstraction)

def handleAction (data : TlvData) (out : ActionCtx) : Except Failure ActionCtx :=
  if !checkReceivedTags out.receivedTags [tagActionType] then .error .rejected
  else do
    let union ← parseArm sdk hl out.action data.value
    .ok { out with action := { out.action with union := union } }

def actionTlvParser : TlvParser ActionCtx where
  tags :=
    [⟨tagStructType, handleStructType sdk, true⟩,
     ⟨tagStructVersion, handleStructVersion sdk, true⟩,
     ⟨tagActionType, handleActionType sdk, true⟩,
     ⟨tagNonce, handleNonce sdk, true⟩,
     ⟨tagAction, handleAction sdk hl, true⟩]
  common := noCommon

end

def verifyAction (out : ActionCtx) : Except Failure Unit :=
  requireTags out.receivedTags
    [tagStructType, tagStructVersion, tagActionType, tagNonce, tagAction]

/-! ## 2. Storing an action -/

/-- May an action of this type be added to the session?  A `MODIFY` session holds one action,
so the ones already stored matter. -/
def isActionCompatible (ctx : HlContext) (actionType : ActionType) (opType : OperationType) :
    Bool :=
  match opType with
  | .order =>
    actionType == .bulkOrder || actionType == .updateLeverage ||
      actionType == .approveBuilderFee || actionType == .userSetAbstraction
  | .modify =>
    if actionType != .bulkModify && actionType != .bulkOrder then false
    else (ctxGetAction .bulkModify ctx).isNone && (ctxGetAction .bulkOrder ctx).isNone
  | .cancel | .cancelSl | .cancelTp | .cancelTpSl => actionType == .bulkCancel
  | .close => actionType == .bulkOrder
  | .updateMargin => actionType == .updateIsolatedMargin
  | .updateLeverage => false

end Action

open Hyperliquid.Action

section

variable (sdk : Sdk)

/-- The value it returns and the context it leaves, unless a null pointer was read. -/
def parseAction (payload : Bytes) (ctx : HlContext) : Except Failure (Bool × HlContext) :=
  match ctxGetActionMetadata ctx with
  | none => .ok (false, ctx)
  | some metadata =>
    match (actionTlvParser sdk ctx).parseVerified sdk.tlvDecode verifyAction payload {} with
    | .error .rejected => .ok (false, ctx)
    | .error .nullDeref => .error .nullDeref
    | .ok out =>
      if !isActionCompatible ctx out.action.type metadata.opType then .ok (false, ctx)
      else .ok (ctxPushAction out.action ctx)

/-! ## 3. Hashing an action -/

/-- `MAX_SERIALIZED_ACTION_SIZE`, the size of `g_raw_buf`. -/
def maxSerializedActionSize : Nat := 1024

def actionSerialize (action : Action) : Ser Unit :=
  match action.type with
  | .bulkOrder => bulkOrderSerialize sdk action.bulkOrder
  | .bulkModify => bulkModifySerialize sdk action.bulkModify
  | .bulkCancel => bulkCancelSerialize sdk action.bulkCancel
  | .updateLeverage => updateLeverageSerialize sdk action.updateLeverage
  | .updateIsolatedMargin => updateIsolatedMarginSerialize sdk action.updateIsolatedMargin
  | .approveBuilderFee => failure
  | .userSetAbstraction => failure

/-- Serializes into `g_raw_buf`, from its start. -/
def serializeIntoRawBuf (action : Action) : Cx Bytes := do
  let s ← get
  let (result, buf) := (actionSerialize sdk action).exec
    { ptr := s.rawBuf, size := maxSerializedActionSize, offset := 0 }
  set { s with rawBuf := buf.ptr }
  match result with
  | none => failure
  | some () => pure (buf.ptr.take buf.offset)

def computeConnectionId (action : Action) (endByte : UInt8) : Cx Hash := do
  let serialized ← serializeIntoRawBuf sdk action
  let hashCtx ← cxKeccakInitNoThrow
  let hashCtx ← cxHashUpdate hashCtx serialized
  let hashCtx ← cxHashUpdate hashCtx (writeU64Be action.nonce)
  let hashCtx ← cxHashUpdate hashCtx [endByte]
  cxHashFinal sdk hashCtx

def actionHash (action : Action) (metadata : ActionMetadata) (walletAddr : Address) :
    Cx Eip712Hashes :=
  match action.type with
  | .approveBuilderFee =>
    eip712BuilderFeeHash sdk action.approveBuilderFee.signatureChainId
      (if metadata.network == .mainnet then text "Mainnet" else text "Testnet")
      action.approveBuilderFee.maxFeeRate.chars action.approveBuilderFee.builder action.nonce
  | .userSetAbstraction =>
    eip712AbstractionHash sdk action.userSetAbstraction.signatureChainId
      (if metadata.network == .mainnet then text "Mainnet" else text "Testnet")
      walletAddr (getAbstractionString action.userSetAbstraction) action.nonce
  | _ => do
    let connectionId ← computeConnectionId sdk action 0
    eip712CidHash sdk (if metadata.network == .mainnet then text "a" else text "b") connectionId

end

/-- The items an action is written as; the last two kinds are not serialized. -/
def Action.tokens (a : Action) : List Token :=
  match a.type with
  | .bulkOrder => a.bulkOrder.tokens
  | .bulkModify => a.bulkModify.tokens
  | .bulkCancel => a.bulkCancel.tokens
  | .updateLeverage => a.updateLeverage.tokens
  | .updateIsolatedMargin => a.updateIsolatedMargin.tokens
  | .approveBuilderFee => []
  | .userSetAbstraction => []

/-- The name that a serialized action begins with; two types are never serialized. -/
def ActionType.serializedName : ActionType → Option Bytes
  | .bulkOrder => some (text "order")
  | .bulkModify => some (text "batchModify")
  | .bulkCancel => some (text "cancel")
  | .updateLeverage => some (text "updateLeverage")
  | .updateIsolatedMargin => some (text "updateIsolatedMargin")
  | .approveBuilderFee => none
  | .userSetAbstraction => none

theorem actionSerialize_emits (sdk : Sdk) {a : Action}
    (h : a.type.serializedName ≠ none) :
    Emits sdk (actionSerialize sdk a) a.tokens := by
  unfold actionSerialize Action.tokens
  cases hty : a.type with
  | bulkOrder => exact bulkOrderSerialize_emits sdk a.bulkOrder
  | bulkModify => exact bulkModifySerialize_emits sdk a.bulkModify
  | bulkCancel => exact bulkCancelSerialize_emits sdk a.bulkCancel
  | updateLeverage => exact updateLeverageSerialize_emits sdk a.updateLeverage
  | updateIsolatedMargin => exact updateIsolatedMarginSerialize_emits sdk a.updateIsolatedMargin
  | approveBuilderFee => rw [hty] at h; exact absurd rfl h
  | userSetAbstraction => rw [hty] at h; exact absurd rfl h

/-- The other kinds are refused. -/
theorem actionSerialize_fails (sdk : Sdk) {a : Action} (h : a.type.serializedName = none) :
    actionSerialize sdk a = failure := by
  unfold actionSerialize
  cases hty : a.type with
  | approveBuilderFee => rfl
  | userSetAbstraction => rfl
  | bulkOrder | bulkModify | bulkCancel | updateLeverage | updateIsolatedMargin =>
    rw [hty] at h
    cases h

theorem actionSerialize_writes (sdk : Sdk) (a : Action) :
    Writes sdk (actionSerialize sdk a) a.tokens := by
  by_cases h : a.type.serializedName = none
  · rw [actionSerialize_fails sdk h]
    exact .fail _
  · exact (actionSerialize_emits sdk h).writes

/-! ## 4. What the hashes depend on -/

/-- What a serialization from the start of the buffer returns does not depend on the bytes that
the buffer held. -/
theorem actionSerialize_ptr (sdk : Sdk) (a : Action) (ptr ptr' : Bytes) (size : Nat) :
    let r := (actionSerialize sdk a).exec { ptr := ptr, size := size, offset := 0 }
    let r' := (actionSerialize sdk a).exec { ptr := ptr', size := size, offset := 0 }
    r.1 = r'.1 ∧ (r.1 = some () → r.2.ptr.take r.2.offset = r'.2.ptr.take r'.2.offset) := by
  intro r r'
  have hsame : r.1 = r'.1 := by
    by_cases h : a.type.serializedName = none
    · simp only [r, r', actionSerialize_fails sdk h, Fallible.exec_failure]
    · have hiff : r.1.isSome ↔ r'.1.isSome :=
        ((actionSerialize_emits sdk h).isSome ptr size).trans
          ((actionSerialize_emits sdk h).isSome ptr' size).symm
      cases hr : r.1 <;> cases hr' : r'.1 <;> simp_all
  refine ⟨hsame, fun hr => ?_⟩
  have hwrites := actionSerialize_writes sdk a
  rw [hwrites.take_offset (Prod.ext hr rfl), hwrites.take_offset (Prod.ext (hsame ▸ hr) rfl)]

section

open Fallible (Respects respects_pure respects_failure)

variable (sdk : Sdk) {P : CxCall → Prop}

theorem serializeIntoRawBuf_respects (a : Action) :
    Respects (SameButRawBuf P) (serializeIntoRawBuf sdk a) := by
  intro s t h
  unfold serializeIntoRawBuf
  rw [Fallible.exec_get_bind, Fallible.exec_get_bind]
  obtain ⟨hvalue, hbytes⟩ := actionSerialize_ptr sdk a s.rawBuf t.rawBuf maxSerializedActionSize
  generalize (actionSerialize sdk a).exec _ = r at hvalue hbytes
  generalize (actionSerialize sdk a).exec _ = r' at hvalue hbytes
  obtain ⟨o, buf⟩ := r
  obtain ⟨o', buf'⟩ := r'
  obtain rfl : o = o' := hvalue
  cases o with
  | none => exact ⟨rfl, h.outcomes, h.pubkey, h.ecdsa, h.calls, h.all⟩
  | some u =>
    have hbytes' : buf.ptr.take buf.offset = buf'.ptr.take buf'.offset := hbytes rfl
    exact ⟨congrArg some hbytes', h.outcomes, h.pubkey, h.ecdsa, h.calls, h.all⟩

variable (hP : ∀ message, P (.keccak message))

include hP

theorem computeConnectionId_respects (a : Action) (endByte : UInt8) :
    Respects (SameButRawBuf P) (computeConnectionId sdk a endByte) :=
  (serializeIntoRawBuf_respects sdk a).bind fun _ => respects_cxKeccakInitNoThrow.bind fun _ =>
    (respects_cxHashUpdate _ _).bind fun _ => (respects_cxHashUpdate _ _).bind fun _ =>
      (respects_cxHashUpdate _ _).bind fun _ => respects_cxHashFinal hP sdk _

theorem actionHash_respects (a : Action) (metadata : ActionMetadata) (walletAddr : Address) :
    Respects (SameButRawBuf P) (actionHash sdk a metadata walletAddr) := by
  have hcid (source : Bytes) : Respects (SameButRawBuf P)
      (do
        let connectionId ← computeConnectionId sdk a 0
        eip712CidHash sdk source connectionId) :=
    (computeConnectionId_respects sdk hP a 0).bind fun _ => hashes_respects sdk hP _ _
  unfold actionHash
  cases a.type with
  | approveBuilderFee => exact hashes_respects sdk hP _ _
  | userSetAbstraction =>
    cases getAbstractionString a.userSetAbstraction with
    | none => exact respects_failure
    | some abstraction => exact hashes_respects sdk hP _ _
  | _ => exact hcid _

end

/-! ## 5. What a stored action satisfies -/

namespace Action

/-- The asset fields inside an action. -/
def assets (a : Action) : List UInt32 :=
  match a.type with
  | .bulkOrder => a.bulkOrder.orders.elems.map fun o => o.asset
  | .bulkModify => a.bulkModify.modifies.elems.map fun m => m.order.asset
  | .bulkCancel => a.bulkCancel.cancels.elems.map fun c => c.asset
  | .updateLeverage => [a.updateLeverage.asset]
  | .updateIsolatedMargin => [a.updateIsolatedMargin.asset]
  | .approveBuilderFee => []
  | .userSetAbstraction => []

/-- The orders inside an action. -/
def orders (a : Action) : List OrderRequest :=
  match a.type with
  | .bulkOrder => a.bulkOrder.orders.elems
  | .bulkModify => a.bulkModify.modifies.elems.map fun m => m.order
  | _ => []

/-- What holds of every action that `parse_action` stores, whatever happens to the session. -/
structure WellFormed (a : Action) : Prop where
  arm : a.ArmMatches
  orderArms : ∀ o ∈ a.orders, o.ArmMatches
  abstraction : a.type = .userSetAbstraction →
    a.userSetAbstraction.abstraction = 0 ∨ a.userSetAbstraction.abstraction = 1 ∨
      a.userSetAbstraction.abstraction = 2

/-- The asset fields are the one of the metadata. -/
def AssetsMatch (hl : HlContext) (a : Action) : Prop :=
  ∀ x ∈ a.assets, ∃ m, hl.metadata = some m ∧ x = m.assetId

variable {sdk : Sdk} {hl : HlContext}

/-- What is parsed into a zeroed action of some type. -/
theorem parseArm_ok {a : Action} {payload : Bytes} {u : ActionUnion}
    (hzero : a.union = .bulkOrder {}) (h : parseArm sdk hl a payload = .ok u) :
    WellFormed { a with union := u } ∧ AssetsMatch hl { a with union := u } := by
  unfold parseArm at h
  split at h
  · rename_i hty
    obtain ⟨c, hp, hu⟩ := bind_ok_iff.mp h
    cases hu
    have hok := parseBulkOrder_ok (by simp [bulkOrder, hzero]) hp
    refine ⟨⟨?_, ?_, ?_⟩, ?_⟩
    · simp [ArmMatches, ActionUnion.type, hty]
    · simp only [orders, hty]
      exact fun o ho => (hok o ho).1
    · simp [hty]
    · simp only [AssetsMatch, assets, hty, List.forall_mem_map]
      exact fun o ho => (hok o ho).2
  · rename_i hty
    obtain ⟨c, hp, hu⟩ := bind_ok_iff.mp h
    cases hu
    have hok := parseBulkModify_ok (by simp [bulkModify, hzero]) hp
    refine ⟨⟨?_, ?_, ?_⟩, ?_⟩
    · simp [ArmMatches, ActionUnion.type, hty]
    · simp only [orders, hty, List.forall_mem_map]
      exact fun m hm => (hok m hm).1
    · simp [hty]
    · simp only [AssetsMatch, assets, hty, List.forall_mem_map]
      exact fun m hm => (hok m hm).2
  · rename_i hty
    obtain ⟨c, hp, hu⟩ := bind_ok_iff.mp h
    cases hu
    have hok := parseBulkCancel_ok (by simp [bulkCancel, hzero]) hp
    refine ⟨⟨?_, ?_, ?_⟩, ?_⟩
    · simp [ArmMatches, ActionUnion.type, hty]
    · simp [orders, hty]
    · simp [hty]
    · simp only [AssetsMatch, assets, hty, List.forall_mem_map]
      exact hok
  · rename_i hty
    obtain ⟨c, hp, hu⟩ := bind_ok_iff.mp h
    cases hu
    refine ⟨⟨?_, ?_, ?_⟩, ?_⟩
    · simp [ArmMatches, ActionUnion.type, hty]
    · simp [orders, hty]
    · simp [hty]
    · simp only [AssetsMatch, assets, hty, List.mem_singleton, forall_eq]
      exact parseUpdateLeverage_ok hp
  · rename_i hty
    obtain ⟨c, hp, hu⟩ := bind_ok_iff.mp h
    cases hu
    refine ⟨⟨?_, ?_, ?_⟩, ?_⟩
    · simp [ArmMatches, ActionUnion.type, hty]
    · simp [orders, hty]
    · simp [hty]
    · simp [AssetsMatch, assets, hty]
  · rename_i hty
    obtain ⟨c, hp, hu⟩ := bind_ok_iff.mp h
    cases hu
    refine ⟨⟨?_, ?_, ?_⟩, ?_⟩
    · simp [ArmMatches, ActionUnion.type, hty]
    · simp [orders, hty]
    · simp [hty]
    · simp only [AssetsMatch, assets, hty, List.mem_singleton, forall_eq]
      exact parseUpdateIsolatedMargin_ok hp
  · rename_i hty
    obtain ⟨c, hp, hu⟩ := bind_ok_iff.mp h
    cases hu
    refine ⟨⟨?_, ?_, ?_⟩, ?_⟩
    · simp [ArmMatches, ActionUnion.type, hty]
    · simp [orders, hty]
    · exact fun _ => parseUserSetAbstraction_ok hp
    · simp [AssetsMatch, assets, hty]

theorem parseArm_ne_nullDeref (hmd : hl.metadata ≠ none) (a : Action) (payload : Bytes) :
    parseArm sdk hl a payload ≠ .error .nullDeref := by
  intro h
  unfold parseArm at h
  split at h <;> obtain hp | ⟨c, -, hu⟩ := bind_error_iff.mp h
  all_goals first | cases hu | skip
  · exact parseBulkOrder_ne_nullDeref hmd _ _ hp
  · exact parseBulkModify_ne_nullDeref hmd _ _ hp
  · exact parseBulkCancel_ne_nullDeref hmd _ _ hp
  · exact parseUpdateLeverage_ne_nullDeref hmd _ hp
  · exact parseApproveBuilderFee_ne_nullDeref _ hp
  · exact parseUpdateIsolatedMargin_ne_nullDeref hmd _ hp
  · exact parseUserSetAbstraction_ne_nullDeref _ hp

/-- Neither looks at the nonce. -/
theorem ok_congr {a b : Action} (htype : b.type = a.type) (hunion : b.union = a.union)
    (h : WellFormed a ∧ AssetsMatch hl a) : WellFormed b ∧ AssetsMatch hl b := by
  cases a
  cases b
  cases htype
  cases hunion
  exact ⟨⟨h.1.arm, h.1.orderArms, h.1.abstraction⟩, h.2⟩

/-- The action is zeroed until its structure is read, which fixes its type. -/
structure StructRead (hl : HlContext) (out : ActionCtx) : Prop where
  before : tagAction ∉ out.receivedTags → out.action.union = .bulkOrder {}
  typed : tagAction ∈ out.receivedTags → tagActionType ∈ out.receivedTags
  after : tagAction ∈ out.receivedTags →
    WellFormed out.action ∧ AssetsMatch hl out.action

/-- An element other than the structure, which changes no more than the nonce. -/
theorem StructRead.frame {out out' : ActionCtx} {t : Nat} (h : StructRead hl out)
    (ht : t ≠ tagAction) (htags : out'.receivedTags = t :: out.receivedTags)
    (htype : out'.action.type = out.action.type)
    (hunion : out'.action.union = out.action.union) : StructRead hl out' := by
  have hmem : tagAction ∈ out'.receivedTags → tagAction ∈ out.receivedTags := fun hin => by
    rw [htags] at hin
    exact List.mem_of_ne_of_mem ht.symm hin
  refine ⟨fun hno => ?_, fun hin => ?_, fun hin => ?_⟩
  · rw [hunion]
    exact h.before fun hin => hno (by rw [htags]; exact List.mem_cons_of_mem _ hin)
  · rw [htags]
    exact List.mem_cons_of_mem _ (h.typed (hmem hin))
  · exact ok_congr htype hunion (h.after (hmem hin))

/-- Every element preserves it. -/
theorem structRead_row (row : TagHandler ActionCtx)
    (hrow : row ∈ (actionTlvParser sdk hl).tags) (d : TlvData) (s s₁ s' : ActionCtx)
    (hs : StructRead hl s) (hnew : row.unique = true → row.tag ∉ TlvContext.receivedTags s)
    (hc : (actionTlvParser sdk hl).common d (TlvContext.receive row.tag s) = .ok s₁)
    (h : row.handler d s₁ = .ok s') : StructRead hl s' := by
  cases hc
  simp only [actionTlvParser, List.mem_cons, List.not_mem_nil, or_false] at hrow
  rcases hrow with rfl | rfl | rfl | rfl | rfl
  · simp only [handleStructType, storing_ok] at h
    obtain ⟨b, -, rfl⟩ := h
    exact hs.frame (t := tagStructType) (by decide) rfl rfl rfl
  · simp only [handleStructVersion, storing_ok] at h
    obtain ⟨b, -, rfl⟩ := h
    exact hs.frame (t := tagStructVersion) (by decide) rfl rfl rfl
  · -- the type: it cannot come after the structure, which asks for it
    simp only [handleActionType, storing_ok] at h
    obtain ⟨t, -, rfl⟩ := h
    have hno : tagAction ∉ s.receivedTags := fun hin => hnew rfl (hs.typed hin)
    have hno' : tagAction ∉ tagActionType :: s.receivedTags := fun hin =>
      hno (List.mem_of_ne_of_mem (by decide) hin)
    exact ⟨fun _ => hs.before hno, fun hin => absurd hin hno', fun hin => absurd hin hno'⟩
  · simp only [handleNonce, storing_ok] at h
    obtain ⟨n, -, rfl⟩ := h
    exact hs.frame (t := tagNonce) (by decide) rfl rfl rfl
  · dsimp only at h
    unfold handleAction at h
    split at h
    · cases h
    · rename_i htag
      obtain ⟨u, hp, hout⟩ := bind_ok_iff.mp h
      cases hout
      rw [Bool.not_eq_true, Bool.not_eq_false'] at htag
      have hzero : s.action.union = .bulkOrder {} := hs.before (hnew rfl)
      refine ⟨fun hno => absurd ?_ hno, fun _ => ?_, fun _ => parseArm_ok hzero hp⟩
      · exact List.mem_cons_self
      · exact checkReceivedTags_iff.mp htag _ (by simp)

/-- A parsed action. -/
theorem actionTlvParser_ok {payload : Bytes} {out : ActionCtx}
    (h : (actionTlvParser sdk hl).parseVerified sdk.tlvDecode verifyAction payload {} =
      .ok out) : WellFormed out.action ∧ AssetsMatch hl out.action := by
  obtain ⟨hp, hv⟩ := TlvParser.parseVerified_ok.mp h
  have hread : StructRead hl out := by
    refine TlvParser.parse_induction (P := StructRead hl) ?_ ?_ hp
    · intro row hrow d s s₁ s' _ hs hnew hc hh
      exact structRead_row row hrow d s s₁ s' hs hnew hc hh
    · exact ⟨fun _ => rfl, fun hin => by simp at hin, fun hin => by simp at hin⟩
  exact hread.after (requireTags_ok.mp hv _ (by simp))

theorem actionTlvParser_ne_nullDeref (hmd : hl.metadata ≠ none) (payload : Bytes)
    (out : ActionCtx) :
    (actionTlvParser sdk hl).parseVerified sdk.tlvDecode verifyAction payload out ≠
      .error .nullDeref := by
  refine TlvParser.parseVerified_ne_nullDeref noCommon_ne_nullDeref ?_ ?_ payload out
  · simp only [actionTlvParser, List.forall_mem_cons, List.not_mem_nil, false_implies,
      implies_true, and_true]
    refine ⟨storing_ne_nullDeref, storing_ne_nullDeref, storing_ne_nullDeref,
      storing_ne_nullDeref, fun d s h => ?_⟩
    unfold handleAction at h
    split at h
    · cases h
    · obtain hp | ⟨u, -, hout⟩ := bind_error_iff.mp h
      · exact parseArm_ne_nullDeref hmd _ _ hp
      · cases hout
  · exact fun s => requireTags_ne_nullDeref _ _

end Action

/-- What `parse_action` can do: refuse and change nothing, or append one well-formed action
that the operation allows, before signing has started. -/
theorem parseAction_cases {sdk : Sdk} {payload : Bytes} {ctx ctx' : HlContext} {ret : Bool}
    (h : parseAction sdk payload ctx = .ok (ret, ctx')) :
    (ret = false ∧ ctx' = ctx) ∨
    (ret = true ∧ ∃ metadata a, ctx.metadata = some metadata ∧ a.WellFormed ∧
      AssetsMatch ctx a ∧ isActionCompatible ctx a.type metadata.opType = true ∧
      ctx.actionIndex = 0 ∧ (∀ b ∈ ctx.actions.elems, b.type ≠ a.type) ∧
      ctx'.metadata = ctx.metadata ∧ ctx'.actionIndex = 0 ∧
      ctx'.actions.elems = ctx.actions.elems ++ [a]) := by
  unfold parseAction ctxGetActionMetadata at h
  split at h
  · cases h
    exact .inl ⟨rfl, rfl⟩
  · rename_i metadata hmd
    split at h
    · cases h
      exact .inl ⟨rfl, rfl⟩
    · cases h
    · rename_i out hout
      split at h
      · cases h
        exact .inl ⟨rfl, rfl⟩
      · rename_i hcompat
        obtain ⟨hwf, hassets⟩ := actionTlvParser_ok hout
        rcases ctxPushAction_cases out.action ctx with hpush | ⟨hidx, hnew, c, hpush, hc⟩
        · rw [hpush] at h
          cases h
          exact .inl ⟨rfl, rfl⟩
        · rw [hpush] at h
          cases h
          exact .inr ⟨rfl, metadata, out.action, hmd, hwf, hassets, by simpa using hcompat,
            hidx, hnew, hc⟩

/-- `parse_action` looks for the metadata before anything else, so it never dereferences a
missing one: it always returns. -/
theorem parseAction_returns (sdk : Sdk) (payload : Bytes) (ctx : HlContext) :
    ∃ r, parseAction sdk payload ctx = .ok r := by
  unfold parseAction ctxGetActionMetadata
  split
  · exact ⟨_, rfl⟩
  · rename_i metadata hmd
    split
    · exact ⟨_, rfl⟩
    · rename_i hnull
      exact absurd hnull (actionTlvParser_ne_nullDeref (by simp [hmd]) _ _)
    · split <;> exact ⟨_, rfl⟩

/-- An action as `parse_action` can store it. -/
def Storable (sdk : Sdk) (a : Action) : Prop :=
  ∃ payload ctx ctx', parseAction sdk payload ctx = .ok (true, ctx') ∧
    ctx'.actions.elems = ctx.actions.elems ++ [a]

theorem Storable.wellFormed {sdk : Sdk} {a : Action} (h : Storable sdk a) : a.WellFormed := by
  obtain ⟨payload, ctx, ctx', hp, helems⟩ := h
  rcases parseAction_cases hp with ⟨hret, -⟩ | ⟨-, m, b, -, hwf, -, -, -, -, -, -, helems'⟩
  · cases hret
  · rw [helems'] at helems
    cases List.append_cancel_left helems
    exact hwf

/-- The first action that is stored under some metadata. -/
theorem Storable.of_stores {sdk : Sdk} {a : Action} (payload : Bytes) (m : ActionMetadata)
    (h : (parseAction sdk payload { metadata := some m }).toOption.map
      (fun r => (r.1, r.2.actions.elems)) = some (true, [a])) : Storable sdk a := by
  obtain ⟨⟨ret, ctx'⟩, hr, hstored⟩ := Option.map_eq_some_iff.mp h
  cases hp : parseAction sdk payload { metadata := some m } with
  | error e =>
    rw [hp] at hr
    cases hr
  | ok r =>
    rw [hp] at hr
    cases hr
    obtain ⟨rfl, helems⟩ := Prod.mk.inj hstored
    exact ⟨payload, _, ctx', hp, helems⟩

end Hyperliquid

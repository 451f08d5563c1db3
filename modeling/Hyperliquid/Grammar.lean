/-
# The grammar of an action payload

What `SET_ACTION` accepts, said of the bytes and not of the parser: an action is a record of five
fields, its structure is a record or an array of records, and so on down to the numbers and texts.
A field may stand anywhere, but a type stands before what it is the type of; no field comes twice,
and no field that is not named here comes at all.

The parsers accept exactly this (`Lib.TlvRecord`, one theorem for each structure), so
`parse_action` does exactly what is said of it in these terms (`parseAction_accepts`).
-/
import Hyperliquid.BulkElements
import Hyperliquid.ClientTransfer
import Hyperliquid.FieldOrder
import Hyperliquid.Lib.TlvRecord
import Hyperliquid.StoringCommands

namespace Hyperliquid.Grammar

open Lib TlvParser

/-! ## 1. The grammar -/

section

variable (sdk : Sdk)

/-- The payload splits into elements that satisfy `P`. -/
def Elements (P : List TlvData → Prop) (payload : Bytes) : Prop :=
  ∃ ds, sdk.tlvDecode payload = some ds ∧ P ds

/-- A byte that stands for a value. -/
def byte {α : Type} (f : UInt8 → Option α) (d : TlvData) : Option α :=
  sdk.getUint8TFromTlvData d >>= f

/-- A byte that has one value. -/
def constant (b : UInt8) (d : TlvData) : Option UInt8 :=
  (sdk.getUint8TFromTlvData d).filter (· == b)

def numericString (d : TlvData) : Option (CString numericStringLength) :=
  sdk.getStringFromTlvData d 1 numericStringLength

def address (d : TlvData) : Option Address :=
  (sdk.getBufferFromTlvData d addressLength addressLength).map addressOfBuffer

/-- A nested structure is read from the value of its element. -/
def Nested (P : Bytes → Prop) (t : Nat) (ds : List TlvData) : Prop :=
  ∃ d, element t ds = some d ∧ P d.value

section

open OrderRequest

structure IsLimit (l : Limit) (ds : List TlvData) : Prop where
  record : IsRecord [tagTif] [] ds
  tif : field (byte sdk tifOfByte) tagTif ds = some l.tif

structure IsTrigger (t : Trigger) (ds : List TlvData) : Prop where
  record : IsRecord [tagIsMarket, tagTriggerPx, tagTriggerType] [] ds
  isMarket : field sdk.getBoolFromTlvData tagIsMarket ds = some t.isMarket
  triggerPx : field (numericString sdk) tagTriggerPx ds = some t.triggerPx
  tpsl : field (byte sdk triggerTypeOfByte) tagTriggerType ds = some t.tpsl

/-- The inner order that the type selects. -/
def IsInner (orderType : OrderType) (union : OrderUnion) (payload : Bytes) : Prop :=
  match orderType, union with
  | .limit, .limit l => Elements sdk (IsLimit sdk l) payload
  | .trigger, .trigger t => Elements sdk (IsTrigger sdk t) payload
  | _, _ => False

structure IsOrder (asset : UInt32) (o : OrderRequest) (ds : List TlvData) : Prop where
  record : IsRecord
    [tagOrderType, tagAsset, tagIsBuy, tagLimitPx, tagSz, tagReduceOnly, tagOrder] [tagCloid] ds
  first : InOrder (typeFirst tagOrderType tagOrder) ds
  orderType : field (byte sdk orderTypeOfByte) tagOrderType ds = some o.orderType
  assetField : field sdk.getUint32TFromTlvData tagAsset ds = some o.asset
  isBuy : field sdk.getBoolFromTlvData tagIsBuy ds = some o.isBuy
  limitPx : field (numericString sdk) tagLimitPx ds = some o.limitPx
  sz : field (numericString sdk) tagSz ds = some o.sz
  reduceOnly : field sdk.getBoolFromTlvData tagReduceOnly ds = some o.reduceOnly
  order : Nested (IsInner sdk o.orderType o.union) tagOrder ds
  cloid : OptionalField (fun d => cloidOfBytes d.value) tagCloid ds o.cloid
  sameAsset : o.asset = asset

end

section

open BulkOrder

structure IsBuilderInfo (b : BuilderInfo) (ds : List TlvData) : Prop where
  record : IsRecord [tagBuilderAddress, tagBuilderFee] [] ds
  builder : field (address sdk) tagBuilderAddress ds = some b.builder
  fee : field sdk.getUint64TFromTlvData tagBuilderFee ds = some b.fee

/-- The one field that may come several times. -/
structure IsBulkOrder (asset : UInt32) (b : BulkOrder) (ds : List TlvData) : Prop where
  known : ∀ d ∈ ds, d.tag ∈ [tagOrder, tagGrouping, tagBuilder]
  nonempty : b.orders.elems ≠ []
  orders : List.Forall₂ (fun d o => Elements sdk (IsOrder sdk asset o) d.value)
    (occurrences tagOrder ds) b.orders.elems
  grouping : ∃ d, occurrences tagGrouping ds = [d] ∧ byte sdk groupingOfByte d = some b.grouping
  builder : (occurrences tagBuilder ds = [] ∧ b.builder = none) ∨
    ∃ d i, occurrences tagBuilder ds = [d] ∧ Elements sdk (IsBuilderInfo sdk i) d.value ∧
      b.builder = some i

end

section

open BulkModify

structure IsModify (asset : UInt32) (m : ModifyRequest) (ds : List TlvData) : Prop where
  record : IsRecord [tagOrder, tagOid] [] ds
  order : Nested (Elements sdk (IsOrder sdk asset m.order)) tagOrder ds
  oid : field sdk.getUint64TFromTlvData tagOid ds = some m.oid

structure IsBulkModify (asset : UInt32) (b : BulkModify) (ds : List TlvData) : Prop where
  known : ∀ d ∈ ds, d.tag = tagModifyRequest
  nonempty : b.modifies.elems ≠ []
  modifies : List.Forall₂ (fun d m => Elements sdk (IsModify sdk asset m) d.value) ds
    b.modifies.elems

end

section

open BulkCancel

structure IsCancel (asset : UInt32) (c : CancelRequest) (ds : List TlvData) : Prop where
  record : IsRecord [tagAsset, tagOid] [] ds
  assetField : field sdk.getUint32TFromTlvData tagAsset ds = some c.asset
  oid : field sdk.getUint64TFromTlvData tagOid ds = some c.oid
  sameAsset : c.asset = asset

structure IsBulkCancel (asset : UInt32) (b : BulkCancel) (ds : List TlvData) : Prop where
  known : ∀ d ∈ ds, d.tag = tagCancelRequest
  nonempty : b.cancels.elems ≠ []
  cancels : List.Forall₂ (fun d c => Elements sdk (IsCancel sdk asset c) d.value) ds
    b.cancels.elems

end

structure IsUpdateLeverage (asset : UInt32) (u : UpdateLeverage) (ds : List TlvData) : Prop where
  record : IsRecord
    [UpdateLeverage.tagAsset, UpdateLeverage.tagIsCross, UpdateLeverage.tagLeverage] [] ds
  assetField : field sdk.getUint32TFromTlvData UpdateLeverage.tagAsset ds = some u.asset
  isCross : field sdk.getBoolFromTlvData UpdateLeverage.tagIsCross ds = some u.isCross
  leverage : field sdk.getUint32TFromTlvData UpdateLeverage.tagLeverage ds = some u.leverage
  sameAsset : u.asset = asset

structure IsUpdateIsolatedMargin (asset : UInt32) (u : UpdateIsolatedMargin)
    (ds : List TlvData) : Prop where
  record : IsRecord [UpdateIsolatedMargin.tagAsset, UpdateIsolatedMargin.tagIsBuy,
    UpdateIsolatedMargin.tagNtli] [] ds
  assetField : field sdk.getUint32TFromTlvData UpdateIsolatedMargin.tagAsset ds = some u.asset
  isBuy : field sdk.getBoolFromTlvData UpdateIsolatedMargin.tagIsBuy ds = some u.isBuy
  ntli : ∃ n, field sdk.getUint64TFromTlvData UpdateIsolatedMargin.tagNtli ds = some n ∧
    u.ntli = n.toInt64
  sameAsset : u.asset = asset

structure IsApproveBuilderFee (f : ApproveBuilderFee) (ds : List TlvData) : Prop where
  record : IsRecord [ApproveBuilderFee.tagSignatureChainId, ApproveBuilderFee.tagMaxFeeRate,
    ApproveBuilderFee.tagBuilderAddr] [] ds
  signatureChainId :
    field sdk.getUint64TFromTlvData ApproveBuilderFee.tagSignatureChainId ds =
      some f.signatureChainId
  maxFeeRate : field (numericString sdk) ApproveBuilderFee.tagMaxFeeRate ds = some f.maxFeeRate
  builder : field (address sdk) ApproveBuilderFee.tagBuilderAddr ds = some f.builder

structure IsUserSetAbstraction (u : UserSetAbstraction) (ds : List TlvData) : Prop where
  record : IsRecord
    [UserSetAbstraction.tagSignatureChainId, UserSetAbstraction.tagAbstraction] [] ds
  signatureChainId :
    field sdk.getUint64TFromTlvData UserSetAbstraction.tagSignatureChainId ds =
      some u.signatureChainId
  abstraction :
    field sdk.getUint8TFromTlvData UserSetAbstraction.tagAbstraction ds = some u.abstraction
  known : u.abstraction = 0 ∨ u.abstraction = 1 ∨ u.abstraction = 2

/-- The structure that the type selects. -/
def IsUnion (asset : UInt32) (type : ActionType) (union : ActionUnion) (payload : Bytes) : Prop :=
  type = union.type ∧
    match union with
    | .bulkOrder b => Elements sdk (IsBulkOrder sdk asset b) payload
    | .bulkModify b => Elements sdk (IsBulkModify sdk asset b) payload
    | .bulkCancel b => Elements sdk (IsBulkCancel sdk asset b) payload
    | .updateLeverage u => Elements sdk (IsUpdateLeverage sdk asset u) payload
    | .approveBuilderFee f => Elements sdk (IsApproveBuilderFee sdk f) payload
    | .updateIsolatedMargin u => Elements sdk (IsUpdateIsolatedMargin sdk asset u) payload
    | .userSetAbstraction u => Elements sdk (IsUserSetAbstraction sdk u) payload

open Hyperliquid.Action in
structure IsAction (asset : UInt32) (a : Action) (ds : List TlvData) : Prop where
  record : IsRecord [tagStructType, tagStructVersion, tagActionType, tagNonce, tagAction] [] ds
  first : InOrder (typeFirst tagActionType tagAction) ds
  structType : field (constant sdk structType) tagStructType ds = some structType
  structVersion : field (constant sdk 1) tagStructVersion ds = some 1
  actionType : field (byte sdk actionTypeOfByte) tagActionType ds = some a.type
  nonce : field sdk.getUint64TFromTlvData tagNonce ds = some a.nonce
  union : Nested (IsUnion sdk asset a.type a.union) tagAction ds

end

/-! ## 2. The records -/

theorem inOrder_noFirst (ds : List TlvData) : InOrder noFirst ds :=
  List.pairwise_of_forall fun _ _ h => h

/-- The check of a record without further conditions. -/
theorem requireTags_ok_true {received tags : List Nat} :
    requireTags received tags = .ok () ↔ (∀ t ∈ tags, t ∈ received) ∧ True := by
  rw [requireTags_ok, and_true]

/-- The check of a record for an asset. -/
theorem requireTags_checkAsset_ok {received tags : List Nat} {hl : HlContext} {m : ActionMetadata}
    (hm : hl.metadata = some m) {asset : UInt32} :
    (do
      requireTags received tags
      checkAsset hl asset) = .ok () ↔ (∀ t ∈ tags, t ∈ received) ∧ asset = m.assetId := by
  have hasset : checkAsset hl asset = .ok () ↔ asset = m.assetId := by
    rw [checkAsset_ok, hm]
    simp
  rw [bind_ok_iff, ← requireTags_ok]
  constructor
  · rintro ⟨⟨⟩, htags, h⟩
    exact ⟨htags, hasset.mp h⟩
  · rintro ⟨htags, h⟩
    exact ⟨(), htags, hasset.mpr h⟩

section

variable {sdk : Sdk} {payload : Bytes}

open OrderRequest in
theorem parseLimitOrder_iff {l : Limit} :
    (∃ c, parseLimitOrder sdk payload {} = .ok c ∧ c.limit = l) ↔
      Elements sdk (IsLimit sdk l) payload := by
  have htable : (limitOrderTlvParser sdk).RecordTable noFirst :=
    .of_noFirst (limitOrderTlvParser_orderFree sdk) (by simp [limitOrderTlvParser])
  refine (htable.parseVerified_iff LimitCtx.limit [tagTif] [] (fun _ => True) (fun _ _ => rfl) rfl
    rfl fun _ => requireTags_ok_true).trans (exists_congr fun ds => and_congr_right fun _ => ?_)
  constructor
  · rintro ⟨hrecord, -, -, c, hread, rfl⟩
    have hmem : ∀ t ∈ [tagTif], t ∈ ds.map TlvData.tag := hrecord.complete
    obtain ⟨tif, htif, hread⟩ := (readTable_field (hmem tagTif (by simp))).mp hread
    obtain rfl := readTable_nil.mp hread
    exact ⟨hrecord, htif⟩
  · rintro ⟨hrecord, htif⟩
    exact ⟨hrecord, inOrder_noFirst ds, trivial, _,
      readTable_of_field htif (readTable_nil.mpr rfl), rfl⟩

open OrderRequest in
theorem parseTriggerOrder_iff {t : Trigger} :
    (∃ c, parseTriggerOrder sdk payload {} = .ok c ∧ c.trigger = t) ↔
      Elements sdk (IsTrigger sdk t) payload := by
  have htable : (triggerOrderTlvParser sdk).RecordTable noFirst :=
    .of_noFirst (triggerOrderTlvParser_orderFree sdk) (by simp [triggerOrderTlvParser])
  refine (htable.parseVerified_iff TriggerCtx.trigger
    [tagIsMarket, tagTriggerPx, tagTriggerType] [] (fun _ => True) (fun _ _ => rfl) rfl rfl
    fun _ => requireTags_ok_true).trans (exists_congr fun ds => and_congr_right fun _ => ?_)
  constructor
  · rintro ⟨hrecord, -, -, c, hread, rfl⟩
    have hmem := hrecord.complete
    obtain ⟨isMarket, hmarket, hread⟩ := (readTable_field (hmem tagIsMarket (by simp))).mp hread
    obtain ⟨px, hpx, hread⟩ := (readTable_field (hmem tagTriggerPx (by simp))).mp hread
    obtain ⟨tpsl, htpsl, hread⟩ := (readTable_field (hmem tagTriggerType (by simp))).mp hread
    obtain rfl := readTable_nil.mp hread
    exact ⟨hrecord, hmarket, hpx, htpsl⟩
  · rintro ⟨hrecord, hmarket, hpx, htpsl⟩
    exact ⟨hrecord, inOrder_noFirst ds, trivial, _,
      readTable_of_field hmarket (readTable_of_field hpx (readTable_of_field htpsl
        (readTable_nil.mpr rfl))), rfl⟩

section

open OrderRequest

variable {d : TlvData} {out out' : OrderRequestCtx}

/-- Nothing of the inner order has been read. -/
structure Uninformed (out : OrderRequestCtx) : Prop where
  typed : tagOrderType ∈ out.receivedTags
  union : out.orderRequest.union = .limit {}
  limitCtx : out.limitCtx = {}
  triggerCtx : out.triggerCtx = {}

/-- The inner order is the one that the type selects. -/
theorem isInner_of_handleOrder (hout : Uninformed out) (h : handleOrder sdk d out = .ok out') :
    IsInner sdk out.orderRequest.orderType out'.orderRequest.union d.value ∧
      out'.orderRequest = { out.orderRequest with union := out'.orderRequest.union } := by
  obtain ⟨tags, ⟨asset, isBuy, limitPx, sz, reduceOnly, orderType, union, cloid⟩, limitCtx,
    triggerCtx⟩ := out
  obtain ⟨htyped, rfl, rfl, rfl⟩ := hout
  have hcheck : checkReceivedTags tags [tagOrderType] = true :=
    checkReceivedTags_iff.mpr (by simpa using htyped)
  unfold handleOrder at h
  rw [hcheck] at h
  cases orderType with
  | limit =>
    obtain ⟨c, hc, hout⟩ := bind_ok_iff.mp h
    cases hout
    exact ⟨parseLimitOrder_iff.mp ⟨c, hc, rfl⟩, rfl⟩
  | trigger =>
    obtain ⟨c, hc, hout⟩ := bind_ok_iff.mp h
    cases hout
    exact ⟨parseTriggerOrder_iff.mp ⟨c, hc, rfl⟩, rfl⟩

/-- An inner order of the selected type is accepted. -/
theorem handleOrder_of_isInner (hout : Uninformed out) {union : OrderUnion}
    (h : IsInner sdk out.orderRequest.orderType union d.value) :
    ∃ out', handleOrder sdk d out = .ok out' ∧
      out'.orderRequest = { out.orderRequest with union := union } := by
  obtain ⟨tags, ⟨asset, isBuy, limitPx, sz, reduceOnly, orderType, blank, cloid⟩, limitCtx,
    triggerCtx⟩ := out
  obtain ⟨htyped, rfl, rfl, rfl⟩ := hout
  have hcheck : checkReceivedTags tags [tagOrderType] = true :=
    checkReceivedTags_iff.mpr (by simpa using htyped)
  unfold handleOrder
  rw [hcheck]
  cases orderType with
  | limit =>
    cases union with
    | trigger t => exact h.elim
    | limit l =>
      obtain ⟨c, hc, rfl⟩ := parseLimitOrder_iff.mpr h
      exact ⟨_, bind_ok_iff.mpr ⟨c, hc, rfl⟩, rfl⟩
  | trigger =>
    cases union with
    | limit l => exact h.elim
    | trigger t =>
      obtain ⟨c, hc, rfl⟩ := parseTriggerOrder_iff.mpr h
      exact ⟨_, bind_ok_iff.mpr ⟨c, hc, rfl⟩, rfl⟩

theorem parseOrderRequest_iff {hl : HlContext} {m : ActionMetadata} (hm : hl.metadata = some m)
    {o : OrderRequest} :
    (∃ c, parseOrderRequest sdk hl payload {} = .ok c ∧ c.orderRequest = o) ↔
      Elements sdk (IsOrder sdk m.assetId o) payload := by
  have htable : (orderRequestTlvParser sdk).RecordTable (typeFirst tagOrderType tagOrder) := by
    refine ⟨orderRequestTlvParser_orderFree sdk, ?_, ?_⟩
    · simp [orderRequestTlvParser]
    · simp [orderRequestTlvParser, typeFirst]
  refine (htable.parseVerified_iff OrderRequestCtx.orderRequest
    [tagOrderType, tagAsset, tagIsBuy, tagLimitPx, tagSz, tagReduceOnly, tagOrder] [tagCloid]
    (fun o => o.asset = m.assetId) (fun _ _ => rfl) rfl rfl
    fun _ => requireTags_checkAsset_ok hm).trans
    (exists_congr fun ds => and_congr_right fun _ => ?_)
  constructor
  · rintro ⟨hrecord, hfirst, hasset, c, hread, rfl⟩
    have hmem := hrecord.complete
    obtain ⟨type, htype, hread⟩ := (readTable_field (hmem tagOrderType (by simp))).mp hread
    obtain ⟨asset, hassetField, hread⟩ := (readTable_field (hmem tagAsset (by simp))).mp hread
    obtain ⟨isBuy, hbuy, hread⟩ := (readTable_field (hmem tagIsBuy (by simp))).mp hread
    obtain ⟨px, hpx, hread⟩ := (readTable_field (hmem tagLimitPx (by simp))).mp hread
    obtain ⟨sz, hsz, hread⟩ := (readTable_field (hmem tagSz (by simp))).mp hread
    obtain ⟨reduce, hreduce, hread⟩ := (readTable_field (hmem tagReduceOnly (by simp))).mp hread
    obtain ⟨d, hd, out, hout, hread⟩ := (readTable_cons (hmem tagOrder (by simp))).mp hread
    obtain ⟨cloid, hcloid, hread⟩ := readTable_optional.mp hread
    obtain rfl := readTable_nil.mp hread
    obtain ⟨hinner, hrest⟩ := isInner_of_handleOrder ⟨by simp [TlvContext.receive], rfl, rfl, rfl⟩
      hout
    generalize out.orderRequest.union = union at hinner hrest
    obtain ⟨tags, orderRequest, limitCtx, triggerCtx⟩ := out
    obtain rfl : orderRequest = _ := hrest
    cases cloid with
    | none =>
      exact ⟨hrecord, hfirst, htype, hassetField, hbuy, hpx, hsz, hreduce, ⟨d, hd, hinner⟩, hcloid,
        hasset⟩
    | some cloid =>
      exact ⟨hrecord, hfirst, htype, hassetField, hbuy, hpx, hsz, hreduce, ⟨d, hd, hinner⟩, hcloid,
        hasset⟩
  · rintro ⟨hrecord, hfirst, htype, hassetField, hbuy, hpx, hsz, hreduce, ⟨d, hd, hinner⟩, hcloid,
      hasset⟩
    obtain ⟨asset, isBuy, px, sz, reduce, type, union, cloid⟩ := o
    refine ⟨hrecord, hfirst, hasset, ?_⟩
    let typed : OrderRequestCtx :=
      { receivedTags :=
          [tagOrder, tagReduceOnly, tagSz, tagLimitPx, tagIsBuy, tagAsset, tagOrderType]
        orderRequest := ⟨asset, isBuy, px, sz, reduce, type, .limit {}, none⟩ }
    have hblank : Uninformed typed := ⟨by simp [typed], rfl, rfl, rfl⟩
    obtain ⟨out, hout, hrest⟩ := handleOrder_of_isInner hblank hinner
    have hread : readTable ds (orderRequestTlvParser sdk).tags {} =
        .ok (cloid.elim out fun c =>
          { TlvContext.receive tagCloid out with
            orderRequest := { out.orderRequest with cloid := some c } }) :=
      readTable_of_field htype (readTable_of_field hassetField (readTable_of_field hbuy
        (readTable_of_field hpx (readTable_of_field hsz (readTable_of_field hreduce
          ((readTable_cons (hrecord.complete tagOrder (by simp))).mpr ⟨d, hd, out, hout,
            readTable_optional.mpr ⟨cloid, hcloid, readTable_nil.mpr rfl⟩⟩))))))
    refine ⟨_, hread, ?_⟩
    cases cloid with
    | none => exact hrest
    | some c =>
      show { out.orderRequest with cloid := some c } = _
      rw [hrest]

end

open BulkOrder in
theorem parseBuilderInfo_iff {b : BuilderInfo} :
    (∃ c, parseBuilderInfo sdk payload {} = .ok c ∧ c.builderInfo = b) ↔
      Elements sdk (IsBuilderInfo sdk b) payload := by
  have htable : (builderInfoTlvParser sdk).RecordTable noFirst :=
    .of_noFirst (builderInfoTlvParser_orderFree sdk) (by simp [builderInfoTlvParser])
  refine (htable.parseVerified_iff BuilderInfoCtx.builderInfo [tagBuilderAddress, tagBuilderFee]
    [] (fun _ => True) (fun _ _ => rfl) rfl rfl fun _ => requireTags_ok_true).trans
    (exists_congr fun ds => and_congr_right fun _ => ?_)
  constructor
  · rintro ⟨hrecord, -, -, c, hread, rfl⟩
    have hmem := hrecord.complete
    obtain ⟨a, ha, hread⟩ := (readTable_field (hmem tagBuilderAddress (by simp))).mp hread
    obtain ⟨fee, hfee, hread⟩ := (readTable_field (hmem tagBuilderFee (by simp))).mp hread
    obtain rfl := readTable_nil.mp hread
    exact ⟨hrecord, ha, hfee⟩
  · rintro ⟨hrecord, ha, hfee⟩
    exact ⟨hrecord, inOrder_noFirst ds, trivial, _,
      readTable_of_field ha (readTable_of_field hfee (readTable_nil.mpr rfl)), rfl⟩

open ApproveBuilderFee in
theorem parseApproveBuilderFee_iff {f : ApproveBuilderFee} :
    (∃ c, parseApproveBuilderFee sdk payload {} = .ok c ∧ c.approveBuilderFee = f) ↔
      Elements sdk (IsApproveBuilderFee sdk f) payload := by
  have htable : (approveBuilderFeeTlvParser sdk).RecordTable noFirst :=
    .of_noFirst (approveBuilderFeeTlvParser_orderFree sdk) (by simp [approveBuilderFeeTlvParser])
  refine (htable.parseVerified_iff ApproveBuilderFeeCtx.approveBuilderFee
    [tagSignatureChainId, tagMaxFeeRate, tagBuilderAddr] [] (fun _ => True) (fun _ _ => rfl) rfl
    rfl fun _ => requireTags_ok_true).trans (exists_congr fun ds => and_congr_right fun _ => ?_)
  constructor
  · rintro ⟨hrecord, -, -, c, hread, rfl⟩
    have hmem := hrecord.complete
    obtain ⟨i, hi, hread⟩ := (readTable_field (hmem tagSignatureChainId (by simp))).mp hread
    obtain ⟨rate, hrate, hread⟩ := (readTable_field (hmem tagMaxFeeRate (by simp))).mp hread
    obtain ⟨a, ha, hread⟩ := (readTable_field (hmem tagBuilderAddr (by simp))).mp hread
    obtain rfl := readTable_nil.mp hread
    exact ⟨hrecord, hi, hrate, ha⟩
  · rintro ⟨hrecord, hi, hrate, ha⟩
    exact ⟨hrecord, inOrder_noFirst ds, trivial, _,
      readTable_of_field hi (readTable_of_field hrate (readTable_of_field ha
        (readTable_nil.mpr rfl))), rfl⟩

open UserSetAbstraction in
theorem parseUserSetAbstraction_iff {u : UserSetAbstraction} :
    (∃ c, parseUserSetAbstraction sdk payload {} = .ok c ∧ c.userSetAbstraction = u) ↔
      Elements sdk (IsUserSetAbstraction sdk u) payload := by
  have htable : (userSetAbstractionTlvParser sdk).RecordTable noFirst :=
    .of_noFirst (userSetAbstractionTlvParser_orderFree sdk) (by simp [userSetAbstractionTlvParser])
  have hverify : ∀ s : UserSetAbstractionCtx, verifyUserSetAbstraction s = .ok () ↔
      (∀ t ∈ [tagSignatureChainId, tagAbstraction], t ∈ s.receivedTags) ∧
        (s.userSetAbstraction.abstraction = 0 ∨ s.userSetAbstraction.abstraction = 1 ∨
          s.userSetAbstraction.abstraction = 2) := by
    intro s
    unfold verifyUserSetAbstraction
    rw [bind_ok_iff, ← requireTags_ok]
    constructor
    · rintro ⟨⟨⟩, htags, h⟩
      split at h
      · exact ⟨htags, .inl ‹_›⟩
      · exact ⟨htags, .inr (.inl ‹_›)⟩
      · exact ⟨htags, .inr (.inr ‹_›)⟩
      · cases h
    · rintro ⟨htags, h | h | h⟩
      · exact ⟨(), htags, by rw [h]; rfl⟩
      · exact ⟨(), htags, by rw [h]; rfl⟩
      · exact ⟨(), htags, by rw [h]; rfl⟩
  refine (htable.parseVerified_iff UserSetAbstractionCtx.userSetAbstraction
    [tagSignatureChainId, tagAbstraction] []
    (fun u => u.abstraction = 0 ∨ u.abstraction = 1 ∨ u.abstraction = 2) (fun _ _ => rfl) rfl rfl
    hverify).trans (exists_congr fun ds => and_congr_right fun _ => ?_)
  constructor
  · rintro ⟨hrecord, -, hknown, c, hread, rfl⟩
    have hmem := hrecord.complete
    obtain ⟨i, hi, hread⟩ := (readTable_field (hmem tagSignatureChainId (by simp))).mp hread
    obtain ⟨b, hb, hread⟩ := (readTable_field (hmem tagAbstraction (by simp))).mp hread
    obtain rfl := readTable_nil.mp hread
    exact ⟨hrecord, hi, hb, hknown⟩
  · rintro ⟨hrecord, hi, hb, hknown⟩
    exact ⟨hrecord, inOrder_noFirst ds, hknown, _,
      readTable_of_field hi (readTable_of_field hb (readTable_nil.mpr rfl)), rfl⟩

/-! ### The records for an asset -/

variable {hl : HlContext} {m : ActionMetadata}

open BulkCancel in
theorem parseCancelRequest_iff (hm : hl.metadata = some m) {r : CancelRequest} :
    (∃ c, parseCancelRequest sdk hl payload {} = .ok c ∧ c.cancelRequest = r) ↔
      Elements sdk (IsCancel sdk m.assetId r) payload := by
  have htable : (cancelRequestTlvParser sdk).RecordTable noFirst :=
    .of_noFirst (cancelRequestTlvParser_orderFree sdk) (by simp [cancelRequestTlvParser])
  refine (htable.parseVerified_iff CancelRequestCtx.cancelRequest [tagAsset, tagOid] []
    (fun r => r.asset = m.assetId) (fun _ _ => rfl) rfl rfl
    fun _ => requireTags_checkAsset_ok hm).trans
    (exists_congr fun ds => and_congr_right fun _ => ?_)
  constructor
  · rintro ⟨hrecord, -, hasset, c, hread, rfl⟩
    have hmem := hrecord.complete
    obtain ⟨a, ha, hread⟩ := (readTable_field (hmem tagAsset (by simp))).mp hread
    obtain ⟨oid, hoid, hread⟩ := (readTable_field (hmem tagOid (by simp))).mp hread
    obtain rfl := readTable_nil.mp hread
    exact ⟨hrecord, ha, hoid, hasset⟩
  · rintro ⟨hrecord, ha, hoid, hasset⟩
    exact ⟨hrecord, inOrder_noFirst ds, hasset, _,
      readTable_of_field ha (readTable_of_field hoid (readTable_nil.mpr rfl)), rfl⟩

open UpdateLeverage in
theorem parseUpdateLeverage_iff (hm : hl.metadata = some m) {u : UpdateLeverage} :
    (∃ c, parseUpdateLeverage sdk hl payload {} = .ok c ∧ c.updateLeverage = u) ↔
      Elements sdk (IsUpdateLeverage sdk m.assetId u) payload := by
  have htable : (updateLeverageTlvParser sdk).RecordTable noFirst :=
    .of_noFirst (updateLeverageTlvParser_orderFree sdk) (by simp [updateLeverageTlvParser])
  refine (htable.parseVerified_iff UpdateLeverageCtx.updateLeverage
    [tagAsset, tagIsCross, tagLeverage] [] (fun u => u.asset = m.assetId) (fun _ _ => rfl) rfl rfl
    fun _ => requireTags_checkAsset_ok hm).trans
    (exists_congr fun ds => and_congr_right fun _ => ?_)
  constructor
  · rintro ⟨hrecord, -, hasset, c, hread, rfl⟩
    have hmem := hrecord.complete
    obtain ⟨a, ha, hread⟩ := (readTable_field (hmem tagAsset (by simp))).mp hread
    obtain ⟨cross, hcross, hread⟩ := (readTable_field (hmem tagIsCross (by simp))).mp hread
    obtain ⟨lev, hlev, hread⟩ := (readTable_field (hmem tagLeverage (by simp))).mp hread
    obtain rfl := readTable_nil.mp hread
    exact ⟨hrecord, ha, hcross, hlev, hasset⟩
  · rintro ⟨hrecord, ha, hcross, hlev, hasset⟩
    exact ⟨hrecord, inOrder_noFirst ds, hasset, _,
      readTable_of_field ha (readTable_of_field hcross (readTable_of_field hlev
        (readTable_nil.mpr rfl))), rfl⟩

open UpdateIsolatedMargin in
theorem parseUpdateIsolatedMargin_iff (hm : hl.metadata = some m) {u : UpdateIsolatedMargin} :
    (∃ c, parseUpdateIsolatedMargin sdk hl payload {} = .ok c ∧ c.updateIsolatedMargin = u) ↔
      Elements sdk (IsUpdateIsolatedMargin sdk m.assetId u) payload := by
  have htable : (updateIsolatedMarginTlvParser sdk).RecordTable noFirst :=
    .of_noFirst (updateIsolatedMarginTlvParser_orderFree sdk)
      (by simp [updateIsolatedMarginTlvParser])
  refine (htable.parseVerified_iff UpdateIsolatedMarginCtx.updateIsolatedMargin
    [tagAsset, tagIsBuy, tagNtli] [] (fun u => u.asset = m.assetId) (fun _ _ => rfl) rfl rfl
    fun _ => requireTags_checkAsset_ok hm).trans
    (exists_congr fun ds => and_congr_right fun _ => ?_)
  constructor
  · rintro ⟨hrecord, -, hasset, c, hread, rfl⟩
    have hmem := hrecord.complete
    obtain ⟨a, ha, hread⟩ := (readTable_field (hmem tagAsset (by simp))).mp hread
    obtain ⟨buy, hbuy, hread⟩ := (readTable_field (hmem tagIsBuy (by simp))).mp hread
    obtain ⟨n, hn, hread⟩ := (readTable_field (hmem tagNtli (by simp))).mp hread
    obtain rfl := readTable_nil.mp hread
    exact ⟨hrecord, ha, hbuy, ⟨n, hn, rfl⟩, hasset⟩
  · rintro ⟨hrecord, ha, hbuy, ⟨n, hn, hntli⟩, hasset⟩
    obtain ⟨asset, isBuy, ntli⟩ := u
    obtain rfl : ntli = n.toInt64 := hntli
    exact ⟨hrecord, inOrder_noFirst ds, hasset, _,
      readTable_of_field ha (readTable_of_field hbuy (readTable_of_field hn
        (readTable_nil.mpr rfl))), rfl⟩

open BulkModify in
theorem parseModifyRequest_iff (hm : hl.metadata = some m) {r : ModifyRequest} :
    (∃ c, parseModifyRequest sdk hl payload {} = .ok c ∧ c.modifyRequest = r) ↔
      Elements sdk (IsModify sdk m.assetId r) payload := by
  have htable : (modifyRequestTlvParser sdk hl).RecordTable noFirst :=
    .of_noFirst (modifyRequestTlvParser_orderFree sdk hl) (by simp [modifyRequestTlvParser])
  refine (htable.parseVerified_iff ModifyRequestCtx.modifyRequest [tagOrder, tagOid] []
    (fun _ => True) (fun _ _ => rfl) rfl rfl fun _ => requireTags_ok_true).trans
    (exists_congr fun ds => and_congr_right fun _ => ?_)
  constructor
  · rintro ⟨hrecord, -, -, c, hread, rfl⟩
    have hmem := hrecord.complete
    obtain ⟨d, hd, out, hout, hread⟩ := (readTable_cons (hmem tagOrder (by simp))).mp hread
    obtain ⟨oid, hoid, hread⟩ := (readTable_field (hmem tagOid (by simp))).mp hread
    obtain rfl := readTable_nil.mp hread
    obtain ⟨orderCtx, hparse, hout⟩ := bind_ok_iff.mp hout
    cases hout
    exact ⟨hrecord, ⟨d, hd, (parseOrderRequest_iff hm).mp ⟨orderCtx, hparse, rfl⟩⟩, hoid⟩
  · rintro ⟨hrecord, ⟨d, hd, horder⟩, hoid⟩
    obtain ⟨oid, order⟩ := r
    obtain ⟨orderCtx, hparse, rfl⟩ := (parseOrderRequest_iff hm).mpr horder
    exact ⟨hrecord, inOrder_noFirst ds, trivial, _,
      (readTable_cons (hrecord.complete tagOrder (by simp))).mpr
        ⟨d, hd, _, bind_ok_iff.mpr ⟨orderCtx, hparse, rfl⟩,
          readTable_of_field hoid (readTable_nil.mpr rfl)⟩, rfl⟩

/-! ## 3. The bulk actions -/

open BulkModify in
theorem parseBulkModify_iff (hm : hl.metadata = some m) {b : BulkModify} :
    (∃ c, parseBulkModify sdk hl payload {} = .ok c ∧ c.bulkModify = b) ↔
      Elements sdk (IsBulkModify sdk m.assetId b) payload := by
  have hmodify : ∀ d r, modifyRequestOf sdk hl (TlvData.value d) = .ok r ↔
      Elements sdk (IsModify sdk m.assetId r) d.value := by
    intro d r
    rw [← parseModifyRequest_iff hm]
    exact bind_return_ok_iff.trans (exists_congr fun c => and_congr_right fun _ => eq_comm)
  have harray : (∃ c, parseBulkModify sdk hl payload {} = .ok c ∧
      c.bulkModify.modifies = b.modifies) ↔ _ :=
    (bulkModifyTlvParser_parsesArray sdk hl).accepts_iff ⟨rfl, by simp, readAs_nil⟩
  have hstruct : ∀ c : BulkModifyCtx, c.bulkModify = b ↔ c.bulkModify.modifies = b.modifies := by
    rintro ⟨tags, ⟨modifies⟩⟩
    obtain ⟨modifies'⟩ := b
    simp
  simp only [hstruct]
  rw [harray]
  refine exists_congr fun ds => and_congr_right fun _ => ?_
  simp only [hmodify]
  constructor
  · rintro ⟨hknown, hne, hmodifies⟩
    exact ⟨hknown, hne, hmodifies⟩
  · rintro ⟨hknown, hne, hmodifies⟩
    exact ⟨hknown, hne, hmodifies⟩

open BulkCancel in
theorem parseBulkCancel_iff (hm : hl.metadata = some m) {b : BulkCancel} :
    (∃ c, parseBulkCancel sdk hl payload {} = .ok c ∧ c.bulkCancel = b) ↔
      Elements sdk (IsBulkCancel sdk m.assetId b) payload := by
  have hcancel : ∀ d r, cancelRequestOf sdk hl (TlvData.value d) = .ok r ↔
      Elements sdk (IsCancel sdk m.assetId r) d.value := by
    intro d r
    rw [← parseCancelRequest_iff hm]
    exact bind_return_ok_iff.trans (exists_congr fun c => and_congr_right fun _ => eq_comm)
  have harray : (∃ c, parseBulkCancel sdk hl payload {} = .ok c ∧
      c.bulkCancel.cancels = b.cancels) ↔ _ :=
    (bulkCancelTlvParser_parsesArray sdk hl).accepts_iff ⟨rfl, by simp, readAs_nil⟩
  have hstruct : ∀ c : BulkCancelCtx, c.bulkCancel = b ↔ c.bulkCancel.cancels = b.cancels := by
    rintro ⟨tags, ⟨cancels⟩⟩
    obtain ⟨cancels'⟩ := b
    simp
  simp only [hstruct]
  rw [harray]
  refine exists_congr fun ds => and_congr_right fun _ => ?_
  simp only [hcancel]
  constructor
  · rintro ⟨hknown, hne, hcancels⟩
    exact ⟨hknown, hne, hcancels⟩
  · rintro ⟨hknown, hne, hcancels⟩
    exact ⟨hknown, hne, hcancels⟩

/-- A payload spells one builder. -/
theorem builderInfo_unique {i i' : BuilderInfo} (h : Elements sdk (IsBuilderInfo sdk i) payload)
    (h' : Elements sdk (IsBuilderInfo sdk i') payload) : i = i' := by
  obtain ⟨c, hc, rfl⟩ := parseBuilderInfo_iff.mpr h
  obtain ⟨c', hc', rfl⟩ := parseBuilderInfo_iff.mpr h'
  rw [Except.ok.inj (hc.symm.trans hc')]

open BulkOrder in
/-- What was read of a bulk order is what its elements spell. -/
theorem isBulkOrder_of_hasRead (hm : hl.metadata = some m) {ds : List TlvData} {c : BulkOrderCtx}
    (hread : HasRead sdk hl ds c) (haccepts : Accepts sdk hl ds) :
    IsBulkOrder sdk m.assetId c.bulkOrder ds := by
  refine ⟨haccepts.known, ?_, ?_, ?_, ?_⟩
  · have hpos := haccepts.count_pos
    rw [← hread.orders.count] at hpos
    exact List.ne_nil_of_length_pos hpos
  · refine List.Forall₂.imp ?_ hread.orders
    intro d o ho
    obtain ⟨out, hparse, rfl⟩ := bind_return_ok_iff.mp ho
    exact (parseOrderRequest_iff hm).mp ⟨out, hparse, rfl⟩
  · obtain ⟨d, g, hd, -⟩ := haccepts.grouping
    refine hread.grouping.present (mem_tags_iff.mpr ?_)
    rw [hd]
    simp
  · rcases hread.builder with ⟨hnil, hnone, -⟩ | ⟨d, hd, i, hparse, hbuilder⟩
    · exact .inl ⟨hnil, hnone⟩
    · exact .inr ⟨d, i.builderInfo, hd, parseBuilderInfo_iff.mp ⟨i, hparse, rfl⟩, hbuilder⟩

open BulkOrder in
/-- What spells a bulk order is accepted. -/
theorem IsBulkOrder.accepts (hm : hl.metadata = some m) {ds : List TlvData} {b : BulkOrder}
    (h : IsBulkOrder sdk m.assetId b ds) :
    Accepts sdk hl ds ∧ ReadAs (orderOf sdk hl) tagOrder ds b.orders := by
  have hread : ReadAs (orderOf sdk hl) tagOrder ds b.orders := by
    refine List.Forall₂.imp ?_ h.orders
    intro d o ho
    obtain ⟨c, hparse, rfl⟩ := (parseOrderRequest_iff hm).mpr ho
    exact bind_return_ok_iff.mpr ⟨c, hparse, rfl⟩
  refine ⟨⟨hread.count ▸ List.length_pos_of_ne_nil h.nonempty, hread.count ▸ b.orders.bound, ?_,
    ?_, ?_, h.known⟩, hread⟩
  · intro d hd
    obtain ⟨o, ho⟩ := hread.readable d hd
    obtain ⟨c, hc, -⟩ := bind_return_ok_iff.mp ho
    exact ⟨c, hc⟩
  · obtain ⟨d, hd, hg⟩ := h.grouping
    exact ⟨d, _, hd, hg⟩
  · rcases h.builder with ⟨hnil, -⟩ | ⟨d, i, hd, hi, -⟩
    · exact .inl hnil
    · obtain ⟨c, hc, -⟩ := parseBuilderInfo_iff.mpr hi
      exact .inr ⟨d, c, hd, hc⟩

open BulkOrder in
theorem parseBulkOrder_iff (hm : hl.metadata = some m) {b : BulkOrder} :
    (∃ c, parseBulkOrder sdk hl payload {} = .ok c ∧ c.bulkOrder = b) ↔
      Elements sdk (IsBulkOrder sdk m.assetId b) payload := by
  constructor
  · rintro ⟨c, h, rfl⟩
    obtain ⟨hp, -⟩ := TlvParser.parseVerified_ok.mp h
    obtain ⟨ds, hds⟩ : ∃ ds, sdk.tlvDecode payload = some ds := by
      unfold TlvParser.parse at hp
      split at hp
      · cases hp
      · exact ⟨_, ‹_›⟩
    obtain ⟨haccepts, hread⟩ := BulkOrder.parse_iff hl hds
    exact ⟨ds, hds, isBulkOrder_of_hasRead hm (hread c h) (haccepts.mp ⟨c, h⟩)⟩
  · rintro ⟨ds, hds, h⟩
    obtain ⟨haccepts, horders⟩ := h.accepts hm
    obtain ⟨hiff, hread⟩ := BulkOrder.parse_iff hl hds
    obtain ⟨c, hc⟩ := hiff.mpr haccepts
    refine ⟨c, hc, ?_⟩
    have hc' := isBulkOrder_of_hasRead hm (hread c hc) haccepts
    have horders' : c.bulkOrder.orders = b.orders := (hread c hc).orders.unique horders
    have hgrouping : c.bulkOrder.grouping = b.grouping := by
      obtain ⟨d, hd, hg⟩ := h.grouping
      obtain ⟨d', hd', hg'⟩ := hc'.grouping
      obtain rfl := List.singleton_inj.mp (hd.symm.trans hd')
      exact Option.some.inj (hg'.symm.trans hg)
    have hbuilder : c.bulkOrder.builder = b.builder := by
      rcases hc'.builder with ⟨hnil, hnone⟩ | ⟨d, i, hd, hi, hsome⟩
      · rcases h.builder with ⟨-, hnone'⟩ | ⟨d', -, hd', -, -⟩
        · rw [hnone, hnone']
        · rw [hnil] at hd'
          cases hd'
      · rcases h.builder with ⟨hnil, -⟩ | ⟨d', i', hd', hi', hsome'⟩
        · rw [hnil] at hd
          cases hd
        · obtain rfl := List.singleton_inj.mp (hd.symm.trans hd')
          rw [hsome, hsome', builderInfo_unique hi hi']
    generalize c.bulkOrder = b' at horders' hgrouping hbuilder
    obtain ⟨orders, grouping, builder⟩ := b'
    obtain ⟨orders', grouping', builder'⟩ := b
    obtain rfl : orders = orders' := horders'
    obtain rfl : grouping = grouping' := hgrouping
    obtain rfl : builder = builder' := hbuilder
    rfl

/-! ## 4. Actions -/

/-- A structure that is read into one arm. -/
theorem arm_iff {σ α : Type} {x : Except Failure σ} {view : σ → α} {arm : α → ActionUnion}
    (hinj : Function.Injective arm) {a : α} {P : Prop}
    (h : (∃ c, x = .ok c ∧ view c = a) ↔ P) :
    (∃ c, x = .ok c ∧ arm a = arm (view c)) ↔ P := by
  rw [← h]
  refine exists_congr fun c => and_congr_right fun _ => ?_
  rw [hinj.eq_iff]
  exact eq_comm

open Hyperliquid.Action in
/-- The arm of the type, from an action whose structure was not read. -/
theorem parseArm_iff (hm : hl.metadata = some m) {type : ActionType} {nonce : UInt64}
    {union : ActionUnion} :
    parseArm sdk hl ⟨type, nonce, .bulkOrder {}⟩ payload = .ok union ↔
      IsUnion sdk m.assetId type union payload := by
  have hand : ∀ P : Prop, P ↔ type = type ∧ P := fun P => (and_iff_right rfl).symm
  cases type with
  | bulkOrder =>
    refine bind_return_ok_iff.trans ?_
    cases union with
    | bulkOrder b =>
      exact (arm_iff (fun _ _ => ActionUnion.bulkOrder.inj) (parseBulkOrder_iff hm)).trans
        (hand _)
    | _ => simp [IsUnion, ActionUnion.type]
  | bulkModify =>
    refine bind_return_ok_iff.trans ?_
    cases union with
    | bulkModify b =>
      exact (arm_iff (fun _ _ => ActionUnion.bulkModify.inj) (parseBulkModify_iff hm)).trans
        (hand _)
    | _ => simp [IsUnion, ActionUnion.type]
  | bulkCancel =>
    refine bind_return_ok_iff.trans ?_
    cases union with
    | bulkCancel b =>
      exact (arm_iff (fun _ _ => ActionUnion.bulkCancel.inj) (parseBulkCancel_iff hm)).trans
        (hand _)
    | _ => simp [IsUnion, ActionUnion.type]
  | updateLeverage =>
    refine bind_return_ok_iff.trans ?_
    cases union with
    | updateLeverage u =>
      exact (arm_iff (fun _ _ => ActionUnion.updateLeverage.inj) (parseUpdateLeverage_iff hm)).trans
        (hand _)
    | _ => simp [IsUnion, ActionUnion.type]
  | approveBuilderFee =>
    refine bind_return_ok_iff.trans ?_
    cases union with
    | approveBuilderFee f =>
      exact (arm_iff (fun _ _ => ActionUnion.approveBuilderFee.inj)
        parseApproveBuilderFee_iff).trans (hand _)
    | _ => simp [IsUnion, ActionUnion.type]
  | updateIsolatedMargin =>
    refine bind_return_ok_iff.trans ?_
    cases union with
    | updateIsolatedMargin u =>
      exact (arm_iff (fun _ _ => ActionUnion.updateIsolatedMargin.inj)
        (parseUpdateIsolatedMargin_iff hm)).trans (hand _)
    | _ => simp [IsUnion, ActionUnion.type]
  | userSetAbstraction =>
    refine bind_return_ok_iff.trans ?_
    cases union with
    | userSetAbstraction u =>
      exact (arm_iff (fun _ _ => ActionUnion.userSetAbstraction.inj)
        parseUserSetAbstraction_iff).trans (hand _)
    | _ => simp [IsUnion, ActionUnion.type]

/-- A constant field has its one value. -/
theorem constant_field {b v : UInt8} {t : Nat} {ds : List TlvData}
    (h : field (constant sdk b) t ds = some v) : v = b := by
  obtain ⟨d, -, hd⟩ := Option.bind_eq_some_iff.mp h
  exact beq_iff_eq.mp (Option.filter_eq_some_iff.mp hd).2

open Hyperliquid.Action in
/-- The structure of an action whose type was read. -/
theorem handleAction_iff {d : TlvData} {out out' : ActionCtx}
    (hout : tagActionType ∈ out.receivedTags) :
    handleAction sdk hl d out = .ok out' ↔ ∃ union, parseArm sdk hl out.action d.value = .ok union ∧
      out' = { out with action := { out.action with union := union } } := by
  have hcheck : checkReceivedTags out.receivedTags [tagActionType] = true :=
    checkReceivedTags_iff.mpr (by simpa using hout)
  unfold handleAction
  rw [hcheck]
  exact bind_return_ok_iff

open Hyperliquid.Action in
theorem parseAction_iff (hm : hl.metadata = some m) {a : Action} :
    ParsesAction sdk hl payload a ↔ Elements sdk (IsAction sdk m.assetId a) payload := by
  have htable : (actionTlvParser sdk hl).RecordTable (typeFirst tagActionType tagAction) := by
    refine ⟨actionTlvParser_orderFree sdk hl, ?_, ?_⟩
    · simp [actionTlvParser]
    · simp [actionTlvParser, typeFirst]
  refine (htable.parseVerified_iff ActionCtx.action
    [tagStructType, tagStructVersion, tagActionType, tagNonce, tagAction] [] (fun _ => True)
    (fun _ _ => rfl) rfl rfl fun _ => requireTags_ok_true).trans
    (exists_congr fun ds => and_congr_right fun _ => ?_)
  constructor
  · rintro ⟨hrecord, hfirst, -, c, hread, rfl⟩
    have hmem := hrecord.complete
    obtain ⟨b, hstruct, hread⟩ := (readTable_field (hmem tagStructType (by simp))).mp hread
    obtain ⟨v, hversion, hread⟩ := (readTable_field (hmem tagStructVersion (by simp))).mp hread
    obtain ⟨type, htype, hread⟩ := (readTable_field (hmem tagActionType (by simp))).mp hread
    obtain ⟨nonce, hnonce, hread⟩ := (readTable_field (hmem tagNonce (by simp))).mp hread
    obtain ⟨d, hd, out, hout, hread⟩ := (readTable_cons (hmem tagAction (by simp))).mp hread
    obtain rfl := readTable_nil.mp hread
    obtain rfl := constant_field hstruct
    obtain rfl := constant_field hversion
    obtain ⟨union, harm, rfl⟩ := (handleAction_iff (by simp [TlvContext.receive])).mp hout
    exact ⟨hrecord, hfirst, hstruct, hversion, htype, hnonce, ⟨d, hd, (parseArm_iff hm).mp harm⟩⟩
  · rintro ⟨hrecord, hfirst, hstruct, hversion, htype, hnonce, ⟨d, hd, hunion⟩⟩
    obtain ⟨type, nonce, union⟩ := a
    have harm : parseArm sdk hl ⟨type, nonce, .bulkOrder {}⟩ d.value = .ok union :=
      (parseArm_iff hm).mpr hunion
    exact ⟨hrecord, hfirst, trivial, _,
      readTable_of_field hstruct (readTable_of_field hversion (readTable_of_field htype
        (readTable_of_field hnonce ((readTable_cons (hrecord.complete tagAction (by simp))).mpr
          ⟨d, hd, _, (handleAction_iff (by simp [TlvContext.receive])).mpr ⟨union, harm, rfl⟩,
            readTable_nil.mpr rfl⟩)))), rfl⟩

end

/-! ## 5. What `parse_action` does -/

/-- The session takes the action: its operation allows the type, signing has not started, and there
is room for an action of a new type. -/
structure Takes (ctx : HlContext) (m : ActionMetadata) (a : Action) : Prop where
  compatible : Action.isActionCompatible ctx a.type m.opType = true
  unstarted : ctx.actionIndex = 0
  new : ∀ b ∈ ctx.actions.elems, b.type ≠ a.type
  room : ctx.actionCount < maxActionCount

/-- The payload spells the action, under the metadata that are stored. -/
def Spells (sdk : Sdk) (ctx : HlContext) (payload : Bytes) (m : ActionMetadata) (a : Action) :
    Prop :=
  ctx.metadata = some m ∧ Elements sdk (IsAction sdk m.assetId a) payload

/-- The payload spells an action that the session takes. -/
def Acceptable (sdk : Sdk) (ctx : HlContext) (payload : Bytes) (m : ActionMetadata) (a : Action) :
    Prop :=
  ctx.metadata = some m ∧ Elements sdk (IsAction sdk m.assetId a) payload ∧ Takes ctx m a

section

variable {sdk : Sdk} {ctx ctx' : HlContext} {payload : Bytes} {m : ActionMetadata} {a : Action}

/-- An acceptable payload is accepted. -/
theorem Acceptable.accepted (h : Acceptable sdk ctx payload m a) :
    ∃ ctx', parseAction sdk payload ctx = .ok (true, ctx') ∧ ActionAppended ctx a ctx' := by
  obtain ⟨hm, hspells, htakes⟩ := h
  obtain ⟨out, hout, rfl⟩ := (parseAction_iff hm).mpr hspells
  obtain ⟨ctx', hpush, happended⟩ :=
    Client.ctxPushAction_appends htakes.room htakes.unstarted htakes.new
  refine ⟨ctx', ?_, happended⟩
  simp [parseAction, ctxGetActionMetadata, hm, hout, htakes.compatible, hpush]

/-- What is accepted was acceptable. -/
theorem acceptable_of_accepted (h : parseAction sdk payload ctx = .ok (true, ctx')) :
    ∃ m a, Acceptable sdk ctx payload m a ∧ ActionAppended ctx a ctx' := by
  unfold parseAction ctxGetActionMetadata at h
  cases hm : ctx.metadata with
  | none =>
    rw [hm] at h
    cases h
  | some m =>
    simp only [hm] at h
    split at h
    · cases h
    · cases h
    · rename_i out hout
      split at h
      · cases h
      · rename_i hcompatible
        have hroom : ctx.actionCount < maxActionCount := by
          by_contra hfull
          unfold ctxPushAction at h
          rw [dif_pos (Nat.not_lt.mp hfull)] at h
          cases h
        rcases ctxPushAction_cases out.action ctx with hrefused | ⟨hidx, hnew, ctx₁, hpush, hmd,
          hidx', helems⟩
        · rw [hrefused] at h
          cases h
        · rw [hpush] at h
          cases h
          refine ⟨m, out.action, ⟨hm, (parseAction_iff hm).mp ⟨out, hout, rfl⟩, ?_, hidx, hnew,
            hroom⟩, hmd, helems, hidx'.trans hidx.symm⟩
          simpa using hcompatible

/-- A payload spells one action, whether the session takes it or not. -/
theorem Spells.unique {m' : ActionMetadata} {a' : Action} (h : Spells sdk ctx payload m a)
    (h' : Spells sdk ctx payload m' a') : m = m' ∧ a = a' := by
  obtain ⟨hm, hspells⟩ := h
  obtain ⟨hm', hspells'⟩ := h'
  obtain rfl := Option.some.inj (hm.symm.trans hm')
  obtain ⟨out, hout, rfl⟩ := (parseAction_iff hm).mpr hspells
  obtain ⟨out', hout', rfl⟩ := (parseAction_iff hm).mpr hspells'
  rw [Except.ok.inj (hout.symm.trans hout')]
  exact ⟨rfl, rfl⟩

end

/-- `parse_action` accepts a payload exactly when it spells an action that the session takes, and
appends that action, the only one it spells at all; otherwise it refuses, and changes nothing. -/
theorem parseAction_accepts (sdk : Sdk) (payload : Bytes) (ctx : HlContext) :
    (∃ m a ctx', Acceptable sdk ctx payload m a ∧
      (∀ m' a', Spells sdk ctx payload m' a' → m' = m ∧ a' = a) ∧
      ActionAppended ctx a ctx' ∧ parseAction sdk payload ctx = .ok (true, ctx')) ∨
    ((∀ m a, ¬ Acceptable sdk ctx payload m a) ∧
      parseAction sdk payload ctx = .ok (false, ctx)) := by
  by_cases h : ∃ m a, Acceptable sdk ctx payload m a
  · obtain ⟨m, a, ha⟩ := h
    obtain ⟨ctx', hparse, happended⟩ := ha.accepted
    have hspells : Spells sdk ctx payload m a := ⟨ha.1, ha.2.1⟩
    exact .inl ⟨m, a, ctx', ha, fun m' a' h' => h'.unique hspells, happended, hparse⟩
  · refine .inr ⟨fun m a ha => h ⟨m, a, ha⟩, ?_⟩
    obtain ⟨ret, ctx', hparse, ⟨rfl, rfl⟩ | ⟨rfl, -⟩⟩ := parseAction_effect sdk payload ctx
    · exact hparse
    · obtain ⟨m, a, ha, -⟩ := acceptable_of_accepted hparse
      exact absurd ⟨m, a, ha⟩ h

end Hyperliquid.Grammar

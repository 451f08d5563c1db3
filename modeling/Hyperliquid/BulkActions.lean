/-
# The bulk actions (`bulk_order.c`, `bulk_modify.c`, `bulk_cancel.c`)

An array of orders, of modify requests or of cancel requests.  Each element is parsed into a
sub-context that is wiped first, since its tag may come several times, and is appended to an
array of `BULK_MAX_SIZE` slots.

What the rest of the program relies on is that every element of a parsed action is for the
asset of the metadata, and that every order in it is well formed (`OrderOk`).
-/
import Hyperliquid.OrderRequest

namespace Hyperliquid

open Lib Lib.Msgpack

/-- An order that was parsed under the context: its union holds the arm of its type, and its
asset is the one of the metadata. -/
def OrderOk (hl : HlContext) (o : OrderRequest) : Prop :=
  o.ArmMatches ∧ ∃ metadata, hl.metadata = some metadata ∧ o.asset = metadata.assetId

/-! ## 1. bulk_order.c -/

namespace BulkOrder

/-- `s_builder_info_ctx`. -/
structure BuilderInfoCtx where
  receivedTags : List Nat := []
  builderInfo : BuilderInfo := {}

instance : TlvContext BuilderInfoCtx where
  receivedTags := BuilderInfoCtx.receivedTags
  receive t s := { s with receivedTags := t :: s.receivedTags }

/-- `s_bulk_order_ctx`; the sub-context of an order is wiped before each use. -/
structure BulkOrderCtx where
  receivedTags : List Nat := []
  bulkOrder : BulkOrder := {}
  builderInfoCtx : BuilderInfoCtx := {}

instance : TlvContext BulkOrderCtx where
  receivedTags := BulkOrderCtx.receivedTags
  receive t s := { s with receivedTags := t :: s.receivedTags }

abbrev tagBuilderAddress : Nat := 0xd3
abbrev tagBuilderFee : Nat := 0xec
abbrev tagOrder : Nat := 0xdd
abbrev tagGrouping : Nat := 0xea
abbrev tagBuilder : Nat := 0xeb

/-- The byte of a `e_grouping`. -/
def groupingOfByte (grouping : UInt8) : Option Grouping :=
  match grouping with
  | 0 => some .na
  | 1 => some .normalTpsl
  | 2 => some .positionTpsl
  | _ => none

section

variable (sdk : Sdk) (hl : HlContext)

def handleBuilderAddress : TlvData → BuilderInfoCtx → Except Failure BuilderInfoCtx :=
  storing (fun d => (sdk.getBufferFromTlvData d addressLength addressLength).map addressOfBuffer)
    fun a out => { out with builderInfo := { out.builderInfo with builder := a } }

def handleBuilderFee : TlvData → BuilderInfoCtx → Except Failure BuilderInfoCtx :=
  storing sdk.getUint64TFromTlvData
    fun fee out => { out with builderInfo := { out.builderInfo with fee := fee } }

def builderInfoTlvParser : TlvParser BuilderInfoCtx where
  tags :=
    [⟨tagBuilderAddress, handleBuilderAddress sdk, true⟩,
     ⟨tagBuilderFee, handleBuilderFee sdk, true⟩]
  common := noCommon

def verifyBuilderInfo (out : BuilderInfoCtx) : Except Failure Unit :=
  requireTags out.receivedTags [tagBuilderAddress, tagBuilderFee]

def parseBuilderInfo (payload : Bytes) (out : BuilderInfoCtx) : Except Failure BuilderInfoCtx :=
  (builderInfoTlvParser sdk).parseVerified sdk.tlvDecode verifyBuilderInfo payload out

/-- `builder_addr_str`. -/
def builderAddrStr (builder : Address) : Bytes :=
  text "0x" ++
    match bytesToLowercaseHex (2 + addressLength * 2 + 1 - 2) builder.toList with
    | some hex => hex.chars
    | none => []

def builderSerialize (builder : BuilderInfo) : Ser Unit := do
  cmpWriteStr sdk (text "builder")
  cmpWriteMap sdk 2
  cmpWriteStr sdk (text "b")
  cmpWriteStr sdk (builderAddrStr builder.builder)
  cmpWriteStr sdk (text "f")
  cmpWriteUinteger sdk builder.fee

/-- One more order, parsed into a wiped sub-context. -/
def handleOrder : TlvData → BulkOrderCtx → Except Failure BulkOrderCtx :=
  pushing
    (fun value => do
      let orderCtx ← parseOrderRequest sdk hl value {}
      .ok orderCtx.orderRequest)
    (fun out => out.bulkOrder.orders)
    fun orders out => { out with bulkOrder := { out.bulkOrder with orders := orders } }

def handleGrouping : TlvData → BulkOrderCtx → Except Failure BulkOrderCtx :=
  storing (fun d => sdk.getUint8TFromTlvData d >>= groupingOfByte)
    fun g out => { out with bulkOrder := { out.bulkOrder with grouping := g } }

def handleBuilder (data : TlvData) (out : BulkOrderCtx) : Except Failure BulkOrderCtx := do
  let builderInfoCtx ← parseBuilderInfo sdk data.value
    { out.builderInfoCtx with builderInfo := out.bulkOrder.builder.getD {} }
  .ok { out with
    builderInfoCtx := builderInfoCtx
    bulkOrder := { out.bulkOrder with builder := some builderInfoCtx.builderInfo } }

def bulkOrderTlvParser : TlvParser BulkOrderCtx where
  tags :=
    [⟨tagOrder, handleOrder sdk hl, false⟩,
     ⟨tagGrouping, handleGrouping sdk, true⟩,
     ⟨tagBuilder, handleBuilder sdk, true⟩]
  common := noCommon

def verifyBulkOrder (out : BulkOrderCtx) : Except Failure Unit :=
  requireTags out.receivedTags [tagOrder, tagGrouping]

end

end BulkOrder

open BulkOrder in
def parseBulkOrder (sdk : Sdk) (hl : HlContext) (payload : Bytes) (out : BulkOrderCtx) :
    Except Failure BulkOrderCtx :=
  (bulkOrderTlvParser sdk hl).parseVerified sdk.tlvDecode verifyBulkOrder payload out

open BulkOrder in
def bulkOrderSerialize (sdk : Sdk) (bulkOrder : BulkOrder) : Ser Unit := do
  cmpWriteMap sdk (if bulkOrder.builder.isSome then 4 else 3)
  cmpWriteStr sdk (text "type")
  cmpWriteStr sdk (text "order")
  cmpWriteStr sdk (text "orders")
  cmpWriteArray sdk (UInt32.ofNat bulkOrder.orders.count)
  bulkOrder.orders.elems.forM (orderRequestSerialize sdk)
  cmpWriteStr sdk (text "grouping")
  (match bulkOrder.grouping with
    | .na => cmpWriteStr sdk (text "na")
    | .normalTpsl => cmpWriteStr sdk (text "normalTpsl")
    | .positionTpsl => cmpWriteStr sdk (text "positionTpsl"))
  match bulkOrder.builder with
  | some builder => builderSerialize sdk builder
  | none => pure ()

namespace BulkOrder

variable {sdk : Sdk} {hl : HlContext}

theorem handleBuilder_orders {d : TlvData} {out out' : BulkOrderCtx}
    (h : handleBuilder sdk d out = .ok out') :
    out'.bulkOrder.orders = out.bulkOrder.orders := by
  obtain ⟨builderInfoCtx, -, hout⟩ := bind_ok_iff.mp h
  cases hout
  rfl

theorem handleBuilder_ne_nullDeref (d : TlvData) (out : BulkOrderCtx) :
    handleBuilder sdk d out ≠ .error .nullDeref := by
  intro h
  obtain hp | ⟨builderInfoCtx, -, hout⟩ := bind_error_iff.mp h
  · refine TlvParser.parseVerified_ne_nullDeref noCommon_ne_nullDeref ?_ ?_ _ _ hp
    · simp only [builderInfoTlvParser, List.forall_mem_cons, List.not_mem_nil, false_implies,
        implies_true, and_true]
      exact ⟨storing_ne_nullDeref, storing_ne_nullDeref⟩
    · exact fun s => requireTags_ne_nullDeref _ _
  · cases hout

end BulkOrder

open BulkOrder in
/-- Every order of a parsed action is one that was accepted. -/
theorem parseBulkOrder_ok {sdk : Sdk} {hl : HlContext} {payload : Bytes}
    {out out' : BulkOrderCtx} (hfresh : out.bulkOrder.orders.elems = [])
    (h : parseBulkOrder sdk hl payload out = .ok out') :
    ∀ o ∈ out'.bulkOrder.orders.elems, OrderOk hl o := by
  obtain ⟨hp, -⟩ := TlvParser.parseVerified_ok.mp h
  refine TlvParser.parse_induction
    (P := fun s => ∀ o ∈ s.bulkOrder.orders.elems, OrderOk hl o) ?_ ?_ hp
  · intro row hrow d s s₁ s' _ hs _ hc hh
    cases hc
    simp only [bulkOrderTlvParser, List.mem_cons, List.not_mem_nil, or_false] at hrow
    rcases hrow with rfl | rfl | rfl
    · dsimp only at hh
      obtain ⟨a, hlt, hget, rfl⟩ := pushing_ok hh
      obtain ⟨orderCtx, hparse, ha⟩ := bind_ok_iff.mp hget
      cases ha
      exact Bounded.forall_push hlt hs (parseOrderRequest_ok rfl hparse)
    · simp only [handleGrouping, storing_ok] at hh
      obtain ⟨g, -, rfl⟩ := hh
      exact hs
    · have horders := handleBuilder_orders hh
      intro o ho
      rw [horders] at ho
      exact hs o ho
  · intro o ho
    rw [hfresh] at ho
    cases ho

open BulkOrder in
theorem parseBulkOrder_ne_nullDeref {sdk : Sdk} {hl : HlContext} (hmd : hl.metadata ≠ none)
    (payload : Bytes) (out : BulkOrderCtx) :
    parseBulkOrder sdk hl payload out ≠ .error .nullDeref := by
  refine TlvParser.parseVerified_ne_nullDeref noCommon_ne_nullDeref ?_ ?_ payload out
  · simp only [bulkOrderTlvParser, List.forall_mem_cons, List.not_mem_nil, false_implies,
      implies_true, and_true]
    refine ⟨pushing_ne_nullDeref ?_, storing_ne_nullDeref, handleBuilder_ne_nullDeref⟩
    intro v hv
    obtain hp | ⟨orderCtx, -, ho⟩ := bind_error_iff.mp hv
    · exact parseOrderRequest_ne_nullDeref hmd v {} hp
    · cases ho
  · exact fun s => requireTags_ne_nullDeref _ _

/-! ## 2. bulk_modify.c -/

namespace BulkModify

/-- `s_modify_request_ctx`. -/
structure ModifyRequestCtx where
  receivedTags : List Nat := []
  modifyRequest : ModifyRequest := {}
  orderCtx : OrderRequest.OrderRequestCtx := {}

instance : TlvContext ModifyRequestCtx where
  receivedTags := ModifyRequestCtx.receivedTags
  receive t s := { s with receivedTags := t :: s.receivedTags }

/-- `s_bulk_modify_ctx`; the sub-context of a request is wiped before each use. -/
structure BulkModifyCtx where
  receivedTags : List Nat := []
  bulkModify : BulkModify := {}

instance : TlvContext BulkModifyCtx where
  receivedTags := BulkModifyCtx.receivedTags
  receive t s := { s with receivedTags := t :: s.receivedTags }

abbrev tagOrder : Nat := 0xdd
abbrev tagOid : Nat := 0xdc
abbrev tagModifyRequest : Nat := 0xd8

section

variable (sdk : Sdk) (hl : HlContext)

/-- The inner context points into the request. -/
def handleOrder (data : TlvData) (out : ModifyRequestCtx) : Except Failure ModifyRequestCtx := do
  let orderCtx ← parseOrderRequest sdk hl data.value
    { out.orderCtx with orderRequest := out.modifyRequest.order }
  .ok { out with
    orderCtx := orderCtx
    modifyRequest := { out.modifyRequest with order := orderCtx.orderRequest } }

def handleOid : TlvData → ModifyRequestCtx → Except Failure ModifyRequestCtx :=
  storing sdk.getUint64TFromTlvData
    fun oid out => { out with modifyRequest := { out.modifyRequest with oid := oid } }

def modifyRequestTlvParser : TlvParser ModifyRequestCtx where
  tags := [⟨tagOrder, handleOrder sdk hl, true⟩, ⟨tagOid, handleOid sdk, true⟩]
  common := noCommon

def verifyModifyRequest (out : ModifyRequestCtx) : Except Failure Unit :=
  requireTags out.receivedTags [tagOrder, tagOid]

def parseModifyRequest (payload : Bytes) (out : ModifyRequestCtx) :
    Except Failure ModifyRequestCtx :=
  (modifyRequestTlvParser sdk hl).parseVerified sdk.tlvDecode verifyModifyRequest payload out

def modifyRequestSerialize (modifyRequest : ModifyRequest) : Ser Unit := do
  cmpWriteMap sdk 2
  cmpWriteStr sdk (text "oid")
  cmpWriteUinteger sdk modifyRequest.oid
  cmpWriteStr sdk (text "order")
  orderRequestSerialize sdk modifyRequest.order

/-- One more request, parsed into a wiped sub-context. -/
def handleModifyRequest : TlvData → BulkModifyCtx → Except Failure BulkModifyCtx :=
  pushing
    (fun value => do
      let modifyRequestCtx ← parseModifyRequest sdk hl value {}
      .ok modifyRequestCtx.modifyRequest)
    (fun out => out.bulkModify.modifies)
    fun modifies out => { out with bulkModify := { out.bulkModify with modifies := modifies } }

def bulkModifyTlvParser : TlvParser BulkModifyCtx where
  tags := [⟨tagModifyRequest, handleModifyRequest sdk hl, false⟩]
  common := noCommon

def verifyBulkModify (out : BulkModifyCtx) : Except Failure Unit :=
  requireTags out.receivedTags [tagModifyRequest]

end

end BulkModify

open BulkModify in
def parseBulkModify (sdk : Sdk) (hl : HlContext) (payload : Bytes) (out : BulkModifyCtx) :
    Except Failure BulkModifyCtx :=
  (bulkModifyTlvParser sdk hl).parseVerified sdk.tlvDecode verifyBulkModify payload out

open BulkModify in
def bulkModifySerialize (sdk : Sdk) (bulkModify : BulkModify) : Ser Unit := do
  cmpWriteMap sdk 2
  cmpWriteStr sdk (text "type")
  cmpWriteStr sdk (text "batchModify")
  cmpWriteStr sdk (text "modifies")
  cmpWriteArray sdk (UInt32.ofNat bulkModify.modifies.count)
  bulkModify.modifies.elems.forM (modifyRequestSerialize sdk)

namespace BulkModify

variable {sdk : Sdk} {hl : HlContext}

/-- The order's own context is the wiped one until its element is read, and from then on the
order is one that was accepted. -/
def OrderRead (hl : HlContext) (out : ModifyRequestCtx) : Prop :=
  (tagOrder ∉ out.receivedTags → out.orderCtx.receivedTags = []) ∧
    (tagOrder ∈ out.receivedTags → OrderOk hl out.modifyRequest.order)

theorem handleOrder_ok {d : TlvData} {out out' : ModifyRequestCtx}
    (hfresh : out.orderCtx.receivedTags = []) (h : handleOrder sdk hl d out = .ok out') :
    OrderOk hl out'.modifyRequest.order := by
  obtain ⟨orderCtx, hp, hout⟩ := bind_ok_iff.mp h
  cases hout
  refine parseOrderRequest_ok ?_ hp
  exact hfresh

theorem handleOrder_ne_nullDeref (hmd : hl.metadata ≠ none) (d : TlvData)
    (out : ModifyRequestCtx) : handleOrder sdk hl d out ≠ .error .nullDeref := by
  intro h
  obtain hp | ⟨orderCtx, -, hout⟩ := bind_error_iff.mp h
  · exact parseOrderRequest_ne_nullDeref hmd _ _ hp
  · cases hout

/-- A parsed request holds an accepted order. -/
theorem parseModifyRequest_ok {payload : Bytes} {out' : ModifyRequestCtx}
    (h : parseModifyRequest sdk hl payload {} = .ok out') :
    OrderOk hl out'.modifyRequest.order := by
  obtain ⟨hp, hv⟩ := TlvParser.parseVerified_ok.mp h
  have hread : OrderRead hl out' := by
    refine TlvParser.parse_induction (P := OrderRead hl) ?_ ⟨fun _ => rfl, by simp⟩ hp
    intro row hrow d s s₁ s' _ hs hnew hc hh
    cases hc
    simp only [modifyRequestTlvParser, List.mem_cons, List.not_mem_nil, or_false] at hrow
    rcases hrow with rfl | rfl
    · dsimp only at hh
      have htags : s'.receivedTags = tagOrder :: s.receivedTags := by
        obtain ⟨orderCtx, -, hout⟩ := bind_ok_iff.mp hh
        cases hout
        rfl
      refine ⟨fun hno => absurd (by rw [htags]; simp) hno, fun _ => handleOrder_ok ?_ hh⟩
      exact hs.1 (hnew rfl)
    · simp only [handleOid, storing_ok] at hh
      obtain ⟨oid, -, rfl⟩ := hh
      refine ⟨fun hno => hs.1 fun hmem => hno (List.mem_cons_of_mem _ hmem), fun hmem => ?_⟩
      exact hs.2 (List.mem_of_ne_of_mem (by decide) hmem)
  have htag : tagOrder ∈ out'.receivedTags := requireTags_ok.mp hv _ (by simp)
  exact hread.2 htag

theorem parseModifyRequest_ne_nullDeref (hmd : hl.metadata ≠ none) (payload : Bytes)
    (out : ModifyRequestCtx) : parseModifyRequest sdk hl payload out ≠ .error .nullDeref := by
  refine TlvParser.parseVerified_ne_nullDeref noCommon_ne_nullDeref ?_ ?_ payload out
  · simp only [modifyRequestTlvParser, List.forall_mem_cons, List.not_mem_nil, false_implies,
      implies_true, and_true]
    exact ⟨handleOrder_ne_nullDeref hmd, storing_ne_nullDeref⟩
  · exact fun s => requireTags_ne_nullDeref _ _

end BulkModify

open BulkModify in
/-- Every request of a parsed action holds an order that was accepted. -/
theorem parseBulkModify_ok {sdk : Sdk} {hl : HlContext} {payload : Bytes}
    {out out' : BulkModifyCtx} (hfresh : out.bulkModify.modifies.elems = [])
    (h : parseBulkModify sdk hl payload out = .ok out') :
    ∀ m ∈ out'.bulkModify.modifies.elems, OrderOk hl m.order := by
  obtain ⟨hp, -⟩ := TlvParser.parseVerified_ok.mp h
  refine TlvParser.parse_induction
    (P := fun s => ∀ m ∈ s.bulkModify.modifies.elems, OrderOk hl m.order) ?_ ?_ hp
  · intro row hrow d s s₁ s' _ hs _ hc hh
    cases hc
    simp only [bulkModifyTlvParser, List.mem_singleton] at hrow
    subst hrow
    dsimp only at hh
    obtain ⟨a, hlt, hget, rfl⟩ := pushing_ok hh
    obtain ⟨modifyRequestCtx, hparse, ha⟩ := bind_ok_iff.mp hget
    cases ha
    exact Bounded.forall_push hlt hs (parseModifyRequest_ok hparse)
  · intro m hm
    rw [hfresh] at hm
    cases hm

open BulkModify in
theorem parseBulkModify_ne_nullDeref {sdk : Sdk} {hl : HlContext} (hmd : hl.metadata ≠ none)
    (payload : Bytes) (out : BulkModifyCtx) :
    parseBulkModify sdk hl payload out ≠ .error .nullDeref := by
  refine TlvParser.parseVerified_ne_nullDeref noCommon_ne_nullDeref ?_ ?_ payload out
  · simp only [bulkModifyTlvParser, List.forall_mem_cons, List.not_mem_nil, false_implies,
      implies_true, and_true]
    refine pushing_ne_nullDeref fun v hv => ?_
    obtain hp | ⟨modifyRequestCtx, -, ho⟩ := bind_error_iff.mp hv
    · exact parseModifyRequest_ne_nullDeref hmd v {} hp
    · cases ho
  · exact fun s => requireTags_ne_nullDeref _ _

/-! ## 3. bulk_cancel.c -/

/-- A cancel request that was parsed under the context. -/
def CancelOk (hl : HlContext) (c : CancelRequest) : Prop :=
  ∃ metadata, hl.metadata = some metadata ∧ c.asset = metadata.assetId

namespace BulkCancel

/-- `s_cancel_request_ctx`. -/
structure CancelRequestCtx where
  receivedTags : List Nat := []
  cancelRequest : CancelRequest := {}

instance : TlvContext CancelRequestCtx where
  receivedTags := CancelRequestCtx.receivedTags
  receive t s := { s with receivedTags := t :: s.receivedTags }

/-- `s_bulk_cancel_ctx`; the sub-context of a request is wiped before each use. -/
structure BulkCancelCtx where
  receivedTags : List Nat := []
  bulkCancel : BulkCancel := {}

instance : TlvContext BulkCancelCtx where
  receivedTags := BulkCancelCtx.receivedTags
  receive t s := { s with receivedTags := t :: s.receivedTags }

abbrev tagAsset : Nat := 0xd1
abbrev tagOid : Nat := 0xdc
abbrev tagCancelRequest : Nat := 0xd9

section

variable (sdk : Sdk) (hl : HlContext)

def handleAsset : TlvData → CancelRequestCtx → Except Failure CancelRequestCtx :=
  storing sdk.getUint32TFromTlvData
    fun a out => { out with cancelRequest := { out.cancelRequest with asset := a } }

def handleOid : TlvData → CancelRequestCtx → Except Failure CancelRequestCtx :=
  storing sdk.getUint64TFromTlvData
    fun oid out => { out with cancelRequest := { out.cancelRequest with oid := oid } }

def cancelRequestTlvParser : TlvParser CancelRequestCtx where
  tags := [⟨tagAsset, handleAsset sdk, true⟩, ⟨tagOid, handleOid sdk, true⟩]
  common := noCommon

def verifyCancelRequest (out : CancelRequestCtx) : Except Failure Unit := do
  requireTags out.receivedTags [tagAsset, tagOid]
  checkAsset hl out.cancelRequest.asset

def parseCancelRequest (payload : Bytes) (out : CancelRequestCtx) :
    Except Failure CancelRequestCtx :=
  (cancelRequestTlvParser sdk).parseVerified sdk.tlvDecode (verifyCancelRequest hl) payload out

def cancelRequestSerialize (cancelRequest : CancelRequest) : Ser Unit := do
  cmpWriteMap sdk 2
  cmpWriteStr sdk (text "a")
  cmpWriteUinteger sdk cancelRequest.asset.toUInt64
  cmpWriteStr sdk (text "o")
  cmpWriteUinteger sdk cancelRequest.oid

/-- One more request, parsed into a wiped sub-context. -/
def handleCancelRequest : TlvData → BulkCancelCtx → Except Failure BulkCancelCtx :=
  pushing
    (fun value => do
      let cancelRequestCtx ← parseCancelRequest sdk hl value {}
      .ok cancelRequestCtx.cancelRequest)
    (fun out => out.bulkCancel.cancels)
    fun cancels out => { out with bulkCancel := { out.bulkCancel with cancels := cancels } }

def bulkCancelTlvParser : TlvParser BulkCancelCtx where
  tags := [⟨tagCancelRequest, handleCancelRequest sdk hl, false⟩]
  common := noCommon

def verifyBulkCancel (out : BulkCancelCtx) : Except Failure Unit :=
  requireTags out.receivedTags [tagCancelRequest]

end

end BulkCancel

open BulkCancel in
def parseBulkCancel (sdk : Sdk) (hl : HlContext) (payload : Bytes) (out : BulkCancelCtx) :
    Except Failure BulkCancelCtx :=
  (bulkCancelTlvParser sdk hl).parseVerified sdk.tlvDecode verifyBulkCancel payload out

open BulkCancel in
def bulkCancelSerialize (sdk : Sdk) (bulkCancel : BulkCancel) : Ser Unit := do
  cmpWriteMap sdk 2
  cmpWriteStr sdk (text "type")
  cmpWriteStr sdk (text "cancel")
  cmpWriteStr sdk (text "cancels")
  cmpWriteArray sdk (UInt32.ofNat bulkCancel.cancels.count)
  bulkCancel.cancels.elems.forM (cancelRequestSerialize sdk)

namespace BulkCancel

variable {sdk : Sdk} {hl : HlContext}

theorem parseCancelRequest_ok {payload : Bytes} {out out' : CancelRequestCtx}
    (h : parseCancelRequest sdk hl payload out = .ok out') : CancelOk hl out'.cancelRequest := by
  obtain ⟨-, hv⟩ := TlvParser.parseVerified_ok.mp h
  obtain ⟨u, -, hasset⟩ := bind_ok_iff.mp hv
  exact checkAsset_ok.mp hasset

theorem parseCancelRequest_ne_nullDeref (hmd : hl.metadata ≠ none) (payload : Bytes)
    (out : CancelRequestCtx) : parseCancelRequest sdk hl payload out ≠ .error .nullDeref := by
  refine TlvParser.parseVerified_ne_nullDeref noCommon_ne_nullDeref ?_ ?_ payload out
  · simp only [cancelRequestTlvParser, List.forall_mem_cons, List.not_mem_nil, false_implies,
      implies_true, and_true]
    exact ⟨storing_ne_nullDeref, storing_ne_nullDeref⟩
  · intro s h
    obtain ht | ⟨u, -, ha⟩ := bind_error_iff.mp h
    · exact requireTags_ne_nullDeref _ _ ht
    · exact checkAsset_ne_nullDeref hmd ha

end BulkCancel

open BulkCancel in
/-- Every request of a parsed action is for the asset of the metadata. -/
theorem parseBulkCancel_ok {sdk : Sdk} {hl : HlContext} {payload : Bytes}
    {out out' : BulkCancelCtx} (hfresh : out.bulkCancel.cancels.elems = [])
    (h : parseBulkCancel sdk hl payload out = .ok out') :
    ∀ c ∈ out'.bulkCancel.cancels.elems, CancelOk hl c := by
  obtain ⟨hp, -⟩ := TlvParser.parseVerified_ok.mp h
  refine TlvParser.parse_induction
    (P := fun s => ∀ c ∈ s.bulkCancel.cancels.elems, CancelOk hl c) ?_ ?_ hp
  · intro row hrow d s s₁ s' _ hs _ hc hh
    cases hc
    simp only [bulkCancelTlvParser, List.mem_singleton] at hrow
    subst hrow
    dsimp only at hh
    obtain ⟨a, hlt, hget, rfl⟩ := pushing_ok hh
    obtain ⟨cancelRequestCtx, hparse, ha⟩ := bind_ok_iff.mp hget
    cases ha
    exact Bounded.forall_push hlt hs (parseCancelRequest_ok hparse)
  · intro c hc
    rw [hfresh] at hc
    cases hc

open BulkCancel in
theorem parseBulkCancel_ne_nullDeref {sdk : Sdk} {hl : HlContext} (hmd : hl.metadata ≠ none)
    (payload : Bytes) (out : BulkCancelCtx) :
    parseBulkCancel sdk hl payload out ≠ .error .nullDeref := by
  refine TlvParser.parseVerified_ne_nullDeref noCommon_ne_nullDeref ?_ ?_ payload out
  · simp only [bulkCancelTlvParser, List.forall_mem_cons, List.not_mem_nil, false_implies,
      implies_true, and_true]
    refine pushing_ne_nullDeref fun v hv => ?_
    obtain hp | ⟨cancelRequestCtx, -, ho⟩ := bind_error_iff.mp hv
    · exact parseCancelRequest_ne_nullDeref hmd v {} hp
    · cases ho
  · exact fun s => requireTags_ne_nullDeref _ _

/-! ## 4. The items they are written as -/

/-- The items of an array, after its key. -/
def arrayTokens {α : Type} {n : Nat} (key : Bytes) (f : α → List Token) (arr : Bounded α n) :
    List Token :=
  [.str key, .array (UInt32.ofNat arr.count)] ++ arr.elems.flatMap f

def BulkOrder.groupingText : Grouping → Bytes
  | .na => text "na"
  | .normalTpsl => text "normalTpsl"
  | .positionTpsl => text "positionTpsl"

def BuilderInfo.tokens (b : BuilderInfo) : List Token :=
  [.str (text "builder"), .map 2,
   .str (text "b"), .str (BulkOrder.builderAddrStr b.builder),
   .str (text "f"), .uinteger b.fee]

/-- The optional builder. -/
def BulkOrder.builderTokens (builder : Option BuilderInfo) : List Token :=
  match builder with
  | some b => b.tokens
  | none => []

def BulkOrder.tokens (b : BulkOrder) : List Token :=
  [.map (if b.builder.isSome then 4 else 3),
   .str (text "type"), .str (text "order")] ++
  (arrayTokens (text "orders") OrderRequest.tokens b.orders ++
   ([.str (text "grouping"), .str (groupingText b.grouping)] ++ builderTokens b.builder))

def ModifyRequest.tokens (m : ModifyRequest) : List Token :=
  [.map 2, .str (text "oid"), .uinteger m.oid, .str (text "order")] ++ m.order.tokens

def BulkModify.tokens (b : BulkModify) : List Token :=
  [.map 2, .str (text "type"), .str (text "batchModify")] ++
  arrayTokens (text "modifies") ModifyRequest.tokens b.modifies

def CancelRequest.tokens (c : CancelRequest) : List Token :=
  [.map 2, .str (text "a"), .uinteger c.asset.toUInt64, .str (text "o"), .uinteger c.oid]

def BulkCancel.tokens (b : BulkCancel) : List Token :=
  [.map 2, .str (text "type"), .str (text "cancel")] ++
  arrayTokens (text "cancels") CancelRequest.tokens b.cancels

section

variable (sdk : Sdk)

theorem BulkOrder.builderSerialize_emits (b : BuilderInfo) :
    Emits sdk (builderSerialize sdk b) b.tokens :=
  .cons _ (.cons _ (.cons _ (.cons _ (.cons _ (.single _)))))

open BulkOrder in
theorem bulkOrderSerialize_emits (b : BulkOrder) :
    Emits sdk (bulkOrderSerialize sdk b) b.tokens := by
  refine .cons _ (.cons _ (.cons _ (.cons _ (.cons _ ?_))))
  refine .append (.forM (orderRequestSerialize_emits sdk) b.orders.elems) (.cons _ ?_)
  show Emits sdk _ ([.str (groupingText b.grouping)] ++ builderTokens b.builder)
  refine .append ?_ ?_
  · cases b.grouping with
    | na => exact .single _
    | normalTpsl => exact .single _
    | positionTpsl => exact .single _
  · cases b.builder with
    | none => exact .nil
    | some builder => exact builderSerialize_emits sdk builder

theorem bulkModifySerialize_emits (b : BulkModify) :
    Emits sdk (bulkModifySerialize sdk b) b.tokens := by
  refine .cons _ (.cons _ (.cons _ (.cons _ (.cons _ ?_))))
  refine .forM (fun m => ?_) b.modifies.elems
  exact .cons _ (.cons _ (.cons _ (.cons _ (orderRequestSerialize_emits sdk m.order))))

theorem bulkCancelSerialize_emits (b : BulkCancel) :
    Emits sdk (bulkCancelSerialize sdk b) b.tokens := by
  refine .cons _ (.cons _ (.cons _ (.cons _ (.cons _ ?_))))
  refine .forM (fun c => ?_) b.cancels.elems
  exact .cons _ (.cons _ (.cons _ (.cons _ (.single _))))

end

end Hyperliquid

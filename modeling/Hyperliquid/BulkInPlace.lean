/-
# The bulk actions in memory

`bulk_order.c`, `bulk_modify.c` and `bulk_cancel.c` once more, with what `BulkActions` leaves out:
an array has its `BULK_MAX_SIZE` slots from the start, an element is parsed into the next one, and
all elements go through the one sub-context that the context holds, which for a modify request
holds the sub-context of its order in turn.

The sub-contexts are not wiped between payloads or after a failure, so nothing is said about what
they hold.  The parsers here agree with those of `BulkActions` all the same
(`parseBulkOrder_agrees` and its siblings): what they leave in their slots is the list that the
others build.
-/
import Hyperliquid.Lib.TlvInPlace
import Hyperliquid.BulkActions

namespace Hyperliquid

open Lib

namespace InPlace

/-! ## 1. bulk_order.c -/

/-- `s_bulk_order`. -/
structure BulkOrder where
  orders : Slots OrderRequest bulkMaxSize := .blank {}
  grouping : Grouping := .na
  builder : Option BuilderInfo := none
deriving DecidableEq

/-- `s_bulk_order_ctx`. -/
structure BulkOrderCtx where
  receivedTags : List Nat := []
  bulkOrder : BulkOrder := {}
  orderCtx : OrderRequest.OrderRequestCtx := {}
  builderInfoCtx : BulkOrder.BuilderInfoCtx := {}

instance : TlvContext BulkOrderCtx where
  receivedTags := BulkOrderCtx.receivedTags
  receive t s := { s with receivedTags := t :: s.receivedTags }

namespace BulkOrder

open Hyperliquid.BulkOrder (tagOrder tagGrouping tagBuilder groupingOfByte parseBuilderInfo)

section

variable (sdk : Sdk) (hl : HlContext)

def handleOrder : TlvData → BulkOrderCtx → Except Failure BulkOrderCtx :=
  reusing (parseOrderRequest sdk hl) {}
    (fun order orderCtx => { orderCtx with orderRequest := order })
    (fun orderCtx => orderCtx.orderRequest)
    (fun out => out.orderCtx) (fun orderCtx out => { out with orderCtx := orderCtx })
    (fun out => out.bulkOrder.orders)
    fun orders out => { out with bulkOrder := { out.bulkOrder with orders := orders } }

def handleGrouping : TlvData → BulkOrderCtx → Except Failure BulkOrderCtx :=
  storing (fun d => sdk.getUint8TFromTlvData d >>= groupingOfByte)
    fun g out => { out with bulkOrder := { out.bulkOrder with grouping := g } }

def handleBuilder (data : TlvData) (out : BulkOrderCtx) : Except Failure BulkOrderCtx := do
  let builderInfoCtx ← parseBuilderInfo sdk data.value
    { out.builderInfoCtx with builderInfo := out.bulkOrder.builder.getD {} }
  .ok { out with
    builderInfoCtx := builderInfoCtx
    bulkOrder := { out.bulkOrder with builder := some builderInfoCtx.builderInfo } }

def bulkOrderTlvParser : TlvParser BulkOrderCtx where
  tags :=
    [⟨tagOrder, handleOrder sdk hl, false⟩,
     ⟨tagGrouping, handleGrouping sdk, true⟩,
     ⟨tagBuilder, handleBuilder sdk, true⟩]
  common := noCommon

def verifyBulkOrder (out : BulkOrderCtx) : Except Failure Unit :=
  requireTags out.receivedTags [tagOrder, tagGrouping]

end

end BulkOrder

open InPlace.BulkOrder in
def parseBulkOrder (sdk : Sdk) (hl : HlContext) (payload : Bytes) (out : BulkOrderCtx) :
    Except Failure BulkOrderCtx :=
  (bulkOrderTlvParser sdk hl).parseVerified sdk.tlvDecode verifyBulkOrder payload out

/-! ## 2. bulk_modify.c -/

/-- `s_bulk_modify`. -/
structure BulkModify where
  modifies : Slots ModifyRequest bulkMaxSize := .blank {}
deriving DecidableEq

/-- `s_bulk_modify_ctx`. -/
structure BulkModifyCtx where
  receivedTags : List Nat := []
  bulkModify : BulkModify := {}
  modifyRequestCtx : BulkModify.ModifyRequestCtx := {}

instance : TlvContext BulkModifyCtx where
  receivedTags := BulkModifyCtx.receivedTags
  receive t s := { s with receivedTags := t :: s.receivedTags }

namespace BulkModify

open Hyperliquid.BulkModify (tagModifyRequest parseModifyRequest)

section

variable (sdk : Sdk) (hl : HlContext)

def handleModifyRequest : TlvData → BulkModifyCtx → Except Failure BulkModifyCtx :=
  reusing (parseModifyRequest sdk hl) {}
    (fun modifyRequest modifyRequestCtx =>
      { modifyRequestCtx with modifyRequest := modifyRequest })
    (fun modifyRequestCtx => modifyRequestCtx.modifyRequest)
    (fun out => out.modifyRequestCtx)
    (fun modifyRequestCtx out => { out with modifyRequestCtx := modifyRequestCtx })
    (fun out => out.bulkModify.modifies)
    fun modifies out => { out with bulkModify := { out.bulkModify with modifies := modifies } }

def bulkModifyTlvParser : TlvParser BulkModifyCtx where
  tags := [⟨tagModifyRequest, handleModifyRequest sdk hl, false⟩]
  common := noCommon

def verifyBulkModify (out : BulkModifyCtx) : Except Failure Unit :=
  requireTags out.receivedTags [tagModifyRequest]

end

end BulkModify

open InPlace.BulkModify in
def parseBulkModify (sdk : Sdk) (hl : HlContext) (payload : Bytes) (out : BulkModifyCtx) :
    Except Failure BulkModifyCtx :=
  (bulkModifyTlvParser sdk hl).parseVerified sdk.tlvDecode verifyBulkModify payload out

/-! ## 3. bulk_cancel.c -/

/-- `s_bulk_cancel`. -/
structure BulkCancel where
  cancels : Slots CancelRequest bulkMaxSize := .blank {}
deriving DecidableEq

/-- `s_bulk_cancel_ctx`. -/
structure BulkCancelCtx where
  receivedTags : List Nat := []
  bulkCancel : BulkCancel := {}
  cancelRequestCtx : BulkCancel.CancelRequestCtx := {}

instance : TlvContext BulkCancelCtx where
  receivedTags := BulkCancelCtx.receivedTags
  receive t s := { s with receivedTags := t :: s.receivedTags }

namespace BulkCancel

open Hyperliquid.BulkCancel (tagCancelRequest parseCancelRequest)

section

variable (sdk : Sdk) (hl : HlContext)

def handleCancelRequest : TlvData → BulkCancelCtx → Except Failure BulkCancelCtx :=
  reusing (parseCancelRequest sdk hl) {}
    (fun cancelRequest cancelRequestCtx =>
      { cancelRequestCtx with cancelRequest := cancelRequest })
    (fun cancelRequestCtx => cancelRequestCtx.cancelRequest)
    (fun out => out.cancelRequestCtx)
    (fun cancelRequestCtx out => { out with cancelRequestCtx := cancelRequestCtx })
    (fun out => out.bulkCancel.cancels)
    fun cancels out => { out with bulkCancel := { out.bulkCancel with cancels := cancels } }

def bulkCancelTlvParser : TlvParser BulkCancelCtx where
  tags := [⟨tagCancelRequest, handleCancelRequest sdk hl, false⟩]
  common := noCommon

def verifyBulkCancel (out : BulkCancelCtx) : Except Failure Unit :=
  requireTags out.receivedTags [tagCancelRequest]

end

end BulkCancel

open InPlace.BulkCancel in
def parseBulkCancel (sdk : Sdk) (hl : HlContext) (payload : Bytes) (out : BulkCancelCtx) :
    Except Failure BulkCancelCtx :=
  (bulkCancelTlvParser sdk hl).parseVerified sdk.tlvDecode verifyBulkCancel payload out

/-! ## 4. They agree with the parsers that build lists -/

/-- The array holds the list; of the sub-context of the orders nothing is said. -/
structure BulkOrderCtx.Holds (s : BulkOrderCtx) (t : Hyperliquid.BulkOrder.BulkOrderCtx) :
    Prop where
  received : s.receivedTags = t.receivedTags
  orders : s.bulkOrder.orders.Holds {} t.bulkOrder.orders
  grouping : s.bulkOrder.grouping = t.bulkOrder.grouping
  builder : s.bulkOrder.builder = t.bulkOrder.builder
  builderInfoCtx : s.builderInfoCtx = t.builderInfoCtx

structure BulkModifyCtx.Holds (s : BulkModifyCtx) (t : Hyperliquid.BulkModify.BulkModifyCtx) :
    Prop where
  received : s.receivedTags = t.receivedTags
  modifies : s.bulkModify.modifies.Holds {} t.bulkModify.modifies

structure BulkCancelCtx.Holds (s : BulkCancelCtx) (t : Hyperliquid.BulkCancel.BulkCancelCtx) :
    Prop where
  received : s.receivedTags = t.receivedTags
  cancels : s.bulkCancel.cancels.Holds {} t.bulkCancel.cancels

section

variable (sdk : Sdk) (hl : HlContext)

theorem BulkOrder.handleOrder_agrees (d : TlvData) {s : BulkOrderCtx}
    {t : Hyperliquid.BulkOrder.BulkOrderCtx} (h : s.Holds t) :
    Agree BulkOrderCtx.Holds (handleOrder sdk hl d s)
      (Hyperliquid.BulkOrder.handleOrder sdk hl d t) := by
  refine reusing_agrees {} ?_ ?_ ?_ ?_ ?_ d h
  · exact fun _ _ => rfl
  · rfl
  · exact fun _ _ h => h.orders
  · exact fun _ _ _ _ _ h hx => ⟨h.received, hx, h.grouping, h.builder, h.builderInfoCtx⟩
  · exact fun _ _ _ => rfl

theorem BulkOrder.handleGrouping_agrees (d : TlvData) {s : BulkOrderCtx}
    {t : Hyperliquid.BulkOrder.BulkOrderCtx} (h : s.Holds t) :
    Agree BulkOrderCtx.Holds (handleGrouping sdk d s)
      (Hyperliquid.BulkOrder.handleGrouping sdk d t) := by
  refine storing_agrees ?_ d h
  exact fun _ _ _ h => ⟨h.received, h.orders, rfl, h.builder, h.builderInfoCtx⟩

theorem BulkOrder.handleBuilder_agrees (d : TlvData) {s : BulkOrderCtx}
    {t : Hyperliquid.BulkOrder.BulkOrderCtx} (h : s.Holds t) :
    Agree BulkOrderCtx.Holds (handleBuilder sdk d s)
      (Hyperliquid.BulkOrder.handleBuilder sdk d t) := by
  unfold handleBuilder Hyperliquid.BulkOrder.handleBuilder
  rw [h.builderInfoCtx, h.builder]
  refine (Agree.refl _).bind ?_
  rintro c _ rfl
  exact .ok ⟨h.received, h.orders, h.grouping, rfl, rfl⟩

theorem BulkModify.handleModifyRequest_agrees (d : TlvData) {s : BulkModifyCtx}
    {t : Hyperliquid.BulkModify.BulkModifyCtx} (h : s.Holds t) :
    Agree BulkModifyCtx.Holds (handleModifyRequest sdk hl d s)
      (Hyperliquid.BulkModify.handleModifyRequest sdk hl d t) := by
  refine reusing_agrees {} ?_ ?_ ?_ ?_ ?_ d h
  · exact fun _ _ => rfl
  · rfl
  · exact fun _ _ h => h.modifies
  · exact fun _ _ _ _ _ h hx => ⟨h.received, hx⟩
  · exact fun _ _ _ => rfl

theorem BulkCancel.handleCancelRequest_agrees (d : TlvData) {s : BulkCancelCtx}
    {t : Hyperliquid.BulkCancel.BulkCancelCtx} (h : s.Holds t) :
    Agree BulkCancelCtx.Holds (handleCancelRequest sdk hl d s)
      (Hyperliquid.BulkCancel.handleCancelRequest sdk hl d t) := by
  refine reusing_agrees {} ?_ ?_ ?_ ?_ ?_ d h
  · exact fun _ _ => rfl
  · rfl
  · exact fun _ _ h => h.cancels
  · exact fun _ _ _ _ _ h hx => ⟨h.received, hx⟩
  · exact fun _ _ _ => rfl

theorem bulkOrderTlvParser_simulates :
    TlvParser.Simulates BulkOrderCtx.Holds (BulkOrder.bulkOrderTlvParser sdk hl)
      (Hyperliquid.BulkOrder.bulkOrderTlvParser sdk hl) where
  rows := .cons ⟨rfl, rfl, fun d _ _ h => BulkOrder.handleOrder_agrees sdk hl d h⟩
    (.cons ⟨rfl, rfl, fun d _ _ h => BulkOrder.handleGrouping_agrees sdk d h⟩
      (.cons ⟨rfl, rfl, fun d _ _ h => BulkOrder.handleBuilder_agrees sdk d h⟩ .nil))
  common _ _ _ h := .ok h
  received _ _ h := h.received
  receive tag _ _ h :=
    ⟨congrArg (tag :: ·) h.received, h.orders, h.grouping, h.builder, h.builderInfoCtx⟩

theorem bulkModifyTlvParser_simulates :
    TlvParser.Simulates BulkModifyCtx.Holds (BulkModify.bulkModifyTlvParser sdk hl)
      (Hyperliquid.BulkModify.bulkModifyTlvParser sdk hl) where
  rows := .cons ⟨rfl, rfl, fun d _ _ h => BulkModify.handleModifyRequest_agrees sdk hl d h⟩ .nil
  common _ _ _ h := .ok h
  received _ _ h := h.received
  receive tag _ _ h := ⟨congrArg (tag :: ·) h.received, h.modifies⟩

theorem bulkCancelTlvParser_simulates :
    TlvParser.Simulates BulkCancelCtx.Holds (BulkCancel.bulkCancelTlvParser sdk hl)
      (Hyperliquid.BulkCancel.bulkCancelTlvParser sdk hl) where
  rows := .cons ⟨rfl, rfl, fun d _ _ h => BulkCancel.handleCancelRequest_agrees sdk hl d h⟩ .nil
  common _ _ _ h := .ok h
  received _ _ h := h.received
  receive tag _ _ h := ⟨congrArg (tag :: ·) h.received, h.cancels⟩

theorem parseBulkOrder_agrees (payload : Bytes) :
    Agree BulkOrderCtx.Holds (parseBulkOrder sdk hl payload {})
      (Hyperliquid.parseBulkOrder sdk hl payload {}) :=
  (bulkOrderTlvParser_simulates sdk hl).parseVerified
    (fun _ _ h => congrArg (requireTags · _) h.received) payload
    ⟨rfl, Slots.holds_blank, rfl, rfl, rfl⟩

theorem parseBulkModify_agrees (payload : Bytes) :
    Agree BulkModifyCtx.Holds (parseBulkModify sdk hl payload {})
      (Hyperliquid.parseBulkModify sdk hl payload {}) :=
  (bulkModifyTlvParser_simulates sdk hl).parseVerified
    (fun _ _ h => congrArg (requireTags · _) h.received) payload ⟨rfl, Slots.holds_blank⟩

theorem parseBulkCancel_agrees (payload : Bytes) :
    Agree BulkCancelCtx.Holds (parseBulkCancel sdk hl payload {})
      (Hyperliquid.parseBulkCancel sdk hl payload {}) :=
  (bulkCancelTlvParser_simulates sdk hl).parseVerified
    (fun _ _ h => congrArg (requireTags · _) h.received) payload ⟨rfl, Slots.holds_blank⟩

end

end InPlace

end Hyperliquid

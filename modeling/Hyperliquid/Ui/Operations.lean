/-
# The reviews of the operations (`ui/op_*.c`, `ui/operation.c`)

One function for each operation: it fetches the action it describes by its type, checks that
the action has the shape it can describe, and prints it.  `handle_ui` chooses the function by
the operation of the metadata, and adds the two messages.

A function that returns `false` is `none` here: what it had prepared is never displayed.  The
texts differ between devices with a large screen (`SCREEN_SIZE_WALLET`) and the others.
-/
import Hyperliquid.Ui.Common

namespace Hyperliquid

open Lib

/-- A text of the source that depends on `SCREEN_SIZE_WALLET`, into the intent buffer. -/
def Sdk.intent (sdk : Sdk) (wallet nano : Bytes) : CString intentStringLength :=
  snprintf intentStringLength (if sdk.screenSizeWallet then wallet else nano)

section

variable (sdk : Sdk) (ctx : HlContext)

/-! ## 1. op_order.c -/

/-- The capacity of `operation` in the reviews of orders. -/
abbrev orderOperationLength : Nat :=
  limitMarketStringLength + 1 + shortLongStringLength + 3 + assetTickerLength

def uiOrderCommon (uiCtx : UiCtx) (metadata : ActionMetadata) (limit : OrderRequest)
    (updateLeverage : Option UpdateLeverage) (tpOrder slOrder : Option OrderRequest) :
    Option UiCtx :=
  let uiCtx := showMetadataMargin sdk uiCtx metadata
  -- cross orders are unsupported
  if updateLeverage.any fun u => u.isCross then none
  else
    let uiCtx := uiCtx.addPair? "Leverage" (fun u => leverageText u.leverage) updateLeverage
    let uiCtx := uiCtx.addPair? "Take Profit" (fun o => priceText o.trigger.triggerPx) tpOrder
    let uiCtx := uiCtx.addPair? "Stop Loss" (fun o => priceText o.trigger.triggerPx) slOrder
    some (uiCtx.addPair "Size" (sizeText limit.sz metadata.assetTicker))

def uiMarketOrder (uiCtx : UiCtx) (metadata : ActionMetadata) (limit : OrderRequest)
    (updateLeverage : Option UpdateLeverage) (tpOrder slOrder : Option OrderRequest) :
    Option UiCtx := do
  let uiCtx := uiCtx.addPair "Operation"
    (snprintf orderOperationLength
      (text "Market " ++ getShortLongStringCapitalized limit ++ text " - " ++
        metadata.assetTicker.chars)).chars
  let uiCtx ← uiOrderCommon sdk uiCtx metadata limit updateLeverage tpOrder slOrder
  some { uiCtx with
    intent := sdk.intent
      (text "Open " ++ metadata.assetTicker.chars ++ text " " ++ getShortLongString limit)
      (text "open " ++ getShortLongString limit) }

def uiLimitOrder (uiCtx : UiCtx) (metadata : ActionMetadata) (limit : OrderRequest)
    (updateLeverage : Option UpdateLeverage) (tpOrder slOrder : Option OrderRequest) :
    Option UiCtx := do
  let uiCtx := uiCtx.addPair "Operation"
    (snprintf orderOperationLength
      (text "Limit " ++ getShortLongStringCapitalized limit ++ text " - " ++
        metadata.assetTicker.chars)).chars
  let uiCtx := uiCtx.addPair "Limit Price" (priceText limit.limitPx)
  let uiCtx ← uiOrderCommon sdk uiCtx metadata limit updateLeverage tpOrder slOrder
  some { uiCtx with
    intent := sdk.intent
      (text "Open " ++ metadata.assetTicker.chars ++ text " limit order")
      (text "open limit order") }

def uiOrder (uiCtx : UiCtx) (metadata : ActionMetadata) : Option UiCtx :=
  match ctxGetAction .bulkOrder ctx with
  | none => none
  | some bulkOrder =>
    let orders := bulkOrder.bulkOrder.orders.elems
    match getOrderRequest orders getLimitRequest with
    | none => none
    | some limitOrder =>
      let updateLeverage := (ctxGetAction .updateLeverage ctx).map fun a => a.updateLeverage
      let tpOrder := getOrderRequest orders getTriggerTp
      let slOrder := getOrderRequest orders getTriggerSl
      -- exactly one limit order, at most one TP, at most one SL, and no hidden extra orders
      if countOrderRequests orders getLimitRequest != 1 ||
          countOrderRequests orders getTriggerTp > 1 ||
          countOrderRequests orders getTriggerSl > 1 ||
          orders.length != 1 + tpOrder.isSome.toNat + slOrder.isSome.toNat then none
      else if tpOrder.any (fun o => !checkTriggerMatchesLimit o limitOrder) ||
          slOrder.any (fun o => !checkTriggerMatchesLimit o limitOrder) then none
      else
        match limitOrder.limit.tif with
        | .ioc => uiMarketOrder sdk uiCtx metadata limitOrder updateLeverage tpOrder slOrder
        | .gtc => uiLimitOrder sdk uiCtx metadata limitOrder updateLeverage tpOrder slOrder
        | .alo => none

/-! ## 2. op_modify.c -/

def getModifyRequest (list : List ModifyRequest) (matchFunc : ModifyRequest → Bool) :
    Option ModifyRequest := list.find? matchFunc

def countModifyRequests (list : List ModifyRequest) (matchFunc : ModifyRequest → Bool) : Nat :=
  list.countP matchFunc

def getModifyTp (req : ModifyRequest) : Bool :=
  req.order.orderType == .trigger && req.order.trigger.tpsl == .tp

def getModifySl (req : ModifyRequest) : Bool :=
  req.order.orderType == .trigger && req.order.trigger.tpsl == .sl

/-- `target_tmp`, of the triggers that are there. -/
def modifyTarget (tpReq slReq : Option OrderRequest) : Bytes :=
  match tpReq, slReq with
  | some _, some _ => if sdk.screenSizeWallet then text "Take Profit and Stop Loss" else text "TP/SL"
  | some _, none => if sdk.screenSizeWallet then text "Take Profit" else text "TP"
  | none, _ => if sdk.screenSizeWallet then text "Stop Loss" else text "SL"

/-- The second half of `ui_modify`: the checks on the triggers that were found, and the pairs.
The order ids are those of the modify requests, for an action that has them. -/
def uiModifyTriggers (uiCtx : UiCtx) (metadata : ActionMetadata) (actionType : ActionType)
    (tpReq slReq : Option OrderRequest) (tpOid slOid : Option UInt64) : Option UiCtx :=
  -- `any_req`; there is none exactly when both are missing
  match tpReq.or slReq with
  | none => none
  | some anyReq =>
    if tpReq.any (fun o => !checkTriggerCloseOrder o) ||
        slReq.any (fun o => !checkTriggerCloseOrder o) ||
        tpReq.any (fun t => slReq.any fun s => t.sz != s.sz) then none
    else
      let isModify := actionType == .bulkModify
      let uiCtx := uiCtx.addPair "Active Position"
        (snprintf orderOperationLength
          (text "Market " ++ getShortLongStringCapitalized anyReq ++ text " - " ++
            metadata.assetTicker.chars)).chars
      let uiCtx := showMetadataMargin sdk uiCtx metadata
      let uiCtx := showMetadataLeverage uiCtx metadata
      let uiCtx := uiCtx.addPair "Size" (sizeText anyReq.sz metadata.assetTicker)
      let uiCtx := uiCtx.addPair? (if isModify then "New Take Profit" else "Take Profit")
        (fun o => priceText o.trigger.triggerPx) tpReq
      let uiCtx := uiCtx.addPair? "TP Order ID" (oidText sdk) (if isModify then tpOid else none)
      let uiCtx := uiCtx.addPair? (if isModify then "New Stop Loss" else "Stop Loss")
        (fun o => priceText o.trigger.triggerPx) slReq
      let uiCtx := uiCtx.addPair? "SL Order ID" (oidText sdk) (if isModify then slOid else none)
      let target := modifyTarget sdk tpReq slReq
      some { uiCtx with
        intent := sdk.intent
          ((if actionType == .bulkOrder then text "Set" else text "Edit") ++ text " " ++
            metadata.assetTicker.chars ++ text " " ++ target)
          ((if actionType == .bulkOrder then text "set" else text "edit") ++ text " " ++ target) }

def uiModify (uiCtx : UiCtx) (metadata : ActionMetadata) : Option UiCtx :=
  match (ctxGetAction .bulkModify ctx).or (ctxGetAction .bulkOrder ctx) with
  | none => none
  | some action =>
    match action.type with
    | .bulkModify =>
      let modifies := action.bulkModify.modifies.elems
      let modTpReq := getModifyRequest modifies getModifyTp
      let modSlReq := getModifyRequest modifies getModifySl
      -- at most one TP modify and one SL modify, and no hidden extra modifies
      if countModifyRequests modifies getModifyTp > 1 ||
          countModifyRequests modifies getModifySl > 1 ||
          modifies.length != modTpReq.isSome.toNat + modSlReq.isSome.toNat then none
      else
        uiModifyTriggers sdk uiCtx metadata action.type (modTpReq.map fun m => m.order)
          (modSlReq.map fun m => m.order) (modTpReq.map fun m => m.oid)
          (modSlReq.map fun m => m.oid)
    | .bulkOrder =>
      let orders := action.bulkOrder.orders.elems
      let tpReq := getOrderRequest orders getTriggerTp
      let slReq := getOrderRequest orders getTriggerSl
      -- no limit orders, at most one TP and one SL, and no hidden extra orders
      if countOrderRequests orders getLimitRequest != 0 ||
          countOrderRequests orders getTriggerTp > 1 ||
          countOrderRequests orders getTriggerSl > 1 ||
          orders.length != tpReq.isSome.toNat + slReq.isSome.toNat then none
      else uiModifyTriggers sdk uiCtx metadata action.type tpReq slReq none none
    | _ => none

/-! ## 3. op_cancel.c -/

/-- The capacity of `operation` in the reviews of cancellations. -/
abbrev cancelOperationLength : Nat := 15 + assetTickerLength + 1 + 25

def showCancelOids (uiCtx : UiCtx) (bulkCancel : BulkCancel) : UiCtx :=
  bulkCancel.cancels.elems.foldl (fun uiCtx c => uiCtx.addPair "Order ID" (oidText sdk c.oid)) uiCtx

def uiCancel (uiCtx : UiCtx) (metadata : ActionMetadata) : Option UiCtx :=
  match ctxGetAction .bulkCancel ctx with
  | none => none
  | some action =>
    if action.bulkCancel.cancels.count != 1 then none
    else
      let uiCtx := uiCtx.addPair "Operation"
        (snprintf cancelOperationLength
          (text "Cancel order - " ++ metadata.assetTicker.chars)).chars
      let uiCtx := showMetadataMargin sdk uiCtx metadata
      let uiCtx := showMetadataLeverage uiCtx metadata
      let uiCtx := showCancelOids sdk uiCtx action.bulkCancel
      some { uiCtx with
        intent := sdk.intent
          (text "Cancel " ++ metadata.assetTicker.chars ++ text " order") (text "cancel order") }

/-- `target_tmp`, and the number of cancels the operation needs. -/
def cancelTarget (opType : OperationType) : Nat × Bytes :=
  match opType with
  | .cancelTpSl =>
    (2, if sdk.screenSizeWallet then text "Take Profit and Stop Loss" else text "TP/SL")
  | .cancelTp => (1, if sdk.screenSizeWallet then text "Take Profit" else text "TP")
  | _ => (1, if sdk.screenSizeWallet then text "Stop Loss" else text "SL")

def uiCancelTpSl (uiCtx : UiCtx) (metadata : ActionMetadata) : Option UiCtx :=
  match ctxGetAction .bulkCancel ctx with
  | none => none
  | some action =>
    let (count, target) := cancelTarget sdk metadata.opType
    if action.bulkCancel.cancels.count != count then none
    else
      let uiCtx := uiCtx.addPair "Operation"
        (snprintf cancelOperationLength
          (text "Cancel order - " ++ metadata.assetTicker.chars ++ text " " ++ target)).chars
      let uiCtx := showMetadataMargin sdk uiCtx metadata
      let uiCtx := showMetadataLeverage uiCtx metadata
      let uiCtx := showCancelOids sdk uiCtx action.bulkCancel
      some { uiCtx with
        intent := sdk.intent
          (text "Cancel " ++ metadata.assetTicker.chars ++ text " " ++ target)
          (text "cancel " ++ target) }

/-! ## 4. op_close.c -/

/-- The capacity of `operation` in the reviews of a close and of a margin update. -/
abbrev positionOperationLength : Nat := shortLongStringLength + 3 + assetTickerLength

/-- The time in force of the order is not looked at. -/
def uiClose (uiCtx : UiCtx) (metadata : ActionMetadata) : Option UiCtx :=
  match ctxGetAction .bulkOrder ctx with
  | none => none
  | some action =>
    if action.bulkOrder.orders.count != 1 then none
    else
      match getOrderRequest action.bulkOrder.orders.elems getLimitRequest with
      | none => none
      | some limit =>
        if !limit.reduceOnly then none
        else
          let uiCtx := uiCtx.addPair "Position to close"
            (snprintf positionOperationLength
              (getShortLongStringCapitalized limit ++ text " - " ++
                metadata.assetTicker.chars)).chars
          let uiCtx := showMetadataMargin sdk uiCtx metadata
          let uiCtx := showMetadataLeverage uiCtx metadata
          let uiCtx := uiCtx.addPair "Size" (sizeText limit.sz metadata.assetTicker)
          some { uiCtx with
            intent := sdk.intent
              (text "Close " ++ metadata.assetTicker.chars ++ text " " ++
                getShortLongString limit ++ text " position")
              (text "close " ++ getShortLongString limit ++ text " position") }

/-! ## 5. op_update_margin.c -/

/-- `-(uint64_t) ntli` or `(uint64_t) ntli`. -/
def ntliMargin (ntli : Int64) : UInt64 := if ntli < 0 then -ntli.toUInt64 else ntli.toUInt64

def uiUpdateMargin (uiCtx : UiCtx) (metadata : ActionMetadata) : Option UiCtx :=
  match ctxGetAction .updateIsolatedMargin ctx with
  | none => none
  | some action =>
    let u := action.updateIsolatedMargin
    let uiCtx := uiCtx.addPair "Active Position"
      (snprintf positionOperationLength
        ((if u.isBuy then text "Long" else text "Short") ++ text " - " ++
          metadata.assetTicker.chars)).chars
    let uiCtx := uiCtx.addPair "New Margin" (marginText sdk (ntliMargin u.ntli))
    let uiCtx := showMetadataLeverage uiCtx metadata
    some { uiCtx with
      intent := sdk.intent
        ((if u.ntli < 0 then text "Remove" else text "Add") ++ text " Margin " ++
          (if u.ntli < 0 then text "from" else text "to") ++ text " " ++
          metadata.assetTicker.chars ++ text " " ++
          (if u.isBuy then text "Long" else text "Short"))
        ((if u.ntli < 0 then text "remove" else text "add") ++ text " margin " ++
          (if u.ntli < 0 then text "from" else text "to") ++ text " " ++
          (if u.isBuy then text "long" else text "short")) }

/-! ## 6. operation.c -/

def prepareReviewSignMsgs (uiCtx : UiCtx) : UiCtx :=
  { uiCtx with
    reviewMsg := snprintf reviewSignStringLength (text "Review message to " ++ uiCtx.intent.chars)
    signMsg := snprintf reviewSignStringLength
      (text "Sign message to " ++ uiCtx.intent.chars ++ text "?") }

/-- The wiped context, with the pairs that every review begins with. -/
def uiHeader (metadata : ActionMetadata) : UiCtx :=
  let uiCtx := UiCtx.addPair {} "Protocol" appname
  if metadata.network == .testnet then uiCtx.addPair "Network" (text "Testnet") else uiCtx

/-- The review of the operation. -/
def uiOperation (metadata : ActionMetadata) : Option UiCtx :=
  let uiCtx := uiHeader metadata
  match metadata.opType with
  | .order => uiOrder sdk ctx uiCtx metadata
  | .modify => uiModify sdk ctx uiCtx metadata
  | .cancel => uiCancel sdk ctx uiCtx metadata
  | .close => uiClose sdk ctx uiCtx metadata
  | .updateMargin => uiUpdateMargin sdk ctx uiCtx metadata
  | .cancelSl | .cancelTp | .cancelTpSl => uiCancelTpSl sdk ctx uiCtx metadata
  | .updateLeverage => none

/-- The review that is displayed, when `handle_ui` returns `true`. -/
def handleUi (metadata : Option ActionMetadata) : Option UiCtx :=
  match metadata with
  | none => none
  | some metadata => (uiOperation sdk ctx metadata).map prepareReviewSignMsgs

end

end Hyperliquid

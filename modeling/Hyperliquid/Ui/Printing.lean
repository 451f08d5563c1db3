/-
# The reviews as they are printed (`ui_context.h`, `ui/*.c`)

The `ui_*` functions again, with the memory they print into: each value is printed into its own
array of `s_ui_ctx`, and the pair points to the array.  The arrays of the operations lie in a
union, the messages in front of it, and two temporary arrays on the stack.  A function returns
`true` or `false` and leaves the context as it is at that moment, also where it gives up.

How a text gets into an array is a parameter (`Printer`): the SDK's printing functions for the
application (`Sdk.printer`), and functions that never cut anything for what a review is meant to
say (`whole`).
-/
import Hyperliquid.Ui.Operations
import Hyperliquid.Lib.TextForm

namespace Hyperliquid.Printing

open Lib

/-! ## 1. The arrays of `s_ui_ctx` -/

/-- `s_order_strings`. -/
inductive OrderString where
  | operation
  | limitPrice
  | leverage
  | margin
  | tpPrice
  | slPrice
  | size
deriving DecidableEq

/-- `s_modify_strings`. -/
inductive ModifyString where
  | operation
  | margin
  | leverage
  | size
  | tpPrice
  | slPrice
  | tpOid
  | slOid
deriving DecidableEq

/-- `s_cancel_strings`. -/
inductive CancelString where
  | operation
  | margin
  | leverage
  | oid (i : Nat)
deriving DecidableEq

/-- `s_close_strings`. -/
inductive CloseString where
  | operation
  | margin
  | leverage
  | size
deriving DecidableEq

/-- `s_update_margin_strings`. -/
inductive UpdateMarginString where
  | operation
  | margin
  | leverage
deriving DecidableEq

/-- The members of the union in `s_ui_ctx`. -/
inductive UnionMember where
  | order
  | modify
  | cancel
  | close
  | updateMargin
deriving DecidableEq

/-- The arrays of `s_ui_ctx`, and the temporary ones of the functions. -/
inductive Buffer where
  | intent
  | reviewMsg
  | signMsg
  | tmp
  | targetTmp
  | order (b : OrderString)
  | modify (b : ModifyString)
  | cancel (b : CancelString)
  | close (b : CloseString)
  | updateMargin (b : UpdateMarginString)
deriving DecidableEq

namespace Buffer

/-- The arrays are one longer, for the NUL.  Behind the last order id there is no room. -/
def capacity : Buffer → Nat
  | .intent => intentStringLength
  | .reviewMsg | .signMsg => reviewSignStringLength
  | .tmp => numericStringLength + marginDecimals
  | .targetTmp => 31
  | .order .operation | .modify .operation => orderOperationLength
  | .cancel .operation => cancelOperationLength
  | .close .operation | .updateMargin .operation => positionOperationLength
  | .order .limitPrice | .order .tpPrice | .order .slPrice | .modify .tpPrice
  | .modify .slPrice => priceStringLength
  | .order .size | .modify .size | .close .size => sizeStringLength
  | .order .margin | .modify .margin | .cancel .margin | .close .margin
  | .updateMargin .margin => marginStringLength
  | .order .leverage | .modify .leverage | .cancel .leverage | .close .leverage
  | .updateMargin .leverage => leverageStringLength
  | .modify .tpOid | .modify .slOid => 20
  | .cancel (.oid i) => if i < bulkMaxSize then 20 else 0

/-- The member of the union that an array belongs to. -/
def member : Buffer → Option UnionMember
  | .intent | .reviewMsg | .signMsg | .tmp | .targetTmp => none
  | .order _ => some .order
  | .modify _ => some .modify
  | .cancel _ => some .cancel
  | .close _ => some .close
  | .updateMargin _ => some .updateMargin

end Buffer

instance : TextBuffers Buffer where
  capacity := Buffer.capacity
  overlaps b c := b.member.isSome && c.member.isSome && b.member != c.member

theorem overlaps_eq (b c : Buffer) : TextBuffers.overlaps b c =
    (b.member.isSome && c.member.isSome && b.member != c.member) := rfl

/-- `s_ui_ctx`. -/
abbrev UiMemory := Form Buffer

/-! ## 2. Printing -/

/-- What an array of a capacity keeps of a text, and of a number that is formatted into it. -/
structure Printer where
  text : (cap : Nat) → Bytes → Bytes
  u64 : (cap : Nat) → UInt64 → Bytes
  fpu64Trimmed : (cap : Nat) → UInt64 → (decimals : Nat) → Bytes

namespace Printer

/-- The functions of the C library and of the SDK. -/
def ofSdk (sdk : Sdk) : Printer where
  text cap s := (Lib.snprintf cap s).chars
  u64 cap value := (sdk.formatU64 cap value).chars
  fpu64Trimmed cap value decimals := (sdk.formatFpu64Trimmed cap value decimals).chars

/-- Nothing is ever cut. -/
def whole : Printer where
  text _ s := s
  u64 _ value := decimal value.toNat
  fpu64Trimmed _ value decimals := fixedTrimmed decimals value.toNat

variable (pr : Printer)

def snprintf (s : UiMemory) (b : Buffer) (output : Bytes) : UiMemory :=
  s.print b output (pr.text b.capacity output)

def formatU64 (s : UiMemory) (b : Buffer) (value : UInt64) : UiMemory :=
  s.print b (decimal value.toNat) (pr.u64 b.capacity value)

def formatFpu64Trimmed (s : UiMemory) (b : Buffer) (value : UInt64) (decimals : Nat) : UiMemory :=
  s.print b (fixedTrimmed decimals value.toNat) (pr.fpu64Trimmed b.capacity value decimals)

section

variable {sdk : Sdk} {s : UiMemory} {b : Buffer}

/-- A text with enough room. -/
theorem snprintf_ofSdk {output : Bytes} (hfits : output.length ≤ b.capacity) :
    (ofSdk sdk).snprintf s b output = s.print b output output := by
  unfold snprintf ofSdk
  dsimp only
  rw [snprintf_of_fits hfits]

theorem formatU64_ofSdk {value : UInt64}
    (hkept : (sdk.formatU64 b.capacity value).chars = decimal value.toNat) :
    (ofSdk sdk).formatU64 s b value =
      s.print b (decimal value.toNat) (decimal value.toNat) := by
  unfold formatU64 ofSdk
  dsimp only
  rw [hkept]

theorem formatFpu64Trimmed_ofSdk {value : UInt64} {decimals : Nat}
    (hkept : (sdk.formatFpu64Trimmed b.capacity value decimals).chars =
      fixedTrimmed decimals value.toNat) :
    (ofSdk sdk).formatFpu64Trimmed s b value decimals =
      s.print b (fixedTrimmed decimals value.toNat) (fixedTrimmed decimals value.toNat) := by
  unfold formatFpu64Trimmed ofSdk
  dsimp only
  rw [hkept]

end

end Printer

section

variable (sdk : Sdk) (pr : Printer) (ctx : HlContext)

/-! ## 3. ui/common.c -/

/-- An amount in `out`, through the temporary array. -/
def showMargin (s : UiMemory) (item : String) (margin : UInt64) (out : Buffer) : UiMemory :=
  let s := pr.formatFpu64Trimmed s .tmp margin marginDecimals
  let s := pr.snprintf s out (s.memory .tmp ++ text " " ++ countervalueTicker)
  s.addPair item (.buffer out)

def showMetadataMargin (s : UiMemory) (metadata : ActionMetadata) (out : Buffer) : UiMemory :=
  match metadata.margin with
  | none => s
  | some margin => showMargin pr s "Margin" margin out

def showLeverage (s : UiMemory) (leverage : UInt32) (out : Buffer) : UiMemory :=
  let s := pr.snprintf s out (decimal leverage.toNat ++ text "x")
  s.addPair "Leverage" (.buffer out)

def showMetadataLeverage (s : UiMemory) (metadata : ActionMetadata) (out : Buffer) : UiMemory :=
  match metadata.leverage with
  | none => s
  | some leverage => showLeverage pr s leverage out

/-- The leverage of an action that is there. -/
def showUpdateLeverage (s : UiMemory) (updateLeverage : Option UpdateLeverage) (out : Buffer) :
    UiMemory :=
  match updateLeverage with
  | none => s
  | some updateLeverage => showLeverage pr s updateLeverage.leverage out

/-- A text in `out`. -/
def showText (s : UiMemory) (item : String) (output : Bytes) (out : Buffer) : UiMemory :=
  let s := pr.snprintf s out output
  s.addPair item (.buffer out)

/-- `"%s %s"` with the countervalue ticker. -/
def showPrice (s : UiMemory) (item : String) (px : CString numericStringLength) (out : Buffer) :
    UiMemory :=
  showText pr s item (px.chars ++ text " " ++ countervalueTicker) out

/-- `"%s %s"` with the asset ticker. -/
def showSize (s : UiMemory) (sz : CString numericStringLength) (metadata : ActionMetadata)
    (out : Buffer) : UiMemory :=
  showText pr s "Size" (sz.chars ++ text " " ++ metadata.assetTicker.chars) out

def showOid (s : UiMemory) (item : String) (oid : UInt64) (out : Buffer) : UiMemory :=
  let s := pr.formatU64 s out oid
  s.addPair item (.buffer out)

/-- The trigger price of an order that is there. -/
def showTrigger (s : UiMemory) (item : String) (order : Option OrderRequest) (out : Buffer) :
    UiMemory :=
  match order with
  | none => s
  | some order => showPrice pr s item order.trigger.triggerPx out

/-- The intent, for the screen of the target. -/
def printIntent (s : UiMemory) (walletText nanoText : Bytes) : UiMemory :=
  pr.snprintf s .intent (if sdk.screenSizeWallet then walletText else nanoText)

/-! ## 4. op_order.c -/

def uiOrderCommon (s : UiMemory) (metadata : ActionMetadata) (limit : OrderRequest)
    (updateLeverage : Option UpdateLeverage) (tpOrder slOrder : Option OrderRequest) :
    Bool × UiMemory :=
  let s := showMetadataMargin pr s metadata (.order .margin)
  -- cross orders are unsupported
  if updateLeverage.any fun u => u.isCross then (false, s)
  else
    let s := showUpdateLeverage pr s updateLeverage (.order .leverage)
    let s := showTrigger pr s "Take Profit" tpOrder (.order .tpPrice)
    let s := showTrigger pr s "Stop Loss" slOrder (.order .slPrice)
    (true, showSize pr s limit.sz metadata (.order .size))

def uiMarketOrder (s : UiMemory) (metadata : ActionMetadata) (limit : OrderRequest)
    (updateLeverage : Option UpdateLeverage) (tpOrder slOrder : Option OrderRequest) :
    Bool × UiMemory :=
  let s := showText pr s "Operation"
    (text "Market " ++ getShortLongStringCapitalized limit ++ text " - " ++
      metadata.assetTicker.chars) (.order .operation)
  let (ret, s) := uiOrderCommon pr s metadata limit updateLeverage tpOrder slOrder
  if !ret then (false, s)
  else
    (true, printIntent sdk pr s
      (text "Open " ++ metadata.assetTicker.chars ++ text " " ++ getShortLongString limit)
      (text "open " ++ getShortLongString limit))

def uiLimitOrder (s : UiMemory) (metadata : ActionMetadata) (limit : OrderRequest)
    (updateLeverage : Option UpdateLeverage) (tpOrder slOrder : Option OrderRequest) :
    Bool × UiMemory :=
  let s := showText pr s "Operation"
    (text "Limit " ++ getShortLongStringCapitalized limit ++ text " - " ++
      metadata.assetTicker.chars) (.order .operation)
  let s := showPrice pr s "Limit Price" limit.limitPx (.order .limitPrice)
  let (ret, s) := uiOrderCommon pr s metadata limit updateLeverage tpOrder slOrder
  if !ret then (false, s)
  else
    (true, printIntent sdk pr s
      (text "Open " ++ metadata.assetTicker.chars ++ text " limit order")
      (text "open limit order"))

def uiOrder (s : UiMemory) (metadata : ActionMetadata) : Bool × UiMemory :=
  match ctxGetAction .bulkOrder ctx with
  | none => (false, s)
  | some bulkOrder =>
    let orders := bulkOrder.bulkOrder.orders.elems
    match getOrderRequest orders getLimitRequest with
    | none => (false, s)
    | some limitOrder =>
      let updateLeverage := (ctxGetAction .updateLeverage ctx).map fun a => a.updateLeverage
      let tpOrder := getOrderRequest orders getTriggerTp
      let slOrder := getOrderRequest orders getTriggerSl
      if countOrderRequests orders getLimitRequest != 1 ||
          countOrderRequests orders getTriggerTp > 1 ||
          countOrderRequests orders getTriggerSl > 1 ||
          orders.length != 1 + tpOrder.isSome.toNat + slOrder.isSome.toNat then (false, s)
      else if tpOrder.any (fun o => !checkTriggerMatchesLimit o limitOrder) ||
          slOrder.any (fun o => !checkTriggerMatchesLimit o limitOrder) then (false, s)
      else
        match limitOrder.limit.tif with
        | .ioc => uiMarketOrder sdk pr s metadata limitOrder updateLeverage tpOrder slOrder
        | .gtc => uiLimitOrder sdk pr s metadata limitOrder updateLeverage tpOrder slOrder
        | .alo => (false, s)

/-! ## 5. op_modify.c -/

/-- The pairs of one trigger; without it, the name of the other one in `target_tmp`. -/
def showModifyTrigger (s : UiMemory) (item : String) (price : Buffer) (oidItem : String)
    (oidOut : Buffer) (req : Option OrderRequest) (oid : Option UInt64)
    (walletOther nanoOther : Bytes) : UiMemory :=
  match req with
  | none => pr.snprintf s .targetTmp (if sdk.screenSizeWallet then walletOther else nanoOther)
  | some req =>
    let s := showPrice pr s item req.trigger.triggerPx price
    match oid with
    | none => s
    | some oid => showOid pr s oidItem oid oidOut

/-- The pairs of both triggers, and their name in `target_tmp`. -/
def showModifyTriggers (s : UiMemory) (isModify : Bool) (tpReq slReq : Option OrderRequest)
    (tpOid slOid : Option UInt64) : UiMemory :=
  let s := showModifyTrigger sdk pr s (if isModify then "New Take Profit" else "Take Profit")
    (.modify .tpPrice) "TP Order ID" (.modify .tpOid) tpReq (if isModify then tpOid else none)
    (text "Stop Loss") (text "SL")
  let s := showModifyTrigger sdk pr s (if isModify then "New Stop Loss" else "Stop Loss")
    (.modify .slPrice) "SL Order ID" (.modify .slOid) slReq (if isModify then slOid else none)
    (text "Take Profit") (text "TP")
  if tpReq.isSome && slReq.isSome then
    pr.snprintf s .targetTmp
      (if sdk.screenSizeWallet then text "Take Profit and Stop Loss" else text "TP/SL")
  else s

def uiModifyTriggers (s : UiMemory) (metadata : ActionMetadata) (actionType : ActionType)
    (tpReq slReq : Option OrderRequest) (tpOid slOid : Option UInt64) : Bool × UiMemory :=
  match tpReq.or slReq with
  | none => (false, s)
  | some anyReq =>
    if tpReq.any (fun o => !checkTriggerCloseOrder o) ||
        slReq.any (fun o => !checkTriggerCloseOrder o) ||
        tpReq.any (fun t => slReq.any fun s => t.sz != s.sz) then (false, s)
    else
      let isModify := actionType == .bulkModify
      let s := showText pr s "Active Position"
        (text "Market " ++ getShortLongStringCapitalized anyReq ++ text " - " ++
          metadata.assetTicker.chars) (.modify .operation)
      let s := showMetadataMargin pr s metadata (.modify .margin)
      let s := showMetadataLeverage pr s metadata (.modify .leverage)
      let s := showSize pr s anyReq.sz metadata (.modify .size)
      let s := showModifyTriggers sdk pr s isModify tpReq slReq tpOid slOid
      let target := s.memory .targetTmp
      (true, printIntent sdk pr s
        ((if actionType == .bulkOrder then text "Set" else text "Edit") ++ text " " ++
          metadata.assetTicker.chars ++ text " " ++ target)
        ((if actionType == .bulkOrder then text "set" else text "edit") ++ text " " ++ target))

def uiModify (s : UiMemory) (metadata : ActionMetadata) : Bool × UiMemory :=
  match (ctxGetAction .bulkModify ctx).or (ctxGetAction .bulkOrder ctx) with
  | none => (false, s)
  | some action =>
    match action.type with
    | .bulkModify =>
      let modifies := action.bulkModify.modifies.elems
      let modTpReq := getModifyRequest modifies getModifyTp
      let modSlReq := getModifyRequest modifies getModifySl
      if countModifyRequests modifies getModifyTp > 1 ||
          countModifyRequests modifies getModifySl > 1 ||
          modifies.length != modTpReq.isSome.toNat + modSlReq.isSome.toNat then (false, s)
      else
        uiModifyTriggers sdk pr s metadata action.type (modTpReq.map fun m => m.order)
          (modSlReq.map fun m => m.order) (modTpReq.map fun m => m.oid)
          (modSlReq.map fun m => m.oid)
    | .bulkOrder =>
      let orders := action.bulkOrder.orders.elems
      let tpReq := getOrderRequest orders getTriggerTp
      let slReq := getOrderRequest orders getTriggerSl
      if countOrderRequests orders getLimitRequest != 0 ||
          countOrderRequests orders getTriggerTp > 1 ||
          countOrderRequests orders getTriggerSl > 1 ||
          orders.length != tpReq.isSome.toNat + slReq.isSome.toNat then (false, s)
      else uiModifyTriggers sdk pr s metadata action.type tpReq slReq none none
    | _ => (false, s)

/-! ## 6. op_cancel.c -/

/-- The loop over the cancels, from the index `i` on. -/
def showCancelOids (s : UiMemory) (i : Nat) : List CancelRequest → UiMemory
  | [] => s
  | c :: cancels =>
    showCancelOids (showOid pr s "Order ID" c.oid (.cancel (.oid i))) (i + 1) cancels

/-- The pairs of the metadata and of the order ids. -/
def showCancel (s : UiMemory) (metadata : ActionMetadata) (bulkCancel : BulkCancel) : UiMemory :=
  let s := showMetadataMargin pr s metadata (.cancel .margin)
  let s := showMetadataLeverage pr s metadata (.cancel .leverage)
  showCancelOids pr s 0 bulkCancel.cancels.elems

def uiCancel (s : UiMemory) (metadata : ActionMetadata) : Bool × UiMemory :=
  match ctxGetAction .bulkCancel ctx with
  | none => (false, s)
  | some action =>
    if action.bulkCancel.cancels.count != 1 then (false, s)
    else
      let s := showText pr s "Operation" (text "Cancel order - " ++ metadata.assetTicker.chars)
        (.cancel .operation)
      let s := showCancel pr s metadata action.bulkCancel
      (true, printIntent sdk pr s
        (text "Cancel " ++ metadata.assetTicker.chars ++ text " order") (text "cancel order"))

def uiCancelTpSl (s : UiMemory) (metadata : ActionMetadata) : Bool × UiMemory :=
  match ctxGetAction .bulkCancel ctx with
  | none => (false, s)
  | some action =>
    let (count, name) := cancelTarget sdk metadata.opType
    if action.bulkCancel.cancels.count != count then (false, s)
    else
      let s := pr.snprintf s .targetTmp name
      let target := s.memory .targetTmp
      let s := showText pr s "Operation"
        (text "Cancel order - " ++ metadata.assetTicker.chars ++ text " " ++ target)
        (.cancel .operation)
      let s := showCancel pr s metadata action.bulkCancel
      (true, printIntent sdk pr s
        (text "Cancel " ++ metadata.assetTicker.chars ++ text " " ++ target)
        (text "cancel " ++ target))

/-! ## 7. op_close.c, op_update_margin.c -/

def uiClose (s : UiMemory) (metadata : ActionMetadata) : Bool × UiMemory :=
  match ctxGetAction .bulkOrder ctx with
  | none => (false, s)
  | some action =>
    if action.bulkOrder.orders.count != 1 then (false, s)
    else
      match getOrderRequest action.bulkOrder.orders.elems getLimitRequest with
      | none => (false, s)
      | some limit =>
        if !limit.reduceOnly then (false, s)
        else
          let s := showText pr s "Position to close"
            (getShortLongStringCapitalized limit ++ text " - " ++ metadata.assetTicker.chars)
            (.close .operation)
          let s := showMetadataMargin pr s metadata (.close .margin)
          let s := showMetadataLeverage pr s metadata (.close .leverage)
          let s := showSize pr s limit.sz metadata (.close .size)
          (true, printIntent sdk pr s
            (text "Close " ++ metadata.assetTicker.chars ++ text " " ++
              getShortLongString limit ++ text " position")
            (text "close " ++ getShortLongString limit ++ text " position"))

def uiUpdateMargin (s : UiMemory) (metadata : ActionMetadata) : Bool × UiMemory :=
  match ctxGetAction .updateIsolatedMargin ctx with
  | none => (false, s)
  | some action =>
    let u := action.updateIsolatedMargin
    let s := showText pr s "Active Position"
      ((if u.isBuy then text "Long" else text "Short") ++ text " - " ++
        metadata.assetTicker.chars) (.updateMargin .operation)
    let s := showMargin pr s "New Margin" (ntliMargin u.ntli) (.updateMargin .margin)
    let s := showMetadataLeverage pr s metadata (.updateMargin .leverage)
    (true, printIntent sdk pr s
      ((if u.ntli < 0 then text "Remove" else text "Add") ++ text " Margin " ++
        (if u.ntli < 0 then text "from" else text "to") ++ text " " ++
        metadata.assetTicker.chars ++ text " " ++ (if u.isBuy then text "Long" else text "Short"))
      ((if u.ntli < 0 then text "remove" else text "add") ++ text " margin " ++
        (if u.ntli < 0 then text "from" else text "to") ++ text " " ++
        (if u.isBuy then text "long" else text "short")))

/-! ## 8. operation.c -/

def prepareReviewSignMsgs (s : UiMemory) : UiMemory :=
  let s := pr.snprintf s .reviewMsg (text "Review message to " ++ s.memory .intent)
  pr.snprintf s .signMsg (text "Sign message to " ++ s.memory .intent ++ text "?")

/-- The wiped context, with the pairs that every review begins with. -/
def uiHeader (metadata : ActionMetadata) : UiMemory :=
  let s := Form.addPair {} "Protocol" (.literal appname)
  if metadata.network == .testnet then s.addPair "Network" (.literal (text "Testnet")) else s

def uiOperation (metadata : ActionMetadata) : Bool × UiMemory :=
  let s := uiHeader metadata
  match metadata.opType with
  | .order => uiOrder sdk pr ctx s metadata
  | .modify => uiModify sdk pr ctx s metadata
  | .cancel => uiCancel sdk pr ctx s metadata
  | .close => uiClose sdk pr ctx s metadata
  | .updateMargin => uiUpdateMargin sdk pr ctx s metadata
  | .cancelSl | .cancelTp | .cancelTpSl => uiCancelTpSl sdk pr ctx s metadata
  | .updateLeverage => (false, s)

/-- What `handle_ui` returns, and the `g_ui_ctx` it leaves. -/
def handleUi (before : UiMemory) (metadata : Option ActionMetadata) : Bool × UiMemory :=
  match metadata with
  | none => (false, before)
  | some metadata =>
    let (ret, s) := uiOperation sdk pr ctx metadata
    (ret, if ret then prepareReviewSignMsgs pr s else s)

end

end Hyperliquid.Printing

/-
# Nothing on the screen is cut or lost

Each `ui_*` function is followed from its first pair to its return, on the paths where it gives
up as well (`Returned`).  So `handle_ui` does the same as it would with arrays that never cut, and
what is on the screen is the review that all other results are about (`screen_uncut`).
-/
import Hyperliquid.Ui.Painted
import Hyperliquid.Ui.Screens
import Hyperliquid.AppMain
import Hyperliquid.Client

namespace Hyperliquid.Printing

open Lib

section

variable {sdk : Sdk} {n : Nat} {used : List Buffer} {u : UiCtx} {s s' : UiMemory}
  {metadata : ActionMetadata}

/-! ## 1. The reviews -/

section

variable (hu64 : sdk.PrintsU64) (hfpu : sdk.PrintsFpu64WithRoom) (ctx : HlContext)
  (h : Painted n [] u s s')

theorem length_getShortLongString_le (req : OrderRequest) :
    (getShortLongString req).length ≤ 5 := by
  unfold getShortLongString shortLongString
  split <;> split <;> decide

include hfpu h in
theorem returned_uiClose :
    Returned (n + 8) (uiClose sdk (Printer.ofSdk sdk) ctx s metadata)
      (uiClose sdk Printer.whole ctx s' metadata) (Hyperliquid.uiClose sdk ctx u metadata) := by
  unfold Printing.uiClose Hyperliquid.uiClose
  cases ctxGetAction .bulkOrder ctx with
  | none => exact h.rejects (by omega)
  | some action =>
    dsimp only
    by_cases hcount : (action.bulkOrder.orders.count != 1) = true
    · simp only [if_pos hcount]
      exact h.rejects (by omega)
    · simp only [if_neg hcount]
      cases getOrderRequest action.bulkOrder.orders.elems getLimitRequest with
      | none => exact h.rejects (by omega)
      | some limit =>
        dsimp only
        by_cases hreduce : (!limit.reduceOnly) = true
        · simp only [if_pos hreduce]
          exact h.rejects (by omega)
        · simp only [if_neg hreduce]
          have hticker : metadata.assetTicker.chars.length ≤ 48 := metadata.assetTicker.fits
          have hside := length_getShortLongStringCapitalized_le limit
          have hlabel := length_getShortLongString_le limit
          have hoperation : (getShortLongStringCapitalized limit ++ text " - " ++
              metadata.assetTicker.chars).length ≤ positionOperationLength := by
            have hsep : (text " - ").length = 3 := rfl
            simp only [List.length_append, positionOperationLength, shortLongStringLength,
              assetTickerLength]
            omega
          have hwallet : (text "Close " ++ metadata.assetTicker.chars ++ text " " ++
              getShortLongString limit ++ text " position").length ≤ 100 := by
            have hparts : (text "Close ").length + (text " ").length +
              (text " position").length = 16 := rfl
            simp only [List.length_append]
            omega
          have hnano : (text "close " ++ getShortLongString limit ++ text " position").length ≤
              100 := by
            have hparts : (text "close ").length + (text " position").length = 15 := rfl
            simp only [List.length_append]
            omega
          have h₁ := h.showText sdk (.close .operation) hoperation rfl (by simp)
            "Position to close"
          have h₂ := h₁.showMetadataMargin (.close .margin) hfpu rfl rfl (by decide) metadata
          have h₃ := h₂.showMetadataLeverage sdk (.close .leverage) rfl rfl (by decide) metadata
          have h₄ := h₃.showSize sdk (.close .size) rfl rfl (by decide) limit.sz metadata
          exact (h₄.printIntent sdk hwallet hnano).accepts (by omega)

include hfpu h in
theorem returned_uiUpdateMargin :
    Returned (n + 8) (uiUpdateMargin sdk (Printer.ofSdk sdk) ctx s metadata)
      (uiUpdateMargin sdk Printer.whole ctx s' metadata)
      (Hyperliquid.uiUpdateMargin sdk ctx u metadata) := by
  unfold Printing.uiUpdateMargin Hyperliquid.uiUpdateMargin
  cases ctxGetAction .updateIsolatedMargin ctx with
  | none => exact h.rejects (by omega)
  | some action =>
    dsimp only
    generalize action.updateIsolatedMargin = a
    have hticker : metadata.assetTicker.chars.length ≤ 48 := metadata.assetTicker.fits
    have hside : (if a.isBuy then text "Long" else text "Short").length ≤ 5 := by
      split <;> decide
    have hlabel : (if a.isBuy then text "long" else text "short").length ≤ 5 := by
      split <;> decide
    have hverb : (if a.ntli < 0 then text "Remove" else text "Add").length ≤ 6 := by
      split <;> decide
    have hnanoVerb : (if a.ntli < 0 then text "remove" else text "add").length ≤ 6 := by
      split <;> decide
    have hway : (if a.ntli < 0 then text "from" else text "to").length ≤ 4 := by
      split <;> decide
    have hoperation : ((if a.isBuy then text "Long" else text "Short") ++ text " - " ++
        metadata.assetTicker.chars).length ≤ positionOperationLength := by
      have hsep : (text " - ").length = 3 := rfl
      simp only [List.length_append, positionOperationLength, shortLongStringLength,
        assetTickerLength]
      omega
    have hmargin : (text " Margin ").length = 8 := rfl
    have hnanoMargin : (text " margin ").length = 8 := rfl
    have hspace : (text " ").length = 1 := rfl
    have h₁ := h.showText sdk (.updateMargin .operation) hoperation rfl (by simp)
      "Active Position"
    have h₂ := h₁.showMargin (.updateMargin .margin) hfpu rfl rfl (by decide) "New Margin"
      (ntliMargin a.ntli)
    have h₃ := h₂.showMetadataLeverage sdk (.updateMargin .leverage) rfl rfl (by decide) metadata
    refine (h₃.printIntent sdk ?_ ?_).accepts (by omega)
    · simp only [List.length_append]
      omega
    · simp only [List.length_append]
      omega

include hfpu in
/-- The pairs of an order after its operation and its price. -/
theorem returned_uiOrderCommon
    (h : Painted n [.order .limitPrice, .order .operation] u s s') (metadata : ActionMetadata)
    (limit : OrderRequest) (updateLeverage : Option UpdateLeverage)
    (tpOrder slOrder : Option OrderRequest) :
    Returned (n + 5)
      (uiOrderCommon (Printer.ofSdk sdk) s metadata limit updateLeverage tpOrder slOrder)
      (uiOrderCommon Printer.whole s' metadata limit updateLeverage tpOrder slOrder)
      (Hyperliquid.uiOrderCommon sdk u metadata limit updateLeverage tpOrder slOrder) := by
  have h₁ := h.showMetadataMargin (.order .margin) hfpu rfl rfl (by decide) metadata
  unfold Printing.uiOrderCommon Hyperliquid.uiOrderCommon
  dsimp only
  by_cases hcross : updateLeverage.any (fun u => u.isCross) = true
  · simp only [if_pos hcross]
    exact h₁.rejects (by omega)
  · simp only [if_neg hcross]
    have h₂ := h₁.showUpdateLeverage sdk (.order .leverage) rfl rfl (by decide) updateLeverage
    have h₃ := h₂.showTrigger sdk (.order .tpPrice) rfl rfl (by decide) "Take Profit" tpOrder
    have h₄ := h₃.showTrigger sdk (.order .slPrice) rfl rfl (by decide) "Stop Loss" slOrder
    have h₅ := h₄.showSize sdk (.order .size) rfl rfl (by decide) limit.sz metadata
    exact h₅.accepts (by omega)

/-- A function that prints the intent when the pairs are there. -/
theorem Returned.intent {r r' : Bool × UiMemory} {o : Option UiCtx} {walletText nanoText : Bytes}
    (h : Returned n r r' o) (hwallet : walletText.length ≤ 100) (hnano : nanoText.length ≤ 100) :
    Returned n
      (if !r.1 then (false, r.2)
        else (true, printIntent sdk (Printer.ofSdk sdk) r.2 walletText nanoText))
      (if !r'.1 then (false, r'.2)
        else (true, printIntent sdk Printer.whole r'.2 walletText nanoText))
      (o.bind fun u => some { u with intent := sdk.intent walletText nanoText }) := by
  obtain ⟨used, u, hpainted, hret, rfl⟩ := h
  rw [← hret]
  cases r.1 with
  | false => exact hpainted.rejects (Nat.le_refl n)
  | true => exact (hpainted.printIntent sdk hwallet hnano).accepts (Nat.le_refl n)

theorem length_orderOperation_le (kind : Bytes) (hkind : kind.length ≤ 7) (req : OrderRequest)
    (metadata : ActionMetadata) :
    (kind ++ getShortLongStringCapitalized req ++ text " - " ++
      metadata.assetTicker.chars).length ≤ orderOperationLength := by
  have hticker : metadata.assetTicker.chars.length ≤ 48 := metadata.assetTicker.fits
  have hside := length_getShortLongStringCapitalized_le req
  have hsep : (text " - ").length = 3 := rfl
  simp only [List.length_append, orderOperationLength, limitMarketStringLength,
    shortLongStringLength, assetTickerLength]
  omega

include hfpu h in
theorem returned_uiMarketOrder (metadata : ActionMetadata) (limit : OrderRequest)
    (updateLeverage : Option UpdateLeverage) (tpOrder slOrder : Option OrderRequest) :
    Returned (n + 7)
      (uiMarketOrder sdk (Printer.ofSdk sdk) s metadata limit updateLeverage tpOrder slOrder)
      (uiMarketOrder sdk Printer.whole s' metadata limit updateLeverage tpOrder slOrder)
      (Hyperliquid.uiMarketOrder sdk u metadata limit updateLeverage tpOrder slOrder) := by
  have hticker : metadata.assetTicker.chars.length ≤ 48 := metadata.assetTicker.fits
  have hlabel := length_getShortLongString_le limit
  have hwallet : (text "Open " ++ metadata.assetTicker.chars ++ text " " ++
      getShortLongString limit).length ≤ 100 := by
    have hparts : (text "Open ").length + (text " ").length = 6 := rfl
    simp only [List.length_append]
    omega
  have hnano : (text "open " ++ getShortLongString limit).length ≤ 100 := by
    have hparts : (text "open ").length = 5 := rfl
    simp only [List.length_append]
    omega
  have hoperation := length_orderOperation_le (text "Market ") (by decide) limit metadata
  have h₁ := h.showText sdk (.order .operation) hoperation rfl (by simp) "Operation"
  have h₂ : Painted (n + 2) [.order .limitPrice, .order .operation] _ _ _ := h₁.skip rfl
  have h₃ := returned_uiOrderCommon hfpu h₂ metadata limit updateLeverage tpOrder slOrder
  unfold Printing.uiMarketOrder Hyperliquid.uiMarketOrder
  exact h₃.intent hwallet hnano

include hfpu h in
theorem returned_uiLimitOrder (metadata : ActionMetadata) (limit : OrderRequest)
    (updateLeverage : Option UpdateLeverage) (tpOrder slOrder : Option OrderRequest) :
    Returned (n + 7)
      (uiLimitOrder sdk (Printer.ofSdk sdk) s metadata limit updateLeverage tpOrder slOrder)
      (uiLimitOrder sdk Printer.whole s' metadata limit updateLeverage tpOrder slOrder)
      (Hyperliquid.uiLimitOrder sdk u metadata limit updateLeverage tpOrder slOrder) := by
  have hticker : metadata.assetTicker.chars.length ≤ 48 := metadata.assetTicker.fits
  have hwallet : (text "Open " ++ metadata.assetTicker.chars ++ text " limit order").length ≤
      100 := by
    have hparts : (text "Open ").length + (text " limit order").length = 17 := rfl
    simp only [List.length_append]
    omega
  have hoperation := length_orderOperation_le (text "Limit ") (by decide) limit metadata
  have h₁ := h.showText sdk (.order .operation) hoperation rfl (by simp) "Operation"
  have h₂ := h₁.showPrice sdk (.order .limitPrice) rfl rfl (by decide) "Limit Price" limit.limitPx
  have h₃ := returned_uiOrderCommon hfpu h₂ metadata limit updateLeverage tpOrder slOrder
  unfold Printing.uiLimitOrder Hyperliquid.uiLimitOrder
  exact h₃.intent hwallet (by decide)

include hfpu h in
theorem returned_uiOrder :
    Returned (n + 8) (uiOrder sdk (Printer.ofSdk sdk) ctx s metadata)
      (uiOrder sdk Printer.whole ctx s' metadata) (Hyperliquid.uiOrder sdk ctx u metadata) := by
  have hrejects : Returned (n + 8) (false, s) (false, s') none := h.rejects (by omega)
  unfold Printing.uiOrder Hyperliquid.uiOrder
  cases ctxGetAction .bulkOrder ctx with
  | none => exact hrejects
  | some bulkOrder =>
    dsimp only
    generalize bulkOrder.bulkOrder.orders.elems = orders
    cases getOrderRequest orders getLimitRequest with
    | none => exact hrejects
    | some limit =>
      dsimp only
      split
      · exact hrejects
      · split
        · exact hrejects
        · cases limit.limit.tif with
          | ioc => exact (returned_uiMarketOrder hfpu h metadata limit _ _ _).mono (by omega)
          | gtc => exact (returned_uiLimitOrder hfpu h metadata limit _ _ _).mono (by omega)
          | alo => exact hrejects

include hu64 in
/-- One trigger, or the name of the other one. -/
theorem Painted.showModifyTrigger (h : Painted n used u s s') (price oidOut : Buffer)
    {req : Option OrderRequest} {oid : Option UInt64} (walletOther nanoOther : Bytes)
    (item oidItem : String)
    (hprice : price.capacity = priceStringLength ∧ price.member.isSome = true ∧
      ∀ c ∈ used, Apart price c)
    (hoid : oidOut.capacity = 20 ∧ oidOut.member.isSome = true ∧
      ∀ c ∈ price :: used, Apart oidOut c)
    (hnone : req = none → oid = none) (hwallet : walletOther.length ≤ 31)
    (hnano : nanoOther.length ≤ 31) :
    Painted (n + 2) (oidOut :: price :: used)
      ((u.addPair? item (fun o => priceText o.trigger.triggerPx) req).addPair? oidItem
        (oidText sdk) oid)
      (showModifyTrigger sdk (Printer.ofSdk sdk) s item price oidItem oidOut req oid walletOther
        nanoOther)
      (showModifyTrigger sdk Printer.whole s' item price oidItem oidOut req oid walletOther
        nanoOther) := by
  cases req with
  | none =>
    have hfits : (if sdk.screenSizeWallet then walletOther else nanoOther).length ≤
        Buffer.targetTmp.capacity := length_wording_le hwallet hnano
    obtain rfl := hnone rfl
    have hskip := ((h.print hfits rfl (by decide)).skip hprice.2.1).skip hoid.2.1
    unfold Printing.showModifyTrigger
    dsimp only
    rw [Printer.snprintf_ofSdk hfits]
    exact hskip
  | some req =>
    have hshow := h.showPrice sdk price hprice.1 hprice.2.1 hprice.2.2 item
      req.trigger.triggerPx
    cases oid with
    | none => exact hshow.skip hoid.2.1
    | some oid => exact hshow.showOid oidOut hu64 hoid.1 hoid.2.1 hoid.2.2 oidItem oid

/-- A trigger that is there leaves `target_tmp` alone. -/
theorem targetTmp_showModifyTrigger (s : UiMemory) (price oidOut : ModifyString)
    (req : OrderRequest) (oid : Option UInt64) (walletOther nanoOther : Bytes)
    (item oidItem : String) :
    (showModifyTrigger sdk (Printer.ofSdk sdk) s item (.modify price) oidItem (.modify oidOut)
      (some req) oid walletOther nanoOther).memory .targetTmp = s.memory .targetTmp := by
  have hapart : ∀ b : ModifyString, Apart (Buffer.modify b) .targetTmp :=
    fun b => ⟨Buffer.noConfusion, rfl⟩
  unfold Printing.showModifyTrigger Printing.showPrice Printing.showText Printing.showOid
    Printer.snprintf Printer.formatU64
  cases oid with
  | none => simp only [Form.addPair_memory, Form.print_other _ (hapart price)]
  | some oid =>
    simp only [Form.addPair_memory, Form.print_other _ (hapart price),
      Form.print_other _ (hapart oidOut)]

/-- Without the trigger, it is the name of the other one. -/
theorem targetTmp_showModifyTrigger_none (s : UiMemory) (price oidOut : Buffer)
    (oid : Option UInt64) {walletOther nanoOther : Bytes} (item oidItem : String)
    (hwallet : walletOther.length ≤ 31) (hnano : nanoOther.length ≤ 31) :
    (showModifyTrigger sdk (Printer.ofSdk sdk) s item price oidItem oidOut none oid walletOther
      nanoOther).memory .targetTmp = if sdk.screenSizeWallet then walletOther else nanoOther := by
  have hfits : (if sdk.screenSizeWallet then walletOther else nanoOther).length ≤
      Buffer.targetTmp.capacity := length_wording_le hwallet hnano
  unfold Printing.showModifyTrigger
  dsimp only
  rw [Printer.snprintf_ofSdk hfits, Form.print_memory]

include hu64 in
/-- Both triggers, and the name of those that are there. -/
theorem painted_showModifyTriggers (h : Painted n [.modify .size, .modify .leverage,
      .modify .margin, .modify .operation] u s s') (isModify : Bool)
    {tpReq slReq : Option OrderRequest} {tpOid slOid : Option UInt64}
    (hsome : tpReq.or slReq ≠ none) (htp : tpReq = none → tpOid = none)
    (hsl : slReq = none → slOid = none) :
    (∃ used, Painted (n + 4) used
      ((((u.addPair? (if isModify then "New Take Profit" else "Take Profit")
        (fun o => priceText o.trigger.triggerPx) tpReq).addPair? "TP Order ID" (oidText sdk)
        (if isModify then tpOid else none)).addPair?
        (if isModify then "New Stop Loss" else "Stop Loss")
        (fun o => priceText o.trigger.triggerPx) slReq).addPair? "SL Order ID" (oidText sdk)
        (if isModify then slOid else none))
      (showModifyTriggers sdk (Printer.ofSdk sdk) s isModify tpReq slReq tpOid slOid)
      (showModifyTriggers sdk Printer.whole s' isModify tpReq slReq tpOid slOid)) ∧
    (showModifyTriggers sdk (Printer.ofSdk sdk) s isModify tpReq slReq tpOid slOid).memory
      .targetTmp = modifyTarget sdk tpReq slReq := by
  have hnone : ∀ {o : Option OrderRequest} {oid : Option UInt64}, (o = none → oid = none) →
      o = none → (if isModify then oid else none) = none := by
    intro o oid h ho
    rw [h ho, ite_self]
  have h₁ := h.showModifyTrigger hu64 (.modify .tpPrice) (.modify .tpOid) (text "Stop Loss")
    (text "SL") (if isModify then "New Take Profit" else "Take Profit") "TP Order ID"
    ⟨rfl, rfl, by decide⟩ ⟨rfl, rfl, by decide⟩ (hnone htp) (by decide) (by decide)
  have h₂ := h₁.showModifyTrigger hu64 (.modify .slPrice) (.modify .slOid) (text "Take Profit")
    (text "TP") (if isModify then "New Stop Loss" else "Stop Loss") "SL Order ID"
    ⟨rfl, rfl, by decide⟩ ⟨rfl, rfl, by decide⟩ (hnone hsl) (by decide) (by decide)
  unfold Printing.showModifyTriggers
  cases tpReq with
  | none =>
    cases slReq with
    | none => exact absurd rfl hsome
    | some slReq =>
      refine ⟨⟨_, h₂⟩, ?_⟩
      simp only [Option.isSome_none, Bool.false_and, Bool.false_eq_true, if_false]
      rw [targetTmp_showModifyTrigger, targetTmp_showModifyTrigger_none]
      · rfl
      · decide
      · decide
  | some tpReq =>
    cases slReq with
    | none =>
      refine ⟨⟨_, h₂⟩, ?_⟩
      simp only [Option.isSome_none, Bool.and_false, Bool.false_eq_true, if_false]
      rw [targetTmp_showModifyTrigger_none]
      · rfl
      · decide
      · decide
    | some slReq =>
      have hfits : (if sdk.screenSizeWallet then text "Take Profit and Stop Loss"
          else text "TP/SL").length ≤ Buffer.targetTmp.capacity :=
        length_wording_le (by decide) (by decide)
      dsimp only [Option.isSome_some, Bool.and_self, if_true]
      rw [Printer.snprintf_ofSdk hfits]
      exact ⟨⟨_, h₂.print hfits rfl (by decide)⟩, Form.print_memory _ _ _ _⟩

theorem length_modifyTarget_le (sdk : Sdk) (tpReq slReq : Option OrderRequest) :
    (modifyTarget sdk tpReq slReq).length ≤ 25 := by
  unfold modifyTarget
  split <;> split <;> decide

include hu64 hfpu h in
theorem returned_uiModifyTriggers (metadata : ActionMetadata) (actionType : ActionType)
    {tpReq slReq : Option OrderRequest} {tpOid slOid : Option UInt64}
    (htp : tpReq = none → tpOid = none) (hsl : slReq = none → slOid = none) :
    Returned (n + 8)
      (uiModifyTriggers sdk (Printer.ofSdk sdk) s metadata actionType tpReq slReq tpOid slOid)
      (uiModifyTriggers sdk Printer.whole s' metadata actionType tpReq slReq tpOid slOid)
      (Hyperliquid.uiModifyTriggers sdk u metadata actionType tpReq slReq tpOid slOid) := by
  have hrejects : Returned (n + 8) (false, s) (false, s') none := h.rejects (by omega)
  unfold Printing.uiModifyTriggers Hyperliquid.uiModifyTriggers
  cases hany : tpReq.or slReq with
  | none => exact hrejects
  | some anyReq =>
    dsimp only
    split
    · exact hrejects
    · have hticker : metadata.assetTicker.chars.length ≤ 48 := metadata.assetTicker.fits
      have htarget := length_modifyTarget_le sdk tpReq slReq
      have hspace : (text " ").length = 1 := rfl
      have hverb : (if actionType == .bulkOrder then text "Set" else text "Edit").length ≤ 4 := by
        split <;> decide
      have hnanoVerb : (if actionType == .bulkOrder then text "set" else text "edit").length ≤
          4 := by
        split <;> decide
      have hoperation := length_orderOperation_le (text "Market ") (by decide) anyReq metadata
      have h₁ := h.showText sdk (.modify .operation) hoperation rfl (by simp) "Active Position"
      have h₂ := h₁.showMetadataMargin (.modify .margin) hfpu rfl rfl (by decide) metadata
      have h₃ := h₂.showMetadataLeverage sdk (.modify .leverage) rfl rfl (by decide) metadata
      have h₄ := h₃.showSize sdk (.modify .size) rfl rfl (by decide) anyReq.sz metadata
      obtain ⟨⟨used, h₅⟩, hname⟩ := painted_showModifyTriggers hu64 h₄
        (actionType == .bulkModify) (hany ▸ Option.some_ne_none _) htp hsl
      refine (h₅.printTarget
        (fun target => (if actionType == .bulkOrder then text "Set" else text "Edit") ++
          text " " ++ metadata.assetTicker.chars ++ text " " ++ target)
        (fun target => (if actionType == .bulkOrder then text "set" else text "edit") ++
          text " " ++ target) hname ?_ ?_).accepts (by omega)
      · simp only [List.length_append]
        omega
      · simp only [List.length_append]
        omega

include hu64 hfpu h in
theorem returned_uiModify :
    Returned (n + 8) (uiModify sdk (Printer.ofSdk sdk) ctx s metadata)
      (uiModify sdk Printer.whole ctx s' metadata) (Hyperliquid.uiModify sdk ctx u metadata) := by
  have hrejects : Returned (n + 8) (false, s) (false, s') none := h.rejects (by omega)
  unfold Printing.uiModify Hyperliquid.uiModify
  cases (ctxGetAction .bulkModify ctx).or (ctxGetAction .bulkOrder ctx) with
  | none => exact hrejects
  | some action =>
    dsimp only
    generalize action.type = type
    cases type with
    | bulkModify =>
      dsimp only
      split
      · exact hrejects
      · refine returned_uiModifyTriggers hu64 hfpu h metadata _ ?_ ?_
        · intro hnone
          rw [Option.map_eq_none_iff.mp hnone]
          rfl
        · intro hnone
          rw [Option.map_eq_none_iff.mp hnone]
          rfl
    | bulkOrder =>
      dsimp only
      split
      · exact hrejects
      · exact returned_uiModifyTriggers hu64 hfpu h metadata _ (fun _ => rfl) fun _ => rfl
    | _ => exact hrejects

/-! ### The cancellations -/

/-- The arrays that are in use before the order id `i`. -/
def BeforeOid (i : Nat) (b : Buffer) : Prop :=
  ∃ c, b = .cancel c ∧ ∀ j, c = .oid j → j < i

theorem BeforeOid.apart {i : Nat} {c : Buffer} (hc : BeforeOid i c) :
    Apart (.cancel (.oid i)) c := by
  obtain ⟨c, rfl, hlt⟩ := hc
  refine ⟨?_, rfl⟩
  intro heq
  cases heq
  exact absurd (hlt i rfl) (Nat.lt_irrefl i)

include hu64 in
theorem painted_showCancelOids (i : Nat) (cancels : List CancelRequest)
    (h : Painted n used u s s') (hused : ∀ c ∈ used, BeforeOid i c)
    (hlength : i + cancels.length ≤ bulkMaxSize) :
    ∃ used', Painted (n + cancels.length) used'
      (cancels.foldl (fun uiCtx c => uiCtx.addPair "Order ID" (oidText sdk c.oid)) u)
      (showCancelOids (Printer.ofSdk sdk) s i cancels)
      (showCancelOids Printer.whole s' i cancels) := by
  induction cancels generalizing i n used u s s' with
  | nil => exact ⟨used, h⟩
  | cons c cancels ih =>
    rw [List.length_cons] at hlength
    have hcap : (Buffer.cancel (.oid i)).capacity = 20 := if_pos (by omega)
    have h₁ := h.showOid (.cancel (.oid i)) hu64 hcap rfl (fun c hc => (hused c hc).apart)
      "Order ID" c.oid
    have hnext : ∀ b ∈ .cancel (.oid i) :: used, BeforeOid (i + 1) b := by
      intro b hb
      rcases List.mem_cons.mp hb with rfl | hb
      · refine ⟨.oid i, rfl, ?_⟩
        intro j hj
        cases hj
        exact Nat.lt_succ_self i
      · obtain ⟨b, rfl, hlt⟩ := hused b hb
        exact ⟨b, rfl, fun j hj => (hlt j hj).trans (Nat.lt_succ_self i)⟩
    obtain ⟨used', h₂⟩ := ih (i + 1) h₁ hnext (by omega)
    rw [List.length_cons, Nat.add_comm cancels.length, ← Nat.add_assoc]
    exact ⟨used', h₂⟩

include hu64 hfpu in
theorem painted_showCancel (h : Painted n [.cancel .operation] u s s') (metadata : ActionMetadata)
    (bulkCancel : BulkCancel) :
    ∃ used', Painted (n + 7) used'
      (Hyperliquid.showCancelOids sdk (Hyperliquid.showMetadataLeverage
        (Hyperliquid.showMetadataMargin sdk u metadata) metadata) bulkCancel)
      (showCancel (Printer.ofSdk sdk) s metadata bulkCancel)
      (showCancel Printer.whole s' metadata bulkCancel) := by
  have h₁ := h.showMetadataMargin (.cancel .margin) hfpu rfl rfl (by decide) metadata
  have h₂ := h₁.showMetadataLeverage sdk (.cancel .leverage) rfl rfl (by decide) metadata
  have hused : ∀ c ∈ [.cancel .leverage, .cancel .margin, .cancel .operation], BeforeOid 0 c := by
    intro c hc
    simp only [List.mem_cons, List.not_mem_nil, or_false] at hc
    rcases hc with rfl | rfl | rfl
    · exact ⟨_, rfl, fun j hj => by cases hj⟩
    · exact ⟨_, rfl, fun j hj => by cases hj⟩
    · exact ⟨_, rfl, fun j hj => by cases hj⟩
  have hbound : bulkCancel.cancels.elems.length ≤ bulkMaxSize := bulkCancel.cancels.bound
  obtain ⟨used', h₃⟩ := painted_showCancelOids hu64 0 bulkCancel.cancels.elems h₂ hused (by omega)
  refine ⟨used', h₃.whole, h₃.shows, h₃.members, h₃.intent, h₃.count.trans ?_⟩
  simp only [bulkMaxSize] at hbound
  omega

include hu64 hfpu h in
theorem returned_uiCancel :
    Returned (n + 8) (uiCancel sdk (Printer.ofSdk sdk) ctx s metadata)
      (uiCancel sdk Printer.whole ctx s' metadata) (Hyperliquid.uiCancel sdk ctx u metadata) := by
  have hrejects : Returned (n + 8) (false, s) (false, s') none := h.rejects (by omega)
  unfold Printing.uiCancel Hyperliquid.uiCancel
  cases ctxGetAction .bulkCancel ctx with
  | none => exact hrejects
  | some action =>
    dsimp only
    split
    · exact hrejects
    · have hticker : metadata.assetTicker.chars.length ≤ 48 := metadata.assetTicker.fits
      have hoperation : (text "Cancel order - " ++ metadata.assetTicker.chars).length ≤
          cancelOperationLength := by
        have hparts : (text "Cancel order - ").length = 15 := rfl
        simp only [List.length_append, cancelOperationLength, assetTickerLength]
        omega
      have hwallet : (text "Cancel " ++ metadata.assetTicker.chars ++ text " order").length ≤
          100 := by
        have hparts : (text "Cancel ").length + (text " order").length = 13 := rfl
        simp only [List.length_append]
        omega
      have h₁ := h.showText sdk (.cancel .operation) hoperation rfl (by simp) "Operation"
      obtain ⟨used, h₂⟩ := painted_showCancel hu64 hfpu h₁ metadata action.bulkCancel
      exact (h₂.printIntent sdk hwallet (by decide)).accepts (by omega)

theorem length_cancelTarget_le (sdk : Sdk) (opType : OperationType) :
    (cancelTarget sdk opType).2.length ≤ 25 := by
  unfold cancelTarget
  split <;> dsimp only <;> split <;> decide

include hu64 hfpu h in
theorem returned_uiCancelTpSl :
    Returned (n + 8) (uiCancelTpSl sdk (Printer.ofSdk sdk) ctx s metadata)
      (uiCancelTpSl sdk Printer.whole ctx s' metadata)
      (Hyperliquid.uiCancelTpSl sdk ctx u metadata) := by
  have hrejects : Returned (n + 8) (false, s) (false, s') none := h.rejects (by omega)
  unfold Printing.uiCancelTpSl Hyperliquid.uiCancelTpSl
  cases ctxGetAction .bulkCancel ctx with
  | none => exact hrejects
  | some action =>
    dsimp only
    split
    · exact hrejects
    · have hname := length_cancelTarget_le sdk metadata.opType
      generalize (cancelTarget sdk metadata.opType).2 = name at hname ⊢
      have hticker : metadata.assetTicker.chars.length ≤ 48 := metadata.assetTicker.fits
      have hspace : (text " ").length = 1 := rfl
      have hoperation : (text "Cancel order - " ++ metadata.assetTicker.chars ++ text " " ++
          name).length ≤ cancelOperationLength := by
        have hparts : (text "Cancel order - ").length = 15 := rfl
        simp only [List.length_append, cancelOperationLength, assetTickerLength]
        omega
      have hwallet : (text "Cancel " ++ metadata.assetTicker.chars ++ text " " ++ name).length ≤
          100 := by
        have hparts : (text "Cancel ").length = 7 := rfl
        simp only [List.length_append]
        omega
      have hnano : (text "cancel " ++ name).length ≤ 100 := by
        have hparts : (text "cancel ").length = 7 := rfl
        simp only [List.length_append]
        omega
      have hfits : name.length ≤ Buffer.targetTmp.capacity := hname.trans (by decide)
      have h₁ := h.print hfits rfl (by decide)
      have h₂ := h₁.showText sdk (.cancel .operation) hoperation rfl (by simp) "Operation"
      obtain ⟨used, h₃⟩ := painted_showCancel hu64 hfpu h₂ metadata action.bulkCancel
      have hwhole : Printer.whole.snprintf s' .targetTmp name =
          s'.print .targetTmp name name := rfl
      rw [Printer.snprintf_ofSdk hfits, hwhole, s.print_memory, s'.print_memory]
      exact (h₃.printIntent sdk hwallet hnano).accepts (by omega)

/-! ## 2. The whole review -/

/-- The context after the pairs that every review begins with. -/
theorem painted_uiHeader (metadata : ActionMetadata) :
    Painted 2 [] (Hyperliquid.uiHeader metadata) (uiHeader metadata) (uiHeader metadata) := by
  have hstart : (Form.addPair {} "Protocol" (.literal appname) : UiMemory).Shows [] _ :=
    Form.Shows.empty.literal "Protocol" appname
  have hnone : ∀ b ∈ ([] : List Buffer), b.member.isSome = true := fun b hb => by cases hb
  unfold Printing.uiHeader Hyperliquid.uiHeader
  dsimp only
  split
  · exact ⟨rfl, hstart.literal "Network" (text "Testnet"), hnone, rfl, Nat.le_refl 2⟩
  · exact ⟨rfl, hstart, hnone, rfl, Nat.le_succ 1⟩

include hu64 hfpu in
theorem returned_uiOperation (metadata : ActionMetadata) :
    Returned 10 (uiOperation sdk (Printer.ofSdk sdk) ctx metadata)
      (uiOperation sdk Printer.whole ctx metadata)
      (Hyperliquid.uiOperation sdk ctx metadata) := by
  have h := painted_uiHeader metadata
  unfold Printing.uiOperation Hyperliquid.uiOperation
  dsimp only
  cases metadata.opType with
  | order => exact returned_uiOrder hfpu ctx h
  | modify => exact returned_uiModify hu64 hfpu ctx h
  | cancel => exact returned_uiCancel hu64 hfpu ctx h
  | close => exact returned_uiClose hfpu ctx h
  | updateMargin => exact returned_uiUpdateMargin hfpu ctx h
  | cancelSl => exact returned_uiCancelTpSl hu64 hfpu ctx h
  | cancelTp => exact returned_uiCancelTpSl hu64 hfpu ctx h
  | cancelTpSl => exact returned_uiCancelTpSl hu64 hfpu ctx h
  | updateLeverage => exact h.rejects (by omega)

/-- The screen shows the review: its pairs, and the two messages. -/
structure Displays (s : UiMemory) (screen : UiCtx) : Prop where
  pairs : s.texts = screen.pairs.map fun p => (p.item, p.value)
  reviewMsg : s.memory .reviewMsg = screen.reviewMsg.chars
  signMsg : s.memory .signMsg = screen.signMsg.chars

/-- The two messages around an intent, in full. -/
def withMessages (s : UiMemory) (intent : Bytes) : UiMemory :=
  let review := text "Review message to " ++ intent
  let sign := text "Sign message to " ++ intent ++ text "?"
  (s.print .reviewMsg review review).print .signMsg sign sign

theorem prepareReviewSignMsgs_whole (s : UiMemory) :
    prepareReviewSignMsgs Printer.whole s = withMessages s (s.memory .intent) := by
  have hprint : ∀ output, Printer.whole.snprintf s .reviewMsg output =
      s.print .reviewMsg output output := fun _ => rfl
  unfold Printing.prepareReviewSignMsgs
  dsimp only
  rw [hprint, s.print_other (apart_intent (by decide))]
  rfl

theorem length_messages_le {intent : Bytes} (hintent : intent.length ≤ 100) :
    (text "Review message to " ++ intent).length ≤ reviewSignStringLength ∧
      (text "Sign message to " ++ intent ++ text "?").length ≤ reviewSignStringLength := by
  have hparts : (text "Review message to ").length = 18 := rfl
  have hparts' : (text "Sign message to ").length + (text "?").length = 17 := rfl
  simp only [List.length_append, reviewSignStringLength]
  omega

theorem prepareReviewSignMsgs_ofSdk (hintent : (s.memory .intent).length ≤ 100) :
    prepareReviewSignMsgs (Printer.ofSdk sdk) s = withMessages s (s.memory .intent) := by
  obtain ⟨hreview, hsign⟩ := length_messages_le hintent
  have hprint : (Printer.ofSdk sdk).snprintf s .reviewMsg _ = _ := Printer.snprintf_ofSdk hreview
  unfold Printing.prepareReviewSignMsgs
  dsimp only
  rw [hprint, s.print_other (apart_intent (by decide)), Printer.snprintf_ofSdk hsign]
  rfl

variable (sdk) in
/-- The messages are printed in full, and nothing else changes. -/
theorem displays_prepareReviewSignMsgs (h : Painted n used u s s') :
    Painted n used (Hyperliquid.prepareReviewSignMsgs u)
      (prepareReviewSignMsgs (Printer.ofSdk sdk) s) (prepareReviewSignMsgs Printer.whole s') ∧
    Displays (prepareReviewSignMsgs (Printer.ofSdk sdk) s)
      (Hyperliquid.prepareReviewSignMsgs u) := by
  have hintent : u.intent.chars.length ≤ 100 := u.intent.fits
  obtain ⟨hreview, hsign⟩ := length_messages_le hintent
  have hmessages := (h.print (b := .reviewMsg) hreview rfl (by decide)).print (b := .signMsg)
    hsign rfl (by decide)
  rw [prepareReviewSignMsgs_whole, prepareReviewSignMsgs_ofSdk (by rw [h.intent]; exact hintent),
    ← h.whole, h.intent]
  rw [← h.whole] at hmessages
  refine ⟨⟨rfl, hmessages.shows, hmessages.members, hmessages.intent, hmessages.count⟩,
    hmessages.shows.texts, ?_, ?_⟩
  · have hother : Apart Buffer.signMsg .reviewMsg := by decide
    exact (Form.print_other _ hother _ _).trans
      ((s.print_memory _ _ _).trans (snprintf_of_fits hreview).symm)
  · exact (Form.print_memory _ _ _ _).trans (snprintf_of_fits hsign).symm

end

end

/-- In every reachable state and for every metadata, `handle_ui` adds at most 16 pairs, whether it
accepts or not; everything it prints has room; each value in an array is the whole text of one
print; and it returns and leaves what it would with printing functions that never cut.  Where it
accepts, the screen shows the review that all other results are about. -/
theorem screen_uncut (sdk : Sdk) (hu64 : sdk.PrintsU64) (hfpu : sdk.PrintsFpu64WithRoom)
    (inputs : List Input) (before : UiMemory) (metadata : ActionMetadata) :
    let ctx := ((app sdk).state inputs).ctx
    let r := handleUi sdk (Printer.ofSdk sdk) ctx before (some metadata)
    r.2.pairs.length ≤ maxUiPairs ∧ r.2.Fits ∧ r.2.Uncut ∧
      r = handleUi sdk Printer.whole ctx before (some metadata) ∧
      (r.1 = false → Hyperliquid.handleUi sdk ctx (some metadata) = none) ∧
      (r.1 = true → ∃ screen, Hyperliquid.handleUi sdk ctx (some metadata) = some screen ∧
        Displays r.2 screen) := by
  dsimp only
  generalize ((app sdk).state inputs).ctx = ctx
  have hreturned := returned_uiOperation hu64 hfpu ctx metadata
  unfold Printing.handleUi Hyperliquid.handleUi
  dsimp only
  generalize uiOperation sdk (Printer.ofSdk sdk) ctx metadata = r at hreturned ⊢
  generalize uiOperation sdk Printer.whole ctx metadata = r' at hreturned ⊢
  obtain ⟨used, u, hpainted, hret, hscreen⟩ := hreturned
  obtain ⟨ret, s⟩ := r
  obtain ⟨ret', s'⟩ := r'
  obtain rfl : ret = ret' := hret
  rw [hscreen]
  cases ret with
  | false =>
    refine ⟨hpainted.length_pairs_le.trans (by decide), hpainted.shows.fits,
      hpainted.shows.uncut, congrArg (Prod.mk false) hpainted.whole, fun _ => rfl, ?_⟩
    intro h
    cases h
  | true =>
    obtain ⟨hmessages, hdisplays⟩ := displays_prepareReviewSignMsgs sdk hpainted
    refine ⟨hmessages.length_pairs_le.trans (by decide), hmessages.shows.fits,
      hmessages.shows.uncut, congrArg (Prod.mk true) hmessages.whole, ?_, ?_⟩
    · intro h
      cases h
    · intro _
      exact ⟨_, rfl, hdisplays⟩

/-- Everything as long as it can be: a ticker of 48 characters, and the largest numbers. -/
def widestMetadata : ActionMetadata :=
  { opType := .cancelTpSl
    assetId := 1
    assetTicker := ⟨List.replicate 48 88, by decide⟩
    network := .testnet
    margin := some (-1)
    leverage := some (-1) }

theorem screen_uncut_widestMetadata :
    let ctx := ((app Client.sdk).state
      (Client.session widestMetadata [Client.bulkCancelAction [-1, -1]])).ctx
    let r := handleUi Client.sdk (Printer.ofSdk Client.sdk) ctx {} (some widestMetadata)
    (r.1 = true ∧ (r.2.memory (.cancel .operation)).length = cancelOperationLength) ∧
      r.2.pairs.length ≤ maxUiPairs ∧ r.2.Fits ∧ r.2.Uncut ∧
      r = handleUi Client.sdk Printer.whole ctx {} (some widestMetadata) ∧
      (r.1 = false → Hyperliquid.handleUi Client.sdk ctx (some widestMetadata) = none) ∧
      (r.1 = true → ∃ screen,
        Hyperliquid.handleUi Client.sdk ctx (some widestMetadata) = some screen ∧
          Displays r.2 screen) :=
  ⟨by decide +kernel, screen_uncut Client.sdk Client.sdk_printsU64
    Client.sdk_printsFpu64WithRoom _ _ _⟩

end Hyperliquid.Printing

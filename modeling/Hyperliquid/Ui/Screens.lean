/-
# What an accepted review shows

Each `ui_*` function accepts an action only after checks on its shape.  Here each acceptance is
turned into what it says: the orders are one parent and at most one trigger of each kind
(`OrderShape`), the triggers close what the parent opens, and the pairs are a given list.  The
claims about reviews are proved from these statements and never look into the functions again.

A review is read item by item: `shownUnder item` is the list of the values under an item.  Two
reviews with the same pairs show the same under every item, which is how the values of one
review are compared with those of another.
-/
import Hyperliquid.Ui.Operations

namespace Hyperliquid

open Lib

/-! ## 1. The values under an item -/

/-- The values that the pairs show under an item, in order. -/
def shownUnder (item : String) (pairs : List Pair) : List Bytes :=
  (pairs.filter fun p => p.item == item).map Pair.value

@[simp] theorem shownUnder_nil (item : String) : shownUnder item [] = [] := rfl

@[simp] theorem shownUnder_append (item : String) (ps qs : List Pair) :
    shownUnder item (ps ++ qs) = shownUnder item ps ++ shownUnder item qs := by
  simp [shownUnder]

@[simp] theorem shownUnder_cons (item item' : String) (value : Bytes) (ps : List Pair) :
    shownUnder item (⟨item', value⟩ :: ps) =
      (if item' = item then [value] else []) ++ shownUnder item ps := by
  by_cases h : item' = item
  · simp [shownUnder, h]
  · simp [shownUnder, h]

/-- A pair that is shown when there is something to show. -/
def optionalPair {α : Type} (item : String) (value : α → Bytes) (o : Option α) : List Pair :=
  (o.map fun a => (⟨item, value a⟩ : Pair)).toList

@[simp] theorem shownUnder_optionalPair {α : Type} (item item' : String) (value : α → Bytes)
    (o : Option α) :
    shownUnder item (optionalPair item' value o) =
      if item' = item then (o.map value).toList else [] := by
  cases o with
  | none => simp [optionalPair]
  | some a => simp [optionalPair]

theorem mem_shownUnder {item : String} {value : Bytes} {pairs : List Pair} :
    value ∈ shownUnder item pairs ↔ (⟨item, value⟩ : Pair) ∈ pairs := by
  simp only [shownUnder, List.mem_map, List.mem_filter, beq_iff_eq]
  constructor
  · rintro ⟨⟨i, v⟩, ⟨hp, rfl⟩, rfl⟩
    exact hp
  · exact fun h => ⟨_, ⟨h, rfl⟩, rfl⟩

/-- The pairs that every review begins with. -/
theorem uiHeader_pairs (metadata : ActionMetadata) :
    (uiHeader metadata).pairs = ⟨"Protocol", appname⟩ ::
      (if metadata.network = .testnet then [⟨"Network", text "Testnet"⟩] else []) := by
  unfold uiHeader
  by_cases h : metadata.network = .testnet
  · simp [h]
  · simp [h]

/-- They show nothing under the other items. -/
theorem shownUnder_uiHeader {item : String} (hprotocol : "Protocol" ≠ item)
    (hnetwork : "Network" ≠ item) (metadata : ActionMetadata) :
    shownUnder item (uiHeader metadata).pairs = [] := by
  rw [uiHeader_pairs]
  split
  · simp [hprotocol, hnetwork]
  · simp [hprotocol]

/-! ## 2. Orders by kind -/

/-- A lookup in a list with at most one match finds all of the matches. -/
theorem filter_eq_toList_find? {α : Type} {p : α → Bool} {l : List α} (h : l.countP p ≤ 1) :
    l.filter p = (l.find? p).toList := by
  rw [← List.head?_filter]
  rw [List.countP_eq_length_filter] at h
  cases hf : l.filter p with
  | nil => rfl
  | cons x xs =>
    rw [hf] at h
    have hxs : xs = [] := List.length_eq_zero_iff.mp (by simpa using h)
    rw [hxs]
    rfl

/-- Every order is of one of the three kinds that `ui/common.c` looks for. -/
theorem perm_by_kind {α : Type} (f : α → OrderRequest) (l : List α) :
    l.Perm (l.filter (fun x => getLimitRequest (f x)) ++
      l.filter (fun x => getTriggerTp (f x)) ++ l.filter fun x => getTriggerSl (f x)) := by
  induction l with
  | nil => exact .nil
  | cons x l ih =>
    rcases hty : (f x).orderType with _ | _
    · simpa [List.filter_cons, getLimitRequest, getTriggerTp, getTriggerSl, hty] using ih
    · rcases htpsl : (f x).trigger.tpsl with _ | _
      · have hmid := ih.cons x
        rw [List.append_assoc] at hmid
        have hperm := hmid.trans List.perm_middle.symm
        simpa [List.filter_cons, getLimitRequest, getTriggerTp, getTriggerSl, hty, htpsl]
          using hperm
      · have hperm := (ih.cons x).trans List.perm_middle.symm
        simpa [List.filter_cons, getLimitRequest, getTriggerTp, getTriggerSl, hty, htpsl]
          using hperm

/-- A list of orders that is one limit order, one take profit and one stop loss, where each may
be missing. -/
structure OrderShape {α : Type} (f : α → OrderRequest) (orders : List α)
    (limit tp sl : Option α) : Prop where
  perm : orders.Perm (limit.toList ++ tp.toList ++ sl.toList)
  isLimit : ∀ x ∈ limit, getLimitRequest (f x) = true
  isTp : ∀ x ∈ tp, getTriggerTp (f x) = true
  isSl : ∀ x ∈ sl, getTriggerSl (f x) = true

/-- The lookups describe a list with at most one order of each kind. -/
theorem orderShape_of_count {α : Type} {f : α → OrderRequest} {orders : List α}
    (hlimit : orders.countP (fun x => getLimitRequest (f x)) ≤ 1)
    (htp : orders.countP (fun x => getTriggerTp (f x)) ≤ 1)
    (hsl : orders.countP (fun x => getTriggerSl (f x)) ≤ 1) :
    OrderShape f orders (orders.find? fun x => getLimitRequest (f x))
      (orders.find? fun x => getTriggerTp (f x)) (orders.find? fun x => getTriggerSl (f x)) where
  perm := by
    rw [← filter_eq_toList_find? hlimit, ← filter_eq_toList_find? htp,
      ← filter_eq_toList_find? hsl]
    exact perm_by_kind f orders
  isLimit := fun _ hx => List.find?_some (p := fun x => getLimitRequest (f x)) hx
  isTp := fun _ hx => List.find?_some (p := fun x => getTriggerTp (f x)) hx
  isSl := fun _ hx => List.find?_some (p := fun x => getTriggerSl (f x)) hx

/-- Without a limit order, the triggers are all there is. -/
theorem orderShape_of_triggers {α : Type} {f : α → OrderRequest} {orders : List α}
    (hlimit : orders.countP (fun x => getLimitRequest (f x)) = 0)
    (htp : orders.countP (fun x => getTriggerTp (f x)) ≤ 1)
    (hsl : orders.countP (fun x => getTriggerSl (f x)) ≤ 1) :
    OrderShape f orders none
      (orders.find? fun x => getTriggerTp (f x)) (orders.find? fun x => getTriggerSl (f x)) := by
  have hshape := orderShape_of_count (hlimit.le.trans (Nat.zero_le 1)) htp hsl
  have hnone : orders.find? (fun x => getLimitRequest (f x)) = none :=
    List.find?_eq_none.mpr (List.countP_eq_zero.mp hlimit)
  rwa [hnone] at hshape

/-- With triggers alone, the length leaves no room for a limit order. -/
theorem find?_limit_of_length {α : Type} {f : α → OrderRequest} {orders : List α}
    (htp : orders.countP (fun x => getTriggerTp (f x)) ≤ 1)
    (hsl : orders.countP (fun x => getTriggerSl (f x)) ≤ 1)
    (hlen : orders.length = (orders.find? fun x => getTriggerTp (f x)).isSome.toNat +
      (orders.find? fun x => getTriggerSl (f x)).isSome.toNat) :
    orders.countP (fun x => getLimitRequest (f x)) = 0 := by
  have hperm := (perm_by_kind f orders).length_eq
  rw [filter_eq_toList_find? htp, filter_eq_toList_find? hsl] at hperm
  have hone : ∀ o : Option α, o.toList.length = o.isSome.toNat := by
    intro o
    cases o <;> rfl
  simp only [List.length_append, hone, ← List.countP_eq_length_filter] at hperm
  omega

theorem getLimitRequest_iff {o : OrderRequest} :
    getLimitRequest o = true ↔ o.orderType = .limit := by
  simp [getLimitRequest]

theorem getTriggerTp_iff {o : OrderRequest} :
    getTriggerTp o = true ↔ o.orderType = .trigger ∧ o.trigger.tpsl = .tp := by
  simp [getTriggerTp]

theorem getTriggerSl_iff {o : OrderRequest} :
    getTriggerSl o = true ↔ o.orderType = .trigger ∧ o.trigger.tpsl = .sl := by
  simp [getTriggerSl]

namespace OrderShape

variable {α : Type} {f : α → OrderRequest} {orders : List α} {limit tp sl : Option α}

/-- The orders are the ones that were found. -/
theorem mem_iff (h : OrderShape f orders limit tp sl) {x : α} :
    x ∈ orders ↔ x ∈ limit ∨ x ∈ tp ∨ x ∈ sl := by
  rw [h.perm.mem_iff]
  simp

/-- A limit order is the one that was found. -/
theorem limit_of_mem (h : OrderShape f orders limit tp sl) {x : α} (hx : x ∈ orders)
    (hty : (f x).orderType = .limit) : x ∈ limit := by
  rcases h.mem_iff.mp hx with hl | ht | hs
  · exact hl
  · have := (getTriggerTp_iff.mp (h.isTp x ht)).1
    rw [hty] at this
    cases this
  · have := (getTriggerSl_iff.mp (h.isSl x hs)).1
    rw [hty] at this
    cases this

end OrderShape

/-! ## 3. The label of a side -/

/-- The operation of a review of orders: `"Market %s - %s"` or `"Limit %s - %s"`. -/
def orderOperation (kind : Bytes) (req : OrderRequest) (metadata : ActionMetadata) : Bytes :=
  kind ++ getShortLongStringCapitalized req ++ text " - " ++ metadata.assetTicker.chars

theorem length_getShortLongStringCapitalized_le (req : OrderRequest) :
    (getShortLongStringCapitalized req).length ≤ 5 := by
  rw [getShortLongStringCapitalized_eq]
  split <;> decide

/-- Nothing of it is cut. -/
theorem snprintf_orderOperation (kind : Bytes) (hkind : kind.length ≤ 7) (req : OrderRequest)
    (metadata : ActionMetadata) :
    (snprintf orderOperationLength (orderOperation kind req metadata)).chars =
      orderOperation kind req metadata := by
  have hside := length_getShortLongStringCapitalized_le req
  have hticker := metadata.assetTicker.fits
  rw [snprintf_of_fits]
  unfold orderOperation
  have hsep : (text " - ").length = 3 := rfl
  simp only [List.length_append, orderOperationLength, limitMarketStringLength,
    shortLongStringLength, assetTickerLength] at *
  omega

/-- The labels of the two sides differ. -/
theorem sideLabel_inj {b c : Bool} {rest : Bytes}
    (h : (if b then text "Long" else text "Short") ++ rest =
      (if c then text "Long" else text "Short") ++ rest) : b = c := by
  have hlabel := List.append_cancel_right h
  cases b <;> cases c <;> first | rfl | exact absurd hlabel (by decide)

/-- Under the same kind, the operation tells the side. -/
theorem orderOperation_inj {kind : Bytes} {req req' : OrderRequest} {metadata : ActionMetadata}
    (h : orderOperation kind req metadata = orderOperation kind req' metadata) :
    (req.isBuy != req.reduceOnly) = (req'.isBuy != req'.reduceOnly) := by
  unfold orderOperation at h
  rw [getShortLongStringCapitalized_eq, getShortLongStringCapitalized_eq] at h
  simp only [List.append_assoc] at h
  exact sideLabel_inj (List.append_cancel_left h)

/-! ## 4. ORDER -/

/-- The parts of an ORDER review. -/
structure OrderParts where
  parent : OrderRequest
  tp : Option OrderRequest
  sl : Option OrderRequest
  leverage : Option UpdateLeverage

/-- What `ui_order` accepts. -/
structure OrderAccepted (ctx : HlContext) (p : OrderParts) : Prop where
  orders : ∃ a, ctxGetAction .bulkOrder ctx = some a ∧
    OrderShape id a.bulkOrder.orders.elems (some p.parent) p.tp p.sl
  leverage : (ctxGetAction .updateLeverage ctx).map (fun a => a.updateLeverage) = p.leverage
  isolated : ∀ u ∈ p.leverage, u.isCross = false
  tpMatches : ∀ o ∈ p.tp, checkTriggerMatchesLimit o p.parent = true
  slMatches : ∀ o ∈ p.sl, checkTriggerMatchesLimit o p.parent = true
  tif : p.parent.limit.tif = .ioc ∨ p.parent.limit.tif = .gtc

/-- Does the parent rest on the book? -/
def OrderParts.rests (p : OrderParts) : Bool := p.parent.limit.tif == .gtc

/-- The pairs of an ORDER review, after the header. -/
def orderPairs (sdk : Sdk) (metadata : ActionMetadata) (p : OrderParts) : List Pair :=
  ⟨"Operation", orderOperation (if p.rests then text "Limit " else text "Market ") p.parent
    metadata⟩ ::
  (optionalPair "Limit Price" priceText (if p.rests then some p.parent.limitPx else none) ++
    optionalPair "Margin" (marginText sdk) metadata.margin ++
    optionalPair "Leverage" (fun u => leverageText u.leverage) p.leverage ++
    optionalPair "Take Profit" (fun o => priceText o.trigger.triggerPx) p.tp ++
    optionalPair "Stop Loss" (fun o => priceText o.trigger.triggerPx) p.sl ++
    [⟨"Size", sizeText p.parent.sz metadata.assetTicker⟩])

/-- The intent of an ORDER review. -/
def orderIntent (sdk : Sdk) (metadata : ActionMetadata) (p : OrderParts) :
    CString intentStringLength :=
  if p.rests then
    sdk.intent (text "Open " ++ metadata.assetTicker.chars ++ text " limit order")
      (text "open limit order")
  else
    sdk.intent (text "Open " ++ metadata.assetTicker.chars ++ text " " ++
      getShortLongString p.parent) (text "open " ++ getShortLongString p.parent)

theorem uiOrderCommon_some {sdk : Sdk} {uiCtx screen : UiCtx} {metadata : ActionMetadata}
    {limit : OrderRequest} {leverage : Option UpdateLeverage} {tp sl : Option OrderRequest}
    (h : uiOrderCommon sdk uiCtx metadata limit leverage tp sl = some screen) :
    (∀ u ∈ leverage, u.isCross = false) ∧
      screen.pairs = uiCtx.pairs ++ (optionalPair "Margin" (marginText sdk) metadata.margin ++
        optionalPair "Leverage" (fun u => leverageText u.leverage) leverage ++
        optionalPair "Take Profit" (fun o => priceText o.trigger.triggerPx) tp ++
        optionalPair "Stop Loss" (fun o => priceText o.trigger.triggerPx) sl ++
        [⟨"Size", sizeText limit.sz metadata.assetTicker⟩]) := by
  unfold uiOrderCommon at h
  simp only at h
  split at h
  · cases h
  · rename_i hcross
    cases h
    refine ⟨?_, by simp [showMetadataMargin, optionalPair]⟩
    intro u hu
    rw [Option.mem_def] at hu
    simpa [hu] using hcross

theorem uiMarketOrder_some {sdk : Sdk} {uiCtx screen : UiCtx} {metadata : ActionMetadata}
    {p : OrderParts} (htif : p.parent.limit.tif = .ioc)
    (h : uiMarketOrder sdk uiCtx metadata p.parent p.leverage p.tp p.sl = some screen) :
    (∀ u ∈ p.leverage, u.isCross = false) ∧
      screen.pairs = uiCtx.pairs ++ orderPairs sdk metadata p ∧
      screen.intent = orderIntent sdk metadata p := by
  obtain ⟨uiCtx', hcommon, hscreen⟩ := Option.bind_eq_some_iff.mp h
  obtain ⟨hcross, hpairs⟩ := uiOrderCommon_some hcommon
  have hrests : p.rests = false := by simp [OrderParts.rests, htif]
  have hop := snprintf_orderOperation (text "Market ") (by decide) p.parent metadata
  cases hscreen
  refine ⟨hcross, ?_, by simp [orderIntent, hrests]⟩
  rw [hpairs]
  simp only [UiCtx.addPair_pairs, orderPairs, hrests]
  unfold orderOperation at hop ⊢
  rw [hop]
  simp [optionalPair]

theorem uiLimitOrder_some {sdk : Sdk} {uiCtx screen : UiCtx} {metadata : ActionMetadata}
    {p : OrderParts} (htif : p.parent.limit.tif = .gtc)
    (h : uiLimitOrder sdk uiCtx metadata p.parent p.leverage p.tp p.sl = some screen) :
    (∀ u ∈ p.leverage, u.isCross = false) ∧
      screen.pairs = uiCtx.pairs ++ orderPairs sdk metadata p ∧
      screen.intent = orderIntent sdk metadata p := by
  obtain ⟨uiCtx', hcommon, hscreen⟩ := Option.bind_eq_some_iff.mp h
  obtain ⟨hcross, hpairs⟩ := uiOrderCommon_some hcommon
  have hrests : p.rests = true := by simp [OrderParts.rests, htif]
  have hop := snprintf_orderOperation (text "Limit ") (by decide) p.parent metadata
  cases hscreen
  refine ⟨hcross, ?_, by simp [orderIntent, hrests]⟩
  rw [hpairs]
  simp only [UiCtx.addPair_pairs, orderPairs, hrests, if_true]
  unfold orderOperation at hop ⊢
  rw [hop]
  simp [optionalPair]

/-- An accepted ORDER review, and its parts. -/
structure OrderReview (sdk : Sdk) (ctx : HlContext) (header : List Pair)
    (metadata : ActionMetadata) (screen : UiCtx) (p : OrderParts) : Prop where
  accepted : OrderAccepted ctx p
  pairs : screen.pairs = header ++ orderPairs sdk metadata p
  intent : screen.intent = orderIntent sdk metadata p

theorem uiOrder_some {sdk : Sdk} {ctx : HlContext} {uiCtx screen : UiCtx}
    {metadata : ActionMetadata} (h : uiOrder sdk ctx uiCtx metadata = some screen) :
    ∃ p, OrderReview sdk ctx uiCtx.pairs metadata screen p := by
  unfold uiOrder at h
  split at h
  · cases h
  · rename_i a ha
    simp only at h
    split at h
    · cases h
    · rename_i parent hparent
      split at h
      · cases h
      · rename_i hcount
        split at h
        · cases h
        · rename_i hmatch
          simp only [Bool.or_eq_true, not_or, bne_iff_ne, ne_eq, not_not,
            countOrderRequests] at hcount
          obtain ⟨⟨⟨hlimit, htp⟩, hsl⟩, -⟩ := hcount
          have hshape := orderShape_of_count (f := id) (by simpa using hlimit.le)
            (by simpa using htp) (by simpa using hsl)
          simp only [id] at hshape
          let p : OrderParts := ⟨parent, getOrderRequest a.bulkOrder.orders.elems getTriggerTp,
            getOrderRequest a.bulkOrder.orders.elems getTriggerSl,
            (ctxGetAction .updateLeverage ctx).map fun a => a.updateLeverage⟩
          have hshape' : OrderShape id a.bulkOrder.orders.elems (some p.parent) p.tp p.sl := by
            rw [← hparent]
            exact hshape
          simp only [Bool.or_eq_true, not_or, Option.any_eq_true, not_exists, not_and,
            Bool.not_eq_true', Bool.not_eq_false] at hmatch
          have haccepted : ∀ htif hcross, OrderAccepted ctx p := fun htif hcross =>
            ⟨⟨a, ha, hshape'⟩, rfl, hcross, hmatch.1, hmatch.2, htif⟩
          split at h
          · rename_i htif
            obtain ⟨hcross, hs⟩ := uiMarketOrder_some (p := p) htif h
            exact ⟨p, haccepted (.inl htif) hcross, hs.1, hs.2⟩
          · rename_i htif
            obtain ⟨hcross, hs⟩ := uiLimitOrder_some (p := p) htif h
            exact ⟨p, haccepted (.inr htif) hcross, hs.1, hs.2⟩
          · cases h

/-! ## 5. MODIFY -/

/-- The parts of a MODIFY review: the triggers, and for a `BULK_MODIFY` the ids of the orders
they replace. -/
structure ModifyParts where
  kind : ActionType
  tp : Option OrderRequest
  sl : Option OrderRequest
  tpOid : Option UInt64
  slOid : Option UInt64

/-- The triggers of a `BULK_MODIFY`. -/
def ModifyParts.ofModifies (tp sl : Option ModifyRequest) : ModifyParts :=
  ⟨.bulkModify, tp.map fun m => m.order, sl.map fun m => m.order, tp.map fun m => m.oid,
    sl.map fun m => m.oid⟩

/-- The triggers of a `BULK_ORDER`. -/
def ModifyParts.ofOrders (tp sl : Option OrderRequest) : ModifyParts :=
  ⟨.bulkOrder, tp, sl, none, none⟩

/-- Where the parts stand in the session: no other order stands beside them. -/
inductive ModifyStored (ctx : HlContext) : ModifyParts → Prop where
  | modifies (a : Action) (tp sl : Option ModifyRequest) :
      ctxGetAction .bulkModify ctx = some a →
      OrderShape ModifyRequest.order a.bulkModify.modifies.elems none tp sl →
      ModifyStored ctx (.ofModifies tp sl)
  | orders (a : Action) (tp sl : Option OrderRequest) :
      ctxGetAction .bulkModify ctx = none → ctxGetAction .bulkOrder ctx = some a →
      OrderShape id a.bulkOrder.orders.elems none tp sl → ModifyStored ctx (.ofOrders tp sl)

/-- What `ui_modify` accepts; `first` is the trigger whose side and size are shown. -/
structure ModifyAccepted (ctx : HlContext) (p : ModifyParts) (first : OrderRequest) : Prop where
  stored : ModifyStored ctx p
  first : p.tp.or p.sl = some first
  tpCloses : ∀ o ∈ p.tp, checkTriggerCloseOrder o = true
  slCloses : ∀ o ∈ p.sl, checkTriggerCloseOrder o = true
  sizes : ∀ t ∈ p.tp, ∀ s ∈ p.sl, t.sz = s.sz

/-- The pairs of a MODIFY review, after the header. -/
def modifyPairs (sdk : Sdk) (metadata : ActionMetadata) (p : ModifyParts)
    (first : OrderRequest) : List Pair :=
  ⟨"Active Position", orderOperation (text "Market ") first metadata⟩ ::
  (optionalPair "Margin" (marginText sdk) metadata.margin ++
    optionalPair "Leverage" leverageText metadata.leverage ++
    [⟨"Size", sizeText first.sz metadata.assetTicker⟩] ++
    optionalPair (if p.kind == .bulkModify then "New Take Profit" else "Take Profit")
      (fun o => priceText o.trigger.triggerPx) p.tp ++
    optionalPair "TP Order ID" (oidText sdk) p.tpOid ++
    optionalPair (if p.kind == .bulkModify then "New Stop Loss" else "Stop Loss")
      (fun o => priceText o.trigger.triggerPx) p.sl ++
    optionalPair "SL Order ID" (oidText sdk) p.slOid)

theorem uiModifyTriggers_some {sdk : Sdk} {uiCtx screen : UiCtx} {metadata : ActionMetadata}
    {p : ModifyParts} (hoids : p.kind ≠ .bulkModify → p.tpOid = none ∧ p.slOid = none)
    (h : uiModifyTriggers sdk uiCtx metadata p.kind p.tp p.sl p.tpOid p.slOid = some screen) :
    ∃ first, p.tp.or p.sl = some first ∧ (∀ o ∈ p.tp, checkTriggerCloseOrder o = true) ∧
      (∀ o ∈ p.sl, checkTriggerCloseOrder o = true) ∧
      (∀ t ∈ p.tp, ∀ s ∈ p.sl, t.sz = s.sz) ∧
      screen.pairs = uiCtx.pairs ++ modifyPairs sdk metadata p first := by
  have htpOid : (if p.kind == .bulkModify then p.tpOid else none) = p.tpOid := by
    by_cases hk : p.kind = .bulkModify
    · simp [hk]
    · simp [hk, (hoids hk).1]
  have hslOid : (if p.kind == .bulkModify then p.slOid else none) = p.slOid := by
    by_cases hk : p.kind = .bulkModify
    · simp [hk]
    · simp [hk, (hoids hk).2]
  unfold uiModifyTriggers at h
  split at h
  · cases h
  · rename_i first hfirst
    split at h
    · cases h
    · rename_i hchecks
      have hop := snprintf_orderOperation (text "Market ") (by decide) first metadata
      cases h
      simp only [Bool.or_eq_true, not_or, Option.any_eq_true, not_exists, not_and,
        Bool.not_eq_true', Bool.not_eq_false, bne_iff_ne, ne_eq, not_not] at hchecks
      refine ⟨first, hfirst, hchecks.1.1, hchecks.1.2, hchecks.2, ?_⟩
      unfold orderOperation at hop
      simp only [UiCtx.addPair_pairs, UiCtx.addPair?_pairs, showMetadataMargin,
        showMetadataLeverage, modifyPairs, orderOperation, hop, htpOid, hslOid, optionalPair]
      simp

/-- An accepted MODIFY review, its parts, and the trigger it shows first. -/
structure ModifyReview (sdk : Sdk) (ctx : HlContext) (header : List Pair)
    (metadata : ActionMetadata) (screen : UiCtx) (p : ModifyParts) (first : OrderRequest) :
    Prop where
  accepted : ModifyAccepted ctx p first
  pairs : screen.pairs = header ++ modifyPairs sdk metadata p first

theorem uiModify_some {sdk : Sdk} {ctx : HlContext} {uiCtx screen : UiCtx}
    {metadata : ActionMetadata} (h : uiModify sdk ctx uiCtx metadata = some screen) :
    ∃ p first, ModifyReview sdk ctx uiCtx.pairs metadata screen p first := by
  unfold uiModify at h
  split at h
  · cases h
  · rename_i a ha
    split at h
    · rename_i hty
      have hget : ctxGetAction .bulkModify ctx = some a := by
        rcases Option.or_eq_some_iff.mp ha with hm | ⟨-, ho⟩
        · exact hm
        · rw [(ctxGetAction_some ho).2] at hty
          cases hty
      simp only at h
      split at h
      · cases h
      · rename_i hcount
        simp only [Bool.or_eq_true, not_or, bne_iff_ne, ne_eq, not_not,
          countModifyRequests, getModifyRequest] at hcount
        obtain ⟨⟨hnotp, hnosl⟩, hlen⟩ := hcount
        have htp : a.bulkModify.modifies.elems.countP (fun m => getTriggerTp m.order) ≤ 1 :=
          not_lt.mp fun hlt => hnotp (decide_eq_true hlt)
        have hsl : a.bulkModify.modifies.elems.countP (fun m => getTriggerSl m.order) ≤ 1 :=
          not_lt.mp fun hlt => hnosl (decide_eq_true hlt)
        have hlimit := find?_limit_of_length (f := ModifyRequest.order) htp hsl hlen
        have hshape := orderShape_of_triggers (f := ModifyRequest.order) hlimit htp hsl
        obtain ⟨first, hfirst, htpc, hslc, hsz, hpairs⟩ :=
          uiModifyTriggers_some (p := .ofModifies (a.bulkModify.modifies.elems.find? getModifyTp)
            (a.bulkModify.modifies.elems.find? getModifySl))
            (fun hk => absurd rfl hk) (by rw [hty] at h; exact h)
        exact ⟨_, first, ⟨.modifies a _ _ hget hshape, hfirst, htpc, hslc, hsz⟩, hpairs⟩
    · rename_i hty
      have hget : ctxGetAction .bulkModify ctx = none ∧ ctxGetAction .bulkOrder ctx = some a := by
        rcases Option.or_eq_some_iff.mp ha with hm | ho
        · rw [(ctxGetAction_some hm).2] at hty
          cases hty
        · exact ho
      simp only at h
      split at h
      · cases h
      · rename_i hcount
        simp only [Bool.or_eq_true, not_or, bne_iff_ne, ne_eq, not_not,
          countOrderRequests, getOrderRequest] at hcount
        obtain ⟨⟨⟨hlimit, hnotp⟩, hnosl⟩, -⟩ := hcount
        have htp : a.bulkOrder.orders.elems.countP (fun o => getTriggerTp (id o)) ≤ 1 :=
          not_lt.mp fun hlt => hnotp (decide_eq_true hlt)
        have hsl : a.bulkOrder.orders.elems.countP (fun o => getTriggerSl (id o)) ≤ 1 :=
          not_lt.mp fun hlt => hnosl (decide_eq_true hlt)
        have hshape := orderShape_of_triggers (f := id) hlimit htp hsl
        obtain ⟨first, hfirst, htpc, hslc, hsz, hpairs⟩ :=
          uiModifyTriggers_some (p := .ofOrders (a.bulkOrder.orders.elems.find? getTriggerTp)
            (a.bulkOrder.orders.elems.find? getTriggerSl))
            (fun _ => ⟨rfl, rfl⟩) (by rw [hty] at h; exact h)
        exact ⟨_, first, ⟨.orders a _ _ hget.1 hget.2 hshape, hfirst, htpc, hslc, hsz⟩, hpairs⟩
    · cases h

/-! ## 6. CANCEL and its variants -/

/-- The number of cancels that an operation needs. -/
def cancelCount (opType : OperationType) : Nat := if opType = .cancelTpSl then 2 else 1

theorem showCancelOids_pairs (sdk : Sdk) (uiCtx : UiCtx) (bulkCancel : BulkCancel) :
    (showCancelOids sdk uiCtx bulkCancel).pairs =
      uiCtx.pairs ++ bulkCancel.cancels.elems.map fun c => ⟨"Order ID", oidText sdk c.oid⟩ := by
  unfold showCancelOids
  generalize bulkCancel.cancels.elems = cancels
  induction cancels generalizing uiCtx with
  | nil => simp
  | cons c cs ih => simp [ih]

/-- An accepted review of cancellations, and its action. -/
structure CancelReview (sdk : Sdk) (ctx : HlContext) (header : List Pair)
    (metadata : ActionMetadata) (screen : UiCtx) (a : Action) : Prop where
  fetched : ctxGetAction .bulkCancel ctx = some a
  count : a.bulkCancel.cancels.elems.length = cancelCount metadata.opType
  pairs : ∃ operation, screen.pairs = header ++ (⟨"Operation", operation⟩ ::
    (optionalPair "Margin" (marginText sdk) metadata.margin ++
      optionalPair "Leverage" leverageText metadata.leverage ++
      a.bulkCancel.cancels.elems.map fun c => ⟨"Order ID", oidText sdk c.oid⟩))

theorem uiCancel_some {sdk : Sdk} {ctx : HlContext} {uiCtx screen : UiCtx}
    {metadata : ActionMetadata} (hop : metadata.opType = .cancel)
    (h : uiCancel sdk ctx uiCtx metadata = some screen) :
    ∃ a, CancelReview sdk ctx uiCtx.pairs metadata screen a := by
  unfold uiCancel at h
  split at h
  · cases h
  · rename_i a ha
    split at h
    · cases h
    · rename_i hcount
      cases h
      refine ⟨a, ha, by simpa [cancelCount, hop, Bounded.count] using hcount,
        (snprintf cancelOperationLength
          (text "Cancel order - " ++ metadata.assetTicker.chars)).chars, ?_⟩
      simp only [showCancelOids_pairs, showMetadataMargin, showMetadataLeverage,
        UiCtx.addPair_pairs, UiCtx.addPair?_pairs, optionalPair]
      simp

theorem uiCancelTpSl_some {sdk : Sdk} {ctx : HlContext} {uiCtx screen : UiCtx}
    {metadata : ActionMetadata} (h : uiCancelTpSl sdk ctx uiCtx metadata = some screen) :
    ∃ a, CancelReview sdk ctx uiCtx.pairs metadata screen a := by
  have hneed : (cancelTarget sdk metadata.opType).1 = cancelCount metadata.opType := by
    cases metadata.opType <;> rfl
  unfold uiCancelTpSl at h
  split at h
  · cases h
  · rename_i a ha
    simp only [hneed] at h
    split at h
    · cases h
    · rename_i hcount
      cases h
      refine ⟨a, ha, by simpa [Bounded.count] using hcount,
        (snprintf cancelOperationLength
          (text "Cancel order - " ++ metadata.assetTicker.chars ++ text " " ++
            (cancelTarget sdk metadata.opType).2)).chars, ?_⟩
      simp only [showCancelOids_pairs, showMetadataMargin, showMetadataLeverage,
        UiCtx.addPair_pairs, UiCtx.addPair?_pairs, optionalPair]
      simp

/-! ## 7. CLOSE and UPDATE_MARGIN -/

/-- The operation of a review of a position: `"%s - %s"`. -/
def positionOperation (long : Bool) (metadata : ActionMetadata) : Bytes :=
  (if long then text "Long" else text "Short") ++ text " - " ++ metadata.assetTicker.chars

theorem snprintf_positionOperation (long : Bool) (metadata : ActionMetadata) :
    (snprintf positionOperationLength (positionOperation long metadata)).chars =
      positionOperation long metadata := by
  have hticker := metadata.assetTicker.fits
  have hside : (if long then text "Long" else text "Short").length ≤ 5 := by
    cases long <;> decide
  rw [snprintf_of_fits]
  unfold positionOperation
  have hsep : (text " - ").length = 3 := rfl
  simp only [List.length_append, positionOperationLength, shortLongStringLength,
    assetTickerLength] at *
  omega

theorem positionOperation_inj {b c : Bool} {metadata : ActionMetadata}
    (h : positionOperation b metadata = positionOperation c metadata) : b = c := by
  unfold positionOperation at h
  simp only [List.append_assoc] at h
  exact sideLabel_inj h

/-- An accepted CLOSE review, its action, and the one order of it. -/
structure CloseReview (sdk : Sdk) (ctx : HlContext) (header : List Pair)
    (metadata : ActionMetadata) (screen : UiCtx) (a : Action) (o : OrderRequest) : Prop where
  fetched : ctxGetAction .bulkOrder ctx = some a
  orders : a.bulkOrder.orders.elems = [o]
  isLimit : o.orderType = .limit
  reduceOnly : o.reduceOnly = true
  pairs : screen.pairs = header ++
    (⟨"Position to close", positionOperation (!o.isBuy) metadata⟩ ::
      (optionalPair "Margin" (marginText sdk) metadata.margin ++
        optionalPair "Leverage" leverageText metadata.leverage ++
        [⟨"Size", sizeText o.sz metadata.assetTicker⟩]))

theorem uiClose_some {sdk : Sdk} {ctx : HlContext} {uiCtx screen : UiCtx}
    {metadata : ActionMetadata} (h : uiClose sdk ctx uiCtx metadata = some screen) :
    ∃ a o, CloseReview sdk ctx uiCtx.pairs metadata screen a o := by
  unfold uiClose at h
  split at h
  · cases h
  · rename_i a ha
    split at h
    · cases h
    · rename_i hcount
      split at h
      · cases h
      · rename_i o ho
        split at h
        · cases h
        · rename_i hreduce
          cases h
          have hlen : a.bulkOrder.orders.elems.length = 1 := by
            simpa [Bounded.count] using hcount
          obtain ⟨o', ho'⟩ := List.length_eq_one_iff.mp hlen
          have hmem : o ∈ a.bulkOrder.orders.elems := List.mem_of_find?_eq_some ho
          rw [ho', List.mem_singleton] at hmem
          have hred : o.reduceOnly = true := by simpa using hreduce
          refine ⟨a, o, ha, by rw [ho', hmem],
            getLimitRequest_iff.mp (List.find?_some (p := getLimitRequest) ho), hred, ?_⟩
          have hlong : getShortLongStringCapitalized o =
              if (!o.isBuy) = true then text "Long" else text "Short" := by
            rw [getShortLongStringCapitalized_eq, hred]
            cases o.isBuy <;> rfl
          have hop := snprintf_positionOperation (!o.isBuy) metadata
          unfold positionOperation at hop ⊢
          simp only [hlong, showMetadataMargin, showMetadataLeverage, UiCtx.addPair_pairs,
            UiCtx.addPair?_pairs, optionalPair, hop]
          simp

/-- The intent of an UPDATE_MARGIN review. -/
def marginIntent (sdk : Sdk) (metadata : ActionMetadata) (u : UpdateIsolatedMargin) :
    CString intentStringLength :=
  sdk.intent
    ((if u.ntli < 0 then text "Remove" else text "Add") ++ text " Margin " ++
      (if u.ntli < 0 then text "from" else text "to") ++ text " " ++
      metadata.assetTicker.chars ++ text " " ++
      (if u.isBuy then text "Long" else text "Short"))
    ((if u.ntli < 0 then text "remove" else text "add") ++ text " margin " ++
      (if u.ntli < 0 then text "from" else text "to") ++ text " " ++
      (if u.isBuy then text "long" else text "short"))

/-- An accepted UPDATE_MARGIN review, and its action. -/
structure MarginReview (sdk : Sdk) (ctx : HlContext) (header : List Pair)
    (metadata : ActionMetadata) (screen : UiCtx) (a : Action) : Prop where
  fetched : ctxGetAction .updateIsolatedMargin ctx = some a
  intent : screen.intent = marginIntent sdk metadata a.updateIsolatedMargin
  pairs : screen.pairs = header ++
    (⟨"Active Position", positionOperation a.updateIsolatedMargin.isBuy metadata⟩ ::
      ⟨"New Margin", marginText sdk (ntliMargin a.updateIsolatedMargin.ntli)⟩ ::
      optionalPair "Leverage" leverageText metadata.leverage)

theorem uiUpdateMargin_some {sdk : Sdk} {ctx : HlContext} {uiCtx screen : UiCtx}
    {metadata : ActionMetadata} (h : uiUpdateMargin sdk ctx uiCtx metadata = some screen) :
    ∃ a, MarginReview sdk ctx uiCtx.pairs metadata screen a := by
  unfold uiUpdateMargin at h
  split at h
  · cases h
  · rename_i a ha
    cases h
    refine ⟨a, ha, rfl, ?_⟩
    have hop := snprintf_positionOperation a.updateIsolatedMargin.isBuy metadata
    unfold positionOperation at hop ⊢
    simp only [showMetadataLeverage, UiCtx.addPair_pairs, UiCtx.addPair?_pairs, optionalPair, hop]
    simp

/-! ## 8. Every operation -/

/-- The review of an operation shows these parts of what is stored. -/
inductive Rendered (sdk : Sdk) (ctx : HlContext) (m : ActionMetadata) (screen : UiCtx) : Prop where
  | order (p : OrderParts) : m.opType = .order →
      OrderReview sdk ctx (uiHeader m).pairs m screen p → Rendered sdk ctx m screen
  | modify (p : ModifyParts) (first : OrderRequest) : m.opType = .modify →
      ModifyReview sdk ctx (uiHeader m).pairs m screen p first → Rendered sdk ctx m screen
  | cancel (a : Action) : m.opType ∈ [.cancel, .cancelTp, .cancelSl, .cancelTpSl] →
      CancelReview sdk ctx (uiHeader m).pairs m screen a → Rendered sdk ctx m screen
  | close (a : Action) (o : OrderRequest) : m.opType = .close →
      CloseReview sdk ctx (uiHeader m).pairs m screen a o → Rendered sdk ctx m screen
  | updateMargin (a : Action) : m.opType = .updateMargin →
      MarginReview sdk ctx (uiHeader m).pairs m screen a → Rendered sdk ctx m screen

/-- The messages do not change the pairs and the intent. -/
theorem Rendered.ofPrepared {sdk : Sdk} {ctx : HlContext} {m : ActionMetadata} {uiCtx : UiCtx}
    (h : Rendered sdk ctx m uiCtx) : Rendered sdk ctx m (prepareReviewSignMsgs uiCtx) := by
  cases h with
  | order p hop hr => exact .order p hop ⟨hr.accepted, hr.pairs, hr.intent⟩
  | modify p first hop hr => exact .modify p first hop ⟨hr.accepted, hr.pairs⟩
  | cancel a hop hr => exact .cancel a hop ⟨hr.fetched, hr.count, hr.pairs⟩
  | close a o hop hr =>
    exact .close a o hop ⟨hr.fetched, hr.orders, hr.isLimit, hr.reduceOnly, hr.pairs⟩
  | updateMargin a hop hr => exact .updateMargin a hop ⟨hr.fetched, hr.intent, hr.pairs⟩

/-- A review is displayed when its operation accepts what is stored. -/
theorem handleUi_some {sdk : Sdk} {ctx : HlContext} {md : Option ActionMetadata}
    {screen : UiCtx} (h : handleUi sdk ctx md = some screen) :
    ∃ m, md = some m ∧ Rendered sdk ctx m screen := by
  unfold handleUi at h
  cases md with
  | none => cases h
  | some m =>
    obtain ⟨uiCtx, hui, rfl⟩ := Option.map_eq_some_iff.mp h
    refine ⟨m, rfl, Rendered.ofPrepared ?_⟩
    unfold uiOperation at hui
    cases hop : m.opType with
    | order =>
      simp only [hop] at hui
      obtain ⟨p, hr⟩ := uiOrder_some hui
      exact .order p hop hr
    | modify =>
      simp only [hop] at hui
      obtain ⟨p, first, hr⟩ := uiModify_some hui
      exact .modify p first hop hr
    | cancel =>
      simp only [hop] at hui
      obtain ⟨a, hr⟩ := uiCancel_some hop hui
      exact .cancel a (by simp [hop]) hr
    | updateLeverage =>
      simp only [hop] at hui
      cases hui
    | close =>
      simp only [hop] at hui
      obtain ⟨a, o, hr⟩ := uiClose_some hui
      exact .close a o hop hr
    | updateMargin =>
      simp only [hop] at hui
      obtain ⟨a, hr⟩ := uiUpdateMargin_some hui
      exact .updateMargin a hop hr
    | cancelSl =>
      simp only [hop] at hui
      obtain ⟨a, hr⟩ := uiCancelTpSl_some hui
      exact .cancel a (by simp [hop]) hr
    | cancelTp =>
      simp only [hop] at hui
      obtain ⟨a, hr⟩ := uiCancelTpSl_some hui
      exact .cancel a (by simp [hop]) hr
    | cancelTpSl =>
      simp only [hop] at hui
      obtain ⟨a, hr⟩ := uiCancelTpSl_some hui
      exact .cancel a (by simp [hop]) hr

namespace Rendered

variable {sdk : Sdk} {ctx : HlContext} {m : ActionMetadata} {screen : UiCtx}

theorem orderReview (h : Rendered sdk ctx m screen) (hop : m.opType = .order) :
    ∃ p, OrderReview sdk ctx (uiHeader m).pairs m screen p := by
  cases h with
  | order p _ hr => exact ⟨p, hr⟩
  | _ => simp_all

theorem modifyReview (h : Rendered sdk ctx m screen) (hop : m.opType = .modify) :
    ∃ p first, ModifyReview sdk ctx (uiHeader m).pairs m screen p first := by
  cases h with
  | modify p first _ hr => exact ⟨p, first, hr⟩
  | _ => simp_all

theorem cancelReview (h : Rendered sdk ctx m screen)
    (hop : m.opType ∈ [.cancel, .cancelTp, .cancelSl, .cancelTpSl]) :
    ∃ a, CancelReview sdk ctx (uiHeader m).pairs m screen a := by
  cases h with
  | cancel a _ hr => exact ⟨a, hr⟩
  | _ => simp_all

theorem closeReview (h : Rendered sdk ctx m screen) (hop : m.opType = .close) :
    ∃ a o, CloseReview sdk ctx (uiHeader m).pairs m screen a o := by
  cases h with
  | close a o _ hr => exact ⟨a, o, hr⟩
  | _ => simp_all

theorem marginReview (h : Rendered sdk ctx m screen) (hop : m.opType = .updateMargin) :
    ∃ a, MarginReview sdk ctx (uiHeader m).pairs m screen a := by
  cases h with
  | updateMargin a _ hr => exact ⟨a, hr⟩
  | _ => simp_all

end Rendered

theorem length_optionalPair_le {α : Type} (item : String) (value : α → Bytes) (o : Option α) :
    (optionalPair item value o).length ≤ 1 := by
  cases o with
  | none => exact Nat.zero_le 1
  | some a => exact Nat.le_refl 1

/-- Every pair has its place: the array of the source does not overflow. -/
theorem handleUi_fits {sdk : Sdk} {ctx : HlContext} {md : Option ActionMetadata}
    {screen : UiCtx} (h : handleUi sdk ctx md = some screen) :
    screen.pairs.length ≤ maxUiPairs := by
  obtain ⟨m, -, hr⟩ := handleUi_some h
  have hheader : (uiHeader m).pairs.length ≤ 2 := by
    unfold uiHeader
    dsimp only
    split <;> simp
  have hmargin := length_optionalPair_le "Margin" (marginText sdk) m.margin
  have hleverage := length_optionalPair_le "Leverage" leverageText m.leverage
  unfold maxUiPairs
  cases hr with
  | order p _ hr =>
    have hlimit := length_optionalPair_le "Limit Price" priceText
      (if p.rests then some p.parent.limitPx else none)
    have hown := length_optionalPair_le "Leverage" (fun u => leverageText u.leverage) p.leverage
    have htp := length_optionalPair_le "Take Profit" (fun o => priceText o.trigger.triggerPx) p.tp
    have hsl := length_optionalPair_le "Stop Loss" (fun o => priceText o.trigger.triggerPx) p.sl
    rw [hr.pairs]
    simp only [orderPairs, List.length_append, List.length_cons, List.length_nil]
    omega
  | modify p first _ hr =>
    have htp := length_optionalPair_le
      (if p.kind == .bulkModify then "New Take Profit" else "Take Profit")
      (fun o => priceText o.trigger.triggerPx) p.tp
    have hsl := length_optionalPair_le
      (if p.kind == .bulkModify then "New Stop Loss" else "Stop Loss")
      (fun o => priceText o.trigger.triggerPx) p.sl
    have htpOid := length_optionalPair_le "TP Order ID" (oidText sdk) p.tpOid
    have hslOid := length_optionalPair_le "SL Order ID" (oidText sdk) p.slOid
    rw [hr.pairs]
    simp only [modifyPairs, List.length_append, List.length_cons, List.length_nil]
    omega
  | cancel a _ hr =>
    have hcancels : a.bulkCancel.cancels.elems.length ≤ 5 := a.bulkCancel.cancels.bound
    obtain ⟨operation, hpairs⟩ := hr.pairs
    rw [hpairs]
    simp only [List.length_append, List.length_cons, List.length_map]
    omega
  | close a o _ hr =>
    rw [hr.pairs]
    simp only [List.length_append, List.length_cons, List.length_nil]
    omega
  | updateMargin a _ hr =>
    rw [hr.pairs]
    simp only [List.length_append, List.length_cons]
    omega

end Hyperliquid

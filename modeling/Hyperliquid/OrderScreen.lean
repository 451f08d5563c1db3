/-
# What an ORDER review tells about the order that is signed

Two ORDER sessions with the same metadata whose reviews show the same pairs have the same
parent order, the same leverage and the same triggers, up to what the application leaves free
(`order_screen_determines`).

One bit of the parent is not told: a reduce-only order is labelled with the side of the position
it closes, under an intent that says `Open` and, for a market order, names that side again.
`ui_order` never looks at `reduce_only`, as `ui_close` does, so the label and the intent are true
of the parent exactly when it is not reduce-only (`openDirection_iff`).
-/
import Hyperliquid.ReviewedActions

namespace Hyperliquid

open Lib

/-! ## 1. Sessions that are accepted -/

/-- After these inputs, the session has this metadata and this review is displayed for it. -/
structure Accepted (sdk : Sdk) (inputs : List Input) (m : ActionMetadata) (screen : UiCtx) :
    Prop where
  metadata : ((app sdk).state inputs).ctx.metadata = some m
  review : handleUi sdk ((app sdk).state inputs).ctx (some m) = some screen

theorem Accepted.rendered {sdk : Sdk} {inputs : List Input} {m : ActionMetadata} {screen : UiCtx}
    (h : Accepted sdk inputs m screen) :
    Rendered sdk ((app sdk).state inputs).ctx m screen := by
  obtain ⟨m', hm', hr⟩ := handleUi_some h.review
  cases hm'
  exact hr

/-- A review that is displayed is some screen. -/
theorem exists_accepted {sdk : Sdk} {inputs : List Input} {m : ActionMetadata}
    (hmd : ((app sdk).state inputs).ctx.metadata = some m)
    (hui : (handleUi sdk ((app sdk).state inputs).ctx (some m)).isSome = true) :
    ∃ screen, Accepted sdk inputs m screen := by
  obtain ⟨screen, hs⟩ := Option.isSome_iff_exists.mp hui
  exact ⟨screen, hmd, hs⟩

/-- The asset of everything that is stored is the one of the metadata. -/
theorem SessionInv.asset_eq {ctx : HlContext} (hinv : SessionInv ctx) {m : ActionMetadata}
    (hmd : ctx.metadata = some m) {a : Action} (ha : a ∈ ctx.actions.elems) {x : UInt32}
    (hx : x ∈ a.assets) : x = m.assetId := by
  obtain ⟨m', hm', hasset⟩ := hinv.assets a ha x hx
  rw [hmd] at hm'
  cases hm'
  exact hasset

/-- Values printed from optional parts: if they are the same, so is what they tell. -/
theorem rel_of_shown {α : Type} {f : α → Bytes} {R : α → α → Prop} {o o' : Option α}
    (h : (o.map f).toList = (o'.map f).toList)
    (hR : ∀ a ∈ o, ∀ b ∈ o', f a = f b → R a b) : Option.Rel R o o' := by
  cases o with
  | none =>
    cases o' with
    | none => exact .none
    | some b => cases h
  | some a =>
    cases o' with
    | none => cases h
    | some b =>
      have hf : f a = f b := List.singleton_inj.mp h
      exact .some (hR a rfl b rfl hf)

/-! ## 2. The pairs of an ORDER review, item by item -/

section

variable (sdk : Sdk) (m : ActionMetadata) (p : OrderParts)

theorem shown_operation : shownUnder "Operation" (orderPairs sdk m p) =
    [orderOperation (if p.rests then text "Limit " else text "Market ") p.parent m] := by
  simp [orderPairs]

theorem shown_limitPrice : shownUnder "Limit Price" (orderPairs sdk m p) =
    ((if p.rests then some p.parent.limitPx else none).map priceText).toList := by
  simp [orderPairs]

theorem shown_leverage : shownUnder "Leverage" (orderPairs sdk m p) =
    (p.leverage.map fun u => leverageText u.leverage).toList := by
  simp [orderPairs]

theorem shown_takeProfit : shownUnder "Take Profit" (orderPairs sdk m p) =
    (p.tp.map fun o => priceText o.trigger.triggerPx).toList := by
  simp [orderPairs]

theorem shown_stopLoss : shownUnder "Stop Loss" (orderPairs sdk m p) =
    (p.sl.map fun o => priceText o.trigger.triggerPx).toList := by
  simp [orderPairs]

theorem shown_size : shownUnder "Size" (orderPairs sdk m p) =
    [sizeText p.parent.sz m.assetTicker] := by
  simp [orderPairs]

end

/-! ## 3. The screen determines the order -/

/-- Two parent orders that agree on what is shown. -/
structure SameParent (o o' : OrderRequest) : Prop where
  asset : o.asset = o'.asset
  sz : o.sz = o'.sz
  tif : o.limit.tif = o'.limit.tif
  side : (o.isBuy != o.reduceOnly) = (o'.isBuy != o'.reduceOnly)
  limitPx : o.limit.tif = .gtc → o.limitPx = o'.limitPx

/-- Two updates of the leverage that agree. -/
structure SameLeverage (u u' : UpdateLeverage) : Prop where
  asset : u.asset = u'.asset
  leverage : u.leverage = u'.leverage
  isolated : u.isCross = false ∧ u'.isCross = false

/-- Two triggers that agree on everything but the side. -/
structure SameTrigger (o o' : OrderRequest) : Prop where
  asset : o.asset = o'.asset
  triggerPx : o.trigger.triggerPx = o'.trigger.triggerPx
  limitPx : o.limitPx = o'.limitPx
  sz : o.sz = o'.sz
  reduceOnly : o.reduceOnly = o'.reduceOnly
  isMarket : o.trigger.isMarket = o'.trigger.isMarket

structure SameOrder (p p' : OrderParts) : Prop where
  parent : SameParent p.parent p'.parent
  leverage : Option.Rel SameLeverage p.leverage p'.leverage
  tp : Option.Rel SameTrigger p.tp p'.tp
  sl : Option.Rel SameTrigger p.sl p'.sl

/-- Each trigger is on the other side of the parent. -/
def OrderParts.TriggersOppose (p : OrderParts) : Prop :=
  ∀ o, o ∈ p.tp ∨ o ∈ p.sl → o.isBuy = !p.parent.isBuy

/-- The assets of the parts. -/
structure OrderParts.AssetsAre (p : OrderParts) (asset : UInt32) : Prop where
  parent : p.parent.asset = asset
  leverage : ∀ u ∈ p.leverage, u.asset = asset
  tp : ∀ o ∈ p.tp, o.asset = asset
  sl : ∀ o ∈ p.sl, o.asset = asset

theorem OrderAccepted.assets {ctx : HlContext} {p : OrderParts} {m : ActionMetadata}
    (h : OrderAccepted ctx p) (hinv : SessionInv ctx) (hmd : ctx.metadata = some m) :
    p.AssetsAre m.assetId := by
  obtain ⟨a, hget, hshape⟩ := h.orders
  obtain ⟨ha, hty⟩ := ctxGetAction_some hget
  have horder : ∀ o ∈ a.bulkOrder.orders.elems, o.asset = m.assetId := by
    intro o ho
    refine hinv.asset_eq hmd ha ?_
    simp only [Action.assets, hty]
    exact List.mem_map_of_mem ho
  refine ⟨horder _ (hshape.mem_iff.mpr (.inl rfl)), ?_,
    fun o ho => horder o (hshape.mem_iff.mpr (.inr (.inl ho))),
    fun o ho => horder o (hshape.mem_iff.mpr (.inr (.inr ho)))⟩
  intro u hu
  rw [← h.leverage, Option.mem_map] at hu
  obtain ⟨b, hb, rfl⟩ := hu
  obtain ⟨hb, hbty⟩ := ctxGetAction_some hb
  refine hinv.asset_eq hmd hb ?_
  simp [Action.assets, hbty]

theorem OrderAccepted.triggersOppose {ctx : HlContext} {p : OrderParts}
    (h : OrderAccepted ctx p) : p.TriggersOppose := by
  rintro o (ho | ho)
  · exact (checkTriggerMatchesLimit_iff.mp (h.tpMatches o ho)).2.1
  · exact (checkTriggerMatchesLimit_iff.mp (h.slMatches o ho)).2.1

/-- Triggers that match parents of one size agree as soon as their prices do. -/
theorem sameTrigger {o o' l l' : OrderRequest} (h : checkTriggerMatchesLimit o l = true)
    (h' : checkTriggerMatchesLimit o' l' = true) (hsz : l.sz = l'.sz)
    (hasset : o.asset = o'.asset)
    (hpx : priceText o.trigger.triggerPx = priceText o'.trigger.triggerPx) :
    SameTrigger o o' := by
  obtain ⟨hc, -, hs⟩ := checkTriggerMatchesLimit_iff.mp h
  obtain ⟨hc', -, hs'⟩ := checkTriggerMatchesLimit_iff.mp h'
  obtain ⟨hred, hmkt, hlim⟩ := checkTriggerCloseOrder_iff.mp hc
  obtain ⟨hred', hmkt', hlim'⟩ := checkTriggerCloseOrder_iff.mp hc'
  have htrigger := priceText_inj hpx
  exact ⟨hasset, htrigger, by rw [hlim, hlim', htrigger], by rw [hs, hs', hsz],
    by rw [hred, hred'], by rw [hmkt, hmkt']⟩

/-- Parts that show the same agree. -/
theorem sameOrder_of_pairs {sdk : Sdk} {m : ActionMetadata} {ctx ctx' : HlContext}
    {p p' : OrderParts} (h : OrderAccepted ctx p) (h' : OrderAccepted ctx' p')
    (hassets : p.AssetsAre m.assetId) (hassets' : p'.AssetsAre m.assetId)
    (hpairs : orderPairs sdk m p = orderPairs sdk m p') : SameOrder p p' := by
  have hshown : ∀ item, shownUnder item (orderPairs sdk m p) =
      shownUnder item (orderPairs sdk m p') := fun item => by rw [hpairs]
  have hsz : p.parent.sz = p'.parent.sz := by
    have hs := hshown "Size"
    rw [shown_size, shown_size, List.singleton_inj] at hs
    exact sizeText_inj hs
  have hprice := hshown "Limit Price"
  rw [shown_limitPrice, shown_limitPrice] at hprice
  -- a limit price is shown exactly when the order rests
  have hrests : p.rests = p'.rests := by
    cases hr : p.rests <;> cases hr' : p'.rests <;> simp [hr, hr'] at hprice <;> rfl
  have htif : p.parent.limit.tif = p'.parent.limit.tif := by
    unfold OrderParts.rests at hrests
    rcases h.tif with ht | ht <;> rcases h'.tif with ht' | ht' <;>
      simp [ht, ht'] at hrests ⊢
  have hoperation := hshown "Operation"
  rw [shown_operation, shown_operation, hrests, List.singleton_inj] at hoperation
  refine ⟨⟨by rw [hassets.parent, hassets'.parent], hsz, htif, orderOperation_inj hoperation, ?_⟩,
    ?_, ?_, ?_⟩
  · intro hgtc
    have hr : p.rests = true := by simp [OrderParts.rests, hgtc]
    rw [← hrests, hr] at hprice
    exact priceText_inj (List.singleton_inj.mp hprice)
  · have hlev := hshown "Leverage"
    rw [shown_leverage, shown_leverage] at hlev
    refine rel_of_shown hlev fun u hu u' hu' htext => ?_
    exact ⟨by rw [hassets.leverage u hu, hassets'.leverage u' hu'], leverageText_inj htext,
      h.isolated u hu, h'.isolated u' hu'⟩
  · have htp := hshown "Take Profit"
    rw [shown_takeProfit, shown_takeProfit] at htp
    refine rel_of_shown htp fun o ho o' ho' htext => ?_
    exact sameTrigger (h.tpMatches o ho) (h'.tpMatches o' ho') hsz
      (by rw [hassets.tp o ho, hassets'.tp o' ho']) htext
  · have hsl := hshown "Stop Loss"
    rw [shown_stopLoss, shown_stopLoss] at hsl
    refine rel_of_shown hsl fun o ho o' ho' htext => ?_
    exact sameTrigger (h.slMatches o ho) (h'.slMatches o' ho') hsz
      (by rw [hassets.sl o ho, hassets'.sl o' ho']) htext

/-- The review of an accepted ORDER session. -/
theorem Accepted.orderReview {sdk : Sdk} {inputs : List Input} {m : ActionMetadata}
    {screen : UiCtx} (h : Accepted sdk inputs m screen) (hop : m.opType = .order) :
    ∃ p, OrderReview sdk ((app sdk).state inputs).ctx (uiHeader m).pairs m screen p ∧
      p.AssetsAre m.assetId := by
  obtain ⟨p, hr⟩ := h.rendered.orderReview hop
  exact ⟨p, hr, hr.accepted.assets (sessionInv_state sdk inputs) h.metadata⟩

/-- Two ORDER sessions with the same metadata and the same review. -/
theorem order_screen_determines (sdk : Sdk) (inputs inputs' : List Input) (m : ActionMetadata)
    (screen screen' : UiCtx) (hop : m.opType = .order) (h : Accepted sdk inputs m screen)
    (h' : Accepted sdk inputs' m screen') (hpairs : screen.pairs = screen'.pairs) :
    ∃ p p', OrderAccepted ((app sdk).state inputs).ctx p ∧
      OrderAccepted ((app sdk).state inputs').ctx p' ∧ SameOrder p p' ∧
      p.TriggersOppose ∧ p'.TriggersOppose := by
  obtain ⟨p, hr, hassets⟩ := h.orderReview hop
  obtain ⟨p', hr', hassets'⟩ := h'.orderReview hop
  rw [hr.pairs, hr'.pairs] at hpairs
  exact ⟨p, p', hr.accepted, hr'.accepted,
    sameOrder_of_pairs hr.accepted hr'.accepted hassets hassets' (List.append_cancel_left hpairs),
    hr.accepted.triggersOppose, hr'.accepted.triggersOppose⟩

/-- An order and its take profit, in this order or the other. -/
def bracketSession (triggerFirst : Bool) : List Input :=
  let parent := Client.limitRequest true false .gtc "1973.7" "0.0072"
  let tp := Client.triggerRequest false .tp "2276.3" "0.0072"
  Client.session (Client.ethMetadata .order)
    [Client.bulkOrderAction (if triggerFirst then [tp, parent] else [parent, tp])]

theorem order_screen_determines_bracketSession :
    ∃ p p', OrderAccepted ((app Client.sdk).state (bracketSession false)).ctx p ∧
      OrderAccepted ((app Client.sdk).state (bracketSession true)).ctx p' ∧ SameOrder p p' := by
  have hmd : ∀ b, ((app Client.sdk).state (bracketSession b)).ctx.metadata =
      some (Client.ethMetadata .order) := by decide +kernel
  have hui : ∀ b, (handleUi Client.sdk ((app Client.sdk).state (bracketSession b)).ctx
      (some (Client.ethMetadata .order))).isSome = true := by decide +kernel
  have hsame : handleUi Client.sdk ((app Client.sdk).state (bracketSession false)).ctx
        (some (Client.ethMetadata .order)) =
      handleUi Client.sdk ((app Client.sdk).state (bracketSession true)).ctx
        (some (Client.ethMetadata .order)) := by decide +kernel
  obtain ⟨screen, h⟩ := exists_accepted (hmd false) (hui false)
  obtain ⟨screen', h'⟩ := exists_accepted (hmd true) (hui true)
  have hscreen : screen = screen' :=
    Option.some_inj.mp (h.review.symm.trans (hsame.trans h'.review))
  obtain ⟨p, p', hp, hp', hpp', -⟩ := order_screen_determines Client.sdk (bracketSession false)
    (bracketSession true) _ screen screen' rfl h h' (by rw [hscreen])
  exact ⟨p, p', hp, hp', hpp'⟩

/-! ## 4. The direction of the position -/

/-- The review shows this label for the side. -/
def ShowsSide (screen : UiCtx) (m : ActionMetadata) (side : Bytes) : Prop :=
  ∃ kind ∈ [text "Market ", text "Limit "],
    (⟨"Operation", kind ++ side ++ text " - " ++ m.assetTicker.chars⟩ : Pair) ∈ screen.pairs

/-- The intent of the review names this side, as that of a market order does. -/
def IntentNames (screen : UiCtx) (m : ActionMetadata) (side : Bytes) : Prop :=
  screen.intent.chars = text "Open " ++ m.assetTicker.chars ++ text " " ++ side ∨
    screen.intent.chars = text "open " ++ side

/-- The intent of the review is to open a position. -/
def ShowsOpen (screen : UiCtx) : Prop :=
  text "Open " <+: screen.intent.chars ∨ text "open " <+: screen.intent.chars

/-- The label and the intent are true of an order. -/
structure Truthful (screen : UiCtx) (m : ActionMetadata) (o : OrderRequest) : Prop where
  long : ShowsSide screen m (text "Long") ∨ IntentNames screen m (text "long") →
    o.isBuy = true ∧ o.reduceOnly = false
  short : ShowsSide screen m (text "Short") ∨ IntentNames screen m (text "short") →
    o.isBuy = false ∧ o.reduceOnly = false
  opens : ShowsOpen screen → o.reduceOnly = false

/-- The review calls the position of an order long or short: in the label, and in the intent if
the order is executed at once. -/
structure Calls (screen : UiCtx) (m : ActionMetadata) (o : OrderRequest) (long : Bool) :
    Prop where
  label : ∀ b, ShowsSide screen m (if b then text "Long" else text "Short") ↔ b = long
  intent : ∀ b, IntentNames screen m (if b then text "long" else text "short") ↔
    o.limit.tif = .ioc ∧ b = long
  opens : ShowsOpen screen

/-- The limit order of the stored `BULK_ORDER`. -/
def ParentOrder (ctx : HlContext) (o : OrderRequest) : Prop :=
  ∃ a ∈ ctx.actions.elems, a.type = .bulkOrder ∧ o ∈ a.bulkOrder.orders.elems ∧
    o.orderType = .limit

/-- It is the parent of the review. -/
theorem OrderAccepted.parentOrder_iff {ctx : HlContext} {p : OrderParts}
    (h : OrderAccepted ctx p) (hinv : SessionInv ctx) {o : OrderRequest} :
    ParentOrder ctx o ↔ o = p.parent := by
  obtain ⟨a, hget, hshape⟩ := h.orders
  obtain ⟨ha, hty⟩ := ctxGetAction_some hget
  constructor
  · rintro ⟨b, hb, hbty, ho, hlimit⟩
    have hab : b = a := by
      have hgetb := ctxGetAction_of_mem hinv.distinct hb
      rw [hbty, hget] at hgetb
      exact (Option.some_inj.mp hgetb).symm
    rw [hab] at ho
    exact (Option.some_inj.mp (hshape.limit_of_mem ho hlimit)).symm
  · rintro rfl
    exact ⟨a, ha, hty, hshape.mem_iff.mpr (.inl rfl),
      getLimitRequest_iff.mp (hshape.isLimit _ rfl)⟩

/-- The two kinds and the two sides make four different labels. -/
theorem label_inj {kind kind' rest : Bytes} {b c : Bool}
    (hkind : kind ∈ [text "Market ", text "Limit "])
    (hkind' : kind' ∈ [text "Market ", text "Limit "])
    (h : kind ++ (if b then text "Long" else text "Short") ++ text " - " ++ rest =
      kind' ++ (if c then text "Long" else text "Short") ++ text " - " ++ rest) : b = c := by
  have hlabel := List.append_cancel_right (List.append_cancel_right h)
  simp only [List.mem_cons, List.not_mem_nil, or_false] at hkind hkind'
  rcases hkind with rfl | rfl <;> rcases hkind' with rfl | rfl <;> cases b <;> cases c <;>
    first | rfl | exact absurd hlabel (by decide)

/-- The label that the review of a parent shows. -/
theorem OrderReview.showsSide_iff {sdk : Sdk} {ctx : HlContext} {m : ActionMetadata}
    {screen : UiCtx} {p : OrderParts}
    (h : OrderReview sdk ctx (uiHeader m).pairs m screen p) (long : Bool) :
    ShowsSide screen m (if long then text "Long" else text "Short") ↔
      (p.parent.isBuy != p.parent.reduceOnly) = long := by
  have hkind : (if p.rests then text "Limit " else text "Market ") ∈
      [text "Market ", text "Limit "] := by
    cases p.rests <;> simp
  have hshown : shownUnder "Operation" screen.pairs =
      [orderOperation (if p.rests then text "Limit " else text "Market ") p.parent m] := by
    rw [h.pairs, shownUnder_append, shown_operation,
      shownUnder_uiHeader (by decide) (by decide), List.nil_append]
  have hoperation := getShortLongStringCapitalized_eq p.parent
  unfold ShowsSide
  simp only [← mem_shownUnder, hshown, List.mem_singleton, orderOperation, hoperation]
  constructor
  · rintro ⟨kind, hmem, heq⟩
    exact (label_inj hmem hkind heq).symm
  · intro hside
    exact ⟨_, hkind, by rw [hside]⟩

/-- An intent that begins with a short text shows it. -/
theorem prefix_snprintf {s rest : Bytes} (h : s.length ≤ intentStringLength) :
    s <+: (snprintf intentStringLength (s ++ rest)).chars :=
  List.prefix_take_iff.mpr ⟨List.prefix_append s rest, h⟩

/-- The last words of the intent of a parent. -/
def OrderParts.word (p : OrderParts) : Bytes :=
  if p.rests then text "limit order" else getShortLongString p.parent

theorem OrderParts.word_length (p : OrderParts) : p.word.length ≤ 11 := by
  unfold OrderParts.word
  rw [getShortLongString_eq]
  split
  · decide
  · split <;> decide

/-- They are a side exactly where the order is executed at once and the side is shown for it. -/
theorem OrderParts.word_eq_iff {ctx : HlContext} {p : OrderParts} (h : OrderAccepted ctx p)
    (long : Bool) :
    p.word = (if long then text "long" else text "short") ↔
      p.parent.limit.tif = .ioc ∧ long = (p.parent.isBuy != p.parent.reduceOnly) := by
  unfold OrderParts.word OrderParts.rests
  rw [getShortLongString_eq]
  generalize (p.parent.isBuy != p.parent.reduceOnly) = side
  rcases h.tif with htif | htif
  · rw [htif]
    cases side <;> cases long <;> decide
  · rw [htif]
    cases side <;> cases long <;> decide

/-- The whole intent: nothing of it is cut. -/
theorem OrderReview.intent_chars {sdk : Sdk} {ctx : HlContext} {m : ActionMetadata}
    {screen : UiCtx} {p : OrderParts}
    (h : OrderReview sdk ctx (uiHeader m).pairs m screen p) :
    screen.intent.chars = if sdk.screenSizeWallet
      then text "Open " ++ m.assetTicker.chars ++ text " " ++ p.word
      else text "open " ++ p.word := by
  have hintent : orderIntent sdk m p = sdk.intent
      (text "Open " ++ m.assetTicker.chars ++ text " " ++ p.word) (text "open " ++ p.word) := by
    have hwallet : text " limit order" = text " " ++ text "limit order" := by decide
    have hnano : text "open limit order" = text "open " ++ text "limit order" := by decide
    unfold orderIntent OrderParts.word
    split
    · rw [hwallet, hnano, ← List.append_assoc]
    · rfl
  have hword := p.word_length
  have hticker : m.assetTicker.chars.length ≤ 48 := m.assetTicker.fits
  have hopen : (text "Open ").length = 5 ∧ (text "open ").length = 5 ∧ (text " ").length = 1 := by
    decide
  rw [h.intent, hintent, Sdk.intent]
  refine (snprintf_of_fits ?_).trans rfl
  split
  · simp only [List.length_append, hopen, intentStringLength]
    omega
  · simp only [List.length_append, hopen, intentStringLength]
    omega

/-- The two wordings begin with different letters. -/
theorem OrderReview.intentNames_iff {sdk : Sdk} {ctx : HlContext} {m : ActionMetadata}
    {screen : UiCtx} {p : OrderParts}
    (h : OrderReview sdk ctx (uiHeader m).pairs m screen p) (side : Bytes) :
    IntentNames screen m side ↔ p.word = side := by
  have hopen : text "Open " = 79 :: text "pen " := by decide
  have hnano : text "open " = 111 :: text "pen " := by decide
  unfold IntentNames
  rw [h.intent_chars]
  cases sdk.screenSizeWallet
  · simp [hopen, hnano]
  · simp [hopen, hnano]

/-- The review of an order always says that it opens a position. -/
theorem OrderReview.showsOpen {sdk : Sdk} {ctx : HlContext} {m : ActionMetadata}
    {screen : UiCtx} {p : OrderParts}
    (h : OrderReview sdk ctx (uiHeader m).pairs m screen p) : ShowsOpen screen := by
  unfold ShowsOpen
  rw [h.intent_chars]
  cases sdk.screenSizeWallet
  · right
    exact List.prefix_append (text "open ") p.word
  · left
    rw [if_pos rfl, List.append_assoc, List.append_assoc]
    exact List.prefix_append (text "Open ") _

/-- Label and intent name one side: that of the position a reduce-only order would close. -/
theorem OrderReview.calls {sdk : Sdk} {ctx : HlContext} {m : ActionMetadata}
    {screen : UiCtx} {p : OrderParts}
    (h : OrderReview sdk ctx (uiHeader m).pairs m screen p) :
    Calls screen m p.parent (p.parent.isBuy != p.parent.reduceOnly) where
  label long := (h.showsSide_iff long).trans eq_comm
  intent long := (h.intentNames_iff _).trans (OrderParts.word_eq_iff h.accepted long)
  opens := h.showsOpen

/-- So they are true of the order if it is not reduce-only. -/
theorem Calls.truthful_iff {screen : UiCtx} {m : ActionMetadata} {o : OrderRequest}
    (h : Calls screen m o (o.isBuy != o.reduceOnly)) :
    Truthful screen m o ↔ o.reduceOnly = false := by
  constructor
  · intro ht
    exact ht.opens h.opens
  · intro hred
    have hside : ∀ long, ShowsSide screen m (if long then text "Long" else text "Short") ∨
        IntentNames screen m (if long then text "long" else text "short") → o.isBuy = long := by
      rintro long (hlabel | hintent)
      · simpa [hred] using ((h.label long).mp hlabel).symm
      · simpa [hred] using ((h.intent long).mp hintent).2.symm
    exact ⟨fun hlong => ⟨hside true hlong, hred⟩, fun hshort => ⟨hside false hshort, hred⟩,
      fun _ => hred⟩

/-- In an accepted ORDER session, what the review says of the direction is true of the parent
exactly when the parent is not reduce-only: the label, and the intent of a market order, name the
side `is_buy xor reduce_only`.  Two such sessions with one review agree on `is_buy` exactly when
they agree on `reduce_only`; so they agree on both when neither parent is reduce-only. -/
theorem openDirection_iff (sdk : Sdk) (inputs : List Input) (m : ActionMetadata)
    (screen : UiCtx) (hop : m.opType = .order) (h : Accepted sdk inputs m screen) :
    (∃ o, ParentOrder ((app sdk).state inputs).ctx o) ∧
      (∀ o, ParentOrder ((app sdk).state inputs).ctx o →
        Calls screen m o (o.isBuy != o.reduceOnly) ∧
        (Truthful screen m o ↔ o.reduceOnly = false)) ∧
      ∀ inputs' screen', Accepted sdk inputs' m screen' → screen'.pairs = screen.pairs →
        ∀ o o', ParentOrder ((app sdk).state inputs).ctx o →
          ParentOrder ((app sdk).state inputs').ctx o' →
          (o.isBuy = o'.isBuy ↔ o.reduceOnly = o'.reduceOnly) ∧
          (o.reduceOnly = false → o'.reduceOnly = false →
            o.isBuy = o'.isBuy ∧ o.reduceOnly = o'.reduceOnly) := by
  obtain ⟨p, hr, hassets⟩ := h.orderReview hop
  have hparent : ∀ o, ParentOrder ((app sdk).state inputs).ctx o ↔ o = p.parent := fun o =>
    hr.accepted.parentOrder_iff (sessionInv_state sdk inputs)
  refine ⟨⟨p.parent, (hparent _).mpr rfl⟩, fun o ho => ?_, ?_⟩
  · rw [(hparent o).mp ho]
    exact ⟨hr.calls, hr.calls.truthful_iff⟩
  · intro inputs' screen' h' hpairs o o' ho ho'
    obtain ⟨p', hr', hassets'⟩ := h'.orderReview hop
    rw [hr'.accepted.parentOrder_iff (sessionInv_state sdk inputs')] at ho'
    rw [(hparent o).mp ho, ho']
    rw [hr.pairs, hr'.pairs] at hpairs
    have hside := (sameOrder_of_pairs hr.accepted hr'.accepted hassets hassets'
      (List.append_cancel_left hpairs.symm)).parent.side
    have hagree : p.parent.isBuy = p'.parent.isBuy ↔
        p.parent.reduceOnly = p'.parent.reduceOnly := by
      constructor
      · intro hbuy
        rw [hbuy] at hside
        exact Bool.xor_right_inj.mp hside
      · intro hred
        rw [hred] at hside
        exact Bool.xor_left_inj.mp hside
    refine ⟨hagree, fun hred hred' => ?_⟩
    have hsame : p.parent.reduceOnly = p'.parent.reduceOnly := hred.trans hred'.symm
    exact ⟨hagree.mpr hsame, hsame⟩

/-- A market order, alone. -/
def marketSession (isBuy reduceOnly : Bool) : List Input :=
  Client.session (Client.ethMetadata .order)
    [Client.bulkOrderAction [Client.limitRequest isBuy reduceOnly .ioc "1973.7" "0.0072"]]

theorem marketSession_metadata (isBuy reduceOnly : Bool) :
    ((app Client.sdk).state (marketSession isBuy reduceOnly)).ctx.metadata =
      some (Client.ethMetadata .order) := by
  revert isBuy reduceOnly
  decide +kernel

theorem marketSession_accepted (isBuy reduceOnly : Bool) :
    ∃ screen, Accepted Client.sdk (marketSession isBuy reduceOnly) (Client.ethMetadata .order)
      screen := by
  refine exists_accepted (marketSession_metadata isBuy reduceOnly) ?_
  revert isBuy reduceOnly
  decide +kernel

theorem marketSession_parent (isBuy reduceOnly : Bool) :
    ParentOrder ((app Client.sdk).state (marketSession isBuy reduceOnly)).ctx
      (Client.limitRequest isBuy reduceOnly .ioc "1973.7" "0.0072") := by
  refine ⟨Client.bulkOrderAction [Client.limitRequest isBuy reduceOnly .ioc "1973.7" "0.0072"],
    ?_, rfl, List.mem_singleton_self _, rfl⟩
  revert isBuy reduceOnly
  decide +kernel

theorem openDirection_iff_marketSession :
    ∃ screen, ∀ o, ParentOrder ((app Client.sdk).state (marketSession true false)).ctx o →
      Calls screen (Client.ethMetadata .order) o (o.isBuy != o.reduceOnly) ∧
      (Truthful screen (Client.ethMetadata .order) o ↔ o.reduceOnly = false) := by
  obtain ⟨screen, h⟩ := marketSession_accepted true false
  exact ⟨screen, (openDirection_iff Client.sdk (marketSession true false) _ screen rfl h).2.1⟩

/-- A reduce-only buy closes a short position, and the review says that it opens one. -/
theorem reduceOnly_shown_as_open :
    ∃ screen, Accepted Client.sdk (marketSession true true) (Client.ethMetadata .order) screen ∧
      ∃ o, ParentOrder ((app Client.sdk).state (marketSession true true)).ctx o ∧
        ShowsSide screen (Client.ethMetadata .order) (text "Short") ∧
        IntentNames screen (Client.ethMetadata .order) (text "short") ∧ ShowsOpen screen ∧
        o.isBuy = true ∧ o.reduceOnly = true ∧
        ¬ Truthful screen (Client.ethMetadata .order) o ∧
        ∃ screen', Accepted Client.sdk (marketSession false false) (Client.ethMetadata .order)
            screen' ∧ screen' = screen ∧
          ∃ o', ParentOrder ((app Client.sdk).state (marketSession false false)).ctx o' ∧
            o'.isBuy = false ∧ o'.reduceOnly = false := by
  obtain ⟨screen, h⟩ := marketSession_accepted true true
  obtain ⟨screen', h'⟩ := marketSession_accepted false false
  have hsame : handleUi Client.sdk ((app Client.sdk).state (marketSession false false)).ctx
        (some (Client.ethMetadata .order)) =
      handleUi Client.sdk ((app Client.sdk).state (marketSession true true)).ctx
        (some (Client.ethMetadata .order)) := by decide +kernel
  have hscreen : screen' = screen :=
    Option.some_inj.mp (h'.review.symm.trans (hsame.trans h.review))
  obtain ⟨p, hr, -⟩ := h.orderReview rfl
  have hparent := marketSession_parent true true
  have hp := (hr.accepted.parentOrder_iff (sessionInv_state _ _)).mp hparent
  refine ⟨screen, h, _, hparent, ?_, ?_, hr.showsOpen, rfl, rfl, fun ht => ?_, screen', h',
    hscreen, _, marketSession_parent false false, rfl, rfl⟩
  · refine (hr.calls.label false).mpr ?_
    rw [← hp]
    rfl
  · refine (hr.calls.intent false).mpr ?_
    rw [← hp]
    exact ⟨rfl, rfl⟩
  · cases ht.opens hr.showsOpen

end Hyperliquid

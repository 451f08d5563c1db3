/-
# The price of an order that rests on the book

A limit order that is not executed at once rests on the book at its limit price, so its review
should show the price.  The review of an ORDER session does, and a MODIFY session holds no limit
order.  The review of a CLOSE session shows no price: `ui_close` takes the order for a market
order without looking at its time in force, as `ui_order` does.  So no price is hidden exactly
when the order of a CLOSE session is immediate (`restingPrice_iff`).
-/
import Hyperliquid.OrderScreen

namespace Hyperliquid

open Lib

/-! ## 1. Limit orders, and their prices -/

/-- A limit order that is stored, and will be signed. -/
def LimitOrder (ctx : HlContext) (o : OrderRequest) : Prop :=
  ∃ a ∈ ctx.actions.elems, (a.type = .bulkOrder ∨ a.type = .bulkModify) ∧ o ∈ a.orders ∧
    o.orderType = .limit

/-- The review shows this limit price. -/
def ShowsLimitPrice (screen : UiCtx) (px : CString numericStringLength) : Prop :=
  (⟨"Limit Price", px.chars ++ text " USDC"⟩ : Pair) ∈ screen.pairs

/-- Every limit order is executed at once, or its price is shown. -/
def PricesShown (ctx : HlContext) (screen : UiCtx) : Prop :=
  ∀ o, LimitOrder ctx o → o.limit.tif = .ioc ∨ ShowsLimitPrice screen o.limitPx

/-! ## 2. Where a limit order can stand -/

section

variable {sdk : Sdk} {ctx : HlContext} {m : ActionMetadata} {screen : UiCtx}

theorem Action.orders_bulkOrder {a : Action} (h : a.type = .bulkOrder) :
    a.orders = a.bulkOrder.orders.elems := by
  simp only [Action.orders, h]

theorem Action.orders_bulkModify {a : Action} (h : a.type = .bulkModify) :
    a.orders = a.bulkModify.modifies.elems.map fun r => r.order := by
  simp only [Action.orders, h]

/-- In a `MODIFY` session there is no action beside the one that is looked up. -/
theorem SessionInv.eq_of_modify (hinv : SessionInv ctx) (hmd : ctx.metadata = some m)
    (hop : m.opType = .modify) {a b : Action} (ha : a ∈ ctx.actions.elems)
    (hb : b ∈ ctx.actions.elems) : a = b := by
  have hcount := hinv.single m hmd hop
  obtain ⟨x, hx⟩ : ∃ x, ctx.actions.elems = [x] :=
    List.length_eq_one_iff.mp (Nat.le_antisymm hcount (List.length_pos_of_mem ha))
  rw [hx, List.mem_singleton] at ha hb
  rw [ha, hb]

/-- In an ORDER session it is the parent. -/
theorem OrderReview.limitOrder {p : OrderParts}
    (h : OrderReview sdk ctx (uiHeader m).pairs m screen p) (hinv : SessionInv ctx)
    (hmd : ctx.metadata = some m) (hop : m.opType = .order) {o : OrderRequest}
    (ho : LimitOrder ctx o) : o = p.parent := by
  obtain ⟨a, ha, hty | hty, hmem, hlimit⟩ := ho
  · rw [Action.orders_bulkOrder hty] at hmem
    exact (h.accepted.parentOrder_iff hinv).mp ⟨a, ha, hty, hmem, hlimit⟩
  · have hallowed := hinv.type_allowed hmd ha
    rw [hop, hty] at hallowed
    exact absurd hallowed (by decide)

/-- In a MODIFY session there is none. -/
theorem ModifyReview.no_limitOrder {p : ModifyParts} {first : OrderRequest}
    (h : ModifyReview sdk ctx (uiHeader m).pairs m screen p first) (hinv : SessionInv ctx)
    (hmd : ctx.metadata = some m) (hop : m.opType = .modify) {o : OrderRequest} :
    ¬ LimitOrder ctx o := by
  rintro ⟨a, ha, -, hmem, hlimit⟩
  cases h.accepted.stored with
  | modifies b tp sl hget hshape =>
    obtain ⟨hb, hty⟩ := ctxGetAction_some hget
    rw [hinv.eq_of_modify hmd hop ha hb, Action.orders_bulkModify hty] at hmem
    obtain ⟨r, hr, rfl⟩ := List.mem_map.mp hmem
    cases hshape.limit_of_mem hr hlimit
  | orders b tp sl hno hget hshape =>
    obtain ⟨hb, hty⟩ := ctxGetAction_some hget
    rw [hinv.eq_of_modify hmd hop ha hb, Action.orders_bulkOrder hty] at hmem
    cases hshape.limit_of_mem hmem hlimit

/-- In the sessions that hold no orders there is none. -/
theorem no_limitOrder_of_allowed (hinv : SessionInv ctx) (hmd : ctx.metadata = some m)
    (horder : .bulkOrder ∉ allowedTypes m.opType) (hmodify : .bulkModify ∉ allowedTypes m.opType)
    {o : OrderRequest} : ¬ LimitOrder ctx o := by
  rintro ⟨a, ha, hty | hty, -, -⟩
  · exact horder (hty ▸ hinv.type_allowed hmd ha)
  · exact hmodify (hty ▸ hinv.type_allowed hmd ha)

/-! ## 3. Which prices are shown -/

/-- The review of an order that rests shows its price. -/
theorem OrderReview.showsLimitPrice {p : OrderParts}
    (h : OrderReview sdk ctx (uiHeader m).pairs m screen p) :
    p.parent.limit.tif = .ioc ∨ ShowsLimitPrice screen p.parent.limitPx := by
  rcases h.accepted.tif with hioc | hgtc
  · exact .inl hioc
  · right
    unfold ShowsLimitPrice
    rw [← priceText_eq, ← mem_shownUnder, h.pairs, shownUnder_append, shown_limitPrice]
    simp [OrderParts.rests, hgtc]

/-- The review of a CLOSE session shows none. -/
theorem CloseReview.hides {a : Action} {o : OrderRequest}
    (h : CloseReview sdk ctx (uiHeader m).pairs m screen a o)
    (px : CString numericStringLength) : ¬ ShowsLimitPrice screen px := by
  unfold ShowsLimitPrice
  rw [← mem_shownUnder, h.pairs, shownUnder_append, shownUnder_uiHeader (by decide) (by decide)]
  simp

end

/-- In every accepted session, no price of a resting order is hidden, exactly when the order of
a CLOSE session is immediate. -/
theorem restingPrice_iff (sdk : Sdk) (inputs : List Input) (m : ActionMetadata)
    (screen : UiCtx) (h : Accepted sdk inputs m screen) :
    PricesShown ((app sdk).state inputs).ctx screen ↔
      (m.opType = .close →
        ∀ o, LimitOrder ((app sdk).state inputs).ctx o → o.limit.tif = .ioc) := by
  have hinv := sessionInv_state sdk inputs
  have hmd := h.metadata
  constructor
  · intro hshown hop o ho
    obtain ⟨a, c, hr⟩ := h.rendered.closeReview hop
    rcases hshown o ho with hioc | hpx
    · exact hioc
    · exact absurd hpx (hr.hides o.limitPx)
  · intro hclose o ho
    cases h.rendered with
    | order p hop hr =>
      rw [hr.limitOrder hinv hmd hop ho]
      exact hr.showsLimitPrice
    | modify p first hop hr => exact absurd ho (hr.no_limitOrder hinv hmd hop)
    | cancel a hop hr =>
      simp only [List.mem_cons, List.not_mem_nil, or_false] at hop
      refine absurd ho (no_limitOrder_of_allowed hinv hmd ?_ ?_)
      · rcases hop with hop | hop | hop | hop <;> rw [hop] <;> decide
      · rcases hop with hop | hop | hop | hop <;> rw [hop] <;> decide
    | close a c hop hr => exact .inl (hclose hop o ho)
    | updateMargin a hop hr =>
      refine absurd ho (no_limitOrder_of_allowed hinv hmd ?_ ?_)
      · rw [hop]
        decide
      · rw [hop]
        decide

/-- A reduce-only limit order in a CLOSE session. -/
def closeSession (tif : Tif) : List Input :=
  Client.session (Client.ethMetadata .close)
    [Client.bulkOrderAction [Client.limitRequest true true tif "69792" "0.00021"]]

theorem closeSession_accepted (tif : Tif) :
    ∃ screen, Accepted Client.sdk (closeSession tif) (Client.ethMetadata .close) screen := by
  refine exists_accepted ?_ ?_
  · cases tif <;> decide +kernel
  · cases tif <;> decide +kernel

theorem closeSession_limitOrder (tif : Tif) :
    LimitOrder ((app Client.sdk).state (closeSession tif)).ctx
      (Client.limitRequest true true tif "69792" "0.00021") := by
  refine ⟨Client.bulkOrderAction [Client.limitRequest true true tif "69792" "0.00021"], ?_,
    .inl rfl, List.mem_singleton_self _, rfl⟩
  cases tif <;> decide +kernel

theorem restingPrice_iff_closeSession :
    ∃ screen, PricesShown ((app Client.sdk).state (closeSession .ioc)).ctx screen ↔
      (OperationType.close = .close →
        ∀ o, LimitOrder ((app Client.sdk).state (closeSession .ioc)).ctx o →
          o.limit.tif = .ioc) := by
  obtain ⟨screen, h⟩ := closeSession_accepted .ioc
  exact ⟨screen, restingPrice_iff Client.sdk (closeSession .ioc) _ screen h⟩

/-- An order that closes a position at a limit price, whenever the price is reached, is accepted,
and no value on the screen contains the price. -/
theorem restingPrice_hidden :
    ∃ screen, Accepted Client.sdk (closeSession .gtc) (Client.ethMetadata .close) screen ∧
      ∃ o, LimitOrder ((app Client.sdk).state (closeSession .gtc)).ctx o ∧
        o.limit.tif = .gtc ∧ (∀ p ∈ screen.pairs, ¬ o.limitPx.chars <:+: p.value) ∧
        ¬ PricesShown ((app Client.sdk).state (closeSession .gtc)).ctx screen := by
  obtain ⟨screen, h⟩ := closeSession_accepted .gtc
  obtain ⟨a, c, hr⟩ := h.rendered.closeReview rfl
  have hlimit := closeSession_limitOrder .gtc
  have hall : ∀ s ∈ handleUi Client.sdk ((app Client.sdk).state (closeSession .gtc)).ctx
      (some (Client.ethMetadata .close)), ∀ p ∈ s.pairs, ¬ text "69792" <:+: p.value := by
    decide +kernel
  refine ⟨screen, h, _, hlimit, rfl, hall screen h.review, fun hshown => ?_⟩
  rcases hshown _ hlimit with hioc | hpx
  · cases hioc
  · exact hr.hides _ hpx

end Hyperliquid

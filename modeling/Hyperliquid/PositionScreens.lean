/-
# The reviews of cancellations, margins and closes are exact

The values on these screens are the ones that are signed.  A review of cancellations shows the
decimal of every order id, in order; a review of a margin update shows the absolute value of
the amount, its direction in the intent, and its side; a review of a close shows the size and
the side of the position.  For the first two nothing else of the action is free, so the review,
the metadata and the nonce determine the action (`Determined`).

Both functions of the SDK that print numbers are taken to print exact decimals.
-/
import Hyperliquid.OrderScreen

namespace Hyperliquid

open Lib Lib.Msgpack

/-! ## 1. The amount of a margin update -/

/-- The amount that is shown is the absolute value, also of the least integer. -/
theorem toNat_ntliMargin (ntli : Int64) : (ntliMargin ntli).toNat = ntli.toInt.natAbs := by
  have hint : ntli.toInt = ntli.toBitVec.toInt := rfl
  have hnat : ntli.toUInt64.toNat = ntli.toBitVec.toNat := rfl
  have hzero : (0 : Int64).toInt = 0 := rfl
  have hcond := BitVec.toInt_eq_toNat_cond ntli.toBitVec
  have hlt := ntli.toBitVec.isLt
  unfold ntliMargin
  split
  · rename_i hneg
    rw [Int64.lt_iff_toInt_lt, hzero, hint] at hneg
    rw [UInt64.toNat_neg, hnat, hint]
    split at hcond
    · omega
    · rw [hcond] at hneg ⊢
      simp only [UInt64.size]
      omega
  · rename_i hnonneg
    rw [Int64.lt_iff_toInt_lt, hzero, hint] at hnonneg
    rw [hnat, hint]
    split at hcond
    · omega
    · omega

/-- The sign and the absolute value determine the amount. -/
theorem ntli_inj {n n' : Int64} (hsign : n < 0 ↔ n' < 0)
    (habs : (ntliMargin n).toNat = (ntliMargin n').toNat) : n = n' := by
  rw [toNat_ntliMargin, toNat_ntliMargin] at habs
  have hzero : (0 : Int64).toInt = 0 := rfl
  rw [Int64.lt_iff_toInt_lt, Int64.lt_iff_toInt_lt, hzero] at hsign
  exact Int64.toInt_inj.mp (by omega)

/-! ## 2. What the reviews show -/

/-- The intent of the review begins with this word. -/
def IntentBegins (screen : UiCtx) (wallet nano : Bytes) : Prop :=
  wallet <+: screen.intent.chars ∨ nano <+: screen.intent.chars

/-- The review shows this side of the position, under this item. -/
def ShowsPosition (screen : UiCtx) (m : ActionMetadata) (item : String) (side : Bytes) : Prop :=
  (⟨item, side ++ text " - " ++ m.assetTicker.chars⟩ : Pair) ∈ screen.pairs

/-- With the same review, metadata and nonce, no other session stores another action. -/
def Determined (sdk : Sdk) (m : ActionMetadata) (screen : UiCtx) (a : Action) : Prop :=
  ∀ inputs' screen' a', Accepted sdk inputs' m screen' → screen'.pairs = screen.pairs →
    screen'.intent = screen.intent → ((app sdk).state inputs').ctx.actions.elems = [a'] →
    a'.nonce = a.nonce → a' = a

/-- The order ids on the screen are those of the signed cancels. -/
structure CancelExact (sdk : Sdk) (ctx : HlContext) (m : ActionMetadata) (screen : UiCtx)
    (a : Action) : Prop where
  only : ctx.actions.elems = [a]
  type : a.type = .bulkCancel
  count : a.bulkCancel.cancels.elems.length = if m.opType = .cancelTpSl then 2 else 1
  oids : shownUnder "Order ID" screen.pairs =
    a.bulkCancel.cancels.elems.map fun c => decimal c.oid.toNat
  determined : Determined sdk m screen a

/-- The amount, its direction and the side on the screen are those that are signed. -/
structure MarginExact (sdk : Sdk) (ctx : HlContext) (m : ActionMetadata) (screen : UiCtx)
    (a : Action) : Prop where
  only : ctx.actions.elems = [a]
  type : a.type = .updateIsolatedMargin
  remove : IntentBegins screen (text "Remove ") (text "remove ") ↔
    a.updateIsolatedMargin.ntli.toInt < 0
  amount : shownUnder "New Margin" screen.pairs =
    [fixedTrimmed 6 a.updateIsolatedMargin.ntli.toInt.natAbs ++ text " USDC"]
  long : ShowsPosition screen m "Active Position" (text "Long") ↔
    a.updateIsolatedMargin.isBuy = true
  serialized : ∃ before, Writes sdk (actionSerialize sdk a)
    (before ++ [.integer a.updateIsolatedMargin.ntli])
  decoded : ∀ rest, decodeItem (sdk.cmp.integer a.updateIsolatedMargin.ntli ++ rest) =
    some (.int a.updateIsolatedMargin.ntli.toInt, rest)
  determined : Determined sdk m screen a

/-- One reduce-only limit order is signed, and its side and size are on the screen. -/
structure CloseExact (ctx : HlContext) (m : ActionMetadata) (screen : UiCtx) (a : Action)
    (o : OrderRequest) : Prop where
  only : ctx.actions.elems = [a]
  type : a.type = .bulkOrder
  orders : a.bulkOrder.orders.elems = [o]
  isLimit : o.orderType = .limit
  reduceOnly : o.reduceOnly = true
  long : ShowsPosition screen m "Position to close" (text "Long") ↔ o.isBuy = false
  size : shownUnder "Size" screen.pairs = [o.sz.chars ++ text " " ++ m.assetTicker.chars]

section

variable {sdk : Sdk} {ctx : HlContext} {m : ActionMetadata} {screen : UiCtx}

/-- A session with one action holds the one that was fetched. -/
theorem elems_eq_singleton {t : ActionType} {a : Action}
    (htypes : ctx.actions.elems.map Action.type = [t]) (hget : ctxGetAction t ctx = some a) :
    ctx.actions.elems = [a] := by
  obtain ⟨ha, -⟩ := ctxGetAction_some hget
  obtain ⟨b, hb⟩ : ∃ b, ctx.actions.elems = [b] := by
    refine List.length_eq_one_iff.mp ?_
    simpa using congrArg List.length htypes
  rw [hb, List.mem_singleton] at ha
  rw [hb, ha]

/-- The pair of a side, among the pairs of a review. -/
theorem showsPosition_iff {item : String} {long : Bool}
    (hshown : shownUnder item screen.pairs = [positionOperation long m]) :
    ShowsPosition screen m item (text "Long") ↔ long = true := by
  unfold ShowsPosition
  rw [← mem_shownUnder, hshown, List.mem_singleton]
  have hlong : text "Long" ++ text " - " ++ m.assetTicker.chars = positionOperation true m := rfl
  rw [hlong]
  exact ⟨fun h => (positionOperation_inj h).symm, fun h => by rw [h]⟩

/-! ## 3. CANCEL, CANCEL_TP, CANCEL_SL and CANCEL_TP_SL -/

theorem CancelReview.shown_orderId {a : Action} (hprint : sdk.PrintsU64)
    (h : CancelReview sdk ctx (uiHeader m).pairs m screen a) :
    shownUnder "Order ID" screen.pairs =
      a.bulkCancel.cancels.elems.map fun c => decimal c.oid.toNat := by
  obtain ⟨operation, hpairs⟩ := h.pairs
  rw [hpairs, shownUnder_append, shownUnder_uiHeader (by decide) (by decide)]
  have hmap : ∀ cs : List CancelRequest,
      shownUnder "Order ID" (cs.map fun c => ⟨"Order ID", oidText sdk c.oid⟩) =
        cs.map fun c => decimal c.oid.toNat := by
    intro cs
    induction cs with
    | nil => rfl
    | cons c cs ih =>
      rw [List.map_cons, shownUnder_cons, ih, oidText_eq hprint]
      simp
  simp [hmap]

/-- Cancels of one asset are determined by the decimals of their ids. -/
theorem cancels_inj {asset : UInt32} : ∀ {cs ds : List CancelRequest},
    (∀ c ∈ cs, c.asset = asset) → (∀ d ∈ ds, d.asset = asset) →
    cs.map (fun c => decimal c.oid.toNat) = ds.map (fun d => decimal d.oid.toNat) → cs = ds
  | [], [], _, _, _ => rfl
  | [], _ :: _, _, _, h => by cases h
  | _ :: _, [], _, _, h => by cases h
  | c :: cs, d :: ds, hc, hd, h => by
    obtain ⟨hhead, htail⟩ := List.cons.inj h
    have hoid : c.oid = d.oid := UInt64.toNat_inj.mp (decimal_inj hhead)
    have hasset : c.asset = d.asset := by rw [hc c (by simp), hd d (by simp)]
    have hcd : c = d := by
      cases c
      cases d
      cases hoid
      cases hasset
      rfl
    rw [hcd, cancels_inj (fun x hx => hc x (by simp [hx])) (fun x hx => hd x (by simp [hx])) htail]

/-- The types of the actions of an accepted session. -/
theorem Accepted.types_cancel {inputs : List Input} (h : Accepted sdk inputs m screen)
    (hop : m.opType ∈ [.cancel, .cancelTp, .cancelSl, .cancelTpSl]) :
    ((app sdk).state inputs).ctx.actions.elems.map Action.type = [.bulkCancel] := by
  have hlist := (sessionInv_state sdk inputs).actionList h.metadata h.rendered
  simp only [List.mem_cons, List.not_mem_nil, or_false] at hop
  rcases hop with hop | hop | hop | hop <;> rw [hop] at hlist <;> exact hlist

/-- The assets of the cancels. -/
theorem SessionInv.cancel_asset (hinv : SessionInv ctx) (hmd : ctx.metadata = some m)
    {a : Action} (ha : a ∈ ctx.actions.elems) (hty : a.type = .bulkCancel) :
    ∀ c ∈ a.bulkCancel.cancels.elems, c.asset = m.assetId := by
  intro c hc
  refine hinv.asset_eq hmd ha ?_
  simp only [Action.assets, hty]
  exact List.mem_map_of_mem hc

theorem Accepted.cancelExact {inputs : List Input} (hprint : sdk.PrintsU64)
    (h : Accepted sdk inputs m screen)
    (hop : m.opType ∈ [.cancel, .cancelTp, .cancelSl, .cancelTpSl]) :
    ∃ a, CancelExact sdk ((app sdk).state inputs).ctx m screen a := by
  have hinv := sessionInv_state sdk inputs
  obtain ⟨a, hr⟩ := h.rendered.cancelReview hop
  have honly := elems_eq_singleton (h.types_cancel hop) hr.fetched
  obtain ⟨ha, hty⟩ := ctxGetAction_some hr.fetched
  refine ⟨a, honly, hty, hr.count, hr.shown_orderId hprint, ?_⟩
  intro inputs' screen' a' h' hpairs hintent honly' hnonce
  have hinv' := sessionInv_state sdk inputs'
  obtain ⟨b, hr'⟩ := h'.rendered.cancelReview hop
  obtain ⟨hb, hbty⟩ := ctxGetAction_some hr'.fetched
  obtain rfl : b = a' := by
    rw [honly', List.mem_singleton] at hb
    exact hb
  have hoids : b.bulkCancel.cancels.elems.map (fun c => decimal c.oid.toNat) =
      a.bulkCancel.cancels.elems.map fun c => decimal c.oid.toNat := by
    rw [← hr'.shown_orderId hprint, ← hr.shown_orderId hprint, hpairs]
  have hcancels := cancels_inj (hinv'.cancel_asset h'.metadata hb hbty)
    (hinv.cancel_asset h.metadata ha hty) hoids
  have hbulk : b.bulkCancel = a.bulkCancel := by
    cases hB : b.bulkCancel
    cases hA : a.bulkCancel
    rw [hB, hA] at hcancels
    simp only [BulkCancel.mk.injEq]
    exact Bounded.ext hcancels
  refine Action.ext_union (by rw [hty, hbty]) hnonce ?_
  rw [(hinv'.wellFormed b hb).arm.union_eq, (hinv.wellFormed a ha).arm.union_eq, hbty, hty, hbulk]

/-! ## 4. UPDATE_MARGIN -/

theorem MarginReview.shown_newMargin {a : Action} (hprint : sdk.PrintsFpu64WithRoom)
    (h : MarginReview sdk ctx (uiHeader m).pairs m screen a) :
    shownUnder "New Margin" screen.pairs =
      [fixedTrimmed 6 a.updateIsolatedMargin.ntli.toInt.natAbs ++ text " USDC"] := by
  rw [h.pairs, shownUnder_append, shownUnder_uiHeader (by decide) (by decide)]
  simp [marginText_eq hprint, toNat_ntliMargin]

theorem MarginReview.shown_activePosition {a : Action}
    (h : MarginReview sdk ctx (uiHeader m).pairs m screen a) :
    shownUnder "Active Position" screen.pairs =
      [positionOperation a.updateIsolatedMargin.isBuy m] := by
  rw [h.pairs, shownUnder_append, shownUnder_uiHeader (by decide) (by decide)]
  simp

/-- Two words that differ in their first characters are not both prefixes. -/
theorem not_prefix_of_head {s t l : Bytes} (hs : s ≠ []) (ht : t ≠ [])
    (hne : s.head? ≠ t.head?) (h : s <+: l) : ¬ t <+: l := by
  intro h'
  obtain ⟨r, rfl⟩ := h
  obtain ⟨r', hr'⟩ := h'
  cases s with
  | nil => exact hs rfl
  | cons x s =>
    cases t with
    | nil => exact ht rfl
    | cons y t =>
      simp only [List.cons_append, List.cons.injEq] at hr'
      exact hne (by rw [List.head?_cons, List.head?_cons, hr'.1])

/-- The first word of the intent is the direction of the amount. -/
theorem MarginReview.remove_iff {a : Action}
    (h : MarginReview sdk ctx (uiHeader m).pairs m screen a) :
    IntentBegins screen (text "Remove ") (text "remove ") ↔
      a.updateIsolatedMargin.ntli < 0 := by
  have hbegins : ∀ {s : Bytes}, s.length ≤ intentStringLength → ∀ rest,
      s <+: (snprintf intentStringLength (s ++ rest)).chars := fun hs _ => prefix_snprintf hs
  unfold IntentBegins
  rw [h.intent]
  unfold marginIntent Sdk.intent
  by_cases hneg : a.updateIsolatedMargin.ntli < 0
  · simp only [hneg, if_true, iff_true, List.append_assoc]
    cases sdk.screenSizeWallet
    · exact .inr (hbegins (s := text "remove ") (by decide) _)
    · exact .inl (hbegins (s := text "Remove ") (by decide) _)
  · -- the other word begins with another character
    simp only [hneg, if_false, iff_false, not_or, List.append_assoc]
    cases sdk.screenSizeWallet
    · have hadd := hbegins (s := text "add") (by decide)
      exact ⟨not_prefix_of_head (by decide) (by decide) (by decide) (hadd _),
        not_prefix_of_head (by decide) (by decide) (by decide) (hadd _)⟩
    · have hadd := hbegins (s := text "Add") (by decide)
      exact ⟨not_prefix_of_head (by decide) (by decide) (by decide) (hadd _),
        not_prefix_of_head (by decide) (by decide) (by decide) (hadd _)⟩

theorem Accepted.types_margin {inputs : List Input} (h : Accepted sdk inputs m screen)
    (hop : m.opType = .updateMargin) :
    ((app sdk).state inputs).ctx.actions.elems.map Action.type = [.updateIsolatedMargin] := by
  have hlist := (sessionInv_state sdk inputs).actionList h.metadata h.rendered
  rw [hop] at hlist
  exact hlist

/-- The asset of the update. -/
theorem SessionInv.margin_asset (hinv : SessionInv ctx) (hmd : ctx.metadata = some m)
    {a : Action} (ha : a ∈ ctx.actions.elems) (hty : a.type = .updateIsolatedMargin) :
    a.updateIsolatedMargin.asset = m.assetId := by
  refine hinv.asset_eq hmd ha ?_
  simp [Action.assets, hty]

theorem Accepted.marginExact {inputs : List Input} (hprint : sdk.PrintsFpu64WithRoom)
    (hcmp : sdk.cmp.Standard) (h : Accepted sdk inputs m screen)
    (hop : m.opType = .updateMargin) :
    ∃ a, MarginExact sdk ((app sdk).state inputs).ctx m screen a := by
  have hinv := sessionInv_state sdk inputs
  obtain ⟨a, hr⟩ := h.rendered.marginReview hop
  have honly := elems_eq_singleton (h.types_margin hop) hr.fetched
  obtain ⟨ha, hty⟩ := ctxGetAction_some hr.fetched
  have hsign : ∀ n : Int64, n < 0 ↔ n.toInt < 0 := fun n => Int64.lt_iff_toInt_lt
  refine ⟨a, honly, hty, by rw [← hsign]; exact hr.remove_iff, hr.shown_newMargin hprint,
    showsPosition_iff hr.shown_activePosition, ?_, ?_, ?_⟩
  · have htokens : a.tokens = a.updateIsolatedMargin.tokens.dropLast ++
        [.integer a.updateIsolatedMargin.ntli] := by
      simp only [Action.tokens, hty]
      rfl
    exact ⟨_, htokens ▸ actionSerialize_writes sdk a⟩
  · exact fun rest => hcmp (.integer a.updateIsolatedMargin.ntli) rest trivial
  · intro inputs' screen' a' h' hpairs hintent honly' hnonce
    have hinv' := sessionInv_state sdk inputs'
    obtain ⟨b, hr'⟩ := h'.rendered.marginReview hop
    obtain ⟨hb, hbty⟩ := ctxGetAction_some hr'.fetched
    obtain rfl : b = a' := by
      rw [honly', List.mem_singleton] at hb
      exact hb
    have hbuy : b.updateIsolatedMargin.isBuy = a.updateIsolatedMargin.isBuy := by
      have hposition := hr'.shown_activePosition
      rw [hpairs, hr.shown_activePosition, List.singleton_inj] at hposition
      exact (positionOperation_inj hposition).symm
    have hntli : b.updateIsolatedMargin.ntli = a.updateIsolatedMargin.ntli := by
      have hamount := hr'.shown_newMargin hprint
      rw [hpairs, hr.shown_newMargin hprint, List.singleton_inj] at hamount
      have habs := fixedTrimmed_inj (List.append_cancel_right hamount)
      refine ntli_inj ?_ (by rw [toNat_ntliMargin, toNat_ntliMargin, habs])
      rw [← hr'.remove_iff, ← hr.remove_iff]
      unfold IntentBegins
      rw [hintent]
    have hasset : b.updateIsolatedMargin.asset = a.updateIsolatedMargin.asset := by
      rw [hinv'.margin_asset h'.metadata hb hbty, hinv.margin_asset h.metadata ha hty]
    have hmargin : b.updateIsolatedMargin = a.updateIsolatedMargin := by
      cases hB : b.updateIsolatedMargin
      cases hA : a.updateIsolatedMargin
      rw [hB, hA] at hbuy hntli hasset
      cases hbuy
      cases hntli
      cases hasset
      rfl
    refine Action.ext_union (by rw [hty, hbty]) hnonce ?_
    rw [(hinv'.wellFormed b hb).arm.union_eq, (hinv.wellFormed a ha).arm.union_eq, hbty, hty,
      hmargin]

/-! ## 5. CLOSE -/

theorem Accepted.closeExact {inputs : List Input} (h : Accepted sdk inputs m screen)
    (hop : m.opType = .close) :
    ∃ a o, CloseExact ((app sdk).state inputs).ctx m screen a o := by
  obtain ⟨a, o, hr⟩ := h.rendered.closeReview hop
  have htypes : ((app sdk).state inputs).ctx.actions.elems.map Action.type = [.bulkOrder] := by
    have hlist := (sessionInv_state sdk inputs).actionList h.metadata h.rendered
    rw [hop] at hlist
    exact hlist
  have hposition : shownUnder "Position to close" screen.pairs =
      [positionOperation (!o.isBuy) m] := by
    rw [hr.pairs, shownUnder_append, shownUnder_uiHeader (by decide) (by decide)]
    simp
  have hsize : shownUnder "Size" screen.pairs =
      [o.sz.chars ++ text " " ++ m.assetTicker.chars] := by
    rw [hr.pairs, shownUnder_append, shownUnder_uiHeader (by decide) (by decide)]
    simp [sizeText_eq]
  refine ⟨a, o, elems_eq_singleton htypes hr.fetched, (ctxGetAction_some hr.fetched).2, hr.orders,
    hr.isLimit, hr.reduceOnly, ?_, hsize⟩
  rw [showsPosition_iff hposition]
  simp

end

/-! ## 6. All three -/

/-- In every accepted session of these operations, the review is exact. -/
theorem position_screens_exact (sdk : Sdk) (hu64 : sdk.PrintsU64)
    (hfpu64 : sdk.PrintsFpu64WithRoom) (hcmp : sdk.cmp.Standard) (inputs : List Input)
    (m : ActionMetadata) (screen : UiCtx) (h : Accepted sdk inputs m screen) :
    (m.opType ∈ [.cancel, .cancelTp, .cancelSl, .cancelTpSl] →
      ∃ a, CancelExact sdk ((app sdk).state inputs).ctx m screen a) ∧
    (m.opType = .updateMargin →
      ∃ a, MarginExact sdk ((app sdk).state inputs).ctx m screen a) ∧
    (m.opType = .close →
      ∃ a o, CloseExact ((app sdk).state inputs).ctx m screen a o) :=
  ⟨h.cancelExact hu64, h.marginExact hfpu64 hcmp, h.closeExact⟩

/-- Two triggers are cancelled. -/
def cancelSession : List Input :=
  Client.session (Client.ethMetadata .cancelTpSl) [Client.bulkCancelAction [333, 2 ^ 64 - 1]]

/-- The greatest amount is removed. -/
def removeMarginSession : List Input :=
  Client.session (Client.ethMetadata .updateMargin)
    [Client.updateIsolatedMarginAction true (-9223372036854775808)]

/-- A short position is closed. -/
def closeShortSession : List Input :=
  Client.session (Client.ethMetadata .close)
    [Client.bulkOrderAction [Client.limitRequest true true .ioc "69792" "0.00021"]]

theorem position_screens_exact_sessions :
    (∃ screen a, CancelExact Client.sdk ((app Client.sdk).state cancelSession).ctx
      (Client.ethMetadata .cancelTpSl) screen a) ∧
    (∃ screen a, MarginExact Client.sdk ((app Client.sdk).state removeMarginSession).ctx
      (Client.ethMetadata .updateMargin) screen a) ∧
    (∃ screen a o, CloseExact ((app Client.sdk).state closeShortSession).ctx
      (Client.ethMetadata .close) screen a o) := by
  have hexact := position_screens_exact Client.sdk Client.sdk_printsU64
    Client.sdk_printsFpu64WithRoom shortest_standard
  refine ⟨?_, ?_, ?_⟩
  · have haccepted : ∃ screen, Accepted Client.sdk cancelSession
        (Client.ethMetadata .cancelTpSl) screen :=
      exists_accepted (by decide +kernel) (by decide +kernel)
    obtain ⟨screen, h⟩ := haccepted
    obtain ⟨a, ha⟩ := (hexact cancelSession _ screen h).1 (by decide)
    exact ⟨screen, a, ha⟩
  · have haccepted : ∃ screen, Accepted Client.sdk removeMarginSession
        (Client.ethMetadata .updateMargin) screen :=
      exists_accepted (by decide +kernel) (by decide +kernel)
    obtain ⟨screen, h⟩ := haccepted
    obtain ⟨a, ha⟩ := (hexact removeMarginSession _ screen h).2.1 rfl
    exact ⟨screen, a, ha⟩
  · have haccepted : ∃ screen, Accepted Client.sdk closeShortSession
        (Client.ethMetadata .close) screen :=
      exists_accepted (by decide +kernel) (by decide +kernel)
    obtain ⟨screen, h⟩ := haccepted
    obtain ⟨a, o, ha⟩ := (hexact closeShortSession _ screen h).2.2 rfl
    exact ⟨screen, a, o, ha⟩

end Hyperliquid

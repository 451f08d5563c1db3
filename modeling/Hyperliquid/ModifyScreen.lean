/-
# What a MODIFY review tells about the orders that are signed

One screen serves two kinds of action: a `BULK_MODIFY` that replaces the triggers of a position,
and a `BULK_ORDER` that sets them.  The items tell the kind, and one side and one size are shown
for up to two orders.  Two MODIFY sessions with the same metadata and the same pairs still agree
on everything that the application does not leave free (`modify_screen_determines`).
-/
import Hyperliquid.OrderScreen

namespace Hyperliquid

open Lib

/-! ## 1. The pairs of a MODIFY review, item by item -/

section

variable (sdk : Sdk) (m : ActionMetadata) (p : ModifyParts) (first : OrderRequest)

theorem shown_activePosition : shownUnder "Active Position" (modifyPairs sdk m p first) =
    [orderOperation (text "Market ") first m] := by
  by_cases hk : p.kind = .bulkModify <;> simp [modifyPairs, hk]

theorem shown_modifySize : shownUnder "Size" (modifyPairs sdk m p first) =
    [sizeText first.sz m.assetTicker] := by
  by_cases hk : p.kind = .bulkModify <;> simp [modifyPairs, hk]

theorem shown_tpOrderId : shownUnder "TP Order ID" (modifyPairs sdk m p first) =
    (p.tpOid.map (oidText sdk)).toList := by
  by_cases hk : p.kind = .bulkModify <;> simp [modifyPairs, hk]

theorem shown_slOrderId : shownUnder "SL Order ID" (modifyPairs sdk m p first) =
    (p.slOid.map (oidText sdk)).toList := by
  by_cases hk : p.kind = .bulkModify <;> simp [modifyPairs, hk]

/-- The items of the triggers are those of the kind. -/
theorem shown_triggers_modify (hk : p.kind = .bulkModify) :
    shownUnder "New Take Profit" (modifyPairs sdk m p first) =
        (p.tp.map fun o => priceText o.trigger.triggerPx).toList ∧
      shownUnder "New Stop Loss" (modifyPairs sdk m p first) =
        (p.sl.map fun o => priceText o.trigger.triggerPx).toList ∧
      shownUnder "Take Profit" (modifyPairs sdk m p first) = [] ∧
      shownUnder "Stop Loss" (modifyPairs sdk m p first) = [] := by
  refine ⟨?_, ?_, ?_, ?_⟩ <;> simp [modifyPairs, hk]

theorem shown_triggers_order (hk : p.kind = .bulkOrder) :
    shownUnder "Take Profit" (modifyPairs sdk m p first) =
        (p.tp.map fun o => priceText o.trigger.triggerPx).toList ∧
      shownUnder "Stop Loss" (modifyPairs sdk m p first) =
        (p.sl.map fun o => priceText o.trigger.triggerPx).toList := by
  refine ⟨?_, ?_⟩ <;> simp [modifyPairs, hk]

end

/-! ## 2. The screen determines the orders -/

/-- Two market triggers that close, and agree. -/
structure SameClosing (o o' : OrderRequest) : Prop where
  same : SameTrigger o o'
  reduceOnly : o.reduceOnly = true
  isMarket : o.trigger.isMarket = true

structure SameModify (p p' : ModifyParts) : Prop where
  kind : p.kind = p'.kind
  tp : Option.Rel SameClosing p.tp p'.tp
  sl : Option.Rel SameClosing p.sl p'.sl
  tpOid : p.tpOid = p'.tpOid
  slOid : p.slOid = p'.slOid

section

variable {ctx ctx' : HlContext} {p p' : ModifyParts} {first first' : OrderRequest}

/-- The size that is shown is the one of each trigger. -/
theorem ModifyAccepted.sz_eq (h : ModifyAccepted ctx p first) {o : OrderRequest}
    (ho : o ∈ p.tp ∨ o ∈ p.sl) : o.sz = first.sz := by
  have hfirst := h.first
  cases htp : p.tp with
  | some t =>
    rw [htp, Option.some_or, Option.some_inj] at hfirst
    rcases ho with ho | ho
    · rw [htp, Option.mem_some_iff] at ho
      rw [← ho, hfirst]
    · rw [← h.sizes t (by rw [htp]; rfl) o ho, hfirst]
  | none =>
    rw [htp, Option.none_or] at hfirst
    rcases ho with ho | ho
    · rw [htp] at ho
      cases ho
    · rw [hfirst, Option.mem_some_iff] at ho
      rw [ho]

/-- The trigger that is shown first closes. -/
theorem ModifyAccepted.first_closes (h : ModifyAccepted ctx p first) :
    checkTriggerCloseOrder first = true := by
  rcases Option.or_eq_some_iff.mp h.first with htp | ⟨-, hsl⟩
  · exact h.tpCloses first htp
  · exact h.slCloses first hsl

/-- The assets of the triggers. -/
theorem ModifyAccepted.asset_eq {m : ActionMetadata} (h : ModifyAccepted ctx p first)
    (hinv : SessionInv ctx) (hmd : ctx.metadata = some m) {o : OrderRequest}
    (ho : o ∈ p.tp ∨ o ∈ p.sl) : o.asset = m.assetId := by
  cases h.stored with
  | modifies a tp sl hget hshape =>
    obtain ⟨ha, hty⟩ := ctxGetAction_some hget
    obtain ⟨r, hr, rfl⟩ : ∃ r ∈ a.bulkModify.modifies.elems, r.order = o := by
      rcases ho with ho | ho
      · obtain ⟨r, hr, hro⟩ := Option.mem_map.mp ho
        exact ⟨r, hshape.mem_iff.mpr (.inr (.inl hr)), hro⟩
      · obtain ⟨r, hr, hro⟩ := Option.mem_map.mp ho
        exact ⟨r, hshape.mem_iff.mpr (.inr (.inr hr)), hro⟩
    refine hinv.asset_eq hmd ha ?_
    simp only [Action.assets, hty]
    exact List.mem_map_of_mem hr
  | orders a tp sl hno hget hshape =>
    obtain ⟨ha, hty⟩ := ctxGetAction_some hget
    refine hinv.asset_eq hmd ha ?_
    simp only [Action.assets, hty]
    exact List.mem_map_of_mem (hshape.mem_iff.mpr (.inr ho))

/-- Closing triggers of one size and one asset agree as soon as their prices do. -/
theorem sameClosing {o o' : OrderRequest} (h : checkTriggerCloseOrder o = true)
    (h' : checkTriggerCloseOrder o' = true) (hasset : o.asset = o'.asset) (hsz : o.sz = o'.sz)
    (hpx : priceText o.trigger.triggerPx = priceText o'.trigger.triggerPx) :
    SameClosing o o' := by
  obtain ⟨hred, hmkt, hlim⟩ := checkTriggerCloseOrder_iff.mp h
  obtain ⟨hred', hmkt', hlim'⟩ := checkTriggerCloseOrder_iff.mp h'
  have htrigger := priceText_inj hpx
  exact ⟨⟨hasset, htrigger, by rw [hlim, hlim', htrigger], hsz, by rw [hred, hred'],
    by rw [hmkt, hmkt']⟩, hred, hmkt⟩

/-- A review of triggers that a `BULK_ORDER` sets is not one of a `BULK_MODIFY`. -/
theorem kind_of_pairs {sdk : Sdk} {m : ActionMetadata} (h' : ModifyAccepted ctx' p' first')
    (hpairs : modifyPairs sdk m p first = modifyPairs sdk m p' first')
    (hk : p.kind = .bulkModify) (hk' : p'.kind = .bulkOrder) : False := by
  obtain ⟨-, -, htp, hsl⟩ := shown_triggers_modify sdk m p first hk
  obtain ⟨htp', hsl'⟩ := shown_triggers_order sdk m p' first' hk'
  rw [hpairs, htp'] at htp
  rw [hpairs, hsl'] at hsl
  have hnone : ∀ o : Option OrderRequest,
      (o.map fun o => priceText o.trigger.triggerPx).toList = [] → o = none := by
    intro o ho
    cases o with
    | none => rfl
    | some a => cases ho
  have hfirst := h'.first
  rw [hnone _ htp, hnone _ hsl] at hfirst
  cases hfirst

theorem sameModify_of_pairs {sdk : Sdk} (hprint : sdk.PrintsU64) {m : ActionMetadata}
    (h : ModifyAccepted ctx p first) (h' : ModifyAccepted ctx' p' first')
    (hassets : ∀ o, o ∈ p.tp ∨ o ∈ p.sl → o.asset = m.assetId)
    (hassets' : ∀ o, o ∈ p'.tp ∨ o ∈ p'.sl → o.asset = m.assetId)
    (hpairs : modifyPairs sdk m p first = modifyPairs sdk m p' first') :
    SameModify p p' ∧ first.isBuy = first'.isBuy := by
  have hshown : ∀ item, shownUnder item (modifyPairs sdk m p first) =
      shownUnder item (modifyPairs sdk m p' first') := fun item => by rw [hpairs]
  have hsz : first.sz = first'.sz := by
    have hs := hshown "Size"
    rw [shown_modifySize, shown_modifySize, List.singleton_inj] at hs
    exact sizeText_inj hs
  have hkind : p.kind = p'.kind := by
    rcases h.stored.kind with hk | hk <;> rcases h'.stored.kind with hk' | hk'
    · rw [hk, hk']
    · exact (kind_of_pairs h' hpairs hk hk').elim
    · exact (kind_of_pairs h hpairs.symm hk' hk).elim
    · rw [hk, hk']
  -- the prices of the triggers, under the items of the kind
  have hprices : (p.tp.map fun o => priceText o.trigger.triggerPx).toList =
        (p'.tp.map fun o => priceText o.trigger.triggerPx).toList ∧
      (p.sl.map fun o => priceText o.trigger.triggerPx).toList =
        (p'.sl.map fun o => priceText o.trigger.triggerPx).toList := by
    rcases h.stored.kind with hk | hk
    · obtain ⟨htp, hsl, -⟩ := shown_triggers_modify sdk m p first hk
      obtain ⟨htp', hsl', -⟩ := shown_triggers_modify sdk m p' first' (hkind ▸ hk)
      exact ⟨by rw [← htp, ← htp', hpairs], by rw [← hsl, ← hsl', hpairs]⟩
    · obtain ⟨htp, hsl⟩ := shown_triggers_order sdk m p first hk
      obtain ⟨htp', hsl'⟩ := shown_triggers_order sdk m p' first' (hkind ▸ hk)
      exact ⟨by rw [← htp, ← htp', hpairs], by rw [← hsl, ← hsl', hpairs]⟩
  have hoid : ∀ o o' : Option UInt64, (o.map (oidText sdk)).toList = (o'.map (oidText sdk)).toList →
      o = o' := by
    intro o o' ho
    cases rel_of_shown (R := Eq) ho fun a _ b _ => oidText_inj hprint with
    | none => rfl
    | some hab => rw [hab]
  have hclosing : ∀ o o', o ∈ p.tp ∨ o ∈ p.sl → o' ∈ p'.tp ∨ o' ∈ p'.sl →
      checkTriggerCloseOrder o = true → checkTriggerCloseOrder o' = true →
      priceText o.trigger.triggerPx = priceText o'.trigger.triggerPx → SameClosing o o' := by
    intro o o' ho ho' hc hc' hpx
    exact sameClosing hc hc' (by rw [hassets o ho, hassets' o' ho'])
      (by rw [h.sz_eq ho, h'.sz_eq ho', hsz]) hpx
  refine ⟨⟨hkind, ?_, ?_, hoid _ _ ?_, hoid _ _ ?_⟩, ?_⟩
  · exact rel_of_shown hprices.1 fun o ho o' ho' =>
      hclosing o o' (.inl ho) (.inl ho') (h.tpCloses o ho) (h'.tpCloses o' ho')
  · exact rel_of_shown hprices.2 fun o ho o' ho' =>
      hclosing o o' (.inr ho) (.inr ho') (h.slCloses o ho) (h'.slCloses o' ho')
  · rw [← shown_tpOrderId sdk m p first, ← shown_tpOrderId sdk m p' first', hpairs]
  · rw [← shown_slOrderId sdk m p first, ← shown_slOrderId sdk m p' first', hpairs]
  · have hposition := hshown "Active Position"
    rw [shown_activePosition, shown_activePosition, List.singleton_inj] at hposition
    have hside := orderOperation_inj hposition
    rw [(checkTriggerCloseOrder_iff.mp h.first_closes).1,
      (checkTriggerCloseOrder_iff.mp h'.first_closes).1] at hside
    exact Bool.xor_left_inj.mp hside

end

/-- Two MODIFY sessions with the same metadata and the same review: each holds one action, of
one kind, whose orders are the triggers and no others. -/
theorem modify_screen_determines (sdk : Sdk) (hprint : sdk.PrintsU64)
    (inputs inputs' : List Input) (m : ActionMetadata) (screen screen' : UiCtx)
    (hop : m.opType = .modify) (h : Accepted sdk inputs m screen)
    (h' : Accepted sdk inputs' m screen') (hpairs : screen.pairs = screen'.pairs) :
    ∃ p first p' first',
      ModifyAccepted ((app sdk).state inputs).ctx p first ∧
      ModifyAccepted ((app sdk).state inputs').ctx p' first' ∧
      ((app sdk).state inputs).ctx.actions.elems.map Action.type = [p.kind] ∧
      ((app sdk).state inputs').ctx.actions.elems.map Action.type = [p'.kind] ∧
      SameModify p p' ∧ first.isBuy = first'.isBuy := by
  have hinv := sessionInv_state sdk inputs
  have hinv' := sessionInv_state sdk inputs'
  obtain ⟨p, first, hr⟩ := h.rendered.modifyReview hop
  obtain ⟨p', first', hr'⟩ := h'.rendered.modifyReview hop
  rw [hr.pairs, hr'.pairs] at hpairs
  exact ⟨p, first, p', first', hr.accepted, hr'.accepted,
    hinv.modify_types h.metadata hop hr.accepted.stored,
    hinv'.modify_types h'.metadata hop hr'.accepted.stored,
    sameModify_of_pairs hprint hr.accepted hr'.accepted
      (fun _ => hr.accepted.asset_eq hinv h.metadata)
      (fun _ => hr'.accepted.asset_eq hinv' h'.metadata) (List.append_cancel_left hpairs)⟩

/-- A take profit and a stop loss are edited, in this order or the other. -/
def editSession (slFirst : Bool) : List Input :=
  let tp : ModifyRequest := ⟨49221, Client.triggerRequest false .tp "2276.3" "0.0072"⟩
  let sl : ModifyRequest := ⟨49222, Client.triggerRequest false .sl "1965.9" "0.0072"⟩
  Client.session (Client.ethMetadata .modify)
    [Client.bulkModifyAction (if slFirst then [sl, tp] else [tp, sl])]

theorem modify_screen_determines_editSession :
    ∃ p first p' first',
      ModifyAccepted ((app Client.sdk).state (editSession false)).ctx p first ∧
      ModifyAccepted ((app Client.sdk).state (editSession true)).ctx p' first' ∧
      SameModify p p' := by
  have hmd : ∀ b, ((app Client.sdk).state (editSession b)).ctx.metadata =
      some (Client.ethMetadata .modify) := by decide +kernel
  have hui : ∀ b, (handleUi Client.sdk ((app Client.sdk).state (editSession b)).ctx
      (some (Client.ethMetadata .modify))).isSome = true := by decide +kernel
  have hsame : handleUi Client.sdk ((app Client.sdk).state (editSession false)).ctx
        (some (Client.ethMetadata .modify)) =
      handleUi Client.sdk ((app Client.sdk).state (editSession true)).ctx
        (some (Client.ethMetadata .modify)) := by decide +kernel
  obtain ⟨screen, h⟩ := exists_accepted (hmd false) (hui false)
  obtain ⟨screen', h'⟩ := exists_accepted (hmd true) (hui true)
  have hscreen : screen = screen' :=
    Option.some_inj.mp (h.review.symm.trans (hsame.trans h'.review))
  obtain ⟨p, first, p', first', hp, hp', -, -, hpp', -⟩ :=
    modify_screen_determines Client.sdk Client.sdk_printsU64 (editSession false)
      (editSession true) _ screen screen' rfl h h' (by rw [hscreen])
  exact ⟨p, first, p', first', hp, hp', hpp'⟩

end Hyperliquid

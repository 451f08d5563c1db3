/-
# Which orders an ORDER or a MODIFY review accepts

`ui_order` and `ui_modify` decide by lookups and counts over the list as it was received.  What
they accept can be said without either: one parent order and at most one trigger of each kind
that closes it, in any order (`TpSlOrders`), or such triggers alone (`TpSlRequests`), and no
other order beside them.

A list has one such reading, and the lookups find it (`OrderShape.find`); so acceptance is
exactly the existence of a reading whose triggers match (`tpsl_acceptance`).
-/
import Hyperliquid.Ui.Screens

namespace Hyperliquid

open Lib

/-! ## 1. The lookups find what is there -/

namespace OrderShape

variable {α : Type} {f : α → OrderRequest} {orders : List α} {limit tp sl : Option α}

/-- The matches of a predicate that holds of one part and of no other. -/
theorem filter_eq (h : OrderShape f orders limit tp sl) {p : α → Bool} {part : Option α}
    (hpart : (limit.toList ++ tp.toList ++ sl.toList).filter p = part.toList) :
    orders.filter p = part.toList := by
  have hperm := h.perm.filter p
  rw [hpart] at hperm
  cases part with
  | none => exact List.perm_nil.mp hperm
  | some x => exact List.perm_singleton.mp hperm

theorem filter_toList {p : α → Bool} {o : Option α} (h : ∀ x ∈ o, p x = true) :
    o.toList.filter p = o.toList := by
  refine List.filter_eq_self.mpr fun x hx => h x ?_
  simpa using hx

theorem filter_toList_nil {p : α → Bool} {o : Option α} (h : ∀ x ∈ o, p x = false) :
    o.toList.filter p = [] := by
  refine List.filter_eq_nil_iff.mpr fun x hx => ?_
  rw [h x (by simpa using hx)]
  exact Bool.false_ne_true

/-- The three kinds exclude each other. -/
theorem filters (h : OrderShape f orders limit tp sl) :
    orders.filter (fun x => getLimitRequest (f x)) = limit.toList ∧
      orders.filter (fun x => getTriggerTp (f x)) = tp.toList ∧
      orders.filter (fun x => getTriggerSl (f x)) = sl.toList := by
  have hlimit : ∀ x ∈ limit, (f x).orderType = .limit := fun x hx =>
    getLimitRequest_iff.mp (h.isLimit x hx)
  have htp : ∀ x ∈ tp, (f x).orderType = .trigger ∧ (f x).trigger.tpsl = .tp := fun x hx =>
    getTriggerTp_iff.mp (h.isTp x hx)
  have hsl : ∀ x ∈ sl, (f x).orderType = .trigger ∧ (f x).trigger.tpsl = .sl := fun x hx =>
    getTriggerSl_iff.mp (h.isSl x hx)
  refine ⟨h.filter_eq ?_, h.filter_eq ?_, h.filter_eq ?_⟩
  · rw [List.filter_append, List.filter_append, filter_toList h.isLimit,
      filter_toList_nil (o := tp), filter_toList_nil (o := sl)]
    · simp
    · intro x hx
      simp [getLimitRequest, hsl x hx]
    · intro x hx
      simp [getLimitRequest, htp x hx]
  · rw [List.filter_append, List.filter_append, filter_toList h.isTp,
      filter_toList_nil (o := limit), filter_toList_nil (o := sl)]
    · simp
    · intro x hx
      simp [getTriggerTp, hsl x hx]
    · intro x hx
      simp [getTriggerTp, hlimit x hx]
  · rw [List.filter_append, List.filter_append, filter_toList h.isSl,
      filter_toList_nil (o := limit), filter_toList_nil (o := tp)]
    · simp
    · intro x hx
      simp [getTriggerSl, htp x hx]
    · intro x hx
      simp [getTriggerSl, hlimit x hx]

/-- Each lookup finds its part. -/
theorem find (h : OrderShape f orders limit tp sl) :
    orders.find? (fun x => getLimitRequest (f x)) = limit ∧
      orders.find? (fun x => getTriggerTp (f x)) = tp ∧
      orders.find? (fun x => getTriggerSl (f x)) = sl := by
  obtain ⟨hlimit, htp, hsl⟩ := h.filters
  rw [← List.head?_filter, ← List.head?_filter, ← List.head?_filter, hlimit, htp, hsl]
  exact ⟨Option.head?_toList, Option.head?_toList, Option.head?_toList⟩

/-- Each count is that of its part, and nothing else is there. -/
theorem count (h : OrderShape f orders limit tp sl) :
    orders.countP (fun x => getLimitRequest (f x)) = limit.isSome.toNat ∧
      orders.countP (fun x => getTriggerTp (f x)) = tp.isSome.toNat ∧
      orders.countP (fun x => getTriggerSl (f x)) = sl.isSome.toNat ∧
      orders.length = limit.isSome.toNat + tp.isSome.toNat + sl.isSome.toNat := by
  have hone : ∀ o : Option α, o.toList.length = o.isSome.toNat := by
    intro o
    cases o <;> rfl
  obtain ⟨hlimit, htp, hsl⟩ := h.filters
  have hlength := h.perm.length_eq
  rw [List.length_append, List.length_append, hone, hone, hone] at hlength
  rw [List.countP_eq_length_filter, List.countP_eq_length_filter, List.countP_eq_length_filter,
    hlimit, htp, hsl]
  exact ⟨hone limit, hone tp, hone sl, hlength⟩

end OrderShape

/-! ## 2. What the two functions accept -/

variable {sdk : Sdk} {ctx : HlContext} {uiCtx : UiCtx} {metadata : ActionMetadata}

/-- Isolated leverage does not stop the review. -/
theorem uiMarketOrder_isSome {limit : OrderRequest} {leverage : Option UpdateLeverage}
    {tp sl : Option OrderRequest} (h : ¬ (leverage.any fun u => u.isCross) = true) :
    (uiMarketOrder sdk uiCtx metadata limit leverage tp sl).isSome = true := by
  unfold uiMarketOrder uiOrderCommon
  simp only [if_neg h]
  rfl

theorem uiLimitOrder_isSome {limit : OrderRequest} {leverage : Option UpdateLeverage}
    {tp sl : Option OrderRequest} (h : ¬ (leverage.any fun u => u.isCross) = true) :
    (uiLimitOrder sdk uiCtx metadata limit leverage tp sl).isSome = true := by
  unfold uiLimitOrder uiOrderCommon
  simp only [if_neg h]
  rfl

/-- At most one of a thing. -/
theorem isSome_toNat_le {α : Type} (o : Option α) : o.isSome.toNat ≤ 1 := Bool.toNat_le _

/-- `ui_order` accepts whatever has the parts of an ORDER review. -/
theorem uiOrder_isSome_iff :
    (uiOrder sdk ctx uiCtx metadata).isSome = true ↔ ∃ p, OrderAccepted ctx p := by
  constructor
  · intro h
    obtain ⟨screen, hs⟩ := Option.isSome_iff_exists.mp h
    obtain ⟨p, hr⟩ := uiOrder_some hs
    exact ⟨p, hr.accepted⟩
  · rintro ⟨p, hp⟩
    obtain ⟨a, ha, hshape⟩ := hp.orders
    obtain ⟨hlimit, htp, hsl⟩ := hshape.find
    obtain ⟨nlimit, ntp, nsl, hlen⟩ := hshape.count
    have hcount : ¬ ((some p.parent).isSome.toNat != 1 ||
        decide (p.tp.isSome.toNat > 1) || decide (p.sl.isSome.toNat > 1) ||
        (some p.parent).isSome.toNat + p.tp.isSome.toNat + p.sl.isSome.toNat !=
          1 + p.tp.isSome.toNat + p.sl.isSome.toNat) = true := by
      simp [isSome_toNat_le]
    have hmatch : ¬ ((p.tp.any fun o => !checkTriggerMatchesLimit o p.parent) ||
        p.sl.any fun o => !checkTriggerMatchesLimit o p.parent) = true := by
      rw [Bool.or_eq_true, Option.any_eq_true, Option.any_eq_true]
      rintro (⟨o, ho, hno⟩ | ⟨o, ho, hno⟩)
      · rw [hp.tpMatches o ho] at hno
        cases hno
      · rw [hp.slMatches o ho] at hno
        cases hno
    have hisolated : ¬ (((ctxGetAction .updateLeverage ctx).map fun a => a.updateLeverage).any
        fun u => u.isCross) = true := by
      rw [hp.leverage, Option.any_eq_true]
      rintro ⟨u, hu, hcross⟩
      rw [hp.isolated u hu] at hcross
      cases hcross
    simp only [id] at hlimit htp hsl nlimit ntp nsl
    unfold uiOrder
    simp only [ha, getOrderRequest, countOrderRequests, hlimit, htp, hsl, nlimit, ntp, nsl, hlen]
    rw [if_neg hcount, if_neg hmatch]
    rcases hp.tif with htif | htif
    · rw [htif]
      exact uiMarketOrder_isSome hisolated
    · rw [htif]
      exact uiLimitOrder_isSome hisolated

/-- Triggers that close, with one size, are shown. -/
theorem uiModifyTriggers_isSome {kind : ActionType} {tp sl : Option OrderRequest}
    {tpOid slOid : Option UInt64} {first : OrderRequest} (hfirst : tp.or sl = some first)
    (htp : ∀ o ∈ tp, checkTriggerCloseOrder o = true)
    (hsl : ∀ o ∈ sl, checkTriggerCloseOrder o = true)
    (hsizes : ∀ t ∈ tp, ∀ s ∈ sl, t.sz = s.sz) :
    (uiModifyTriggers sdk uiCtx metadata kind tp sl tpOid slOid).isSome = true := by
  have hchecks : ¬ ((tp.any fun o => !checkTriggerCloseOrder o) ||
      (sl.any fun o => !checkTriggerCloseOrder o) ||
      tp.any fun t => sl.any fun s => t.sz != s.sz) = true := by
    rw [Bool.or_eq_true, Bool.or_eq_true, Option.any_eq_true, Option.any_eq_true,
      Option.any_eq_true]
    rintro ((⟨o, ho, hno⟩ | ⟨o, ho, hno⟩) | ⟨t, ht, hno⟩)
    · rw [htp o ho] at hno
      cases hno
    · rw [hsl o ho] at hno
      cases hno
    · obtain ⟨s, hs, hne⟩ := (Option.any_eq_true _ _).mp hno
      rw [hsizes t ht s hs] at hne
      simp at hne
  unfold uiModifyTriggers
  simp only [hfirst]
  rw [if_neg hchecks]
  rfl

/-- `ui_modify` accepts whatever has the parts of a MODIFY review. -/
theorem uiModify_isSome_iff :
    (uiModify sdk ctx uiCtx metadata).isSome = true ↔ ∃ p first, ModifyAccepted ctx p first := by
  constructor
  · intro h
    obtain ⟨screen, hs⟩ := Option.isSome_iff_exists.mp h
    obtain ⟨p, first, hr⟩ := uiModify_some hs
    exact ⟨p, first, hr.accepted⟩
  · rintro ⟨p, first, hstored, hfirst, htpc, hslc, hsizes⟩
    unfold uiModify
    cases hstored with
    | modifies a tp sl hget hshape =>
      obtain ⟨-, htp, hsl⟩ := hshape.find
      obtain ⟨-, ntp, nsl, hlen⟩ := hshape.count
      have hty := (ctxGetAction_some hget).2
      have htp' : getModifyRequest a.bulkModify.modifies.elems getModifyTp = tp := htp
      have hsl' : getModifyRequest a.bulkModify.modifies.elems getModifySl = sl := hsl
      have ntp' : countModifyRequests a.bulkModify.modifies.elems getModifyTp = _ := ntp
      have nsl' : countModifyRequests a.bulkModify.modifies.elems getModifySl = _ := nsl
      have hcount : ¬ (decide (tp.isSome.toNat > 1) || decide (sl.isSome.toNat > 1) ||
          (none : Option ModifyRequest).isSome.toNat + tp.isSome.toNat + sl.isSome.toNat !=
            tp.isSome.toNat + sl.isSome.toNat) = true := by
        simp [isSome_toNat_le]
      simp only [hget, Option.some_or, hty, htp', hsl', ntp', nsl', hlen]
      rw [if_neg hcount]
      exact uiModifyTriggers_isSome hfirst htpc hslc hsizes
    | orders a tp sl hno hget hshape =>
      obtain ⟨-, htp, hsl⟩ := hshape.find
      obtain ⟨nlimit, ntp, nsl, hlen⟩ := hshape.count
      have hty := (ctxGetAction_some hget).2
      have hcount : ¬ ((none : Option OrderRequest).isSome.toNat != 0 ||
          decide (tp.isSome.toNat > 1) || decide (sl.isSome.toNat > 1) ||
          (none : Option OrderRequest).isSome.toNat + tp.isSome.toNat + sl.isSome.toNat !=
            tp.isSome.toNat + sl.isSome.toNat) = true := by
        simp [isSome_toNat_le]
      simp only [id] at htp hsl nlimit ntp nsl
      simp only [hno, hget, Option.none_or, hty, getOrderRequest, countOrderRequests, htp, hsl,
        nlimit, ntp, nsl, hlen]
      rw [if_neg hcount]
      exact uiModifyTriggers_isSome hfirst htpc hslc hsizes

/-! ## 3. The accepted lists, without lookups -/

/-- A trigger order that can only close a position, at the market. -/
structure ClosingTrigger (o : OrderRequest) : Prop where
  isTrigger : o.orderType = .trigger
  reduceOnly : o.reduceOnly = true
  isMarket : o.trigger.isMarket = true
  price : o.limitPx = o.trigger.triggerPx

/-- At most one take profit and at most one stop loss. -/
structure OnePerKind (triggers : List OrderRequest) : Prop where
  tp : triggers.countP (fun t => t.trigger.tpsl == .tp) ≤ 1
  sl : triggers.countP (fun t => t.trigger.tpsl == .sl) ≤ 1

/-- A parent order and its triggers, in any arrangement, and nothing else. -/
def TpSlOrders (orders : List OrderRequest) : Prop :=
  ∃ parent triggers, orders.Perm (parent :: triggers) ∧ parent.orderType = .limit ∧
    (parent.limit.tif = .ioc ∨ parent.limit.tif = .gtc) ∧ OnePerKind triggers ∧
    ∀ t ∈ triggers, ClosingTrigger t ∧ t.isBuy ≠ parent.isBuy ∧ t.sz = parent.sz

/-- Triggers of one size, at least one of them, and nothing else. -/
def TpSlRequests (requests : List OrderRequest) : Prop :=
  requests ≠ [] ∧ OnePerKind requests ∧ (∀ t ∈ requests, ClosingTrigger t) ∧
    ∀ t ∈ requests, ∀ s ∈ requests, t.sz = s.sz

/-- The requests of a MODIFY session: those of its `BULK_MODIFY`, or else of its `BULK_ORDER`. -/
inductive ModifyRequests (ctx : HlContext) : List OrderRequest → Prop where
  | modifies (a : Action) : ctxGetAction .bulkModify ctx = some a →
      ModifyRequests ctx (a.bulkModify.modifies.elems.map fun m => m.order)
  | orders (a : Action) : ctxGetAction .bulkModify ctx = none →
      ctxGetAction .bulkOrder ctx = some a → ModifyRequests ctx a.bulkOrder.orders.elems

theorem closingTrigger_iff {o : OrderRequest} (h : o.orderType = .trigger) :
    ClosingTrigger o ↔ checkTriggerCloseOrder o = true := by
  rw [checkTriggerCloseOrder_iff]
  constructor
  · intro hc
    exact ⟨hc.reduceOnly, hc.isMarket, hc.price⟩
  · rintro ⟨hreduce, hmarket, hprice⟩
    exact ⟨h, hreduce, hmarket, hprice⟩

theorem matches_iff {t parent : OrderRequest} (h : t.orderType = .trigger) :
    checkTriggerMatchesLimit t parent = true ↔
      ClosingTrigger t ∧ t.isBuy ≠ parent.isBuy ∧ t.sz = parent.sz := by
  rw [checkTriggerMatchesLimit_iff, closingTrigger_iff h]
  cases t.isBuy <;> cases parent.isBuy <;> simp

/-- The kinds among triggers. -/
theorem countP_kind {α : Type} {f : α → OrderRequest} {l : List α}
    (h : ∀ x ∈ l, (f x).orderType = .trigger) (kind : TriggerType) :
    (l.map f).countP (fun t => t.trigger.tpsl == kind) =
      l.countP fun x => (f x).orderType == .trigger && (f x).trigger.tpsl == kind := by
  rw [List.countP_map]
  refine List.countP_congr fun x hx => ?_
  simp [h x hx]

theorem countP_limit {α : Type} {f : α → OrderRequest} {l : List α}
    (h : ∀ x ∈ l, (f x).orderType = .trigger) :
    l.countP (fun x => getLimitRequest (f x)) = 0 := by
  refine List.countP_eq_zero.mpr fun x hx => ?_
  simp [getLimitRequest, h x hx]

/-- Triggers with at most one of each kind are a take profit and a stop loss. -/
theorem OnePerKind.shape {α : Type} {f : α → OrderRequest} {l : List α}
    (h : OnePerKind (l.map f)) (hty : ∀ x ∈ l, (f x).orderType = .trigger) :
    ∃ tp sl, OrderShape f l none tp sl := by
  have hlimit := countP_limit hty
  have htp : l.countP (fun x => getTriggerTp (f x)) ≤ 1 := (countP_kind hty .tp).symm.trans_le h.tp
  have hsl : l.countP (fun x => getTriggerSl (f x)) ≤ 1 := (countP_kind hty .sl).symm.trans_le h.sl
  exact ⟨_, _, orderShape_of_triggers hlimit htp hsl⟩

namespace OrderShape

variable {α : Type} {f : α → OrderRequest} {l : List α} {limit tp sl : Option α}

/-- And the other way round. -/
theorem onePerKind (h : OrderShape f l none tp sl) :
    OnePerKind (l.map f) ∧ ∀ x ∈ l, (f x).orderType = .trigger := by
  have hty : ∀ x ∈ l, (f x).orderType = .trigger := by
    intro x hx
    rcases h.mem_iff.mp hx with hl | ht | hs
    · cases hl
    · exact (getTriggerTp_iff.mp (h.isTp x ht)).1
    · exact (getTriggerSl_iff.mp (h.isSl x hs)).1
  obtain ⟨-, ntp, nsl, -⟩ := h.count
  refine ⟨⟨?_, ?_⟩, hty⟩
  · rw [countP_kind hty]
    exact ntp.trans_le (isSome_toNat_le tp)
  · rw [countP_kind hty]
    exact nsl.trans_le (isSome_toNat_le sl)

/-- A limit order in front. -/
theorem cons {orders : List α} {parent : α} (h : OrderShape f l none tp sl)
    (hperm : orders.Perm (parent :: l)) (hparent : (f parent).orderType = .limit) :
    OrderShape f orders (some parent) tp sl where
  perm := hperm.trans (h.perm.cons parent)
  isLimit := by
    rintro x hx
    cases hx
    exact getLimitRequest_iff.mpr hparent
  isTp := h.isTp
  isSl := h.isSl

/-- The triggers behind it. -/
theorem tail {parent : α} (h : OrderShape f l (some parent) tp sl) :
    OrderShape f (tp.toList ++ sl.toList) none tp sl where
  perm := .refl _
  isLimit := by
    intro x hx
    cases hx
  isTp := h.isTp
  isSl := h.isSl

/-- Triggers are the take profit and the stop loss. -/
theorem mem_triggers (h : OrderShape f l none tp sl) {o : OrderRequest} :
    o ∈ l.map f ↔ o ∈ tp.map f ∨ o ∈ sl.map f := by
  constructor
  · intro ho
    obtain ⟨x, hx, rfl⟩ := List.mem_map.mp ho
    rcases h.mem_iff.mp hx with hl | ht | hs
    · cases hl
    · exact .inl (Option.mem_map_of_mem f ht)
    · exact .inr (Option.mem_map_of_mem f hs)
  · rintro (ho | ho)
    · obtain ⟨x, hx, rfl⟩ := Option.map_eq_some_iff.mp ho
      exact List.mem_map_of_mem (h.mem_iff.mpr (.inr (.inl hx)))
    · obtain ⟨x, hx, rfl⟩ := Option.map_eq_some_iff.mp ho
      exact List.mem_map_of_mem (h.mem_iff.mpr (.inr (.inr hx)))

/-- There are triggers, if there is a first one. -/
theorem ne_nil_iff (h : OrderShape f l none tp sl) :
    l.map f ≠ [] ↔ ∃ first, (tp.map f).or (sl.map f) = some first := by
  constructor
  · intro hne
    obtain ⟨o, ho⟩ := List.exists_mem_of_ne_nil _ hne
    rcases h.mem_triggers.mp ho with ht | hs
    · exact ⟨o, by rw [Option.mem_def.mp ht, Option.some_or]⟩
    · cases htp : tp.map f with
      | some first => exact ⟨first, rfl⟩
      | none => exact ⟨o, hs⟩
  · rintro ⟨first, hfirst⟩
    rcases Option.or_eq_some_iff.mp hfirst with ht | ⟨-, hs⟩
    · exact List.ne_nil_of_mem (h.mem_triggers.mpr (.inl ht))
    · exact List.ne_nil_of_mem (h.mem_triggers.mpr (.inr hs))

end OrderShape

/-! ## 4. The acceptance set -/

/-- A list with the parts of an ORDER review. -/
theorem tpSlOrders_iff {orders : List OrderRequest} :
    TpSlOrders orders ↔ ∃ parent tp sl, OrderShape id orders (some parent) tp sl ∧
      (parent.limit.tif = .ioc ∨ parent.limit.tif = .gtc) ∧
      (∀ o ∈ tp, checkTriggerMatchesLimit o parent = true) ∧
      ∀ o ∈ sl, checkTriggerMatchesLimit o parent = true := by
  constructor
  · rintro ⟨parent, triggers, hperm, hparent, htif, hone, hall⟩
    have hty : ∀ t ∈ triggers, (id t).orderType = .trigger := fun t ht => (hall t ht).1.isTrigger
    rw [← List.map_id triggers] at hone
    obtain ⟨tp, sl, hshape⟩ := hone.shape hty
    have hmatch : ∀ o ∈ triggers, checkTriggerMatchesLimit o parent = true :=
      fun o ho => (matches_iff (hty o ho)).mpr (hall o ho)
    refine ⟨parent, tp, sl, hshape.cons hperm hparent, htif, ?_, ?_⟩
    · exact fun o ho => hmatch o (hshape.mem_iff.mpr (.inr (.inl ho)))
    · exact fun o ho => hmatch o (hshape.mem_iff.mpr (.inr (.inr ho)))
  · rintro ⟨parent, tp, sl, hshape, htif, htp, hsl⟩
    obtain ⟨hone, hty⟩ := hshape.tail.onePerKind
    rw [List.map_id] at hone
    refine ⟨parent, tp.toList ++ sl.toList, ?_, getLimitRequest_iff.mp (hshape.isLimit _ rfl),
      htif, hone, ?_⟩
    · simpa using hshape.perm
    · intro t ht
      refine (matches_iff (hty t ht)).mp ?_
      rcases hshape.tail.mem_iff.mp ht with hl | ht | hs
      · cases hl
      · exact htp t ht
      · exact hsl t hs

/-- A list with the parts of a MODIFY review. -/
theorem tpSlRequests_iff {α : Type} {f : α → OrderRequest} {l : List α} :
    TpSlRequests (l.map f) ↔ ∃ tp sl, OrderShape f l none tp sl ∧
      (∃ first, (tp.map f).or (sl.map f) = some first) ∧
      (∀ o ∈ tp.map f, checkTriggerCloseOrder o = true) ∧
      (∀ o ∈ sl.map f, checkTriggerCloseOrder o = true) ∧
      ∀ t ∈ tp.map f, ∀ s ∈ sl.map f, t.sz = s.sz := by
  constructor
  · rintro ⟨hne, hone, hclose, hsz⟩
    have hty : ∀ x ∈ l, (f x).orderType = .trigger := fun x hx =>
      (hclose (f x) (List.mem_map_of_mem hx)).isTrigger
    obtain ⟨tp, sl, hshape⟩ := hone.shape hty
    have htp : ∀ o ∈ tp.map f, o ∈ l.map f := fun o ho => hshape.mem_triggers.mpr (.inl ho)
    have hsl : ∀ o ∈ sl.map f, o ∈ l.map f := fun o ho => hshape.mem_triggers.mpr (.inr ho)
    have hcheck : ∀ o ∈ l.map f, checkTriggerCloseOrder o = true := fun o ho =>
      (closingTrigger_iff (hclose o ho).isTrigger).mp (hclose o ho)
    refine ⟨tp, sl, hshape, hshape.ne_nil_iff.mp hne, ?_, ?_, ?_⟩
    · exact fun o ho => hcheck o (htp o ho)
    · exact fun o ho => hcheck o (hsl o ho)
    · exact fun t ht s hs => hsz t (htp t ht) s (hsl s hs)
  · rintro ⟨tp, sl, hshape, hfirst, htp, hsl, hsizes⟩
    obtain ⟨hone, hty⟩ := hshape.onePerKind
    refine ⟨hshape.ne_nil_iff.mpr hfirst, hone, ?_, ?_⟩
    · intro o ho
      obtain ⟨x, hx, hox⟩ := List.mem_map.mp ho
      have hot : o.orderType = .trigger := by
        rw [← hox]
        exact hty x hx
      rcases hshape.mem_triggers.mp ho with ht | hs
      · exact (closingTrigger_iff hot).mpr (htp o ht)
      · exact (closingTrigger_iff hot).mpr (hsl o hs)
    · intro t ht s hs
      rcases hshape.mem_triggers.mp ht with ht | ht
      · rcases hshape.mem_triggers.mp hs with hs | hs
        · rw [Option.mem_unique ht hs]
        · exact hsizes t ht s hs
      · rcases hshape.mem_triggers.mp hs with hs | hs
        · exact (hsizes s hs t ht).symm
        · rw [Option.mem_unique ht hs]

/-- The acceptance set of TP/SL structures.  `ui_order` accepts exactly a parent order with its
triggers, in any arrangement, and leverage that is not cross; `ui_modify` accepts exactly such
triggers alone. -/
theorem tpsl_acceptance (sdk : Sdk) (ctx : HlContext) (uiCtx : UiCtx)
    (metadata : ActionMetadata) :
    ((uiOrder sdk ctx uiCtx metadata).isSome = true ↔
      (∃ a, ctxGetAction .bulkOrder ctx = some a ∧ TpSlOrders a.bulkOrder.orders.elems) ∧
      ∀ u, ctxGetAction .updateLeverage ctx = some u → u.updateLeverage.isCross = false) ∧
    ((uiModify sdk ctx uiCtx metadata).isSome = true ↔
      ∃ requests, ModifyRequests ctx requests ∧ TpSlRequests requests) := by
  rw [uiOrder_isSome_iff, uiModify_isSome_iff]
  constructor
  · constructor
    · rintro ⟨p, ⟨a, ha, hshape⟩, hleverage, hisolated, htp, hsl, htif⟩
      refine ⟨⟨a, ha, tpSlOrders_iff.mpr ⟨p.parent, p.tp, p.sl, hshape, htif, htp, hsl⟩⟩, ?_⟩
      intro u hu
      rw [hu] at hleverage
      exact hisolated _ hleverage.symm
    · rintro ⟨⟨a, ha, horders⟩, hisolated⟩
      obtain ⟨parent, tp, sl, hshape, htif, htp, hsl⟩ := tpSlOrders_iff.mp horders
      refine ⟨⟨parent, tp, sl, _⟩, ⟨a, ha, hshape⟩, rfl, ?_, htp, hsl, htif⟩
      intro u hu
      obtain ⟨b, hb, rfl⟩ := Option.map_eq_some_iff.mp hu
      exact hisolated b hb
  · constructor
    · rintro ⟨p, first, hstored, hfirst, htp, hsl, hsizes⟩
      cases hstored with
      | modifies a tp sl hget hshape =>
        exact ⟨_, .modifies a hget,
          tpSlRequests_iff.mpr ⟨tp, sl, hshape, ⟨first, hfirst⟩, htp, hsl, hsizes⟩⟩
      | orders a tp sl hno hget hshape =>
        refine ⟨_, .orders a hno hget, ?_⟩
        rw [← List.map_id a.bulkOrder.orders.elems]
        refine tpSlRequests_iff.mpr ⟨tp, sl, hshape, ?_⟩
        simp only [Option.map_id, id]
        exact ⟨⟨first, hfirst⟩, htp, hsl, hsizes⟩
    · rintro ⟨requests, hstored, hrequests⟩
      cases hstored with
      | modifies a hget =>
        obtain ⟨tp, sl, hshape, ⟨first, hfirst⟩, htp, hsl, hsizes⟩ := tpSlRequests_iff.mp hrequests
        exact ⟨_, first, .modifies a tp sl hget hshape, hfirst, htp, hsl, hsizes⟩
      | orders a hno hget =>
        rw [← List.map_id a.bulkOrder.orders.elems] at hrequests
        obtain ⟨tp, sl, hshape, ⟨first, hfirst⟩, htp, hsl, hsizes⟩ := tpSlRequests_iff.mp hrequests
        simp only [Option.map_id, id] at hfirst htp hsl hsizes
        exact ⟨_, first, .orders a tp sl hno hget hshape, hfirst, htp, hsl, hsizes⟩

end Hyperliquid

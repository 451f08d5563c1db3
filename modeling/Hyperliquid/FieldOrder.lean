/-
# The order of the fields

A parser does not see in which order its fields come.  Each handler writes its own field, so the
elements of a payload may be rearranged; the elements of an array keep their order among
themselves, and an element that is read as its type says comes after the type.

`OrderFree` (`Lib.TlvOrder`) is checked here for the table of each parser.  Two tables have a
nested structure whose arm a type chooses: there the handler looks at the tag of the type, and
refuses a payload in which the type comes later.  So the arm that was written is the one of the
type that the structure ends up with.
-/
import Hyperliquid.Action
import Hyperliquid.Client
import Hyperliquid.Lib.TlvOrder

namespace Hyperliquid

open Lib

/-! ## 1. The contexts -/

instance : LawfulTlvContext OrderRequest.LimitCtx where
  withTags l s := { s with receivedTags := l }

instance : LawfulTlvContext OrderRequest.TriggerCtx where
  withTags l s := { s with receivedTags := l }

instance : LawfulTlvContext OrderRequest.OrderRequestCtx where
  withTags l s := { s with receivedTags := l }

instance : LawfulTlvContext BulkOrder.BuilderInfoCtx where
  withTags l s := { s with receivedTags := l }

instance : LawfulTlvContext BulkOrder.BulkOrderCtx where
  withTags l s := { s with receivedTags := l }

instance : LawfulTlvContext BulkModify.ModifyRequestCtx where
  withTags l s := { s with receivedTags := l }

instance : LawfulTlvContext BulkModify.BulkModifyCtx where
  withTags l s := { s with receivedTags := l }

instance : LawfulTlvContext BulkCancel.CancelRequestCtx where
  withTags l s := { s with receivedTags := l }

instance : LawfulTlvContext BulkCancel.BulkCancelCtx where
  withTags l s := { s with receivedTags := l }

instance : LawfulTlvContext UpdateLeverage.UpdateLeverageCtx where
  withTags l s := { s with receivedTags := l }

instance : LawfulTlvContext UpdateIsolatedMargin.UpdateIsolatedMarginCtx where
  withTags l s := { s with receivedTags := l }

instance : LawfulTlvContext ApproveBuilderFee.ApproveBuilderFeeCtx where
  withTags l s := { s with receivedTags := l }

instance : LawfulTlvContext UserSetAbstraction.UserSetAbstractionCtx where
  withTags l s := { s with receivedTags := l }

instance : LawfulTlvContext Action.ActionCtx where
  withTags l s := { s with receivedTags := l }

/-- A handler that looks for one tag may be shown that tag alone. -/
theorem checkReceivedTags_typed (received : List Nat) (t : Nat) :
    checkReceivedTags (if t ∈ received then [t] else []) [t] = checkReceivedTags received [t] := by
  by_cases ht : t ∈ received
  · simp [checkReceivedTags, ht]
  · simp [checkReceivedTags, ht]

/-! ## 2. order_request.c -/

namespace OrderRequest

variable (sdk : Sdk)

theorem limitOrderTlvParser_orderFree :
    (limitOrderTlvParser sdk).OrderFree noRepeats noFirst := by
  refine .of_unique rfl ?_ ?_ ?_
  · simp [limitOrderTlvParser]
  · simp only [limitOrderTlvParser, List.forall_mem_cons]
    exact ⟨storing_blind fun _ _ _ => rfl, by simp⟩
  · simp [limitOrderTlvParser]

theorem triggerOrderTlvParser_orderFree :
    (triggerOrderTlvParser sdk).OrderFree noRepeats noFirst := by
  refine .of_unique rfl ?_ ?_ ?_
  · simp [triggerOrderTlvParser]
  · simp only [triggerOrderTlvParser, List.forall_mem_cons, List.not_mem_nil, false_implies,
      implies_true, and_true]
    and_intros
    all_goals exact storing_blind fun _ _ _ => rfl
  · simp only [triggerOrderTlvParser, List.pairwise_cons, List.forall_mem_cons, List.not_mem_nil,
      false_implies, implies_true, List.Pairwise.nil, and_true]
    and_intros
    all_goals exact storing_commute fun _ _ _ => rfl

/-- What the handler of the inner element looks at. -/
def innerView (out : OrderRequestCtx) : OrderRequestCtx where
  receivedTags := if tagOrderType ∈ out.receivedTags then [tagOrderType] else []
  orderRequest := { orderType := out.orderRequest.orderType, union := out.orderRequest.union }
  limitCtx := out.limitCtx
  triggerCtx := out.triggerCtx

/-- What it changes. -/
def setInner (inner out : OrderRequestCtx) : OrderRequestCtx :=
  { out with
    orderRequest := { out.orderRequest with union := inner.orderRequest.union }
    limitCtx := inner.limitCtx
    triggerCtx := inner.triggerCtx }

theorem handleOrder_updates : Updates (handleOrder sdk) innerView setInner (handleOrder sdk) := by
  rintro d ⟨tags, ⟨asset, isBuy, limitPx, sz, reduceOnly, orderType, union, cloid⟩, limitCtx,
    triggerCtx⟩
  simp only [handleOrder, innerView, checkReceivedTags_typed]
  cases checkReceivedTags tags [tagOrderType] with
  | false => rfl
  | true =>
    cases orderType with
    | limit =>
      simp only [OrderRequest.limit]
      generalize parseLimitOrder sdk d.value _ = r
      cases r with
      | error e => rfl
      | ok c => rfl
    | trigger =>
      simp only [OrderRequest.trigger]
      generalize parseTriggerOrder sdk d.value _ = r
      cases r with
      | error e => rfl
      | ok c => rfl

/-- It looks for one tag, the one of the type. -/
theorem innerView_withTags (l : List Nat) (s : OrderRequestCtx)
    (hl : tagOrderType ∈ l ↔ tagOrderType ∈ s.receivedTags) :
    innerView (LawfulTlvContext.withTags l s) = innerView s := by
  show ({ innerView s with
    receivedTags := if tagOrderType ∈ l then [tagOrderType] else [] } : OrderRequestCtx) = _
  rw [if_congr hl rfl rfl]
  rfl

theorem orderRequestTlvParser_orderFree :
    (orderRequestTlvParser sdk).OrderFree noRepeats (typeFirst tagOrderType tagOrder) where
  common := rfl
  irrefl t h := by
    obtain ⟨ht, ht'⟩ := h
    rw [ht] at ht'
    cases ht'
  once row hrow _ := by
    simp only [orderRequestTlvParser, List.mem_cons, List.not_mem_nil, or_false] at hrow
    rcases hrow with rfl | rfl | rfl | rfl | rfl | rfl | rfl | rfl
    all_goals rfl
  blind := by
    have horder : Blind (typeFirst tagOrderType tagOrder) tagOrder (handleOrder sdk) :=
      (handleOrder_updates sdk).blind
        (fun l s hl => innerView_withTags l s (hl tagOrderType ⟨rfl, rfl⟩)) fun _ _ _ => rfl
    simp only [orderRequestTlvParser, List.forall_mem_cons, List.not_mem_nil, false_implies,
      implies_true, and_true]
    refine ⟨?_, ?_, ?_, ?_, ?_, ?_, horder, ?_⟩
    all_goals exact storing_blind fun _ _ _ => rfl
  commute := by
    have horder : ∀ {α : Type} {get : TlvData → Option α}
        {set : α → OrderRequestCtx → OrderRequestCtx},
        (∀ a s, innerView (set a s) = innerView s) →
        (∀ a c s, set a (setInner c s) = setInner c (set a s)) →
        HandlersCommute (storing get set) (handleOrder sdk) := fun hview hset =>
      (storing_updates _ _).commute (handleOrder_updates sdk) (fun _ _ => rfl) hview hset
    simp only [orderRequestTlvParser, List.pairwise_cons, List.forall_mem_cons, List.not_mem_nil,
      false_implies, implies_true, List.Pairwise.nil, and_true]
    and_intros
    all_goals first
      | exact .inl ⟨rfl, rfl⟩
      | exact .inr (.inr (storing_commute fun _ _ _ => rfl))
      | exact .inr (.inr (horder (fun _ _ => rfl) fun _ _ _ => rfl))
      | exact .inr (.inr (HandlersCommute.symm (horder (fun _ _ => rfl) fun _ _ _ => rfl)))
  refuses row hrow t ht := by
    obtain ⟨rfl, htag⟩ := ht
    refine ⟨rfl, ?_⟩
    intro d s s' hnot hh
    simp only [orderRequestTlvParser, List.mem_cons, List.not_mem_nil, or_false] at hrow
    rcases hrow with rfl | rfl | rfl | rfl | rfl | rfl | rfl | rfl
    case inr.inr.inr.inr.inr.inr.inl => exact hnot (handleOrder_ok hh).1
    all_goals cases htag

end OrderRequest

/-! ## 3. bulk_order.c, bulk_modify.c and bulk_cancel.c -/

namespace BulkOrder

variable (sdk : Sdk) (hl : HlContext)

theorem builderInfoTlvParser_orderFree :
    (builderInfoTlvParser sdk).OrderFree noRepeats noFirst := by
  refine .of_unique rfl ?_ ?_ ?_
  · simp [builderInfoTlvParser]
  · simp only [builderInfoTlvParser, List.forall_mem_cons, List.not_mem_nil, false_implies,
      implies_true, and_true]
    and_intros
    all_goals exact storing_blind fun _ _ _ => rfl
  · simp only [builderInfoTlvParser, List.pairwise_cons, List.forall_mem_cons, List.not_mem_nil,
      false_implies, implies_true, List.Pairwise.nil, and_true]
    exact storing_commute fun _ _ _ => rfl

/-- What the handler of the builder looks at. -/
def builderView (out : BulkOrderCtx) : BulkOrderCtx where
  bulkOrder := { builder := out.bulkOrder.builder }
  builderInfoCtx := out.builderInfoCtx

/-- What it changes. -/
def setBuilder (inner out : BulkOrderCtx) : BulkOrderCtx :=
  { out with
    bulkOrder := { out.bulkOrder with builder := inner.bulkOrder.builder }
    builderInfoCtx := inner.builderInfoCtx }

theorem handleBuilder_updates :
    Updates (handleBuilder sdk) builderView setBuilder (handleBuilder sdk) := by
  intro d s
  simp only [handleBuilder, builderView]
  generalize parseBuilderInfo sdk d.value _ = r
  cases r with
  | error e => rfl
  | ok c => rfl

theorem bulkOrderTlvParser_orderFree :
    (bulkOrderTlvParser sdk hl).OrderFree (· == tagOrder) noFirst where
  common := rfl
  irrefl _ h := h
  once row hrow honce := by
    simp only [bulkOrderTlvParser, List.mem_cons, List.not_mem_nil, or_false] at hrow
    rcases hrow with rfl | rfl | rfl
    · cases honce
    · rfl
    · rfl
  blind := by
    simp only [bulkOrderTlvParser, List.forall_mem_cons, List.not_mem_nil, false_implies,
      implies_true, and_true]
    refine ⟨?_, ?_, ?_⟩
    · exact (pushing_updates _ _ _).blind (fun _ _ _ => rfl) fun _ _ _ => rfl
    · exact storing_blind fun _ _ _ => rfl
    · exact (handleBuilder_updates sdk).blind (fun _ _ _ => rfl) fun _ _ _ => rfl
  commute := by
    simp only [bulkOrderTlvParser, List.pairwise_cons, List.forall_mem_cons, List.not_mem_nil,
      false_implies, implies_true, List.Pairwise.nil, and_true]
    refine ⟨⟨.inr (.inr ?_), .inr (.inr ?_)⟩, .inr (.inr ?_)⟩
    · exact (pushing_updates _ _ _).commute (storing_updates _ _) (fun _ _ => rfl)
        (fun _ _ => rfl) fun _ _ _ => rfl
    · exact (pushing_updates _ _ _).commute (handleBuilder_updates sdk) (fun _ _ => rfl)
        (fun _ _ => rfl) fun _ _ _ => rfl
    · exact (storing_updates _ _).commute (handleBuilder_updates sdk) (fun _ _ => rfl)
        (fun _ _ => rfl) fun _ _ _ => rfl
  refuses _ _ _ h := h.elim

end BulkOrder

namespace BulkModify

variable (sdk : Sdk) (hl : HlContext)

/-- What the handler of the order looks at. -/
def orderView (out : ModifyRequestCtx) : ModifyRequestCtx where
  modifyRequest := { order := out.modifyRequest.order }
  orderCtx := out.orderCtx

/-- What it changes. -/
def setOrder (inner out : ModifyRequestCtx) : ModifyRequestCtx :=
  { out with
    modifyRequest := { out.modifyRequest with order := inner.modifyRequest.order }
    orderCtx := inner.orderCtx }

theorem handleOrder_updates :
    Updates (handleOrder sdk hl) orderView setOrder (handleOrder sdk hl) := by
  intro d s
  simp only [handleOrder, orderView]
  generalize parseOrderRequest sdk hl d.value _ = r
  cases r with
  | error e => rfl
  | ok c => rfl

theorem modifyRequestTlvParser_orderFree :
    (modifyRequestTlvParser sdk hl).OrderFree noRepeats noFirst := by
  refine .of_unique rfl ?_ ?_ ?_
  · simp [modifyRequestTlvParser]
  · simp only [modifyRequestTlvParser, List.forall_mem_cons, List.not_mem_nil, false_implies,
      implies_true, and_true]
    refine ⟨?_, ?_⟩
    · exact (handleOrder_updates sdk hl).blind (fun _ _ _ => rfl) fun _ _ _ => rfl
    · exact storing_blind fun _ _ _ => rfl
  · simp only [modifyRequestTlvParser, List.pairwise_cons, List.forall_mem_cons,
      List.not_mem_nil, false_implies, implies_true, List.Pairwise.nil, and_true]
    exact (handleOrder_updates sdk hl).commute (storing_updates _ _) (fun _ _ => rfl)
      (fun _ _ => rfl) fun _ _ _ => rfl

theorem bulkModifyTlvParser_orderFree :
    (bulkModifyTlvParser sdk hl).OrderFree (· == tagModifyRequest) noFirst :=
  .of_array rfl rfl (fun _ _ => rfl) fun _ _ _ => rfl

end BulkModify

namespace BulkCancel

variable (sdk : Sdk) (hl : HlContext)

theorem cancelRequestTlvParser_orderFree :
    (cancelRequestTlvParser sdk).OrderFree noRepeats noFirst := by
  refine .of_unique rfl ?_ ?_ ?_
  · simp [cancelRequestTlvParser]
  · simp only [cancelRequestTlvParser, List.forall_mem_cons, List.not_mem_nil, false_implies,
      implies_true, and_true]
    and_intros
    all_goals exact storing_blind fun _ _ _ => rfl
  · simp only [cancelRequestTlvParser, List.pairwise_cons, List.forall_mem_cons, List.not_mem_nil,
      false_implies, implies_true, List.Pairwise.nil, and_true]
    exact storing_commute fun _ _ _ => rfl

theorem bulkCancelTlvParser_orderFree :
    (bulkCancelTlvParser sdk hl).OrderFree (· == tagCancelRequest) noFirst :=
  .of_array rfl rfl (fun _ _ => rfl) fun _ _ _ => rfl

end BulkCancel

/-! ## 4. The actions that are one structure -/

section

variable (sdk : Sdk)

theorem UpdateLeverage.updateLeverageTlvParser_orderFree :
    (updateLeverageTlvParser sdk).OrderFree noRepeats noFirst := by
  refine .of_unique rfl ?_ ?_ ?_
  · simp [updateLeverageTlvParser]
  · simp only [updateLeverageTlvParser, List.forall_mem_cons, List.not_mem_nil, false_implies,
      implies_true, and_true]
    and_intros
    all_goals exact storing_blind fun _ _ _ => rfl
  · simp only [updateLeverageTlvParser, List.pairwise_cons, List.forall_mem_cons, List.not_mem_nil,
      false_implies, implies_true, List.Pairwise.nil, and_true]
    and_intros
    all_goals exact storing_commute fun _ _ _ => rfl

theorem UpdateIsolatedMargin.updateIsolatedMarginTlvParser_orderFree :
    (updateIsolatedMarginTlvParser sdk).OrderFree noRepeats noFirst := by
  refine .of_unique rfl ?_ ?_ ?_
  · simp [updateIsolatedMarginTlvParser]
  · simp only [updateIsolatedMarginTlvParser, List.forall_mem_cons, List.not_mem_nil, false_implies,
      implies_true, and_true]
    and_intros
    all_goals exact storing_blind fun _ _ _ => rfl
  · simp only [updateIsolatedMarginTlvParser, List.pairwise_cons, List.forall_mem_cons, List.not_mem_nil,
      false_implies, implies_true, List.Pairwise.nil, and_true]
    and_intros
    all_goals exact storing_commute fun _ _ _ => rfl

theorem ApproveBuilderFee.approveBuilderFeeTlvParser_orderFree :
    (approveBuilderFeeTlvParser sdk).OrderFree noRepeats noFirst := by
  refine .of_unique rfl ?_ ?_ ?_
  · simp [approveBuilderFeeTlvParser]
  · simp only [approveBuilderFeeTlvParser, List.forall_mem_cons, List.not_mem_nil, false_implies,
      implies_true, and_true]
    and_intros
    all_goals exact storing_blind fun _ _ _ => rfl
  · simp only [approveBuilderFeeTlvParser, List.pairwise_cons, List.forall_mem_cons, List.not_mem_nil,
      false_implies, implies_true, List.Pairwise.nil, and_true]
    and_intros
    all_goals exact storing_commute fun _ _ _ => rfl

theorem UserSetAbstraction.userSetAbstractionTlvParser_orderFree :
    (userSetAbstractionTlvParser sdk).OrderFree noRepeats noFirst := by
  refine .of_unique rfl ?_ ?_ ?_
  · simp [userSetAbstractionTlvParser]
  · simp only [userSetAbstractionTlvParser, List.forall_mem_cons, List.not_mem_nil, false_implies,
      implies_true, and_true]
    and_intros
    all_goals exact storing_blind fun _ _ _ => rfl
  · simp only [userSetAbstractionTlvParser, List.pairwise_cons, List.forall_mem_cons, List.not_mem_nil,
      false_implies, implies_true, List.Pairwise.nil, and_true]
    exact storing_commute fun _ _ _ => rfl

end

/-! ## 5. action.c -/

namespace Action

variable (sdk : Sdk) (hl : HlContext)

/-- What the handler of the structure looks at. -/
def structView (out : ActionCtx) : ActionCtx where
  receivedTags := if tagActionType ∈ out.receivedTags then [tagActionType] else []
  action := { type := out.action.type, union := out.action.union }

/-- What it changes. -/
def setStruct (inner out : ActionCtx) : ActionCtx :=
  { out with action := { out.action with union := inner.action.union } }

theorem handleAction_updates :
    Updates (handleAction sdk hl) structView setStruct (handleAction sdk hl) := by
  rintro d ⟨tags, ⟨type, nonce, union⟩⟩
  have harm : parseArm sdk hl { type := type, union := union } d.value =
      parseArm sdk hl ⟨type, nonce, union⟩ d.value := rfl
  simp only [handleAction, structView, checkReceivedTags_typed, harm]
  cases checkReceivedTags tags [tagActionType] with
  | false => rfl
  | true =>
    generalize parseArm sdk hl _ d.value = r
    cases r with
    | error e => rfl
    | ok u => rfl

/-- It looks for one tag, the one of the type. -/
theorem structView_withTags (l : List Nat) (s : ActionCtx)
    (hl : tagActionType ∈ l ↔ tagActionType ∈ s.receivedTags) :
    structView (LawfulTlvContext.withTags l s) = structView s := by
  show ({ structView s with
    receivedTags := if tagActionType ∈ l then [tagActionType] else [] } : ActionCtx) = _
  rw [if_congr hl rfl rfl]
  rfl

theorem actionTlvParser_orderFree :
    (actionTlvParser sdk hl).OrderFree noRepeats (typeFirst tagActionType tagAction) where
  common := rfl
  irrefl t h := by
    obtain ⟨ht, ht'⟩ := h
    rw [ht] at ht'
    cases ht'
  once row hrow _ := by
    simp only [actionTlvParser, List.mem_cons, List.not_mem_nil, or_false] at hrow
    rcases hrow with rfl | rfl | rfl | rfl | rfl
    all_goals rfl
  blind := by
    have haction : Blind (typeFirst tagActionType tagAction) tagAction (handleAction sdk hl) :=
      (handleAction_updates sdk hl).blind
        (fun l s hl => structView_withTags l s (hl tagActionType ⟨rfl, rfl⟩)) fun _ _ _ => rfl
    simp only [actionTlvParser, List.forall_mem_cons, List.not_mem_nil, false_implies,
      implies_true, and_true]
    refine ⟨?_, ?_, ?_, ?_, haction⟩
    all_goals exact storing_blind fun _ _ _ => rfl
  commute := by
    have haction : ∀ {α : Type} {get : TlvData → Option α} {set : α → ActionCtx → ActionCtx},
        (∀ a s, structView (set a s) = structView s) →
        (∀ a c s, set a (setStruct c s) = setStruct c (set a s)) →
        HandlersCommute (storing get set) (handleAction sdk hl) := fun hview hset =>
      (storing_updates _ _).commute (handleAction_updates sdk hl) (fun _ _ => rfl) hview hset
    simp only [actionTlvParser, List.pairwise_cons, List.forall_mem_cons, List.not_mem_nil,
      false_implies, implies_true, List.Pairwise.nil, and_true]
    and_intros
    all_goals first
      | exact .inl ⟨rfl, rfl⟩
      | exact .inr (.inr (storing_commute fun _ _ _ => rfl))
      | exact .inr (.inr (haction (fun _ _ => rfl) fun _ _ _ => rfl))
  refuses row hrow t ht := by
    obtain ⟨rfl, htag⟩ := ht
    refine ⟨rfl, ?_⟩
    intro d s s' hnot hh
    simp only [actionTlvParser, List.mem_cons, List.not_mem_nil, or_false] at hrow
    rcases hrow with rfl | rfl | rfl | rfl | rfl
    case inr.inr.inr.inr =>
      dsimp only at hh
      unfold handleAction at hh
      split at hh
      · cases hh
      · rename_i hcheck
        rw [Bool.not_eq_true, Bool.not_eq_false', checkReceivedTags_iff] at hcheck
        exact hnot (hcheck _ List.mem_cons_self)
    all_goals cases htag

end Action

/-! ## 6. Every parser -/

/-- The parser does not see the order of the elements of its payload, as far as `view` shows what
it returns. -/
def Unordered {σ τ α : Type} (sdk : Sdk) (repeated : Nat → Bool) (before : Nat → Nat → Prop)
    (parse : Bytes → σ → Except Failure τ) (view : τ → α) : Prop :=
  ∀ payload payload' ds ds', sdk.tlvDecode payload = some ds →
    sdk.tlvDecode payload' = some ds' → TlvParser.Reordered repeated before ds ds' → ∀ out,
      (parse payload out).toOption.map view = (parse payload' out).toOption.map view

/-- From the table of the parser, and its final check. -/
theorem unordered {σ α : Type} [TlvContext σ] [LawfulTlvContext σ] {sdk : Sdk}
    {p : TlvParser σ} {repeated : Nat → Bool} {before : Nat → Nat → Prop}
    {verify : σ → Except Failure Unit} {view : σ → α} (hp : p.OrderFree repeated before)
    (hverify : ∀ s t, ReadAlike s t → verify s = verify t)
    (hview : ∀ l s, view (LawfulTlvContext.withTags l s) = view s) :
    Unordered sdk repeated before (p.parseVerified sdk.tlvDecode verify) view :=
  fun _ _ _ _ hds hds' h out => hp.parseVerified_map hverify hview hds hds' h out

/-- The check of the tags, and of the asset after it. -/
theorem requireTags_checkAsset_alike {σ : Type} [TlvContext σ] [LawfulTlvContext σ]
    (hl : HlContext) (tags : List Nat) (asset : σ → UInt32)
    (hasset : ∀ l s, asset (LawfulTlvContext.withTags l s) = asset s) {s t : σ}
    (h : ReadAlike s t) :
    (do
      requireTags (TlvContext.receivedTags s) tags
      checkAsset hl (asset s)) =
    (do
      requireTags (TlvContext.receivedTags t) tags
      checkAsset hl (asset t)) := by
  rw [h.requireTags, h.eq hasset]

section

variable (sdk : Sdk) (hl : HlContext)

open OrderRequest in
theorem parseLimitOrder_unordered :
    Unordered sdk noRepeats noFirst (parseLimitOrder sdk)
      fun out => out.limit := by
  refine unordered (limitOrderTlvParser_orderFree sdk) ?_ fun _ _ => rfl
  intro s t h
  exact h.requireTags _

open OrderRequest in
theorem parseTriggerOrder_unordered :
    Unordered sdk noRepeats noFirst (parseTriggerOrder sdk)
      fun out => out.trigger := by
  refine unordered (triggerOrderTlvParser_orderFree sdk) ?_ fun _ _ => rfl
  intro s t h
  exact h.requireTags _

open OrderRequest in
theorem parseOrderRequest_unordered :
    Unordered sdk noRepeats (typeFirst tagOrderType tagOrder) (parseOrderRequest sdk hl)
      fun out => out.orderRequest := by
  refine unordered (orderRequestTlvParser_orderFree sdk) ?_ fun _ _ => rfl
  intro s t h
  exact requireTags_checkAsset_alike hl _ (fun out => out.orderRequest.asset) (fun _ _ => rfl) h

open BulkOrder in
theorem parseBuilderInfo_unordered :
    Unordered sdk noRepeats noFirst (parseBuilderInfo sdk)
      fun out => out.builderInfo := by
  refine unordered (builderInfoTlvParser_orderFree sdk) ?_ fun _ _ => rfl
  intro s t h
  exact h.requireTags _

open BulkOrder in
theorem parseBulkOrder_unordered :
    Unordered sdk (· == tagOrder) noFirst (parseBulkOrder sdk hl)
      fun out => out.bulkOrder := by
  refine unordered (bulkOrderTlvParser_orderFree sdk hl) ?_ fun _ _ => rfl
  intro s t h
  exact h.requireTags _

open BulkModify in
theorem parseModifyRequest_unordered :
    Unordered sdk noRepeats noFirst (parseModifyRequest sdk hl)
      fun out => out.modifyRequest := by
  refine unordered (modifyRequestTlvParser_orderFree sdk hl) ?_ fun _ _ => rfl
  intro s t h
  exact h.requireTags _

open BulkModify in
theorem parseBulkModify_unordered :
    Unordered sdk (· == tagModifyRequest) noFirst (parseBulkModify sdk hl)
      fun out => out.bulkModify := by
  refine unordered (bulkModifyTlvParser_orderFree sdk hl) ?_ fun _ _ => rfl
  intro s t h
  exact h.requireTags _

open BulkCancel in
theorem parseCancelRequest_unordered :
    Unordered sdk noRepeats noFirst (parseCancelRequest sdk hl)
      fun out => out.cancelRequest := by
  refine unordered (cancelRequestTlvParser_orderFree sdk) ?_ fun _ _ => rfl
  intro s t h
  exact requireTags_checkAsset_alike hl _ (fun out => out.cancelRequest.asset) (fun _ _ => rfl) h

open BulkCancel in
theorem parseBulkCancel_unordered :
    Unordered sdk (· == tagCancelRequest) noFirst (parseBulkCancel sdk hl)
      fun out => out.bulkCancel := by
  refine unordered (bulkCancelTlvParser_orderFree sdk hl) ?_ fun _ _ => rfl
  intro s t h
  exact h.requireTags _

open UpdateLeverage in
theorem parseUpdateLeverage_unordered :
    Unordered sdk noRepeats noFirst (parseUpdateLeverage sdk hl)
      fun out => out.updateLeverage := by
  refine unordered (updateLeverageTlvParser_orderFree sdk) ?_ fun _ _ => rfl
  intro s t h
  exact requireTags_checkAsset_alike hl _ (fun out => out.updateLeverage.asset) (fun _ _ => rfl) h

open UpdateIsolatedMargin in
theorem parseUpdateIsolatedMargin_unordered :
    Unordered sdk noRepeats noFirst (parseUpdateIsolatedMargin sdk hl)
      fun out => out.updateIsolatedMargin := by
  refine unordered (updateIsolatedMarginTlvParser_orderFree sdk) ?_ fun _ _ => rfl
  intro s t h
  exact requireTags_checkAsset_alike hl _ (fun out => out.updateIsolatedMargin.asset) (fun _ _ => rfl) h

open ApproveBuilderFee in
theorem parseApproveBuilderFee_unordered :
    Unordered sdk noRepeats noFirst (parseApproveBuilderFee sdk)
      fun out => out.approveBuilderFee := by
  refine unordered (approveBuilderFeeTlvParser_orderFree sdk) ?_ fun _ _ => rfl
  intro s t h
  exact h.requireTags _

open UserSetAbstraction in
theorem parseUserSetAbstraction_unordered :
    Unordered sdk noRepeats noFirst (parseUserSetAbstraction sdk)
      fun out => out.userSetAbstraction := by
  refine unordered (userSetAbstractionTlvParser_orderFree sdk) ?_ fun _ _ => rfl
  intro s t h
  have hvalue : s.userSetAbstraction = t.userSetAbstraction :=
    h.eq fun _ _ => rfl
  have htags := h.requireTags [tagSignatureChainId, tagAbstraction]
  unfold verifyUserSetAbstraction
  rw [← hvalue]
  exact congrArg (· >>= _) htags

open Hyperliquid.Action in
theorem actionTlvParser_unordered :
    Unordered sdk noRepeats (typeFirst tagActionType tagAction)
      ((actionTlvParser sdk hl).parseVerified sdk.tlvDecode verifyAction)
      fun out => out.action := by
  refine unordered (actionTlvParser_orderFree sdk hl) ?_ fun _ _ => rfl
  intro s t h
  exact h.requireTags _

open Hyperliquid.Action in
/-- `parse_action` does the same to the session. -/
theorem parseAction_reordered {payload payload' : Bytes} {ds ds' : List TlvData}
    (hds : sdk.tlvDecode payload = some ds) (hds' : sdk.tlvDecode payload' = some ds')
    (h : TlvParser.Reordered noRepeats (typeFirst tagActionType tagAction) ds ds')
    (ctx : HlContext) : parseAction sdk payload ctx = parseAction sdk payload' ctx := by
  unfold parseAction ctxGetActionMetadata
  cases hmd : ctx.metadata with
  | none => rfl
  | some metadata =>
    have hset : ctx.metadata ≠ none := by
      rw [hmd]
      simp
    have hsame := actionTlvParser_unordered sdk ctx payload payload' ds ds' hds hds' h {}
    have hnull : (actionTlvParser sdk ctx).parseVerified sdk.tlvDecode verifyAction payload {} ≠
        .error .nullDeref := actionTlvParser_ne_nullDeref hset payload {}
    have hnull' : (actionTlvParser sdk ctx).parseVerified sdk.tlvDecode verifyAction payload' {} ≠
        .error .nullDeref := actionTlvParser_ne_nullDeref hset payload' {}
    dsimp only
    rcases outcome_cases hsame hnull hnull' with ⟨hr, hr'⟩ | ⟨out, out', hr, hr', haction⟩
    · rw [hr, hr']
    · rw [hr, hr']
      dsimp only
      rw [haction]

open Hyperliquid.Action in
/-- `parse_action` refuses a payload in which the structure comes before its type. -/
theorem parseAction_misordered {payload : Bytes} {ds : List TlvData}
    (hds : sdk.tlvDecode payload = some ds)
    (h : ¬ TlvParser.InOrder (typeFirst tagActionType tagAction) ds) (ctx : HlContext) :
    parseAction sdk payload ctx = .ok (false, ctx) := by
  unfold parseAction ctxGetActionMetadata
  cases hmd : ctx.metadata with
  | none => rfl
  | some metadata =>
    have hset : ctx.metadata ≠ none := by
      rw [hmd]
      simp
    have hnull : (actionTlvParser sdk ctx).parseVerified sdk.tlvDecode verifyAction payload {} ≠
        .error .nullDeref := actionTlvParser_ne_nullDeref hset payload {}
    have hrefused : ∀ out, (actionTlvParser sdk ctx).parseVerified sdk.tlvDecode verifyAction
        payload {} ≠ .ok out := fun out =>
      (actionTlvParser_orderFree sdk ctx).parseVerified_misordered hds h {} out
    dsimp only
    cases hr : (actionTlvParser sdk ctx).parseVerified sdk.tlvDecode verifyAction payload {} with
    | error e =>
      cases e with
      | rejected => rfl
      | nullDeref => exact absurd hr hnull
    | ok out => exact absurd hr (hrefused out)

end

/-- Every field order gives the same structure: what each parser makes of a payload does not
depend on the order of its elements, as long as a type stays before the structure of that type,
and the elements of an array stay in their order; a structure before its type is refused; and what
is accepted has the arm that its type selects. -/
theorem fieldOrder_irrelevant (sdk : Sdk) (hl : HlContext) :
    (∀ payload payload' ds ds', sdk.tlvDecode payload = some ds →
      sdk.tlvDecode payload' = some ds' →
      TlvParser.Reordered noRepeats (typeFirst Action.tagActionType Action.tagAction) ds ds' →
      ∀ ctx, parseAction sdk payload ctx = parseAction sdk payload' ctx) ∧
    Unordered sdk noRepeats (typeFirst OrderRequest.tagOrderType OrderRequest.tagOrder)
      (parseOrderRequest sdk hl) (fun out => out.orderRequest) ∧
    Unordered sdk (· == BulkOrder.tagOrder) noFirst (parseBulkOrder sdk hl)
      (fun out => out.bulkOrder) ∧
    Unordered sdk (· == BulkModify.tagModifyRequest) noFirst (parseBulkModify sdk hl)
      (fun out => out.bulkModify) ∧
    Unordered sdk (· == BulkCancel.tagCancelRequest) noFirst (parseBulkCancel sdk hl)
      (fun out => out.bulkCancel) ∧
    Unordered sdk noRepeats noFirst (BulkModify.parseModifyRequest sdk hl)
      (fun out => out.modifyRequest) ∧
    Unordered sdk noRepeats noFirst (BulkCancel.parseCancelRequest sdk hl)
      (fun out => out.cancelRequest) ∧
    Unordered sdk noRepeats noFirst (BulkOrder.parseBuilderInfo sdk)
      (fun out => out.builderInfo) ∧
    Unordered sdk noRepeats noFirst (parseUpdateLeverage sdk hl)
      (fun out => out.updateLeverage) ∧
    Unordered sdk noRepeats noFirst (parseUpdateIsolatedMargin sdk hl)
      (fun out => out.updateIsolatedMargin) ∧
    Unordered sdk noRepeats noFirst (parseApproveBuilderFee sdk)
      (fun out => out.approveBuilderFee) ∧
    Unordered sdk noRepeats noFirst (parseUserSetAbstraction sdk)
      (fun out => out.userSetAbstraction) ∧
    Unordered sdk noRepeats noFirst (OrderRequest.parseLimitOrder sdk) (fun out => out.limit) ∧
    Unordered sdk noRepeats noFirst (OrderRequest.parseTriggerOrder sdk)
      (fun out => out.trigger) ∧
    (∀ payload ds, sdk.tlvDecode payload = some ds →
      ¬ TlvParser.InOrder (typeFirst Action.tagActionType Action.tagAction) ds →
      ∀ ctx, parseAction sdk payload ctx = .ok (false, ctx)) ∧
    (∀ payload ds, sdk.tlvDecode payload = some ds →
      ¬ TlvParser.InOrder (typeFirst OrderRequest.tagOrderType OrderRequest.tagOrder) ds →
      ∀ out out', parseOrderRequest sdk hl payload out ≠ .ok out') ∧
    (∀ payload ctx ctx', parseAction sdk payload ctx = .ok (true, ctx') →
      ∃ a, ctx'.actions.elems = ctx.actions.elems ++ [a] ∧ a.ArmMatches ∧
        ∀ o ∈ a.orders, o.ArmMatches) ∧
    (∀ payload out, parseOrderRequest sdk hl payload {} = .ok out →
      out.orderRequest.ArmMatches) := by
  refine ⟨?_, ?_, ?_, ?_, ?_, ?_, ?_, ?_, ?_, ?_, ?_, ?_, ?_, ?_, ?_, ?_, ?_, ?_⟩
  · exact fun payload payload' ds ds' hds hds' h ctx => parseAction_reordered sdk hds hds' h ctx
  · exact parseOrderRequest_unordered sdk hl
  · exact parseBulkOrder_unordered sdk hl
  · exact parseBulkModify_unordered sdk hl
  · exact parseBulkCancel_unordered sdk hl
  · exact parseModifyRequest_unordered sdk hl
  · exact parseCancelRequest_unordered sdk hl
  · exact parseBuilderInfo_unordered sdk
  · exact parseUpdateLeverage_unordered sdk hl
  · exact parseUpdateIsolatedMargin_unordered sdk hl
  · exact parseApproveBuilderFee_unordered sdk
  · exact parseUserSetAbstraction_unordered sdk
  · exact parseLimitOrder_unordered sdk
  · exact parseTriggerOrder_unordered sdk
  · exact fun payload ds hds h ctx => parseAction_misordered sdk hds h ctx
  · exact fun payload ds hds h out out' =>
      (OrderRequest.orderRequestTlvParser_orderFree sdk).parseVerified_misordered hds h out out'
  · intro payload ctx ctx' h
    rcases parseAction_cases h with ⟨hret, -⟩ | ⟨-, m, a, -, hwf, -, -, -, -, -, -, helems⟩
    · cases hret
    · exact ⟨a, helems, hwf.arm, hwf.orderArms⟩
  · intro payload out h
    exact (parseOrderRequest_ok rfl h).1

/-- The elements of a leverage update as the client sends them, or with those before the structure
turned round. -/
def leverageElements (reordered : Bool) : List TlvData :=
  let ds := ((Client.sdk.tlvDecode (Client.action Client.updateLeverageAction)).getD [])
  if reordered then (ds.take 4).reverse ++ ds.drop 4 else ds

theorem fieldOrder_irrelevant_leverageElements :
    ∃ payload payload' ctx a ctx', payload ≠ payload' ∧
      parseAction Client.sdk payload ctx = .ok (true, ctx') ∧
      parseAction Client.sdk payload' ctx = .ok (true, ctx') ∧
      ctx'.actions.elems = [a] ∧ a.ArmMatches := by
  let payload (b : Bool) : Bytes := (leverageElements b).flatMap TlvData.raw
  let ctx : HlContext := { metadata := some (Client.ethMetadata .order) }
  have hds : ∀ b, Client.sdk.tlvDecode (payload b) = some (leverageElements b) := by
    decide +kernel
  have hne : payload false ≠ payload true := by decide +kernel
  have hperm : (leverageElements false).Perm (leverageElements true) := by decide +kernel
  have htags : ∀ b, TlvParser.InOrder (typeFirst Action.tagActionType Action.tagAction)
      (leverageElements b) := by
    unfold TlvParser.InOrder typeFirst
    decide +kernel
  have hrun : ((parseAction Client.sdk (payload false) ctx).toOption.map Prod.fst) = some true := by
    decide +kernel
  obtain ⟨hsame, -, -, -, -, -, -, -, -, -, -, -, -, -, -, -, harm, -⟩ :=
    fieldOrder_irrelevant Client.sdk ctx
  have heq := hsame (payload false) (payload true) _ _ (hds false) (hds true)
    ⟨hperm, by simp [noRepeats], iff_of_true (htags false) (htags true)⟩ ctx
  generalize hp : parseAction Client.sdk (payload false) ctx = r at hrun heq
  cases r with
  | error e => cases hrun
  | ok r =>
    obtain ⟨ret, ctx'⟩ := r
    cases hrun
    obtain ⟨a, helems, hmatches, -⟩ := harm _ _ _ hp
    exact ⟨payload false, payload true, ctx, a, ctx', hne, hp, heq.symm, helems, hmatches⟩

end Hyperliquid

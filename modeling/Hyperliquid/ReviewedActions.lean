/-
# The actions that are signed are the ones that were reviewed

A review looks actions up by their type, and signing walks them by their index.  The two agree:
a review is displayed only when the stored actions are exactly those that the operation is
made of (`ActionList`), so the action at an index is the one that the review fetched, or one
of the two kinds that are signed silently beside a reviewed order.

What a review fetches is all that it depends on (`handleUi_congr`).
-/
import Hyperliquid.Client
import Hyperliquid.SessionInvariant
import Hyperliquid.Ui.Screens

namespace Hyperliquid

open Lib

/-! ## 1. What a review fetches -/

/-- The types that the review of an operation looks up. -/
def reviewedTypes (opType : OperationType) : List ActionType :=
  match opType with
  | .order => [.bulkOrder, .updateLeverage]
  | .modify => [.bulkModify, .bulkOrder]
  | .cancel | .cancelSl | .cancelTp | .cancelTpSl => [.bulkCancel]
  | .close => [.bulkOrder]
  | .updateMargin => [.updateIsolatedMargin]
  | .updateLeverage => []

/-- The types that an ORDER session signs without showing them. -/
def silentTypes : List ActionType := [.approveBuilderFee, .userSetAbstraction]

/-- Nothing else that is stored has an influence on the review. -/
theorem handleUi_congr {sdk : Sdk} {ctx ctx' : HlContext} {m : ActionMetadata}
    (h : ∀ t ∈ reviewedTypes m.opType, ctxGetAction t ctx' = ctxGetAction t ctx) :
    handleUi sdk ctx' (some m) = handleUi sdk ctx (some m) := by
  unfold handleUi uiOperation
  cases hop : m.opType with
  | order =>
    have ho := h .bulkOrder (by simp [hop, reviewedTypes])
    have hu := h .updateLeverage (by simp [hop, reviewedTypes])
    simp only [hop, uiOrder, ho, hu]
  | modify =>
    have hm := h .bulkModify (by simp [hop, reviewedTypes])
    have ho := h .bulkOrder (by simp [hop, reviewedTypes])
    simp only [hop, uiModify, hm, ho]
  | cancel => simp only [hop, uiCancel, h .bulkCancel (by simp [hop, reviewedTypes])]
  | updateLeverage => simp only [hop]
  | close => simp only [hop, uiClose, h .bulkOrder (by simp [hop, reviewedTypes])]
  | updateMargin =>
    simp only [hop, uiUpdateMargin, h .updateIsolatedMargin (by simp [hop, reviewedTypes])]
  | cancelSl => simp only [hop, uiCancelTpSl, h .bulkCancel (by simp [hop, reviewedTypes])]
  | cancelTp => simp only [hop, uiCancelTpSl, h .bulkCancel (by simp [hop, reviewedTypes])]
  | cancelTpSl => simp only [hop, uiCancelTpSl, h .bulkCancel (by simp [hop, reviewedTypes])]

/-! ## 2. The list of actions of an operation -/

/-- The types of the actions, in the order they were stored. -/
def ActionList (opType : OperationType) (types : List ActionType) : Prop :=
  match opType with
  | .order => ∃ rest, types.Perm (.bulkOrder :: rest) ∧
      rest.Sublist [.updateLeverage, .approveBuilderFee, .userSetAbstraction]
  | .modify => types = [.bulkModify] ∨ types = [.bulkOrder]
  | .cancel | .cancelSl | .cancelTp | .cancelTpSl => types = [.bulkCancel]
  | .close => types = [.bulkOrder]
  | .updateMargin => types = [.updateIsolatedMargin]
  | .updateLeverage => False

/-- A list without repetition that has one possible element, and has it. -/
theorem eq_singleton {types : List ActionType} {t : ActionType} (hnodup : types.Nodup)
    (honly : ∀ x ∈ types, x = t) (hmem : t ∈ types) : types = [t] := by
  have hperm : types.Perm [t] := by
    refine (List.perm_ext_iff_of_nodup hnodup (List.nodup_singleton t)).mpr fun x => ?_
    rw [List.mem_singleton]
    exact ⟨honly x, fun h => h ▸ hmem⟩
  exact List.perm_singleton.mp hperm

/-- A `BULK_ORDER`, and any of the others. -/
theorem actionList_order {types : List ActionType} (hnodup : types.Nodup)
    (hallowed : ∀ t ∈ types, t ∈ allowedTypes .order) (hmem : .bulkOrder ∈ types) :
    ActionList .order types := by
  have hsub : types.erase .bulkOrder ⊆
      [.updateLeverage, .approveBuilderFee, .userSetAbstraction] := by
    intro t ht
    obtain ⟨hne, hin⟩ := (hnodup.mem_erase_iff).mp ht
    simpa [allowedTypes, hne] using hallowed t hin
  obtain ⟨rest, hrest, hsublist⟩ := (hnodup.erase _).subperm hsub
  exact ⟨rest, (List.perm_cons_erase hmem).trans (hrest.symm.cons _), hsublist⟩

/-- Where a lookup succeeds, its type is among the stored ones. -/
theorem mem_types {ctx : HlContext} {t : ActionType} {a : Action}
    (h : ctxGetAction t ctx = some a) : t ∈ ctx.actions.elems.map Action.type := by
  obtain ⟨ha, rfl⟩ := ctxGetAction_some h
  exact List.mem_map_of_mem ha

/-- A `MODIFY` session holds the action its review looked up, and no other. -/
theorem SessionInv.modify_types {ctx : HlContext} {m : ActionMetadata} {p : ModifyParts}
    (hinv : SessionInv ctx) (hmd : ctx.metadata = some m) (hop : m.opType = .modify)
    (h : ModifyStored ctx p) : ctx.actions.elems.map Action.type = [p.kind] := by
  have hcount := hinv.single m hmd hop
  have hone : ∀ t, t ∈ ctx.actions.elems.map Action.type →
      ctx.actions.elems.map Action.type = [t] := by
    intro t ht
    obtain ⟨x, hx⟩ : ∃ x, ctx.actions.elems.map Action.type = [x] := by
      refine List.length_eq_one_iff.mp (Nat.le_antisymm ?_ (List.length_pos_of_mem ht))
      simpa [HlContext.actionCount, Bounded.count] using hcount
    rw [hx, List.mem_singleton] at ht
    rw [hx, ht]
  cases h with
  | modifies a tp sl hget hshape => exact hone _ (mem_types hget)
  | orders a tp sl hno hget hshape => exact hone _ (mem_types hget)

/-- The kind is one of the two. -/
theorem ModifyStored.kind {ctx : HlContext} {p : ModifyParts} (h : ModifyStored ctx p) :
    p.kind = .bulkModify ∨ p.kind = .bulkOrder := by
  cases h with
  | modifies a tp sl hget hshape => exact .inl rfl
  | orders a tp sl hno hget hshape => exact .inr rfl

/-- The type of a stored action is one of its operation. -/
theorem SessionInv.type_allowed {ctx : HlContext} {m : ActionMetadata} (hinv : SessionInv ctx)
    (hmd : ctx.metadata = some m) {a : Action} (ha : a ∈ ctx.actions.elems) :
    a.type ∈ allowedTypes m.opType := by
  obtain ⟨m', hm', hallowed⟩ := hinv.allowed a ha
  rw [hmd] at hm'
  cases hm'
  exact allowed_iff.mp hallowed

/-- A session that can be reviewed holds exactly the actions of its operation. -/
theorem SessionInv.actionList {sdk : Sdk} {ctx : HlContext} {m : ActionMetadata}
    {screen : UiCtx} (hinv : SessionInv ctx) (hmd : ctx.metadata = some m)
    (h : Rendered sdk ctx m screen) :
    ActionList m.opType (ctx.actions.elems.map Action.type) := by
  have hallowed : ∀ t ∈ ctx.actions.elems.map Action.type, t ∈ allowedTypes m.opType := by
    intro t ht
    obtain ⟨a, ha, rfl⟩ := List.mem_map.mp ht
    exact hinv.type_allowed hmd ha
  have hsingle : ∀ t, allowedTypes m.opType = [t] →
      t ∈ ctx.actions.elems.map Action.type → ctx.actions.elems.map Action.type = [t] := by
    intro t ht hmem
    refine eq_singleton hinv.distinct (fun x hx => ?_) hmem
    have hx' := hallowed x hx
    rwa [ht, List.mem_singleton] at hx'
  cases h with
  | order p hop hr =>
    obtain ⟨a, hget, -⟩ := hr.accepted.orders
    rw [hop] at hallowed ⊢
    exact actionList_order hinv.distinct hallowed (mem_types hget)
  | modify p first hop hr =>
    have htypes := hinv.modify_types hmd hop hr.accepted.stored
    rw [hop]
    rcases hr.accepted.stored.kind with hk | hk
    · exact .inl (by rw [htypes, hk])
    · exact .inr (by rw [htypes, hk])
  | cancel a hop hr =>
    have hmem := mem_types hr.fetched
    simp only [List.mem_cons, List.not_mem_nil, or_false] at hop
    rcases hop with hop | hop | hop | hop
    all_goals
      rw [hop] at hsingle ⊢
      exact hsingle _ rfl hmem
  | close a o hop hr =>
    rw [hop] at hsingle ⊢
    exact hsingle _ rfl (mem_types hr.fetched)
  | updateMargin a hop hr =>
    rw [hop] at hsingle ⊢
    exact hsingle _ rfl (mem_types hr.fetched)

/-- What such a list holds beside the reviewed types. -/
theorem ActionList.reviewed_or_silent {opType : OperationType} {types : List ActionType}
    (h : ActionList opType types) {t : ActionType} (ht : t ∈ types) :
    t ∈ reviewedTypes opType ∨ (opType = .order ∧ t ∈ silentTypes ∧ .bulkOrder ∈ types) := by
  cases opType with
  | order =>
    obtain ⟨rest, hperm, hsub⟩ := h
    have horder : .bulkOrder ∈ types := hperm.mem_iff.mpr List.mem_cons_self
    rcases List.mem_cons.mp (hperm.mem_iff.mp ht) with rfl | hrest
    · exact .inl (by decide)
    · have hmem := hsub.subset hrest
      simp only [List.mem_cons, List.not_mem_nil, or_false] at hmem
      rcases hmem with rfl | rfl | rfl
      · exact .inl (by decide)
      · exact .inr ⟨rfl, by decide, horder⟩
      · exact .inr ⟨rfl, by decide, horder⟩
  | modify =>
    rcases h with h | h
    all_goals
      rw [h, List.mem_singleton] at ht
      exact .inl (by rw [ht]; decide)
  | updateLeverage => exact h.elim
  | _ =>
    have h' : types = _ := h
    rw [h', List.mem_singleton] at ht
    exact .inl (by rw [ht]; decide)

/-! ## 3. Every run -/

/-- In every reachable session that can be reviewed: the actions are those of the operation;
the review renders what it fetched, and nothing else has an influence on it; and the action at
an index is the one that was fetched for its type, or a silent one beside a `BULK_ORDER` that
was fetched. -/
theorem reviewed_actions (sdk : Sdk) (inputs : List Input) (screen : UiCtx)
    (h : handleUi sdk ((app sdk).state inputs).ctx ((app sdk).state inputs).ctx.metadata =
      some screen) :
    let ctx : HlContext := ((app sdk).state inputs).ctx
    ∃ m, ctx.metadata = some m ∧ ActionList m.opType (ctx.actions.elems.map Action.type) ∧
      Rendered sdk ctx m screen ∧
      (∀ ctx' : HlContext, (∀ t ∈ reviewedTypes m.opType, ctxGetAction t ctx' = ctxGetAction t ctx) →
        handleUi sdk ctx' (some m) = some screen) ∧
      ∀ (i : Nat) (a : Action), ctx.actions.elems[i]? = some a →
        (a.type ∈ reviewedTypes m.opType ∧ ctxGetAction a.type ctx = some a) ∨
        (m.opType = .order ∧ a.type ∈ silentTypes ∧
          ∃ b, ctxGetAction .bulkOrder ctx = some b) := by
  intro ctx
  have hinv : SessionInv ctx := sessionInv_state sdk inputs
  obtain ⟨m, hmd, hr⟩ := handleUi_some h
  have hlist := hinv.actionList hmd hr
  refine ⟨m, hmd, hlist, hr, ?_, ?_⟩
  · intro ctx' hget
    rw [handleUi_congr hget, ← hmd]
    exact h
  · intro i a ha
    have hmem : a ∈ ctx.actions.elems := List.mem_of_getElem? ha
    rcases hlist.reviewed_or_silent (List.mem_map_of_mem hmem) with hrev | ⟨hop, hsilent, ho⟩
    · exact .inl ⟨hrev, ctxGetAction_of_mem hinv.distinct hmem⟩
    · obtain ⟨b, hb, hty⟩ := List.mem_map.mp ho
      have hget := ctxGetAction_of_mem hinv.distinct hb
      rw [hty] at hget
      exact .inr ⟨hop, hsilent, b, hget⟩

/-- An order with its leverage, and a silent action. -/
def openSession : List Input :=
  Client.session (Client.ethMetadata .order)
    [Client.approveBuilderFeeAction, Client.updateLeverageAction,
     Client.bulkOrderAction [Client.limitRequest true false .gtc "1973.7" "0.0072"]]

theorem reviewed_actions_openSession :
    let ctx : HlContext := ((app Client.sdk).state openSession).ctx
    ∃ screen m, handleUi Client.sdk ctx ctx.metadata = some screen ∧ ctx.metadata = some m ∧
      ActionList m.opType (ctx.actions.elems.map Action.type) := by
  intro ctx
  have hsome : (handleUi Client.sdk ctx ctx.metadata).isSome = true := by decide +kernel
  obtain ⟨screen, hs⟩ := Option.isSome_iff_exists.mp hsome
  obtain ⟨m, hmd, hlist, -⟩ := reviewed_actions Client.sdk openSession screen hs
  exact ⟨screen, m, hs, hmd, hlist⟩

end Hyperliquid

/-
# The session context (`hl_context.c`)

The verified metadata of the session, the actions received so far, and the index of the next
action to sign.  The functions take the context and return it; the ones that return a flag
return it beside the new context.
-/
import Hyperliquid.Types
import Hyperliquid.Lib.Tlv

namespace Hyperliquid

open Lib

/-! ## 1. The functions -/

def ctxSaveActionMetadata (metadata : ActionMetadata) (ctx : HlContext) : HlContext :=
  { ctx with metadata := some metadata }

def ctxGetActionMetadata (ctx : HlContext) : Option ActionMetadata := ctx.metadata

def ctxPushAction (action : Action) (ctx : HlContext) : Bool × HlContext :=
  if h : ctx.actionCount ≥ maxActionCount then (false, ctx)
  -- new actions are rejected once signing has started
  else if ctx.actionIndex > 0 then (false, ctx)
  -- no second action of a type
  else if ctx.actions.elems.any fun a => action.type == a.type then (false, ctx)
  else (true, { ctx with actions := ctx.actions.push action (Nat.lt_of_not_ge h) })

def ctxGetCurrentAction (ctx : HlContext) : Option Action :=
  if ctx.actionIndex ≥ ctx.actionCount then none else ctx.actions.elems[ctx.actionIndex]?

/-- The index is a `uint8_t`. -/
def ctxSwitchToNextAction (ctx : HlContext) : HlContext :=
  { ctx with actionIndex := (ctx.actionIndex + 1) % 256 }

def ctxGetAction (actionType : ActionType) (ctx : HlContext) : Option Action :=
  ctx.actions.elems.find? fun a => actionType == a.type

def ctxCurrentActionIsFirst (ctx : HlContext) : Bool := ctx.actionIndex == 0

/-- The difference of two `uint8_t`. -/
def ctxRemainingActions (ctx : HlContext) : Nat :=
  (ctx.actionCount + 256 - ctx.actionIndex) % 256

/-- `explicit_bzero(&g_ctx, sizeof(g_ctx))`. -/
def ctxReset : HlContext := {}

/-- `ctx_get_action_metadata()->asset_id != asset`, the check that four parsers end with: it
dereferences the metadata. -/
def checkAsset (ctx : HlContext) (asset : UInt32) : Except Failure Unit :=
  match ctxGetActionMetadata ctx with
  | none => .error .nullDeref
  | some metadata => if metadata.assetId != asset then .error .rejected else .ok ()

/-! ## 2. What they do -/

/-- A push that succeeds appends one action, of a type that was not there, before signing has
started; one that fails changes nothing. -/
theorem ctxPushAction_cases (action : Action) (ctx : HlContext) :
    (ctxPushAction action ctx = (false, ctx)) ∨
    (ctx.actionIndex = 0 ∧ (∀ a ∈ ctx.actions.elems, a.type ≠ action.type) ∧
      ∃ ctx', ctxPushAction action ctx = (true, ctx') ∧ ctx'.metadata = ctx.metadata ∧
        ctx'.actionIndex = 0 ∧ ctx'.actions.elems = ctx.actions.elems ++ [action]) := by
  unfold ctxPushAction
  split
  · exact .inl rfl
  · split
    · exact .inl rfl
    · rename_i hidx
      split
      · exact .inl rfl
      · rename_i hnew
        have hzero : ctx.actionIndex = 0 := by omega
        refine .inr ⟨hzero, ?_, _, rfl, rfl, hzero, rfl⟩
        intro a ha hty
        exact hnew (List.any_eq_true.mpr ⟨a, ha, by simp [hty]⟩)

/-- An action that is found is stored and has the type that was asked for. -/
theorem ctxGetAction_some {t : ActionType} {ctx : HlContext} {a : Action}
    (h : ctxGetAction t ctx = some a) : a ∈ ctx.actions.elems ∧ a.type = t := by
  refine ⟨List.mem_of_find?_eq_some h, ?_⟩
  have hty := List.find?_some h
  exact (beq_iff_eq.mp hty).symm

/-- A type that is not found is not stored. -/
theorem ctxGetAction_none {t : ActionType} {ctx : HlContext}
    (h : ctxGetAction t ctx = none) : ∀ a ∈ ctx.actions.elems, a.type ≠ t := by
  intro a ha hty
  have hne := List.find?_eq_none.mp h a ha
  simp [hty] at hne

/-- With distinct types, an action is what a lookup of its type finds. -/
theorem ctxGetAction_of_mem {ctx : HlContext} {a : Action}
    (hnd : (ctx.actions.elems.map Action.type).Nodup) (ha : a ∈ ctx.actions.elems) :
    ctxGetAction a.type ctx = some a := by
  cases h : ctxGetAction a.type ctx with
  | none => exact absurd rfl (ctxGetAction_none h a ha)
  | some b =>
    obtain ⟨hb, hty⟩ := ctxGetAction_some h
    rw [List.inj_on_of_nodup_map hnd hb ha hty]

/-- The current action is the one at the index. -/
theorem ctxGetCurrentAction_some {ctx : HlContext} {a : Action}
    (h : ctxGetCurrentAction ctx = some a) :
    ctx.actionIndex < ctx.actionCount ∧ ctx.actions.elems[ctx.actionIndex]? = some a := by
  unfold ctxGetCurrentAction at h
  split at h
  · cases h
  · exact ⟨by omega, h⟩

theorem checkAsset_ok {ctx : HlContext} {asset : UInt32} :
    checkAsset ctx asset = .ok () ↔ ∃ m, ctx.metadata = some m ∧ asset = m.assetId := by
  unfold checkAsset ctxGetActionMetadata
  cases ctx.metadata with
  | none => simp
  | some m =>
    by_cases h : m.assetId = asset
    · simp [h]
    · have h' : ¬ asset = m.assetId := fun he => h he.symm
      simp [h, h']

/-- With metadata, nothing is read through a null pointer. -/
theorem checkAsset_ne_nullDeref {ctx : HlContext} {asset : UInt32}
    (h : ctx.metadata ≠ none) : checkAsset ctx asset ≠ .error .nullDeref := by
  unfold checkAsset ctxGetActionMetadata
  cases hm : ctx.metadata with
  | none => exact absurd hm h
  | some m => simp only; split <;> simp

end Hyperliquid

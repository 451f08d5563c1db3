/-
# The invariant of the session context

What holds of the stored metadata, actions and index after every run: the action types are
distinct and allowed by the operation, every asset is the one of the metadata, and the index
is within the actions (`SessionInv`).  Each move of a session preserves it.

The bounds follow: an operation allows at most four types, so at most four actions are ever
stored, the count of remaining actions does not wrap, and the parsers, which dereference the
metadata, never do so without metadata.
-/
import Hyperliquid.Session

namespace Hyperliquid

open Lib Hyperliquid.Action

/-! ## 1. The invariant -/

/-- `is_action_compatible`, before any action is stored: the types that the operation allows. -/
def Allowed (opType : OperationType) (t : ActionType) : Prop :=
  isActionCompatible {} t opType = true

structure SessionInv (ctx : HlContext) : Prop where
  distinct : (ctx.actions.elems.map Action.type).Nodup
  allowed : ∀ a ∈ ctx.actions.elems, ∃ m, ctx.metadata = some m ∧ Allowed m.opType a.type
  single : ∀ m, ctx.metadata = some m → m.opType = .modify → ctx.actionCount ≤ 1
  wellFormed : ∀ a ∈ ctx.actions.elems, a.WellFormed
  assets : ∀ a ∈ ctx.actions.elems, ∀ x ∈ a.assets,
    ∃ m, ctx.metadata = some m ∧ x = m.assetId
  index : ctx.actionIndex ≤ ctx.actionCount

/-- The types an operation allows. -/
def allowedTypes (opType : OperationType) : List ActionType :=
  match opType with
  | .order => [.bulkOrder, .updateLeverage, .approveBuilderFee, .userSetAbstraction]
  | .modify => [.bulkModify, .bulkOrder]
  | .cancel | .cancelSl | .cancelTp | .cancelTpSl => [.bulkCancel]
  | .close => [.bulkOrder]
  | .updateMargin => [.updateIsolatedMargin]
  | .updateLeverage => []

theorem allowed_iff {opType : OperationType} {t : ActionType} :
    Allowed opType t ↔ t ∈ allowedTypes opType := by
  unfold Allowed
  cases opType <;> cases t <;> decide

/-- An operation allows at most four types. -/
theorem length_allowedTypes_le (opType : OperationType) : (allowedTypes opType).length ≤ 4 := by
  cases opType <;> decide

/-- What is compatible with the stored actions is allowed to begin with. -/
theorem allowed_of_compatible {ctx : HlContext} {t : ActionType} {opType : OperationType}
    (h : isActionCompatible ctx t opType = true) : Allowed opType t := by
  cases opType with
  | modify =>
    unfold isActionCompatible at h
    simp only at h
    split at h
    · cases h
    · rename_i hty
      unfold Allowed isActionCompatible
      simp only
      rw [if_neg hty]
      rfl
  | _ => exact h

/-- A `MODIFY` session takes an action only while it holds neither kind it allows. -/
theorem compatible_modify {ctx : HlContext} {t : ActionType}
    (h : isActionCompatible ctx t .modify = true) :
    ∀ a ∈ ctx.actions.elems, a.type ≠ .bulkModify ∧ a.type ≠ .bulkOrder := by
  unfold isActionCompatible at h
  simp only at h
  split at h
  · cases h
  · rw [Bool.and_eq_true, Option.isNone_iff_eq_none, Option.isNone_iff_eq_none] at h
    exact fun a ha => ⟨ctxGetAction_none h.1 a ha, ctxGetAction_none h.2 a ha⟩

namespace SessionInv

/-- The bound on the number of actions. -/
theorem actionCount_le {ctx : HlContext} (h : SessionInv ctx) : ctx.actionCount ≤ 4 := by
  cases hmd : ctx.metadata with
  | none =>
    have hnil : ctx.actions.elems = [] := by
      refine List.eq_nil_iff_forall_not_mem.mpr fun a ha => ?_
      obtain ⟨m, hm, -⟩ := h.allowed a ha
      rw [hmd] at hm
      cases hm
    simp [HlContext.actionCount, Bounded.count, hnil]
  | some m =>
    have hsub : ctx.actions.elems.map Action.type ⊆ allowedTypes m.opType := by
      intro t ht
      obtain ⟨a, ha, rfl⟩ := List.mem_map.mp ht
      obtain ⟨m', hm', hallowed⟩ := h.allowed a ha
      rw [hmd] at hm'
      cases hm'
      exact allowed_iff.mp hallowed
    calc ctx.actionCount = (ctx.actions.elems.map Action.type).length := by
          simp [HlContext.actionCount, Bounded.count]
      _ ≤ (allowedTypes m.opType).length := (h.distinct.subperm hsub).length_le
      _ ≤ 4 := length_allowedTypes_le m.opType

/-- The remaining actions are counted without wrapping. -/
theorem remaining {ctx : HlContext} (h : SessionInv ctx) :
    ctxRemainingActions ctx + ctx.actionIndex = ctx.actionCount := by
  have hidx := h.index
  have hcount := h.actionCount_le
  unfold ctxRemainingActions
  omega

theorem empty : SessionInv {} where
  distinct := List.nodup_nil
  allowed := by simp [Bounded.empty]
  single := by simp
  wellFormed := by simp [Bounded.empty]
  assets := by simp [Bounded.empty]
  index := Nat.le_refl 0

/-- A fresh session with metadata. -/
theorem load (metadata : ActionMetadata) : SessionInv { metadata := some metadata } where
  distinct := List.nodup_nil
  allowed := by simp [Bounded.empty]
  single := by simp [HlContext.actionCount, Bounded.count, Bounded.empty]
  wellFormed := by simp [Bounded.empty]
  assets := by simp [Bounded.empty]
  index := Nat.le_refl 0

/-- One more action. -/
theorem push {ctx ctx' : HlContext} {metadata : ActionMetadata} {a : Action}
    (h : SessionInv ctx) (hmd : ctx.metadata = some metadata) (hwf : a.WellFormed)
    (hassets : a.AssetsMatch ctx) (hcompat : isActionCompatible ctx a.type metadata.opType = true)
    (hnew : ∀ b ∈ ctx.actions.elems, b.type ≠ a.type) (hmd' : ctx'.metadata = ctx.metadata)
    (hidx' : ctx'.actionIndex = 0)
    (helems : ctx'.actions.elems = ctx.actions.elems ++ [a]) : SessionInv ctx' where
  distinct := by
    rw [helems, List.map_append, List.map_singleton]
    refine List.nodup_append.mpr ⟨h.distinct, by simp, ?_⟩
    intro t ht u hu
    rw [List.mem_singleton] at hu
    obtain ⟨b, hb, rfl⟩ := List.mem_map.mp ht
    rw [hu]
    exact hnew b hb
  allowed := by
    rw [helems, hmd']
    refine List.forall_mem_append.mpr ⟨h.allowed, ?_⟩
    simp only [List.mem_singleton, forall_eq]
    exact ⟨metadata, hmd, allowed_of_compatible hcompat⟩
  single := by
    intro m hm hop
    rw [hmd', hmd] at hm
    cases hm
    rw [hop] at hcompat
    have hnil : ctx.actions.elems = [] := by
      refine List.eq_nil_iff_forall_not_mem.mpr fun b hb => ?_
      obtain ⟨m', hm', hallowed⟩ := h.allowed b hb
      rw [hmd] at hm'
      cases hm'
      rw [hop, allowed_iff] at hallowed
      obtain ⟨h1, h2⟩ := compatible_modify hcompat b hb
      simp [allowedTypes, h1, h2] at hallowed
    simp [HlContext.actionCount, Bounded.count, helems, hnil]
  wellFormed := by
    rw [helems]
    refine List.forall_mem_append.mpr ⟨h.wellFormed, ?_⟩
    simpa using hwf
  assets := by
    rw [helems, hmd']
    refine List.forall_mem_append.mpr ⟨h.assets, ?_⟩
    simp only [List.mem_singleton, forall_eq]
    exact hassets
  index := by
    rw [hidx']
    exact Nat.zero_le _

/-- The current action was there, so the index may pass it. -/
theorem next {ctx : HlContext} {a : Action} (h : SessionInv ctx)
    (ha : ctxGetCurrentAction ctx = some a) : SessionInv (ctxSwitchToNextAction ctx) := by
  obtain ⟨hlt, -⟩ := ctxGetCurrentAction_some ha
  refine ⟨h.distinct, h.allowed, h.single, h.wellFormed, h.assets, ?_⟩
  have hle := Nat.mod_le (ctx.actionIndex + 1) 256
  show (ctx.actionIndex + 1) % 256 ≤ ctx.actionCount
  omega

end SessionInv

/-! ## 2. Every run -/

/-- Each move preserves the invariant. -/
theorem move_sessionInv {sdk : Sdk} {s s' : Session} {events : List Event}
    (hm : Move sdk s events s') (h : SessionInv s.ctx) : SessionInv s'.ctx := by
  cases hm with
  | quiet e he => exact h
  | reset hrev hc => exact .empty
  | load metadata hrev hc hctx => exact .load metadata
  | push ctx metadata a hrev hc hmd hwf hassets hcompat hidx hnew hmd' hidx' helems =>
    exact h.push hmd hwf hassets hcompat hnew hmd' hidx' helems
  | path signing hrev hc hidx => exact h
  | review screen hrev hc hidx hui => exact h
  | confirm screen hrev => exact h
  | reject screen hrev => exact h
  | sign a sig hrev hok ha => exact h.next ha
  | lapse => exact h

theorem sessionInv_state (sdk : Sdk) (inputs : List Input) :
    SessionInv ((app sdk).state inputs).ctx :=
  (app_refines sdk).induction (P := fun _ s => SessionInv s.ctx) .empty
    (fun _ _ _ _ hm h => move_sessionInv hm h) inputs

/-! ## 3. No null pointer is dereferenced -/

theorem runPayloadHandler_returns (sdk : Sdk) (env : Env) (handler : PayloadHandler)
    (payload : Bytes) (ctx : HlContext) :
    ∃ r, runPayloadHandler sdk env handler payload ctx = .ok r := by
  cases handler with
  | parseActionMetadata =>
    obtain ⟨r, hr⟩ := parseActionMetadata_returns sdk env payload ctx
    exact ⟨_, by simp only [runPayloadHandler, hr]; rfl⟩
  | parseAction =>
    obtain ⟨r, hr⟩ := parseAction_returns sdk payload ctx
    exact ⟨_, by simp only [runPayloadHandler, hr]; rfl⟩

theorem handlerChunked_returns (sdk : Sdk) (handler : PayloadHandler) (env : Env) (first : Bool)
    (data : Bytes) (w : World) : ∃ r, handlerChunked sdk handler env first data w = .ok r := by
  obtain ⟨r, hr⟩ := ChunkedPayload.processChunkedPayload_returns
    (runPayloadHandler_returns sdk env) first data handler w.payload w.ctx
  exact ⟨_, by simp only [handlerChunked, hr]; rfl⟩

/-- Every command is answered. -/
theorem apduDispatcher_returns (sdk : Sdk) (env : Env) (cmd : Command) (w : World) :
    ∃ r, apduDispatcher sdk env cmd w = .ok r := by
  rcases apduDispatcher_cases sdk env cmd w with
    ⟨sw, hr, -⟩ | hr | ⟨handler, -, hr⟩ | ⟨-, hr⟩
  · exact ⟨_, hr⟩
  · exact ⟨_, hr⟩
  · rw [hr]
    exact handlerChunked_returns sdk handler env (cmd.p1 == p1First) cmd.data w
  · exact ⟨_, hr⟩

/-- Only a dispatched command can set the mark, and none does. -/
theorem appMainStep_faulted {sdk : Sdk} {w : World} (i : Input) (hcomm : w.Comm)
    (h : w.faulted = false) : (appMainStep sdk w i).1.faulted = false := by
  have hcases := appMainStep_cases sdk w i
  generalize appMainStep sdk w i = r at hcases ⊢
  cases hcases with
  | ignored i => exact h
  | stopped => exact h
  | answered cmd env sw _ => exact h
  | faulted cmd env e _ hr =>
    obtain ⟨r, hok⟩ := apduDispatcher_returns sdk env cmd w
    rw [hr] at hok
    cases hok
  | dispatched cmd env r running hon hr _ =>
    exact (apduDispatcher_handled (hcomm.review_none hon) hcomm hr).faulted.trans h
  | chosen confirm env screen _ =>
    obtain ⟨rawBuf, ctx', hworld, -⟩ := reviewChoice_world sdk env confirm w
    rw [hworld]
    exact h

/-- No run dereferences a null pointer. -/
theorem faulted_state (sdk : Sdk) (inputs : List Input) :
    ((app sdk).state inputs).faulted = false := by
  have hboth : ((app sdk).state inputs).Comm ∧ ((app sdk).state inputs).faulted = false :=
    (app sdk).state_induction (P := fun w => w.Comm ∧ w.faulted = false) ⟨rfl, rfl⟩
      (fun w i h => ⟨(app_refines sdk).inv w i h.1, appMainStep_faulted i h.1 h.2⟩) inputs
  exact hboth.2

/-! ## 4. The invariant of the application -/

/-- In every state reached from power-on the invariant holds, at most four actions are stored,
the remaining ones are counted without wrapping, and nothing missing was dereferenced. -/
theorem sessionContext_invariant (sdk : Sdk) (inputs : List Input) :
    let w := (app sdk).state inputs
    SessionInv w.ctx ∧ w.ctx.actionIndex ≤ w.ctx.actionCount ∧ w.ctx.actionCount ≤ 4 ∧
      ctxRemainingActions w.ctx + w.ctx.actionIndex = w.ctx.actionCount ∧
      w.faulted = false := by
  have hinv := sessionInv_state sdk inputs
  exact ⟨hinv, hinv.index, hinv.actionCount_le, hinv.remaining, faulted_state sdk inputs⟩

end Hyperliquid

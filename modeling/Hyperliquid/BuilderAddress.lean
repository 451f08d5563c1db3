/-
# The builder address of the metadata binds nothing

The metadata may name a builder (`builder_addr`), and it is parsed and stored.  The actions name
one too: an `APPROVE_BUILDER_FEE` always, a `BULK_ORDER` if it has a builder.  Nothing compares
them: `verify_approve_builder_fee` and `verify_builder_info` check that their elements are
present, and no other function reads `builder_addr`.  A session can store a builder that is not
the one of the metadata (`builder_mismatch`).

What holds is that the address has no influence (`builderAddr_unused`): from any reachable
state, put another address in the metadata, and every further run accepts the same commands,
stores the same actions, shows the same reviews and makes the same signatures.
-/
import Hyperliquid.Client
import Hyperliquid.Session

namespace Hyperliquid

open Lib

/-! ## 1. All but the builder address -/

def ActionMetadata.withBuilder (b : Option Address) (m : ActionMetadata) : ActionMetadata :=
  { m with builderAddr := b }

def HlContext.withBuilder (b : Option Address) (ctx : HlContext) : HlContext :=
  { ctx with metadata := ctx.metadata.map (.withBuilder b) }

/-- The state with another builder address in the metadata, if there is metadata. -/
def World.withBuilder (b : Option Address) (w : World) : World :=
  { w with ctx := w.ctx.withBuilder b }

def Snapshot.withBuilder (b : Option Address) (s : Snapshot) : Snapshot :=
  { s with metadata := s.metadata.map (.withBuilder b) }

/-- The event, without the builder address of the metadata. -/
def Event.hideBuilder : Event → Event
  | .useCaseReview built screen => .useCaseReview (built.withBuilder none) screen
  | .signature i a now sig => .signature i a (now.withBuilder none) sig
  | e => e

/-- The state, without the builder address of the metadata. -/
abbrev HlContext.hideBuilder (ctx : HlContext) : HlContext := ctx.withBuilder none

abbrev World.hideBuilder (w : World) : World := w.withBuilder none

def Outcome.hideBuilder (r : Outcome) : Outcome :=
  ⟨r.ret, r.world.hideBuilder, r.events.map Event.hideBuilder⟩

theorem HlContext.hideBuilder_withBuilder (b : Option Address) (ctx : HlContext) :
    (ctx.withBuilder b).hideBuilder = ctx.hideBuilder := by
  unfold HlContext.hideBuilder HlContext.withBuilder
  cases ctx.metadata <;> rfl

theorem World.hideBuilder_withBuilder (b : Option Address) (w : World) :
    (w.withBuilder b).hideBuilder = w.hideBuilder := by
  show { w with ctx := (w.ctx.withBuilder b).hideBuilder } = w.hideBuilder
  rw [HlContext.hideBuilder_withBuilder]
  rfl

theorem Snapshot.hideBuilder_withBuilder (b : Option Address) (s : Snapshot) :
    (s.withBuilder b).withBuilder none = s.withBuilder none := by
  unfold Snapshot.withBuilder
  cases s.metadata <;> rfl

theorem Event.hideBuilder_idem (e : Event) : e.hideBuilder.hideBuilder = e.hideBuilder := by
  cases e with
  | useCaseReview built screen =>
    simp only [hideBuilder, Snapshot.hideBuilder_withBuilder]
  | signature i a now sig => simp only [hideBuilder, Snapshot.hideBuilder_withBuilder]
  | _ => rfl

/-- An outcome without the builder address. -/
abbrev Outcome.view (r : Outcome) : Int × World × List Event :=
  r.through World.hideBuilder Event.hideBuilder

theorem Outcome.view_hideBuilder (r : Outcome) : r.hideBuilder.view = r.view := by
  simp only [view, through, hideBuilder, World.hideBuilder_withBuilder, List.map_map]
  congr 2
  exact List.map_congr_left fun e _ => Event.hideBuilder_idem e

/-- Quiet events say nothing of the metadata. -/
theorem map_hideBuilder_of_quiet {events : List Event} (h : ∀ e ∈ events, e.Quiet) :
    events.map Event.hideBuilder = events := by
  refine (List.map_congr_left fun e he => ?_).trans (List.map_id events)
  have hq := h e he
  cases e <;> first | rfl | exact hq.elim

theorem Outcome.after_hideBuilder {r : Outcome} {events : List Event}
    (h : ∀ e ∈ events, e.Quiet) : (r.after events).hideBuilder = r.hideBuilder.after events := by
  unfold Outcome.hideBuilder Outcome.after
  simp only [List.map_append, map_hideBuilder_of_quiet h]

/-! ## 2. The parsers read the asset of the metadata only -/

theorem checkAsset_hideBuilder (ctx : HlContext) :
    checkAsset ctx.hideBuilder = checkAsset ctx := by
  funext asset
  unfold checkAsset ctxGetActionMetadata HlContext.hideBuilder HlContext.withBuilder
  cases ctx.metadata <;> rfl

section

variable (sdk : Sdk) (env : Env)

theorem parseOrderRequest_hideBuilder (ctx : HlContext) :
    parseOrderRequest sdk ctx.hideBuilder = parseOrderRequest sdk ctx := by
  have hverify : OrderRequest.verifyOrderRequest ctx.hideBuilder =
      OrderRequest.verifyOrderRequest ctx := by
    funext out
    simp only [OrderRequest.verifyOrderRequest, checkAsset_hideBuilder]
  funext payload out
  rw [parseOrderRequest, hverify, parseOrderRequest]

theorem parseArm_hideBuilder (ctx : HlContext) :
    Action.parseArm sdk ctx.hideBuilder = Action.parseArm sdk ctx := by
  have horder := parseOrderRequest_hideBuilder sdk ctx
  have hasset := checkAsset_hideBuilder ctx
  funext a payload
  unfold Action.parseArm
  cases a.type with
  | bulkOrder =>
    have hhandle : BulkOrder.handleOrder sdk ctx.hideBuilder = BulkOrder.handleOrder sdk ctx := by
      rw [BulkOrder.handleOrder, horder, BulkOrder.handleOrder]
    simp only [parseBulkOrder, BulkOrder.bulkOrderTlvParser, hhandle]
  | bulkModify =>
    have hhandle : BulkModify.handleOrder sdk ctx.hideBuilder =
        BulkModify.handleOrder sdk ctx := by
      funext data out
      rw [BulkModify.handleOrder, horder, BulkModify.handleOrder]
    have hparse : BulkModify.parseModifyRequest sdk ctx.hideBuilder =
        BulkModify.parseModifyRequest sdk ctx := by
      funext payload out
      simp only [BulkModify.parseModifyRequest, BulkModify.modifyRequestTlvParser, hhandle]
    have hmodify : BulkModify.handleModifyRequest sdk ctx.hideBuilder =
        BulkModify.handleModifyRequest sdk ctx := by
      rw [BulkModify.handleModifyRequest, hparse, BulkModify.handleModifyRequest]
    simp only [parseBulkModify, BulkModify.bulkModifyTlvParser, hmodify]
  | bulkCancel =>
    have hverify : BulkCancel.verifyCancelRequest ctx.hideBuilder =
        BulkCancel.verifyCancelRequest ctx := by
      funext out
      simp only [BulkCancel.verifyCancelRequest, hasset]
    have hparse : BulkCancel.parseCancelRequest sdk ctx.hideBuilder =
        BulkCancel.parseCancelRequest sdk ctx := by
      funext payload out
      rw [BulkCancel.parseCancelRequest, hverify, BulkCancel.parseCancelRequest]
    have hcancel : BulkCancel.handleCancelRequest sdk ctx.hideBuilder =
        BulkCancel.handleCancelRequest sdk ctx := by
      rw [BulkCancel.handleCancelRequest, hparse, BulkCancel.handleCancelRequest]
    simp only [parseBulkCancel, BulkCancel.bulkCancelTlvParser, hcancel]
  | updateLeverage =>
    have hverify : UpdateLeverage.verifyUpdateLeverage ctx.hideBuilder =
        UpdateLeverage.verifyUpdateLeverage ctx := by
      funext out
      simp only [UpdateLeverage.verifyUpdateLeverage, hasset]
    simp only [parseUpdateLeverage, hverify]
  | approveBuilderFee => rfl
  | updateIsolatedMargin =>
    have hverify : UpdateIsolatedMargin.verifyUpdateIsolatedMargin ctx.hideBuilder =
        UpdateIsolatedMargin.verifyUpdateIsolatedMargin ctx := by
      funext out
      simp only [UpdateIsolatedMargin.verifyUpdateIsolatedMargin, hasset]
    simp only [parseUpdateIsolatedMargin, hverify]
  | userSetAbstraction => rfl

theorem ctxPushAction_hideBuilder (a : Action) (ctx : HlContext) :
    ctxPushAction a ctx.hideBuilder = Prod.map id HlContext.hideBuilder (ctxPushAction a ctx) := by
  unfold ctxPushAction
  show (if h : ctx.actionCount ≥ maxActionCount then _ else _) = _
  split
  · rfl
  · show (if ctx.actionIndex > 0 then _ else _) = _
    split
    · rfl
    · show (if ctx.actions.elems.any _ then _ else _) = _
      split <;> rfl

theorem parseAction_hideBuilder (payload : Bytes) (ctx : HlContext) :
    parseAction sdk payload ctx.hideBuilder =
      (parseAction sdk payload ctx).map (Prod.map id HlContext.hideBuilder) := by
  have hparser : Action.actionTlvParser sdk ctx.hideBuilder = Action.actionTlvParser sdk ctx := by
    have hhandle : Action.handleAction sdk ctx.hideBuilder = Action.handleAction sdk ctx := by
      funext d out
      rw [Action.handleAction, parseArm_hideBuilder, Action.handleAction]
    rw [Action.actionTlvParser, hhandle, Action.actionTlvParser]
  unfold parseAction
  rw [hparser]
  cases hmd : ctx.metadata with
  | none =>
    have hhide : ctxGetActionMetadata ctx.hideBuilder = none := by
      simp only [ctxGetActionMetadata, HlContext.hideBuilder, HlContext.withBuilder, hmd,
        Option.map_none]
    have hget : ctxGetActionMetadata ctx = none := hmd
    rw [hhide, hget]
    rfl
  | some metadata =>
    have hhide : ctxGetActionMetadata ctx.hideBuilder = some (metadata.withBuilder none) := by
      simp only [ctxGetActionMetadata, HlContext.hideBuilder, HlContext.withBuilder, hmd,
        Option.map_some]
    have hget : ctxGetActionMetadata ctx = some metadata := hmd
    rw [hhide, hget]
    simp only
    split
    · rfl
    · rfl
    · rename_i out hout
      have hcompat : Action.isActionCompatible ctx.hideBuilder out.action.type
          (metadata.withBuilder none).opType =
        Action.isActionCompatible ctx out.action.type metadata.opType := rfl
      rw [hcompat]
      split
      · rfl
      · rw [ctxPushAction_hideBuilder]
        rfl

/-! ## 3. Reviews and hashes do not read it -/

theorem handleUi_hideBuilder (ctx : HlContext) :
    handleUi sdk ctx.hideBuilder (ctxGetActionMetadata ctx.hideBuilder) =
      handleUi sdk ctx (ctxGetActionMetadata ctx) := by
  obtain ⟨metadata, actions, index⟩ := ctx
  cases metadata with
  | none => rfl
  | some metadata => rfl

/-! ## 4. Handlers -/

theorem runCx_hideBuilder {α : Type} (m : Cx α) (w : World) :
    runCx env m w.hideBuilder =
      ((runCx env m w).1, (runCx env m w).2.1.hideBuilder, (runCx env m w).2.2) := rfl

theorem ioSendSw_hideBuilder (sw : StatusWord) (w : World) :
    ioSendSw env sw w.hideBuilder = (ioSendSw env sw w).hideBuilder := rfl

theorem handlerGetAddr_hideBuilder (payload : Bytes) (w : World) :
    handlerGetAddr sdk env payload w.hideBuilder =
      (handlerGetAddr sdk env payload w).hideBuilder := by
  unfold handlerGetAddr
  split
  · rfl
  · rename_i pathLength rest
    split
    · rfl
    · rw [runCx_hideBuilder]
      generalize hrun : runCx env (deriveAddrFromPath sdk) w = res
      obtain ⟨addr, w', calls⟩ := res
      have hq := quiet_derive (runCx_cases hrun).2
      simp only
      split
      · rw [Outcome.after_hideBuilder (hq _ _ _)]
        rfl
      · rw [Outcome.after_hideBuilder (hq _ _ _)]
        rfl

theorem signAction_hideBuilder (w : World) :
    signAction sdk env w.hideBuilder = (signAction sdk env w).hideBuilder := by
  unfold signAction
  have hcurrent : ctxGetCurrentAction w.hideBuilder.ctx = ctxGetCurrentAction w.ctx := rfl
  rw [hcurrent]
  split
  · rfl
  · rename_i a _
    cases hmd : w.ctx.metadata with
    | none =>
      have hhide : ctxGetActionMetadata w.hideBuilder.ctx = none := by
        show w.ctx.metadata.map _ = none
        rw [hmd, Option.map_none]
      have hget : ctxGetActionMetadata w.ctx = none := hmd
      rw [hhide, hget]
      rfl
    | some metadata =>
      have hhide : ctxGetActionMetadata w.hideBuilder.ctx =
          some (metadata.withBuilder none) := by
        show w.ctx.metadata.map _ = _
        rw [hmd, Option.map_some]
      have hget : ctxGetActionMetadata w.ctx = some metadata := hmd
      rw [hhide, hget]
      simp only
      have hsign : signWith sdk a (metadata.withBuilder none) w.hideBuilder.signing =
          signWith sdk a metadata w.signing := rfl
      rw [hsign, runCx_hideBuilder]
      generalize hrun : runCx env (signWith sdk a metadata w.signing) w = res
      obtain ⟨sig, w', calls⟩ := res
      have hq := (runCx_cases hrun).2
      simp only
      split
      · rw [Outcome.after_hideBuilder hq]
        rfl
      · rename_i sig
        have hcalls := map_hideBuilder_of_quiet hq
        let last := env.send ≥ 0 && ctxRemainingActions (ctxSwitchToNextAction w'.ctx) == 0
        show (if last = true then _ else _) = Outcome.hideBuilder (if last = true then _ else _)
        split
        · simp only [Outcome.hideBuilder, Outcome.after, List.map_append, hcalls]
          rfl
        · simp only [Outcome.hideBuilder, Outcome.after, List.map_append, hcalls]
          rfl

theorem handlerSignAction_hideBuilder (payload : Bytes) (w : World) :
    handlerSignAction sdk env payload w.hideBuilder =
      (handlerSignAction sdk env payload w).hideBuilder := by
  unfold handlerSignAction
  split
  · rfl
  · rename_i pathLength rest
    split
    · rfl
    · rename_i bip32Path _
      show (if ctxCurrentActionIsFirst w.ctx = true then _ else if _ then _ else _) =
        Outcome.hideBuilder (if ctxCurrentActionIsFirst w.ctx = true then _ else _)
      split
      · simp only
        show (if (ctxRemainingActions w.ctx == 0) = true then _ else _) =
          Outcome.hideBuilder (if (ctxRemainingActions w.ctx == 0) = true then _ else _)
        split
        · rfl
        · let signing : SigningCtx := { bip32Path := bip32Path, bip32PathLength := pathLength }
          rw [show runCx env (deriveAddrFromPath sdk)
              { w.hideBuilder with signing := signing } = _ from
            runCx_hideBuilder env (deriveAddrFromPath sdk) { w with signing := signing }]
          generalize hrun : runCx env (deriveAddrFromPath sdk)
            { w with signing := signing } = res
          obtain ⟨addr, w', calls⟩ := res
          have hq := quiet_derive (runCx_cases hrun).2
          cases addr with
          | none =>
            simp only
            rw [Outcome.after_hideBuilder (hq _ _ _)]
            rfl
          | some addr =>
            simp only
            have hui : handleUi sdk w'.hideBuilder.ctx
                (ctxGetActionMetadata w'.hideBuilder.ctx) =
              handleUi sdk w'.ctx (ctxGetActionMetadata w'.ctx) := handleUi_hideBuilder sdk w'.ctx
            rw [hui]
            split
            · rw [Outcome.after_hideBuilder (hq _ _ _)]
              rfl
            · simp only [Outcome.hideBuilder, List.map_append,
                map_hideBuilder_of_quiet (hq bip32Path pathLength (some addr))]
              rfl
      · show (if (pathLength != w.signing.bip32PathLength ||
            bip32Path != w.signing.bip32Path) = true then _ else _) =
          Outcome.hideBuilder (if (pathLength != w.signing.bip32PathLength ||
            bip32Path != w.signing.bip32Path) = true then _ else _)
        split
        · rfl
        · exact signAction_hideBuilder sdk env w

/-- A handler of chunked payloads: new metadata comes with its own builder address. -/
theorem runPayloadHandler_hideBuilder (handler : PayloadHandler) (payload : Bytes)
    (ctx : HlContext) :
    (runPayloadHandler sdk env handler payload ctx.hideBuilder).map
        (Prod.map id (Prod.map HlContext.hideBuilder id)) =
      (runPayloadHandler sdk env handler payload ctx).map
        (Prod.map id (Prod.map HlContext.hideBuilder id)) := by
  have hidem : ∀ ctx : HlContext, ctx.hideBuilder.hideBuilder = ctx.hideBuilder :=
    HlContext.hideBuilder_withBuilder none
  cases handler with
  | parseActionMetadata =>
    simp only [runPayloadHandler, parseActionMetadata]
    split
    · split
      · exact congrArg (fun c => Except.ok (false, c, [])) (hidem ctx)
      · rfl
      · rfl
    · exact congrArg (fun c => Except.ok (false, c, [])) (hidem ctx)
  | parseAction =>
    simp only [runPayloadHandler, parseAction_hideBuilder]
    cases hp : parseAction sdk payload ctx with
    | error e => rfl
    | ok r => exact congrArg (fun c => Except.ok (r.1, c, [])) (hidem r.2)

theorem handlerChunked_view (handler : PayloadHandler) (first : Bool) (payload : Bytes)
    (w : World) :
    (handlerChunked sdk handler env first payload w.hideBuilder).map Outcome.view =
      (handlerChunked sdk handler env first payload w).map Outcome.view := by
  have hview := ChunkedPayload.processChunkedPayload_view
    (HlContext.hideBuilder_withBuilder none w.ctx)
    (fun bytes => runPayloadHandler_hideBuilder sdk env handler bytes w.ctx) first payload
    w.payload
  unfold handlerChunked
  have hctx : w.hideBuilder.ctx = w.ctx.hideBuilder := rfl
  have hbuf : w.hideBuilder.payload = w.payload := rfl
  rw [hctx, hbuf]
  rcases map_eq_map_cases hview with ⟨e, hr, hr'⟩ | ⟨r, r', hr, hr', hsame⟩
  · rw [hr, hr']
    rfl
  · obtain ⟨hret, hpayload, hstate, hevents⟩ : r.ret = r'.ret ∧ r.payload = r'.payload ∧
        r.state.hideBuilder = r'.state.hideBuilder ∧ r.events = r'.events := by
      simpa only [ChunkedPayload.Result.view, ChunkedPayload.Result.mk.injEq] using hsame
    have hworld : ({ w.hideBuilder with payload := r.payload, ctx := r.state } :
        World).hideBuilder =
      ({ w with payload := r'.payload, ctx := r'.state } : World).hideBuilder := by
      show ({ w with payload := r.payload, ctx := r.state.hideBuilder } : World) = _
      rw [hpayload, hstate]
      rfl
    rw [hr, hr']
    refine congrArg Except.ok ?_
    simp only [Outcome.view, Outcome.through, Outcome.after, ioSendSw, hworld, hret, hevents]

/-! ## 5. Runs -/

theorem reviewChoice_hideBuilder (confirm : Bool) (w : World) :
    Alike World.hideBuilder Event.hideBuilder (reviewChoice sdk env confirm w.hideBuilder)
      (reviewChoice sdk env confirm w) := by
  cases confirm with
  | false => exact ⟨rfl, rfl⟩
  | true =>
    let answered : World := { w with commEnabled := true, review := none }
    have hsign : signAction sdk env answered.hideBuilder =
        (signAction sdk env answered).hideBuilder := signAction_hideBuilder sdk env answered
    unfold reviewChoice
    simp only [if_true]
    rw [show ({ w.hideBuilder with commEnabled := true, review := none } : World) =
      answered.hideBuilder from rfl, hsign]
    generalize signAction sdk env answered = r
    have hworld : r.world.hideBuilder.hideBuilder = r.world.hideBuilder :=
      World.hideBuilder_withBuilder none _
    have hevents : (r.events.map Event.hideBuilder).map Event.hideBuilder =
        r.events.map Event.hideBuilder := by
      rw [List.map_map]
      exact List.map_congr_left fun e _ => Event.hideBuilder_idem e
    show Alike _ _ (if (r.ret != -1) = true then _ else _) (if (r.ret != -1) = true then _ else _)
    split
    · refine ⟨hworld, ?_⟩
      simp only [Outcome.hideBuilder, Outcome.after, List.map_append, hevents]
    · refine ⟨rfl, ?_⟩
      simp only [Outcome.hideBuilder, Outcome.after, List.map_append, hevents]

/-- One step: what it leaves, and what is seen of it, is the same without the builder address. -/
theorem appMainStep_hideBuilder (w : World) (i : Input) :
    Alike World.hideBuilder Event.hideBuilder (appMainStep sdk w.hideBuilder i)
      (appMainStep sdk w i) := by
  have hview : ∀ {r r' : Outcome}, r = r'.hideBuilder → r.view = r'.view := by
    rintro r r' rfl
    exact r'.view_hideBuilder
  refine appMainStep_seen sdk i (World.hideBuilder_withBuilder none w) rfl rfl rfl ?_ ?_ ?_ ?_
  · intro v v' hv
    exact congrArg (fun u : World => { u with running := false }) hv
  · intro v v' hv
    exact congrArg (fun u : World => { u with faulted := true }) hv
  · intro env cmd
    refine apduDispatcher_alike sdk cmd ?_ ?_ ?_ ?_
    · intro sw
      exact hview (ioSendSw_hideBuilder env sw w)
    · intro p
      exact hview (handlerGetAddr_hideBuilder sdk env p w)
    · intro handler first p
      exact handlerChunked_view sdk env handler first p w
    · intro p
      exact hview (handlerSignAction_hideBuilder sdk env p w)
  · intro env confirm _
    exact reviewChoice_hideBuilder sdk env confirm w

end

/-- The steps of two states that differ in the builder address. -/
theorem appMainStep_alike (sdk : Sdk) {w w' : World} (i : Input)
    (h : w.hideBuilder = w'.hideBuilder) :
    Alike World.hideBuilder Event.hideBuilder (appMainStep sdk w i) (appMainStep sdk w' i) := by
  have hleft := appMainStep_hideBuilder sdk w i
  have hright := appMainStep_hideBuilder sdk w' i
  rw [h] at hleft
  exact ⟨hleft.1.symm.trans hright.1, hleft.2.symm.trans hright.2⟩

/-- From any reachable state, a run with another builder address in the metadata leads to the
same state, but for that address, and shows, stores, answers and signs the same. -/
theorem builderAddr_unused (sdk : Sdk) (inputs more : List Input) (b : Option Address) :
    Alike World.hideBuilder Event.hideBuilder
      ((app sdk).runFrom (((app sdk).state inputs).withBuilder b) more)
      ((app sdk).runFrom ((app sdk).state inputs) more) := by
  have hstart := World.hideBuilder_withBuilder b ((app sdk).state inputs)
  have hstep : ∀ w w' i, w.hideBuilder = w'.hideBuilder →
      Alike World.hideBuilder Event.hideBuilder ((app sdk).step w i) ((app sdk).step w' i) :=
    fun _ _ i h => appMainStep_alike sdk i h
  exact Machine.alike_runFrom hstep hstart more

/-! ## 6. A builder that the metadata does not name -/

/-- The stored actions name the builder of the metadata, if the metadata names one. -/
def BuilderBound (ctx : HlContext) : Prop :=
  ∀ metadata addr, ctx.metadata = some metadata → metadata.builderAddr = some addr →
    ∀ a ∈ ctx.actions.elems,
      (a.type = .approveBuilderFee → a.approveBuilderFee.builder = addr) ∧
      (a.type = .bulkOrder → ∀ info, a.bulkOrder.builder = some info → info.builder = addr)

/-- Metadata that names a builder. -/
def referralMetadata : ActionMetadata :=
  { Client.ethMetadata .order with builderAddr := some (Vector.replicate addressLength 1) }

/-- A market buy through a builder. -/
def referralOrder : Action :=
  { Client.bulkOrderAction [Client.limitRequest true false .ioc "2018.5" "0.01"] with
    union := .bulkOrder
      { orders := Client.bulk [Client.limitRequest true false .ioc "2018.5" "0.01"]
        builder := some ⟨Client.builder, 40⟩ } }

/-- The metadata, an approval and an order of another builder. -/
def referralSession : List Input :=
  Client.session referralMetadata [Client.approveBuilderFeeAction, referralOrder]

/-- A signature of the action. -/
def Event.signs (a : Action) : Event → Bool
  | .signature _ a' _ _ => a' == a
  | _ => false

/-- Both actions are stored with a builder that is not the one of the metadata, and both are
signed. -/
theorem builder_mismatch :
    ¬ BuilderBound ((app Client.sdk).state referralSession).ctx ∧
      ∀ a ∈ [Client.approveBuilderFeeAction, referralOrder],
        ∃ e ∈ (app Client.sdk).trace (referralSession ++
          [Client.signAction, .choice true Client.env, Client.signAction]), e.signs a = true := by
  have hctx : ((app Client.sdk).state referralSession).ctx.metadata = some referralMetadata ∧
      ((app Client.sdk).state referralSession).ctx.actions.elems =
        [Client.approveBuilderFeeAction, referralOrder] := by decide +kernel
  constructor
  · intro hbound
    have ha := (hbound referralMetadata _ hctx.1 rfl Client.approveBuilderFeeAction
      (by rw [hctx.2]; exact List.mem_cons_self)).1 rfl
    exact absurd ha (by decide)
  · decide +kernel

end Hyperliquid

/-
# What the two storing commands do to the session

`parse_action` and `parse_action_metadata` fill their structures through many handlers, any of
which can fail after others have written.  Nothing of that is seen from outside: a payload is
parsed as a whole (`ParsesAction`, `AuthenticMetadata`) and stored at once, or the session is as
it was.  The one exception is authentic metadata once signing has started: it is refused, and
resets the session.

Both commands receive their payload in chunks; a command that stores something leaves an empty
chunk buffer behind (`handlerChunked_effect`).
-/
import Hyperliquid.Reassembly
import Hyperliquid.SessionInvariant

namespace Hyperliquid

open Lib Hyperliquid.Action ActionMetadata

/-! ## 1. Whole payloads -/

/-- The payload is one complete action, under the metadata that is stored. -/
def ParsesAction (sdk : Sdk) (ctx : HlContext) (payload : Bytes) (a : Action) : Prop :=
  ∃ out, (actionTlvParser sdk ctx).parseVerified sdk.tlvDecode verifyAction payload {} = .ok out ∧
    out.action = a

/-- The payload is complete metadata, and its hash and signature passed the PKI check. -/
def AuthenticMetadata (sdk : Sdk) (env : Env) (payload : Bytes) (m : ActionMetadata) : Prop :=
  ∃ outcomes out, env.cx = true :: outcomes ∧
    (metadataTlvParser sdk).parseVerified sdk.tlvDecode (verifyActionMetadata sdk env) payload
      { outcomes := outcomes } = .ok out ∧
    out.metadata = m

/-- The context with one action more. -/
structure ActionAppended (ctx : HlContext) (a : Action) (ctx' : HlContext) : Prop where
  metadata : ctx'.metadata = ctx.metadata
  elems : ctx'.actions.elems = ctx.actions.elems ++ [a]
  index : ctx'.actionIndex = ctx.actionIndex

/-! ## 2. The two functions -/

/-- `parse_action` refuses and changes nothing, or appends one whole action. -/
theorem parseAction_effect (sdk : Sdk) (payload : Bytes) (ctx : HlContext) :
    ∃ ret ctx', parseAction sdk payload ctx = .ok (ret, ctx') ∧
      ((ret = false ∧ ctx' = ctx) ∨
       (ret = true ∧ ∃ a, ParsesAction sdk ctx payload a ∧ ctx.metadata ≠ none ∧
        ctx.actionIndex = 0 ∧ (∀ b ∈ ctx.actions.elems, b.type ≠ a.type) ∧
        ActionAppended ctx a ctx')) := by
  obtain ⟨⟨ret, ctx'⟩, hr⟩ := parseAction_returns sdk payload ctx
  refine ⟨ret, ctx', hr, ?_⟩
  unfold parseAction ctxGetActionMetadata at hr
  cases hmd : ctx.metadata with
  | none =>
    rw [hmd] at hr
    cases hr
    exact .inl ⟨rfl, rfl⟩
  | some metadata =>
    simp only [hmd] at hr
    split at hr
    · cases hr
      exact .inl ⟨rfl, rfl⟩
    · cases hr
    · rename_i out hout
      split at hr
      · cases hr
        exact .inl ⟨rfl, rfl⟩
      · rcases ctxPushAction_cases out.action ctx with
          hpush | ⟨hidx, hnew, c, hpush, hmd', hidx', helems⟩
        · rw [hpush] at hr
          cases hr
          exact .inl ⟨rfl, rfl⟩
        · rw [hpush] at hr
          cases hr
          refine .inr ⟨rfl, out.action, ⟨out, hout, rfl⟩, by simp, hidx, hnew, ?_⟩
          exact ⟨hmd', helems, hidx'.trans hidx.symm⟩

/-- `parse_action_metadata` starts a new session with authentic metadata, unless signing has
started: then it resets the session.  Anything else changes nothing. -/
theorem parseActionMetadata_effect (sdk : Sdk) (env : Env) (payload : Bytes) (ctx : HlContext) :
    ∃ ret ctx' reset, parseActionMetadata sdk env payload ctx = .ok (ret, ctx', reset) ∧
      ((∃ m, AuthenticMetadata sdk env payload m ∧ ctx.actionIndex = 0 ∧ ret = true ∧
        ctx' = { metadata := some m } ∧ reset = true) ∨
       (∃ m, AuthenticMetadata sdk env payload m ∧ 0 < ctx.actionIndex ∧ ret = false ∧
        ctx' = {} ∧ reset = true) ∨
       ((∀ m, ¬ AuthenticMetadata sdk env payload m) ∧ ret = false ∧ ctx' = ctx ∧
        reset = false)) := by
  obtain ⟨⟨ret, ctx', reset⟩, hr⟩ := parseActionMetadata_returns sdk env payload ctx
  refine ⟨ret, ctx', reset, hr, ?_⟩
  unfold parseActionMetadata at hr
  split at hr
  · rename_i outcomes hcx
    split at hr
    · rename_i hrejected
      cases hr
      refine .inr (.inr ⟨?_, rfl, rfl, rfl⟩)
      rintro m ⟨outcomes', out, hcx', hout, -⟩
      rw [hcx] at hcx'
      cases hcx'
      rw [hrejected] at hout
      cases hout
    · cases hr
    · rename_i out hout
      have hauth : AuthenticMetadata sdk env payload out.metadata :=
        ⟨outcomes, out, hcx, hout, rfl⟩
      split at hr
      · rename_i hfirst
        cases hr
        refine .inr (.inl ⟨out.metadata, hauth, ?_, rfl, rfl, rfl⟩)
        simpa [ctxCurrentActionIsFirst, Nat.pos_iff_ne_zero] using hfirst
      · rename_i hfirst
        cases hr
        refine .inl ⟨out.metadata, hauth, ?_, rfl, rfl, rfl⟩
        simpa [ctxCurrentActionIsFirst] using hfirst
  · rename_i hcx
    cases hr
    refine .inr (.inr ⟨?_, rfl, rfl, rfl⟩)
    rintro m ⟨outcomes, out, hcx', -⟩
    exact hcx outcomes hcx'

/-- What a complete payload can do to the context. -/
inductive PayloadEffect (sdk : Sdk) (env : Env) (payload : Bytes) (ctx : HlContext) :
    PayloadHandler → Bool → HlContext → List Event → Prop where
  | unchanged (handler : PayloadHandler) : PayloadEffect sdk env payload ctx handler false ctx []
  | appended (a : Action) (ctx' : HlContext) : ctx.actionIndex = 0 → ActionAppended ctx a ctx' →
      PayloadEffect sdk env payload ctx .parseAction true ctx' []
  | loaded (m : ActionMetadata) : AuthenticMetadata sdk env payload m → ctx.actionIndex = 0 →
      PayloadEffect sdk env payload ctx .parseActionMetadata true { metadata := some m }
        [.ctxReset]
  | aborted (m : ActionMetadata) : AuthenticMetadata sdk env payload m → 0 < ctx.actionIndex →
      PayloadEffect sdk env payload ctx .parseActionMetadata false {} [.ctxReset]

theorem runPayloadHandler_effect {sdk : Sdk} {env : Env} {handler : PayloadHandler}
    {payload : Bytes} {ctx ctx' : HlContext} {ret : Bool} {events : List Event}
    (h : runPayloadHandler sdk env handler payload ctx = .ok (ret, ctx', events)) :
    PayloadEffect sdk env payload ctx handler ret ctx' events := by
  cases handler with
  | parseActionMetadata =>
    obtain ⟨⟨ret', ctx'', reset⟩, hp, hout⟩ := bind_ok_iff.mp h
    cases hout
    obtain ⟨ret₁, ctx₁, reset₁, hp₁, heffect⟩ := parseActionMetadata_effect sdk env payload ctx
    cases hp.symm.trans hp₁
    rcases heffect with
      ⟨m, hm, hidx, rfl, rfl, rfl⟩ | ⟨m, hm, hidx, rfl, rfl, rfl⟩ | ⟨-, rfl, rfl, rfl⟩
    · exact .loaded m hm hidx
    · exact .aborted m hm hidx
    · exact .unchanged _
  | parseAction =>
    obtain ⟨⟨ret', ctx''⟩, hp, hout⟩ := bind_ok_iff.mp h
    cases hout
    obtain ⟨ret₁, ctx₁, hp₁, heffect⟩ := parseAction_effect sdk payload ctx
    cases hp.symm.trans hp₁
    rcases heffect with ⟨rfl, rfl⟩ | ⟨rfl, a, -, -, hidx, -, happ⟩
    · exact .unchanged _
    · exact .appended a _ hidx happ

/-! ## 3. The chunk buffer of the application -/

variable {sdk : Sdk} {handler : PayloadHandler} {env : Env} {first : Bool} {data : Bytes}
  {w : World} {t : Transfer PayloadHandler}

/-- The answer to a chunk. -/
theorem handlerChunked_of_result {res : ChunkedPayload.Result PayloadHandler HlContext Event}
    (h : ChunkedPayload.processChunk (runPayloadHandler sdk env) first (some data) handler
      w.payload w.ctx = .ok res) :
    handlerChunked sdk handler env first data w =
      .ok ((ioSendSw env (if res.ret then .success else .incorrectData)
        { w with payload := res.payload, ctx := res.state }).after res.events) := by
  rw [ChunkedPayload.processChunk_some] at h
  unfold handlerChunked
  rw [h]
  rfl

/-- A chunk that the transfer does not accept. -/
theorem handlerChunked_rejected (hrep : w.payload.Represents t)
    (h : t.accept first (some data) handler = none) :
    handlerChunked sdk handler env first data w =
      .ok (ioSendSw env .incorrectData { w with payload := {} }) :=
  handlerChunked_of_result (ChunkedPayload.processChunk_rejected hrep h w.ctx)

/-- A chunk that completes the payload. -/
theorem handlerChunked_complete {n : Nat} {acc : Bytes} {ret : Bool} {ctx' : HlContext}
    {events : List Event} (hrep : w.payload.Represents t)
    (h : t.accept first (some data) handler = some (n, acc)) (hn : acc.length = n)
    (hrun : runPayloadHandler sdk env handler acc w.ctx = .ok (ret, ctx', events)) :
    handlerChunked sdk handler env first data w =
      .ok ((ioSendSw env (if ret then .success else .incorrectData)
        { w with payload := {}, ctx := ctx' }).after events) := by
  have hres : ChunkedPayload.processChunk (runPayloadHandler sdk env) first (some data) handler
      w.payload w.ctx = _ := ChunkedPayload.processChunk_complete hrep h hn w.ctx
  rw [hrun] at hres
  exact handlerChunked_of_result hres

/-- A chunk that leaves bytes to come. -/
theorem handlerChunked_partial {n : Nat} {acc : Bytes} (hrep : w.payload.Represents t)
    (h : t.accept first (some data) handler = some (n, acc)) (hn : acc.length ≠ n) :
    ∃ payload', payload'.Represents (.collecting handler n acc) ∧
      handlerChunked sdk handler env first data w =
        .ok (ioSendSw env .success { w with payload := payload' }) := by
  obtain ⟨payload', hrep', hres⟩ :
      ∃ payload', payload'.Represents (.collecting handler n acc) ∧
        ChunkedPayload.processChunk (runPayloadHandler sdk env) first (some data) handler
          w.payload w.ctx = .ok ⟨true, payload', w.ctx, []⟩ :=
    ChunkedPayload.processChunk_partial hrep h hn w.ctx
  exact ⟨payload', hrep', handlerChunked_of_result hres⟩

/-- The buffer is idle, or collects a payload for one of the two handlers. -/
def World.PayloadOk (w : World) : Prop := ∃ t, w.payload.Represents t

/-- Before signing has started, a complete payload does not start it. -/
theorem PayloadEffect.index {payload : Bytes} {ctx ctx' : HlContext} {ret : Bool}
    {events : List Event} (h : PayloadEffect sdk env payload ctx handler ret ctx' events)
    (hidx : ctx.actionIndex = 0) : ctx'.actionIndex = 0 := by
  cases h with
  | unchanged handler => exact hidx
  | appended a ctx' _ happ => exact happ.index.trans hidx
  | loaded m _ _ => rfl
  | aborted m _ _ => rfl

/-- The chunk completes the payload, and the buffer collects for that handler. -/
def World.Completes (w : World) (handler : PayloadHandler) (first : Bool) (data payload : Bytes) :
    Prop :=
  ∃ t, w.payload.Represents t ∧
    t.accept first (some data) handler = some (payload.length, payload)

/-- The command completes a payload of metadata. -/
def World.CompletesMetadata (w : World) (cmd : Command) (payload : Bytes) : Prop :=
  cmd.Provides .parseActionMetadata ∧
    w.Completes .parseActionMetadata (cmd.p1 == p1First) cmd.data payload

variable (sdk) in
/-- A chunk goes into the buffer or empties it and is refused, or it completes a payload, which
empties the buffer. -/
theorem handlerChunked_effect (handler : PayloadHandler) (env : Env) (first : Bool)
    (data : Bytes) (hw : w.PayloadOk) :
    ∃ r, handlerChunked sdk handler env first data w = .ok r ∧
      ((∃ sw payload', (∃ t, payload'.Represents t) ∧
          r = ioSendSw env sw { w with payload := payload' }) ∨
       ∃ bytes ret ctx' events, w.Completes handler first data bytes ∧
        runPayloadHandler sdk env handler bytes w.ctx = .ok (ret, ctx', events) ∧
        r = (ioSendSw env (if ret then .success else .incorrectData)
          { w with payload := {}, ctx := ctx' }).after events) := by
  obtain ⟨t, hrep⟩ := hw
  cases haccept : t.accept first (some data) handler with
  | none =>
    exact ⟨_, handlerChunked_rejected hrep haccept, .inl ⟨_, {}, ⟨.idle, rfl⟩, rfl⟩⟩
  | some p =>
    obtain ⟨n, acc⟩ := p
    by_cases hn : acc.length = n
    · obtain ⟨⟨ret, ctx', events⟩, hrun⟩ := runPayloadHandler_returns sdk env handler acc w.ctx
      exact ⟨_, handlerChunked_complete hrep haccept hn hrun,
        .inr ⟨acc, ret, ctx', events, ⟨t, hrep, hn ▸ haccept⟩, hrun, rfl⟩⟩
    · obtain ⟨payload', hrep', hr⟩ := handlerChunked_partial hrep haccept hn
      exact ⟨_, hr, .inl ⟨_, payload', ⟨_, hrep'⟩, rfl⟩⟩

/-! ## 4. Every run keeps the buffer so -/

theorem handlerSignAction_payload (env : Env) (data : Bytes) (w : World) :
    (handlerSignAction sdk env data w).world.payload = w.payload := by
  have hcases := handlerSignAction_cases sdk env data w
  generalize handlerSignAction sdk env data w = r at hcases ⊢
  cases hcases with
  | refused sw => rfl
  | unreviewed signing rawBuf events _ _ => rfl
  | reviewed signing rawBuf calls screen _ _ _ => rfl
  | signs _ _ =>
    obtain ⟨rawBuf, ctx', hworld, -⟩ := signAction_world sdk env w
    rw [hworld]

/-- One step keeps the buffer idle or collecting. -/
theorem appMainStep_payloadOk (i : Input) (hw : w.PayloadOk) :
    (appMainStep sdk w i).1.PayloadOk := by
  have hcases := appMainStep_cases sdk w i
  generalize appMainStep sdk w i = r at hcases ⊢
  cases hcases with
  | ignored i => exact hw
  | stopped => exact hw
  | answered cmd env sw _ => exact hw
  | faulted cmd env e _ _ => exact hw
  | chosen confirm env screen _ =>
    obtain ⟨rawBuf, ctx', hworld, -⟩ := reviewChoice_world sdk env confirm w
    rw [hworld]
    exact hw
  | dispatched cmd env r running _ hr _ =>
    suffices hok : r.world.PayloadOk from hok
    rcases apduDispatcher_cases sdk env cmd w with
      ⟨sw, hr', -⟩ | hr' | ⟨handler, -, hr'⟩ | ⟨-, hr'⟩
    · cases hr.symm.trans hr'
      exact hw
    · obtain ⟨rawBuf, events, hget, -⟩ := handlerGetAddr_effect sdk env cmd.data w
      rw [hget] at hr'
      cases hr.symm.trans hr'
      exact hw
    · obtain ⟨r', hchunk, ⟨sw, payload', hrep, rfl⟩ | ⟨bytes, ret, ctx', events, -, -, rfl⟩⟩ :=
        handlerChunked_effect sdk handler env (cmd.p1 == p1First) cmd.data hw
      · cases hr.symm.trans (hr'.trans hchunk)
        exact hrep
      · cases hr.symm.trans (hr'.trans hchunk)
        exact ⟨.idle, rfl⟩
    · cases hr.symm.trans hr'
      unfold World.PayloadOk
      rw [handlerSignAction_payload env cmd.data w]
      exact hw

theorem payloadOk_state (sdk : Sdk) (inputs : List Input) :
    ((app sdk).state inputs).PayloadOk :=
  (app sdk).state_induction (P := World.PayloadOk) ⟨.idle, rfl⟩
    (fun _ i h => appMainStep_payloadOk i h) inputs

/-! ## 5. The effects of the storing commands -/

/-- In every reachable state and for every payload: `parse_action` changes nothing or appends one
whole action; `parse_action_metadata` starts a new session with authentic metadata, resets the
session if signing has started, or changes nothing; and the commands that receive their payloads
leave the rest of the state alone, and an empty chunk buffer behind a payload that was parsed. -/
theorem storingCommands_effects (sdk : Sdk) (inputs : List Input) (env : Env) (payload : Bytes) :
    let w := (app sdk).state inputs
    (∃ ret ctx', parseAction sdk payload w.ctx = .ok (ret, ctx') ∧
      ((ret = false ∧ ctx' = w.ctx) ∨
       (ret = true ∧ ∃ a, ParsesAction sdk w.ctx payload a ∧ w.ctx.metadata ≠ none ∧
        w.ctx.actionIndex = 0 ∧ (∀ b ∈ w.ctx.actions.elems, b.type ≠ a.type) ∧
        ActionAppended w.ctx a ctx'))) ∧
    (∃ ret ctx' reset, parseActionMetadata sdk env payload w.ctx = .ok (ret, ctx', reset) ∧
      ((∃ m, AuthenticMetadata sdk env payload m ∧ w.ctx.actionIndex = 0 ∧ ret = true ∧
        ctx' = { metadata := some m } ∧ reset = true) ∨
       (∃ m, AuthenticMetadata sdk env payload m ∧ 0 < w.ctx.actionIndex ∧ ret = false ∧
        ctx' = {} ∧ reset = true) ∨
       ((∀ m, ¬ AuthenticMetadata sdk env payload m) ∧ ret = false ∧ ctx' = w.ctx ∧
        reset = false))) ∧
    (∀ handler first data, ∃ r, handlerChunked sdk handler env first data w = .ok r ∧
      ((∃ sw payload', (∃ t, payload'.Represents t) ∧
          r = ioSendSw env sw { w with payload := payload' }) ∨
       ∃ bytes ret ctx' events, w.Completes handler first data bytes ∧
        runPayloadHandler sdk env handler bytes w.ctx = .ok (ret, ctx', events) ∧
        r = (ioSendSw env (if ret then .success else .incorrectData)
          { w with payload := {}, ctx := ctx' }).after events)) :=
  ⟨parseAction_effect sdk payload _, parseActionMetadata_effect sdk env payload _,
    fun handler first data => handlerChunked_effect _ handler env first data
      (payloadOk_state sdk inputs)⟩

end Hyperliquid

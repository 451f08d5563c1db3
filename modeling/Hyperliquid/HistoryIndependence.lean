/-
# What an earlier session leaves behind

When a session is over, its context is zeroed, a finished or failed transfer has wiped the chunk
buffer, and `handle_ui` zeroes the strings of the review before it fills them.  Two buffers keep
their bytes: the signing context (the path and the address of the last `SIGN_ACTION`) and the
serialization buffer.

Neither is read before it is written.  The serialization buffer is read back below the offset
that the serializer has reached, and whether the serializer succeeds does not depend on what the
buffer held.  The signing context is read while a review is on the screen and after the first
signature, and both only follow a `SIGN_ACTION` that has written it.  So `World.live` hides the
first always and the second otherwise, and two states that are equal through it stay equal,
whatever the inputs, and show the same (`history_independent`).
-/
import Hyperliquid.Client
import Hyperliquid.StoringCommands

namespace Hyperliquid

open Lib
open Fallible (Respects respects_pure)

/-! ## 1. The bytes that are not read -/

/-- The signing context is in use. -/
def World.signingLive (w : World) : Bool := w.review.isSome || 0 < w.ctx.actionIndex

/-- The state without the bytes that nothing reads before they are written. -/
def World.live (w : World) : World :=
  { w with rawBuf := [], signing := if w.signingLive then w.signing else {} }

/-- The state with other such bytes. -/
def World.stale (rawBuf : Bytes) (signing : SigningCtx) (w : World) : World :=
  { w with rawBuf := rawBuf, signing := signing }

theorem World.live_stale {w : World} {rawBuf : Bytes} {signing : SigningCtx}
    (h : w.signingLive = true → signing = w.signing) : (w.stale rawBuf signing).live = w.live := by
  have hsigning : (if w.signingLive then signing else {}) =
      if w.signingLive then w.signing else {} := by
    split
    · exact h ‹_›
    · rfl
  show ({ w with rawBuf := [], signing := if w.signingLive then signing else {} } : World) = _
  rw [hsigning]
  rfl

/-- Two states that are equal but for these bytes. -/
theorem World.stale_of_live {w w' : World} (h : w'.live = w.live) :
    w' = w.stale w'.rawBuf w'.signing ∧ (w.signingLive = true → w'.signing = w.signing) := by
  obtain ⟨ctx, payload, signing, rawBuf, commEnabled, review, running, faulted⟩ := w
  obtain ⟨ctx', payload', signing', rawBuf', commEnabled', review', running', faulted'⟩ := w'
  simp only [live, World.mk.injEq, true_and] at h
  obtain ⟨rfl, rfl, hsigning, rfl, rfl, rfl, rfl⟩ := h
  refine ⟨rfl, fun hlive => ?_⟩
  have hlive' : signingLive ⟨ctx', payload', signing', rawBuf', commEnabled', review', running',
    faulted'⟩ = true := hlive
  rw [hlive, hlive'] at hsigning
  exact hsigning

/-- Resetting the session keeps them so. -/
theorem World.live_reset {w w' : World} (h : w'.live = w.live) :
    ({ w' with ctx := ctxReset } : World).live = ({ w with ctx := ctxReset } : World).live := by
  obtain ⟨hw', hsigning⟩ := World.stale_of_live h
  let reset : World := { w with ctx := ctxReset }
  have hlive : reset.signingLive = true → w.signingLive = true := by
    intro hreset
    have hreview : w.review.isSome = true := by
      simpa [signingLive, reset, ctxReset] using hreset
    simp [signingLive, hreview]
  rw [hw']
  show (reset.stale w'.rawBuf w'.signing).live = reset.live
  exact World.live_stale fun hreset => hsigning (hlive hreset)

/-- An outcome, through that view. -/
abbrev Outcome.live (r : Outcome) : Int × World × List Event := r.through World.live id

theorem Outcome.live_eq {ret : Int} {w w' : World} {events : List Event}
    (h : w'.live = w.live) : Outcome.live ⟨ret, w', events⟩ = Outcome.live ⟨ret, w, events⟩ :=
  congrArg (fun v => (ret, v, events.map id)) h

/-! ## 2. Computations do not read the serialization buffer -/

section

variable (sdk : Sdk) (env : Env)

theorem deriveAddrFromPath_respects {P : CxCall → Prop} (hP : ∀ message, P (.keccak message)) :
    Respects (SameButRawBuf P) (deriveAddrFromPath sdk) :=
  respects_bip32DeriveGetPubkey256.bind fun _ =>
    (respects_cxKeccak256Hash hP sdk _).bind fun _ => respects_pure _

theorem signWith_respects (a : Action) (metadata : ActionMetadata) (signing : SigningCtx) :
    Respects (SameButRawBuf fun _ => True) (signWith sdk a metadata signing) := by
  have hP : ∀ message, (fun _ : CxCall => True) (.keccak message) := fun _ => trivial
  exact (actionHash_respects sdk hP a metadata signing.walletAddr).bind fun _ =>
    (eip712SignHash_respects sdk hP _).bind fun _ =>
      (respects_bip32DeriveEcdsaSignRsHash256 trivial).bind fun _ => respects_pure _

/-- The value and the calls are the same. -/
theorem runCx_stale {α : Type} {m : Cx α} (hm : Respects (SameButRawBuf fun _ => True) m)
    (rawBuf : Bytes) (signing : SigningCtx) (w : World) :
    ∃ rawBuf', runCx env m (w.stale rawBuf signing) =
      ((runCx env m w).1, (runCx env m w).2.1.stale rawBuf' signing, (runCx env m w).2.2) := by
  obtain ⟨hvalue, hstate⟩ := hm _ _ (sameButRawBuf_start env rawBuf w.rawBuf)
  refine ⟨(m.exec (env.cxState rawBuf)).2.rawBuf, ?_⟩
  show ((m.exec (env.cxState rawBuf)).1, _, (m.exec (env.cxState rawBuf)).2.calls.map Event.cx) = _
  rw [hvalue, hstate.calls]
  rfl

/-! ## 3. Handlers -/

section

variable {rawBuf : Bytes} {signing : SigningCtx} {w : World}

theorem handlerGetAddr_live (payload : Bytes) (h : w.signingLive = true → signing = w.signing) :
    (handlerGetAddr sdk env payload (w.stale rawBuf signing)).live =
      (handlerGetAddr sdk env payload w).live := by
  unfold handlerGetAddr
  split
  · exact Outcome.live_eq (World.live_stale h)
  · split
    · exact Outcome.live_eq (World.live_stale h)
    · have hP : ∀ message, (fun _ : CxCall => True) (.keccak message) := fun _ => trivial
      obtain ⟨rawBuf', hrun'⟩ :=
        runCx_stale env (deriveAddrFromPath_respects sdk hP) rawBuf signing w
      rw [hrun']
      generalize hrun : runCx env (deriveAddrFromPath sdk) w = run
      obtain ⟨addr, w', calls⟩ := run
      obtain ⟨⟨rawBuf'', rfl⟩, -⟩ := runCx_cases hrun
      cases addr with
      | none => exact Outcome.live_eq (World.live_stale h)
      | some addr => exact Outcome.live_eq (World.live_stale h)

/-- Signing reads the signing context, and nothing else of what is stale. -/
theorem signAction_live (rawBuf : Bytes) (w : World) :
    (signAction sdk env (w.stale rawBuf w.signing)).live = (signAction sdk env w).live := by
  have hsame : ∀ {v : World} {rawBuf : Bytes}, (v.stale rawBuf v.signing).live = v.live :=
    World.live_stale fun _ => rfl
  unfold signAction
  have hcurrent : ctxGetCurrentAction (w.stale rawBuf w.signing).ctx =
      ctxGetCurrentAction w.ctx := rfl
  rw [hcurrent]
  split
  · exact Outcome.live_eq hsame
  · rename_i a _
    have hmetadata : ctxGetActionMetadata (w.stale rawBuf w.signing).ctx =
        ctxGetActionMetadata w.ctx := rfl
    rw [hmetadata]
    split
    · exact Outcome.live_eq hsame
    · rename_i metadata _
      have hsigning : (w.stale rawBuf w.signing).signing = w.signing := rfl
      obtain ⟨rawBuf', hrun'⟩ :=
        runCx_stale env (signWith_respects sdk a metadata w.signing) rawBuf w.signing w
      rw [hsigning, hrun']
      generalize hrun : runCx env (signWith sdk a metadata w.signing) w = run
      obtain ⟨sig, w', calls⟩ := run
      obtain ⟨⟨rawBuf'', rfl⟩, -⟩ := runCx_cases hrun
      cases sig with
      | none => exact Outcome.live_eq (World.live_stale fun _ => rfl)
      | some sig =>
        let last := env.send ≥ 0 && ctxRemainingActions (ctxSwitchToNextAction w.ctx) == 0
        show Outcome.live (if last = true then _ else _) =
          Outcome.live (if last = true then _ else _)
        split
        · exact Outcome.live_eq rfl
        · exact Outcome.live_eq rfl

/-- The first `SIGN_ACTION` writes the signing context; a later one finds it in use. -/
theorem handlerSignAction_live (payload : Bytes)
    (h : w.signingLive = true → signing = w.signing) :
    (handlerSignAction sdk env payload (w.stale rawBuf signing)).live =
      (handlerSignAction sdk env payload w).live := by
  unfold handlerSignAction
  split
  · exact Outcome.live_eq (World.live_stale h)
  · rename_i pathLength rest
    split
    · exact Outcome.live_eq (World.live_stale h)
    · rename_i path _
      show Outcome.live (if ctxCurrentActionIsFirst w.ctx = true then _ else _) =
        Outcome.live (if ctxCurrentActionIsFirst w.ctx = true then _ else _)
      by_cases hfirst : ctxCurrentActionIsFirst w.ctx = true
      · rw [if_pos hfirst, if_pos hfirst]
        let fixed : World :=
          { w with signing := { bip32Path := path, bip32PathLength := pathLength } }
        show Outcome.live (if (ctxRemainingActions w.ctx == 0) = true then _ else _) =
          Outcome.live (if (ctxRemainingActions w.ctx == 0) = true then _ else _)
        split
        · exact Outcome.live_eq rfl
        · have hP : ∀ message, (fun _ : CxCall => True) (.keccak message) := fun _ => trivial
          obtain ⟨rawBuf', hrun'⟩ :=
            runCx_stale env (deriveAddrFromPath_respects sdk hP) rawBuf fixed.signing fixed
          have hfixed : ({ w.stale rawBuf signing with signing :=
              { bip32Path := path, bip32PathLength := pathLength } } : World) =
              fixed.stale rawBuf fixed.signing := rfl
          rw [hfixed, hrun']
          generalize hrun : runCx env (deriveAddrFromPath sdk) fixed = run
          obtain ⟨addr, w', calls⟩ := run
          obtain ⟨⟨rawBuf'', rfl⟩, -⟩ := runCx_cases hrun
          cases addr with
          | none => exact Outcome.live_eq rfl
          | some addr =>
            dsimp only [World.stale, fixed]
            split
            · exact Outcome.live_eq rfl
            · exact Outcome.live_eq rfl
      · rw [if_neg hfirst, if_neg hfirst]
        have hlive : w.signingLive = true := by
          simp only [ctxCurrentActionIsFirst, beq_iff_eq] at hfirst
          simp [World.signingLive, Nat.pos_iff_ne_zero, hfirst]
        obtain rfl : signing = w.signing := h hlive
        show Outcome.live (if (pathLength != w.signing.bip32PathLength ||
            path != w.signing.bip32Path) = true then _ else _) =
          Outcome.live (if (pathLength != w.signing.bip32PathLength ||
            path != w.signing.bip32Path) = true then _ else _)
        split
        · exact Outcome.live_eq (World.live_stale h)
        · exact signAction_live sdk env rawBuf w

/-- A chunk does not start the signing of a session. -/
theorem handlerChunked_live (handler : PayloadHandler) (first : Bool) (payload : Bytes)
    (h : w.signingLive = true → signing = w.signing) :
    (handlerChunked sdk handler env first payload (w.stale rawBuf signing)).map Outcome.live =
      (handlerChunked sdk handler env first payload w).map Outcome.live := by
  show Except.map _ (ChunkedPayload.processChunkedPayload (runPayloadHandler sdk env) first payload
      handler w.payload w.ctx >>= _) =
    Except.map _ (ChunkedPayload.processChunkedPayload (runPayloadHandler sdk env) first payload
      handler w.payload w.ctx >>= _)
  cases hrun : ChunkedPayload.processChunkedPayload (runPayloadHandler sdk env) first payload
      handler w.payload w.ctx with
  | error e => rfl
  | ok r =>
    have hindex : w.ctx.actionIndex = 0 → r.state.actionIndex = 0 := by
      intro hidx
      rcases ChunkedPayload.processChunkedPayload_cases hrun with
        ⟨hstate, -⟩ | ⟨bytes, ret, hpayload⟩
      · rw [hstate]
        exact hidx
      · exact (runPayloadHandler_effect hpayload).index hidx
    have hworld : ∀ v : World, v = { w with payload := r.payload, ctx := r.state } →
        (v.stale rawBuf signing).live = v.live := by
      intro v hv
      refine World.live_stale fun hlive => ?_
      subst hv
      refine h ?_
      simp only [World.signingLive, Bool.or_eq_true, decide_eq_true_eq] at hlive ⊢
      exact hlive.imp_right fun hpos => by
        by_contra hzero
        rw [hindex (by omega)] at hpos
        exact absurd hpos (by decide)
    exact congrArg Except.ok (Outcome.live_eq (hworld _ rfl))

/-! ## 4. Runs -/

/-- A review is on the screen, so the signing context is in use. -/
theorem reviewChoice_live (confirm : Bool) :
    Alike World.live id (reviewChoice sdk env confirm (w.stale rawBuf w.signing))
      (reviewChoice sdk env confirm w) := by
  cases confirm with
  | false => exact ⟨rfl, rfl⟩
  | true =>
    let answered : World := { w with commEnabled := true, review := none }
    have hsign : (signAction sdk env (answered.stale rawBuf answered.signing)).live =
        (signAction sdk env answered).live := signAction_live sdk env rawBuf answered
    have hleft : reviewChoice sdk env true (w.stale rawBuf w.signing) =
        (let r := (signAction sdk env (answered.stale rawBuf answered.signing)).after [.choice true]
         if r.ret != -1 then (r.world, r.events ++ [.reviewStatus])
         else ({ r.world with ctx := ctxReset }, r.events ++ [.ctxReset, .menuMain])) := rfl
    have hright : reviewChoice sdk env true w =
        (let r := (signAction sdk env answered).after [.choice true]
         if r.ret != -1 then (r.world, r.events ++ [.reviewStatus])
         else ({ r.world with ctx := ctxReset }, r.events ++ [.ctxReset, .menuMain])) := rfl
    rw [hleft, hright]
    generalize signAction sdk env (answered.stale rawBuf answered.signing) = r' at hsign
    generalize signAction sdk env answered = r at hsign
    obtain ⟨ret, v, events⟩ := r
    obtain ⟨ret', v', events'⟩ := r'
    obtain ⟨rfl, hv, rfl⟩ : ret' = ret ∧ v'.live = v.live ∧ events' = events := by
      simpa only [Outcome.through, Prod.mk.injEq, List.map_id] using hsign
    dsimp only [Outcome.after]
    split
    · exact ⟨hv, rfl⟩
    · exact ⟨World.live_reset hv, rfl⟩

end

/-- Two states that are equal but for what is stale: so are they after a step, and the same is
seen. -/
theorem appMainStep_live {w w' : World} (i : Input) (h : w'.live = w.live) :
    Alike World.live id (appMainStep sdk w' i) (appMainStep sdk w i) := by
  obtain ⟨hw', hsigning⟩ := World.stale_of_live h
  generalize w'.rawBuf = rawBuf at hw'
  generalize w'.signing = signing at hw' hsigning
  subst hw'
  refine appMainStep_seen sdk i h rfl rfl rfl ?_ ?_ ?_ ?_
  · intro v v' hv
    exact congrArg (fun u : World => { u with running := false }) hv
  · intro v v' hv
    exact congrArg (fun u : World => { u with faulted := true }) hv
  · intro env cmd
    refine apduDispatcher_alike sdk cmd ?_ ?_ ?_ ?_
    · intro sw
      exact Outcome.live_eq h
    · intro p
      exact handlerGetAddr_live sdk env p hsigning
    · intro handler first p
      exact handlerChunked_live sdk env handler first p hsigning
    · intro p
      exact handlerSignAction_live sdk env p hsigning
  · intro env confirm hreview
    have hlive : w.signingLive = true := by
      cases hr : w.review with
      | none => exact absurd hr hreview
      | some screen => simp [World.signingLive, hr]
    obtain rfl : signing = w.signing := hsigning hlive
    exact reviewChoice_live sdk env confirm

end

/-- Between two sessions: the context is zeroed, no transfer is in progress, no review is pending,
and the application is still in its loop. -/
structure World.Idle (w : World) : Prop where
  ctx : w.ctx = {}
  payload : w.payload.handler = none
  review : w.review = none
  running : w.running = true

/-- A reachable idle state is the one of power-on, but for what is stale. -/
theorem idle_live {sdk : Sdk} {inputs : List Input} (h : ((app sdk).state inputs).Idle) :
    ((app sdk).state inputs).live = World.live {} := by
  obtain ⟨t, hrep⟩ := payloadOk_state sdk inputs
  have hcomm : ((app sdk).state inputs).Comm := (app_refines sdk).inv_state inputs
  have hfaulted := faulted_state sdk inputs
  generalize (app sdk).state inputs = w at h hrep hcomm hfaulted
  have hpayload : w.payload = {} := by
    cases t with
    | idle => exact hrep
    | collecting handler n acc =>
      obtain ⟨hholds, -⟩ := hrep
      exact absurd (hholds.handler.symm.trans h.payload) (Option.some_ne_none _)
  obtain ⟨ctx, payload, signing, rawBuf, commEnabled, review, running, faulted⟩ := w
  obtain ⟨rfl, -, rfl, rfl⟩ := h
  obtain rfl : payload = {} := hpayload
  obtain rfl : commEnabled = true := hcomm
  obtain rfl : faulted = false := hfaulted
  rfl

/-- From any two reachable idle states, the same inputs, with the same answers of the primitives,
lead to the same events: status words, response data, screens, and what is hashed and signed. -/
theorem history_independent (sdk : Sdk) (before before' inputs : List Input)
    (h : ((app sdk).state before).Idle) (h' : ((app sdk).state before').Idle) :
    ((app sdk).runFrom ((app sdk).state before) inputs).2 =
      ((app sdk).runFrom ((app sdk).state before') inputs).2 := by
  have hstart : ((app sdk).state before).live = ((app sdk).state before').live :=
    (idle_live h).trans (idle_live h').symm
  have hstep : ∀ w w' i, w.live = w'.live →
      Alike World.live id ((app sdk).step w i) ((app sdk).step w' i) :=
    fun _ _ i hw => appMainStep_live sdk i hw
  obtain ⟨-, hevents⟩ := Machine.alike_runFrom hstep hstart inputs
  simpa only [List.map_id] using hevents

/-- A limit order that was reviewed and rejected. -/
def rejectedSession : List Input :=
  Client.session (Client.ethMetadata .order)
      [Client.bulkOrderAction [Client.limitRequest true false .gtc "2000" "0.5"]] ++
    [Client.signAction, .choice false Client.env]

/-- It leaves a path behind, and the next session is as after power-on. -/
theorem history_independent_rejectedSession :
    ((app Client.sdk).state rejectedSession).signing.bip32PathLength = 5 ∧
      ((app Client.sdk).runFrom ((app Client.sdk).state rejectedSession) rejectedSession).2 =
        ((app Client.sdk).runFrom ((app Client.sdk).state []) rejectedSession).2 := by
  have hidle : ((app Client.sdk).state rejectedSession).ctx = {} ∧
      ((app Client.sdk).state rejectedSession).payload.handler = none ∧
      ((app Client.sdk).state rejectedSession).review = none ∧
      ((app Client.sdk).state rejectedSession).running = true := by
    decide +kernel
  obtain ⟨hctx, hpayload, hreview, hrunning⟩ := hidle
  refine ⟨by decide +kernel, ?_⟩
  exact history_independent Client.sdk rejectedSession [] rejectedSession
    ⟨hctx, hpayload, hreview, hrunning⟩ ⟨rfl, rfl, rfl, rfl⟩

end Hyperliquid

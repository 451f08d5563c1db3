/-
# What a command can do

The handlers have many exits, and most of them answer with an error and change nothing.  Here
each function is inverted once: what it can have done, with the guards that it has passed on the
way.  The invariants of the session and everything about its runs go through these cases, and
not through the text of a handler.
-/
import Hyperliquid.AppMain

namespace Hyperliquid

open Lib

variable {sdk : Sdk}

/-! ## 1. Quiet events -/

/-- Events that neither concern the approval nor end the session. -/
def Event.Quiet : Event → Prop
  | .cx _ | .deriveAddr _ _ _ | .response _ _ | .reviewStatus | .menuMain => True
  | .ctxReset | .useCaseReview _ _ | .choice _ | .signature _ _ _ _ => False

theorem quiet_calls (calls : List CxCall) : ∀ e ∈ calls.map Event.cx, e.Quiet := by
  intro e he
  obtain ⟨c, -, rfl⟩ := List.mem_map.mp he
  trivial

/-- A computation over the primitives changes the serialization buffer only. -/
theorem runCx_cases {α : Type} {env : Env} {m : Cx α} {w w' : World} {o : Option α}
    {events : List Event} (h : runCx env m w = (o, w', events)) :
    (∃ rawBuf, w' = { w with rawBuf := rawBuf }) ∧ ∀ e ∈ events, e.Quiet := by
  cases h
  exact ⟨⟨_, rfl⟩, quiet_calls _⟩

theorem quiet_single {e : Event} (he : e.Quiet) : ∀ x ∈ [e], x.Quiet := by
  intro x hx
  rw [List.mem_singleton] at hx
  exact hx ▸ he

/-- A response is quiet. -/
theorem quiet_response (data : Bytes) (sw : StatusWord) :
    ∀ e ∈ [Event.response data sw], e.Quiet := quiet_single trivial

/-- The events of an answer to a command: what came before, and the response. -/
theorem quiet_after {events : List Event} (h : ∀ e ∈ events, e.Quiet) (data : Bytes)
    (sw : StatusWord) : ∀ e ∈ events ++ [Event.response data sw], e.Quiet :=
  List.forall_mem_append.mpr ⟨h, quiet_response data sw⟩

theorem quiet_derive {calls : List Event} (h : ∀ e ∈ calls, e.Quiet)
    (path : Vector UInt32 maxBip32Path) (length : UInt8) (addr : Option Address) :
    ∀ e ∈ calls ++ [Event.deriveAddr path length addr], e.Quiet :=
  List.forall_mem_append.mpr ⟨h, quiet_single trivial⟩

/-! ## 2. The handlers -/

variable (sdk) in
/-- `handler_get_addr` changes the serialization buffer only. -/
theorem handlerGetAddr_effect (env : Env) (data : Bytes) (w : World) :
    ∃ rawBuf events, handlerGetAddr sdk env data w =
        ⟨env.send, { w with rawBuf := rawBuf }, events⟩ ∧ ∀ e ∈ events, e.Quiet := by
  unfold handlerGetAddr
  split
  · exact ⟨w.rawBuf, _, rfl, quiet_response _ _⟩
  · split
    · exact ⟨w.rawBuf, _, rfl, quiet_response _ _⟩
    · split
      rename_i addr w' calls hrun
      obtain ⟨⟨rawBuf, rfl⟩, hq⟩ := runCx_cases hrun
      have hevents := quiet_derive hq
      split
      · exact ⟨rawBuf, _, rfl, quiet_after (hevents _ _ _) [] .incorrectData⟩
      · exact ⟨rawBuf, _, rfl, quiet_after (hevents _ _ _) _ .success⟩

variable (sdk) in
/-- `sign_action` leaves the context as it is, or at the next action, or zeroed. -/
theorem signAction_world (env : Env) (w : World) :
    ∃ rawBuf ctx', (signAction sdk env w).world = { w with rawBuf := rawBuf, ctx := ctx' } ∧
      (ctx' = w.ctx ∨ ctx' = ctxSwitchToNextAction w.ctx ∨ ctx' = {}) := by
  unfold signAction
  split
  · exact ⟨w.rawBuf, w.ctx, rfl, .inl rfl⟩
  · split
    · exact ⟨w.rawBuf, w.ctx, rfl, .inl rfl⟩
    · split
      rename_i sig w' calls hrun
      obtain ⟨⟨rawBuf, rfl⟩, -⟩ := runCx_cases hrun
      split
      · exact ⟨rawBuf, w.ctx, rfl, .inl rfl⟩
      · dsimp only
        split
        · exact ⟨rawBuf, {}, rfl, .inr (.inr rfl)⟩
        · exact ⟨rawBuf, ctxSwitchToNextAction w.ctx, rfl, .inr (.inl rfl)⟩

/-- The payload of a `SIGN_ACTION` is the path that is in use. -/
def SamePath (sdk : Sdk) (signing : SigningCtx) (data : Bytes) : Prop :=
  ∃ rest, data = signing.bip32PathLength :: rest ∧
    sdk.bip32PathRead rest signing.bip32PathLength = some signing.bip32Path

/-- What `handler_sign_action` can be: an error; before signing has started, a new path without
a review or with one; or afterwards, for the path in use, `sign_action`. -/
inductive SignCommand (sdk : Sdk) (env : Env) (data : Bytes) (w : World) : Outcome → Prop where
  | refused (sw : StatusWord) : SignCommand sdk env data w (ioSendSw env sw w)
  | unreviewed (signing : SigningCtx) (rawBuf : Bytes) (events : List Event) :
      w.ctx.actionIndex = 0 → (∀ e ∈ events, e.Quiet) → SignCommand sdk env data w
        ((ioSendSw env .incorrectData { w with signing := signing, rawBuf := rawBuf }).after events)
  | reviewed (signing : SigningCtx) (rawBuf : Bytes) (calls : List Event) (screen : UiCtx) :
      w.ctx.actionIndex = 0 → (∀ e ∈ calls, e.Quiet) →
      handleUi sdk w.ctx w.ctx.metadata = some screen → SignCommand sdk env data w
        ⟨0, { w with
          signing := signing, rawBuf := rawBuf, commEnabled := false, review := some screen },
        calls ++ [.deriveAddr signing.bip32Path signing.bip32PathLength (some signing.walletAddr),
          .useCaseReview ⟨w.ctx.metadata, w.ctx.actions, signing⟩ screen]⟩
  | signs : 0 < w.ctx.actionIndex → SamePath sdk w.signing data →
      SignCommand sdk env data w (signAction sdk env w)

variable (sdk) in
theorem handlerSignAction_cases (env : Env) (data : Bytes) (w : World) :
    SignCommand sdk env data w (handlerSignAction sdk env data w) := by
  unfold handlerSignAction
  split
  · exact .refused _
  · split
    · exact .refused _
    · rename_i pathLength rest _ bip32Path hpath
      split
      · rename_i hfirst
        have hidx : w.ctx.actionIndex = 0 := by simpa [ctxCurrentActionIsFirst] using hfirst
        dsimp only
        split
        · exact .unreviewed ⟨bip32Path, pathLength, _⟩ w.rawBuf [] hidx (by simp)
        · generalize hrun : runCx env (deriveAddrFromPath sdk) _ = res
          obtain ⟨addr, w', calls⟩ := res
          obtain ⟨⟨rawBuf, rfl⟩, hq⟩ := runCx_cases hrun
          have hderive := quiet_derive hq bip32Path pathLength addr
          cases addr with
          | none => exact .unreviewed _ rawBuf _ hidx hderive
          | some addr =>
            dsimp only
            split
            · exact .unreviewed _ rawBuf _ hidx hderive
            · rename_i screen hui
              rw [List.append_assoc]
              exact .reviewed ⟨bip32Path, pathLength, addr⟩ rawBuf calls screen hidx hq hui
      · rename_i hfirst
        have hidx : 0 < w.ctx.actionIndex := by
          have hne : w.ctx.actionIndex ≠ 0 := by simpa [ctxCurrentActionIsFirst] using hfirst
          exact Nat.pos_of_ne_zero hne
        split
        · exact .refused _
        · rename_i hsame
          simp only [Bool.or_eq_true, bne_iff_ne, ne_eq, not_or, not_not] at hsame
          obtain ⟨rfl, rfl⟩ := hsame
          exact .signs hidx ⟨rest, rfl, hpath⟩

variable (sdk) in
/-- The callback of a review takes it off the screen, and leaves what `sign_action` leaves or a
zeroed context. -/
theorem reviewChoice_world (env : Env) (confirm : Bool) (w : World) :
    ∃ rawBuf ctx', (reviewChoice sdk env confirm w).1 =
        { w with rawBuf := rawBuf, ctx := ctx', commEnabled := true, review := none } ∧
      (ctx' = w.ctx ∨ ctx' = ctxSwitchToNextAction w.ctx ∨ ctx' = {}) := by
  obtain ⟨rawBuf, ctx', hworld, hctx⟩ :=
    signAction_world sdk env { w with commEnabled := true, review := none }
  unfold reviewChoice
  dsimp only
  split
  · split
    · exact ⟨rawBuf, ctx', hworld, hctx⟩
    · refine ⟨rawBuf, {}, ?_, .inr (.inr rfl)⟩
      dsimp only [Outcome.after]
      rw [hworld]
      rfl
  · exact ⟨w.rawBuf, {}, rfl, .inr (.inr rfl)⟩

/-! ## 3. The dispatcher and the loop -/

/-- A command that the dispatcher hands to `handler_sign_action`. -/
structure Command.SignsAction (cmd : Command) : Prop where
  cla : cmd.cla = Hyperliquid.cla
  ins : cmd.ins = insSignAction
  p1 : cmd.p1 = 0
  p2 : cmd.p2 = 0
  data : cmd.data ≠ []

theorem dispatchSingle_cases (handler : Env → Bytes → World → Outcome) (env : Env)
    (cmd : Command) (w : World) :
    (∃ sw, dispatchSingle handler env cmd w = .ok (ioSendSw env sw w) ∧ sw ≠ .success) ∨
    (cmd.p1 = 0 ∧ cmd.p2 = 0 ∧ cmd.data ≠ [] ∧
      dispatchSingle handler env cmd w = .ok (handler env cmd.data w)) := by
  unfold dispatchSingle
  by_cases hp : (cmd.p1 != 0 || cmd.p2 != 0) = true
  · rw [if_pos hp]
    exact .inl ⟨.incorrectP1P2, rfl, by decide⟩
  · rw [if_neg hp]
    by_cases hdata : cmd.data.isEmpty = true
    · rw [if_pos hdata]
      exact .inl ⟨.wrongDataLength, rfl, by decide⟩
    · rw [if_neg hdata]
      simp only [Bool.or_eq_true, bne_iff_ne, ne_eq, not_or, not_not] at hp
      exact .inr ⟨hp.1, hp.2, by simpa using hdata, rfl⟩

/-- The instruction of a chunked command. -/
def PayloadHandler.ins : PayloadHandler → UInt8
  | .parseActionMetadata => insProvideActionMetadata
  | .parseAction => insSetAction

/-- A command whose data the dispatcher hands to this handler of payloads. -/
structure Command.Provides (cmd : Command) (handler : PayloadHandler) : Prop where
  cla : cmd.cla = Hyperliquid.cla
  ins : cmd.ins = handler.ins
  p1 : cmd.p1 = p1First ∨ cmd.p1 = p1Following
  p2 : cmd.p2 = 0
  data : cmd.data ≠ []

variable (sdk) in
theorem dispatchChunked_cases (handler : PayloadHandler) (env : Env) (cmd : Command)
    (w : World) :
    (∃ sw, dispatchChunked (handlerChunked sdk handler) env cmd w = .ok (ioSendSw env sw w) ∧
      sw ≠ .success) ∨
    ((cmd.p1 = p1First ∨ cmd.p1 = p1Following) ∧ cmd.p2 = 0 ∧ cmd.data ≠ [] ∧
      dispatchChunked (handlerChunked sdk handler) env cmd w =
        handlerChunked sdk handler env (cmd.p1 == p1First) cmd.data w) := by
  unfold dispatchChunked
  by_cases hp : ((cmd.p1 != p1First && cmd.p1 != p1Following) || cmd.p2 != 0) = true
  · rw [if_pos hp]
    exact .inl ⟨.incorrectP1P2, rfl, by decide⟩
  · rw [if_neg hp]
    by_cases hdata : cmd.data.isEmpty = true
    · rw [if_pos hdata]
      exact .inl ⟨.wrongDataLength, rfl, by decide⟩
    · rw [if_neg hdata]
      simp only [Bool.or_eq_true, Bool.and_eq_true, bne_iff_ne, ne_eq, not_or, not_not,
        not_and_or] at hp
      exact .inr ⟨hp.1, hp.2, by simpa using hdata, rfl⟩

variable (sdk) in
/-- What a command can be: refused, or handed to one of the four handlers. -/
theorem apduDispatcher_cases (env : Env) (cmd : Command) (w : World) :
    (∃ sw, apduDispatcher sdk env cmd w = .ok (ioSendSw env sw w) ∧ sw ≠ .success) ∨
    apduDispatcher sdk env cmd w = .ok (handlerGetAddr sdk env cmd.data w) ∨
    (∃ handler, cmd.Provides handler ∧ apduDispatcher sdk env cmd w =
      handlerChunked sdk handler env (cmd.p1 == p1First) cmd.data w) ∨
    (cmd.SignsAction ∧
      apduDispatcher sdk env cmd w = .ok (handlerSignAction sdk env cmd.data w)) := by
  unfold apduDispatcher
  by_cases hcla : (cmd.cla != cla) = true
  · rw [if_pos hcla]
    exact .inl ⟨.invalidCla, rfl, by decide⟩
  rw [if_neg hcla]
  have hcmd : cmd.cla = cla := by simpa using hcla
  split
  · rcases dispatchSingle_cases (handlerGetAddr sdk) env cmd w with hno | ⟨-, -, -, hyes⟩
    · exact .inl hno
    · exact .inr (.inl hyes)
  · split
    · rename_i hins
      rcases dispatchChunked_cases sdk .parseActionMetadata env cmd w with
        hno | ⟨hp1, hp2, hdata, hyes⟩
      · exact .inl hno
      · refine .inr (.inr (.inl ⟨.parseActionMetadata, ?_, hyes⟩))
        exact ⟨hcmd, beq_iff_eq.mp hins, hp1, hp2, hdata⟩
    · split
      · rename_i hins
        rcases dispatchChunked_cases sdk .parseAction env cmd w with
          hno | ⟨hp1, hp2, hdata, hyes⟩
        · exact .inl hno
        · refine .inr (.inr (.inl ⟨.parseAction, ?_, hyes⟩))
          exact ⟨hcmd, beq_iff_eq.mp hins, hp1, hp2, hdata⟩
      · split
        · rename_i hins
          rcases dispatchSingle_cases (handlerSignAction sdk) env cmd w with
            hno | ⟨hp1, hp2, hdata, hyes⟩
          · exact .inl hno
          · exact .inr (.inr (.inr ⟨⟨hcmd, beq_iff_eq.mp hins, hp1, hp2, hdata⟩, hyes⟩))
        · exact .inl ⟨.invalidIns, rfl, by decide⟩

variable (sdk) in
/-- Such a command is handed to its handler. -/
theorem Command.Provides.dispatched {cmd : Command} {handler : PayloadHandler}
    (h : cmd.Provides handler) (env : Env) (w : World) :
    apduDispatcher sdk env cmd w =
      handlerChunked sdk handler env (cmd.p1 == p1First) cmd.data w := by
  obtain ⟨cmdCla, ins, p1, p2, data⟩ := cmd
  obtain ⟨rfl, rfl, hp1, rfl, hdata⟩ := h
  obtain ⟨b, bytes, rfl⟩ := List.exists_cons_of_ne_nil hdata
  rcases hp1 with rfl | rfl
  · cases handler <;> rfl
  · cases handler <;> rfl

/-- What a step of the loop can be.  A command is dispatched while communication is enabled; a
choice counts while a review is on the screen. -/
inductive LoopStep (sdk : Sdk) (w : World) : Input → World × List Event → Prop where
  | ignored (i : Input) : LoopStep sdk w i (w, [])
  | stopped : LoopStep sdk w .recvFailure ({ w with running := false }, [])
  | answered (cmd : Option Command) (env : Env) (sw : StatusWord) : sw ≠ .success →
      LoopStep sdk w (.apdu cmd env) (w, [.response [] sw])
  | faulted (cmd : Command) (env : Env) (e : Failure) : w.commEnabled = true →
      apduDispatcher sdk env cmd w = .error e →
      LoopStep sdk w (.apdu (some cmd) env) ({ w with running := false, faulted := true }, [])
  | dispatched (cmd : Command) (env : Env) (r : Outcome) (running : Bool) :
      w.commEnabled = true → apduDispatcher sdk env cmd w = .ok r →
      running = (if r.ret < 0 then false else r.world.running) →
      LoopStep sdk w (.apdu (some cmd) env) ({ r.world with running := running }, r.events)
  | chosen (confirm : Bool) (env : Env) (screen : UiCtx) : w.review = some screen →
      LoopStep sdk w (.choice confirm env) (reviewChoice sdk env confirm w)

variable (sdk) in
theorem appMainStep_cases (w : World) (i : Input) :
    LoopStep sdk w i (appMainStep sdk w i) := by
  unfold appMainStep
  split
  · exact .ignored i
  · cases i with
    | recvFailure => exact .stopped
    | choice confirm env =>
      dsimp only
      split
      · exact .ignored _
      · exact .chosen confirm env _ ‹_›
    | apdu cmd env =>
      dsimp only [appMainApdu]
      split
      · rename_i hcomm
        cases cmd with
        | none => exact .answered none env _ (by decide)
        | some cmd =>
          dsimp only
          split
          · exact .faulted cmd env _ hcomm ‹_›
          · rename_i r hr
            split
            · rename_i hret
              exact .dispatched cmd env r false hcomm hr (if_pos hret).symm
            · rename_i hret
              exact .dispatched cmd env r r.world.running hcomm hr (if_neg hret).symm
      · exact .answered cmd env _ (by decide)

end Hyperliquid

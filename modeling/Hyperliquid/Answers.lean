/-
# Every command is answered once

The host sends a command and waits for its response, so the application may neither drop one nor
send one that was not asked for.  A handler has many exits, and each of them ends with a
response, but for one: the `SIGN_ACTION` that shows the review leaves its response to the callback
of the review, which the user runs later, with commands in between that are refused.

`derivation` is what deriving an address answers, and `SignAnswer` what a `SIGN_ACTION` can come
to with the events it emits.  `AnswersOnce` says input by input what is sent; over a run the
responses and the review that is still open are then as many as the commands
(`commands_answered`).
-/
import Hyperliquid.Signing
import Hyperliquid.StoringCommands

namespace Hyperliquid

open Lib

/-! ## 1. What the handlers answer -/

section

variable (sdk : Sdk) (env : Env)

/-- The address of a public key. -/
def addressOf (rawPk : Vector UInt8 65) : Address :=
  Vector.ofFn fun i : Fin addressLength =>
    (sdk.keccak256 (rawPk.toList.drop 1)).get (i.natAdd 12)

/-- The address that is derived, if the primitives succeed, and what is hashed for it. -/
def derivation : Option Address × List Event :=
  match env.pubkey, env.cx with
  | some rawPk, true :: _ =>
    (some (addressOf sdk rawPk), [.cx (.keccak (rawPk.toList.drop 1))])
  | _, _ => (none, [])

/-- An address is derived if and only if the public key is obtained and hashed. -/
theorem derivation_isSome_iff :
    (derivation sdk env).1.isSome = true ↔ env.pubkey.isSome ∧ env.cx.head? = some true := by
  obtain ⟨cx, pubkey, ecdsa, pki, send⟩ := env
  unfold derivation
  cases pubkey with
  | none => simp
  | some rawPk =>
    rcases cx with - | ⟨ok, cx⟩
    · simp
    · cases ok
      · simp
      · simp

/-- The events of a derivation for a path. -/
def derivationEvents (path : Vector UInt32 maxBip32Path) (length : UInt8) : List Event :=
  (derivation sdk env).2 ++ [.deriveAddr path length (derivation sdk env).1]

/-- Deriving an address changes nothing. -/
theorem runCx_deriveAddrFromPath (w : World) :
    runCx env (deriveAddrFromPath sdk) w =
      ((derivation sdk env).1, w, (derivation sdk env).2) := by
  obtain ⟨cx, pubkey, ecdsa, pki, send⟩ := env
  unfold derivation
  cases pubkey with
  | none => rfl
  | some rawPk =>
    rcases cx with - | ⟨ok, cx⟩
    · rfl
    · cases ok <;> rfl

/-- The data of a command begin with this path. -/
def ReadsPath (data : Bytes) (path : Vector UInt32 maxBip32Path) (length : UInt8) : Prop :=
  ∃ rest, data = length :: rest ∧ sdk.bip32PathRead rest length = some path

/-- What `handler_get_addr` answers for an address that was derived, or not. -/
def addressAnswer : Option Address → Bytes × StatusWord
  | some addr => (addr.toList, .success)
  | none => ([], .incorrectData)

/-- `handler_get_addr` refuses the path, or answers with the address or an error; the state has
no part in it. -/
theorem handlerGetAddr_answer (data : Bytes) :
    (∃ sw, sw ≠ .success ∧ ∀ w, handlerGetAddr sdk env data w = ioSendSw env sw w) ∨
    ∃ path length, ReadsPath sdk data path length ∧ ∀ w, handlerGetAddr sdk env data w =
      (ioSendResponsePointer env (addressAnswer (derivation sdk env).1).1
        (addressAnswer (derivation sdk env).1).2 w).after
          (derivationEvents sdk env path length) := by
  unfold handlerGetAddr
  split
  · exact .inl ⟨_, by decide, fun _ => rfl⟩
  · split
    · exact .inl ⟨_, by decide, fun _ => rfl⟩
    · rename_i pathLength rest _ path hpath
      refine .inr ⟨path, pathLength, ⟨rest, rfl, hpath⟩, ?_⟩
      simp only [runCx_deriveAddrFromPath, derivationEvents]
      cases (derivation sdk env).1 with
      | none => exact fun _ => rfl
      | some addr => exact fun _ => rfl

/-- What a `SIGN_ACTION` can be answered with. -/
inductive SignAnswer (data : Bytes) (w : World) : Outcome → Prop where
  | refused (sw : StatusWord) : sw ≠ .success → SignAnswer data w (ioSendSw env sw w)
  | unreviewed (signing : SigningCtx) (events : List Event) : w.ctx.actionIndex = 0 →
      ReadsPath sdk data signing.bip32Path signing.bip32PathLength →
      (events = [] ∨
        events = derivationEvents sdk env signing.bip32Path signing.bip32PathLength) →
      SignAnswer data w
        ((ioSendSw env .incorrectData { w with signing := signing }).after events)
  /-- The review is shown, and nothing is sent yet. -/
  | reviewed (signing : SigningCtx) (screen : UiCtx) : w.ctx.actionIndex = 0 →
      ReadsPath sdk data signing.bip32Path signing.bip32PathLength →
      (derivation sdk env).1 = some signing.walletAddr →
      handleUi sdk w.ctx w.ctx.metadata = some screen →
      SignAnswer data w
        ⟨0, { w with signing := signing, commEnabled := false, review := some screen },
          derivationEvents sdk env signing.bip32Path signing.bip32PathLength ++
            [.useCaseReview ⟨w.ctx.metadata, w.ctx.actions, signing⟩ screen]⟩
  | signs : 0 < w.ctx.actionIndex → SignAnswer data w (signAction sdk env w)

theorem handlerSignAction_answer (data : Bytes) (w : World) :
    SignAnswer sdk env data w (handlerSignAction sdk env data w) := by
  unfold handlerSignAction
  split
  · exact .refused _ (by decide)
  · split
    · exact .refused _ (by decide)
    · rename_i pathLength rest _ path hpath
      have hreads : ReadsPath sdk (pathLength :: rest) path pathLength := ⟨rest, rfl, hpath⟩
      split
      · rename_i hfirst
        have hidx : w.ctx.actionIndex = 0 := by simpa [ctxCurrentActionIsFirst] using hfirst
        dsimp only
        split
        · exact .unreviewed ⟨path, pathLength, _⟩ [] hidx hreads (.inl rfl)
        · rw [runCx_deriveAddrFromPath]
          cases haddr : (derivation sdk env).1 with
          | none =>
            refine .unreviewed ⟨path, pathLength, _⟩ _ hidx hreads (.inr ?_)
            rw [derivationEvents, haddr]
          | some addr =>
            have hevents : (derivation sdk env).2 ++ [.deriveAddr path pathLength (some addr)] =
                derivationEvents sdk env path pathLength := by
              rw [derivationEvents, haddr]
            dsimp only
            rw [hevents]
            split
            · exact .unreviewed ⟨path, pathLength, addr⟩ _ hidx hreads (.inr rfl)
            · exact .reviewed ⟨path, pathLength, addr⟩ _ hidx hreads haddr ‹_›
      · rename_i hfirst
        split
        · exact .refused _ (by decide)
        · have hne : w.ctx.actionIndex ≠ 0 := by simpa [ctxCurrentActionIsFirst] using hfirst
          exact .signs (Nat.pos_of_ne_zero hne)

/-- `sign_action` has an action and metadata to sign with, or answers with an error at once. -/
theorem signAction_exits (w : World) :
    signAction sdk env w = ioSendSw env .incorrectData w ∨
    ∃ a m, ctxGetCurrentAction w.ctx = some a ∧ w.ctx.metadata = some m := by
  cases ha : ctxGetCurrentAction w.ctx with
  | none =>
    left
    simp only [signAction, ha]
  | some a =>
    cases hm : w.ctx.metadata with
    | none =>
      left
      simp only [signAction, ha, ctxGetActionMetadata, hm]
    | some m => exact .inr ⟨a, m, rfl, rfl⟩

end

/-! ## 2. Counting responses -/

def Event.isResponse : Event → Bool
  | .response _ _ => true
  | _ => false

/-- The responses among some events. -/
def responseCount (events : List Event) : Nat := events.countP Event.isResponse

@[simp] theorem responseCount_nil : responseCount [] = 0 := rfl

@[simp] theorem responseCount_append (xs ys : List Event) :
    responseCount (xs ++ ys) = responseCount xs + responseCount ys :=
  List.countP_append

@[simp] theorem responseCount_response (data : Bytes) (sw : StatusWord) :
    responseCount [.response data sw] = 1 := rfl

/-- Calls of the primitives are not responses. -/
@[simp] theorem responseCount_calls (calls : List CxCall) :
    responseCount (calls.map Event.cx) = 0 := by
  refine List.countP_eq_zero.mpr ?_
  intro e he
  obtain ⟨c, -, rfl⟩ := List.mem_map.mp he
  exact Bool.false_ne_true

@[simp] theorem responseCount_derivation (sdk : Sdk) (env : Env)
    (path : Vector UInt32 maxBip32Path) (length : UInt8) :
    responseCount (derivationEvents sdk env path length) = 0 := by
  unfold derivationEvents derivation
  split <;> rfl

/-- The command that showed the review on the screen is still to be answered. -/
def World.unanswered (w : World) : Nat := if w.review.isSome then 1 else 0

theorem World.unanswered_none {w : World} (h : w.review = none) : w.unanswered = 0 := by
  simp [unanswered, h]

variable {sdk : Sdk} {env : Env} {w : World}

/-- One response now, or one left to the callback of a review. -/
def Outcome.Balanced (r : Outcome) : Prop := responseCount r.events + r.world.unanswered = 1

theorem balanced_response {events : List Event} (data : Bytes) (sw : StatusWord)
    (hevents : responseCount events = 0) (hrev : w.review = none) :
    ((ioSendResponsePointer env data sw w).after events).Balanced := by
  show responseCount (events ++ [.response data sw]) + w.unanswered = 1
  rw [responseCount_append, hevents, World.unanswered_none hrev]
  rfl

variable (sdk) in
/-- `sign_action` answers once, with a signature or an error. -/
theorem responseCount_signAction (env : Env) (w : World) :
    responseCount (signAction sdk env w).events = 1 := by
  rcases signAction_exits sdk env w with hr | ⟨a, m, ha, hm⟩
  · rw [hr]
    rfl
  · rcases signAction_answer sdk env ha hm with ⟨sig, -, hanswer⟩ | ⟨-, hanswer⟩
    · obtain ⟨calls, hevents⟩ := hanswer.events
      have hend : ∀ p : Prop, [Decidable p] →
          responseCount (if p then [Event.ctxReset] else []) = 0 := by
        intro p _
        split <;> rfl
      rw [hevents, responseCount_append, responseCount_append, responseCount_calls, hend]
      rfl
    · obtain ⟨calls, hevents⟩ := hanswer.events
      rw [hevents, responseCount_append, responseCount_calls]
      rfl

theorem handlerSignAction_balanced (data : Bytes) (hrev : w.review = none) :
    (handlerSignAction sdk env data w).Balanced := by
  have hanswer := handlerSignAction_answer sdk env data w
  generalize handlerSignAction sdk env data w = r at hanswer ⊢
  cases hanswer with
  | refused sw _ => exact balanced_response [] sw responseCount_nil hrev
  | unreviewed signing events _ _ hevents =>
    refine balanced_response (w := { w with signing := signing }) [] .incorrectData ?_ hrev
    rcases hevents with rfl | rfl
    · rfl
    · exact responseCount_derivation ..
  | reviewed signing screen _ _ _ _ =>
    show responseCount (_ ++ _) + 1 = 1
    rw [responseCount_append, responseCount_derivation]
    rfl
  | signs _ =>
    obtain ⟨rawBuf, ctx', hworld, -⟩ := signAction_world sdk env w
    show responseCount _ + World.unanswered _ = 1
    have hclosed : (signAction sdk env w).world.review = none := by
      rw [hworld]
      exact hrev
    rw [responseCount_signAction, World.unanswered_none hclosed]

/-- A complete payload sends no response of its own. -/
theorem responseCount_payload {handler : PayloadHandler} {payload : Bytes}
    {ctx ctx' : HlContext} {ret : Bool} {events : List Event}
    (h : PayloadEffect sdk env payload ctx handler ret ctx' events) :
    responseCount events = 0 := by
  cases h <;> rfl

theorem handlerChunked_balanced {handler : PayloadHandler} {first : Bool} {data : Bytes}
    {r : Outcome} (hrev : w.review = none) (hw : w.PayloadOk)
    (h : handlerChunked sdk handler env first data w = .ok r) : r.Balanced := by
  obtain ⟨r', hr', heffect⟩ := handlerChunked_effect sdk handler env first data hw
  cases h.symm.trans hr'
  rcases heffect with ⟨sw, payload', -, rfl⟩ | ⟨bytes, ret, ctx', events, -, hrun, rfl⟩
  · exact balanced_response (w := { w with payload := payload' }) [] sw responseCount_nil hrev
  · exact balanced_response (w := { w with payload := {}, ctx := ctx' }) [] _
      (responseCount_payload (runPayloadHandler_effect hrun)) hrev

/-- Every dispatched command. -/
theorem apduDispatcher_balanced {cmd : Command} {r : Outcome} (hrev : w.review = none)
    (hw : w.PayloadOk) (h : apduDispatcher sdk env cmd w = .ok r) : r.Balanced := by
  rcases apduDispatcher_cases sdk env cmd w with
    ⟨sw, hr, -⟩ | hr | ⟨handler, -, hr⟩ | ⟨-, hr⟩
  · cases h.symm.trans hr
    exact balanced_response [] sw responseCount_nil hrev
  · cases h.symm.trans hr
    rcases handlerGetAddr_answer sdk env cmd.data with
      ⟨sw, -, hget⟩ | ⟨path, length, -, hget⟩
    · rw [hget]
      exact balanced_response [] sw responseCount_nil hrev
    · rw [hget]
      exact balanced_response _ _ (responseCount_derivation ..) hrev
  · exact handlerChunked_balanced hrev hw (hr.symm.trans h)
  · cases h.symm.trans hr
    exact handlerSignAction_balanced cmd.data hrev

/-- Only a `SIGN_ACTION` puts a review on the screen. -/
theorem apduDispatcher_review {cmd : Command} {r : Outcome} (hrev : w.review = none)
    (hw : w.PayloadOk) (h : apduDispatcher sdk env cmd w = .ok r)
    (hshown : r.world.review ≠ none) : cmd.SignsAction := by
  rcases apduDispatcher_cases sdk env cmd w with
    ⟨sw, hr, -⟩ | hr | ⟨handler, -, hr⟩ | ⟨hsigns, -⟩
  · cases h.symm.trans hr
    exact absurd hrev hshown
  · obtain ⟨rawBuf, events, hget, -⟩ := handlerGetAddr_effect sdk env cmd.data w
    rw [hget] at hr
    cases h.symm.trans hr
    exact absurd hrev hshown
  · obtain ⟨r', hchunk, heffect⟩ :=
      handlerChunked_effect sdk handler env (cmd.p1 == p1First) cmd.data hw
    cases h.symm.trans (hr.trans hchunk)
    rcases heffect with ⟨sw, payload', -, rfl⟩ | ⟨bytes, ret, ctx', events, -, -, rfl⟩
    · exact absurd hrev hshown
    · exact absurd hrev hshown
  · exact hsigns

variable (sdk env w) in
/-- The callback of a review sends the response that was left to it. -/
theorem reviewChoice_balanced (confirm : Bool) :
    responseCount (reviewChoice sdk env confirm w).2 = 1 ∧
      (reviewChoice sdk env confirm w).1.review = none := by
  constructor
  · cases confirm with
    | false => rfl
    | true =>
      have hsign := responseCount_signAction sdk env w.afterReview
      rw [reviewChoice_confirm, confirmEvents, ← List.singleton_append, responseCount_append,
        responseCount_append, hsign]
      split <;> rfl
  · obtain ⟨rawBuf, ctx', hworld, -⟩ := reviewChoice_world sdk env confirm w
    rw [hworld]

/-! ## 3. Input by input -/

/-- What each input is answered with.  A command is answered once, but for the `SIGN_ACTION` that
shows the review; that one is answered by the user's choice, and commands in between are refused
with a response of their own. -/
structure AnswersOnce (sdk : Sdk) (w : World) : Prop where
  ended : w.running = false → ∀ i, appMainStep sdk w i = (w, [])
  recvFailure : responseCount (appMainStep sdk w .recvFailure).2 = 0 ∧
    (appMainStep sdk w .recvFailure).1.review = w.review
  command : w.running = true → w.review = none → ∀ cmd env,
    (responseCount (appMainStep sdk w (.apdu cmd env)).2 = 1 ∧
      (appMainStep sdk w (.apdu cmd env)).1.review = none) ∨
    (responseCount (appMainStep sdk w (.apdu cmd env)).2 = 0 ∧
      (appMainStep sdk w (.apdu cmd env)).1.review ≠ none ∧ ∃ c, cmd = some c ∧ c.SignsAction)
  pending : w.running = true → w.review ≠ none → ∀ cmd env,
    appMainStep sdk w (.apdu cmd env) = (w, [.response [] .commandErrorNoInfo])
  choice : w.running = true → w.review ≠ none → ∀ confirm env,
    responseCount (appMainStep sdk w (.choice confirm env)).2 = 1 ∧
      (appMainStep sdk w (.choice confirm env)).1.review = none
  unasked : w.review = none → ∀ confirm env, appMainStep sdk w (.choice confirm env) = (w, [])

/-- A dispatched command is answered, or it is the `SIGN_ACTION` that shows the review. -/
theorem appMainStep_command (hrun : w.running = true) (hon : w.commEnabled = true)
    (hrev : w.review = none) (hw : w.PayloadOk) (cmd : Option Command) :
    (responseCount (appMainStep sdk w (.apdu cmd env)).2 = 1 ∧
      (appMainStep sdk w (.apdu cmd env)).1.review = none) ∨
    (responseCount (appMainStep sdk w (.apdu cmd env)).2 = 0 ∧
      (appMainStep sdk w (.apdu cmd env)).1.review ≠ none ∧
      ∃ c, cmd = some c ∧ c.SignsAction) := by
  cases cmd with
  | none =>
    have hstep : appMainStep sdk w (.apdu none env) = (w, [.response [] .wrongDataLength]) := by
      simp [appMainStep, appMainApdu, hrun, hon]
    rw [hstep]
    exact .inl ⟨rfl, hrev⟩
  | some cmd =>
    obtain ⟨r, hr⟩ := apduDispatcher_returns sdk env cmd w
    have hbalance : responseCount r.events + r.world.unanswered = 1 :=
      apduDispatcher_balanced hrev hw hr
    have hevents : (appMainStep sdk w (.apdu (some cmd) env)).2 = r.events := by
      simp [appMainStep, appMainApdu, hrun, hon, hr]
    have hreview : (appMainStep sdk w (.apdu (some cmd) env)).1.review = r.world.review := by
      simp only [appMainStep, appMainApdu, hrun, hon, hr, Bool.not_true, Bool.false_eq_true,
        if_false, if_true]
      split
      · rfl
      · rfl
    rw [hevents, hreview]
    cases hshown : r.world.review with
    | none =>
      rw [World.unanswered_none hshown] at hbalance
      exact .inl ⟨hbalance, rfl⟩
    | some screen =>
      have hopen : r.world.unanswered = 1 := by simp [World.unanswered, hshown]
      rw [hopen] at hbalance
      refine .inr ⟨Nat.succ_inj.mp hbalance, Option.some_ne_none screen, cmd, rfl, ?_⟩
      exact apduDispatcher_review hrev hw hr (hshown ▸ Option.some_ne_none screen)

theorem answersOnce (hcomm : w.Comm) (hw : w.PayloadOk) : AnswersOnce sdk w where
  ended hrun i := by simp [appMainStep, hrun]
  recvFailure := by
    by_cases hrun : w.running = true
    · simp [appMainStep, hrun]
    · simp [appMainStep, hrun]
  command hrun hrev cmd env := by
    have hon : w.commEnabled = true := by
      rw [hcomm, hrev]
      rfl
    exact appMainStep_command hrun hon hrev hw cmd
  pending hrun hrev cmd env := appMainStep_pending hcomm hrun hrev cmd env
  choice hrun hrev confirm env := by
    obtain ⟨screen, hscreen⟩ := Option.ne_none_iff_exists'.mp hrev
    have hstep : appMainStep sdk w (.choice confirm env) = reviewChoice sdk env confirm w := by
      simp [appMainStep, hrun, hscreen]
    rw [hstep]
    exact reviewChoice_balanced sdk env w confirm
  unasked hrev confirm env := by
    cases hrun : w.running with
    | true => simp [appMainStep, hrun, hrev]
    | false => simp [appMainStep, hrun]

/-! ## 4. Every run -/

def Input.isApdu : Input → Bool
  | .apdu _ _ => true
  | .recvFailure | .choice _ _ => false

/-- One more command is to be answered, if it is received at all. -/
def received (w : World) (i : Input) : Nat := if w.running && i.isApdu then 1 else 0

theorem received_eq_zero {i : Input} (h : i.isApdu = false) : received w i = 0 := by
  simp [received, h]

theorem received_apdu (hrun : w.running = true) (cmd : Option Command) (env : Env) :
    received w (.apdu cmd env) = 1 := by
  simp [received, hrun, Input.isApdu]

theorem World.unanswered_some (h : w.review ≠ none) : w.unanswered = 1 := by
  simp [unanswered, Option.isSome_iff_ne_none, h]

/-- The balance of one step: the responses sent, and the command left open, are the command left
open before and the one that was received. -/
theorem AnswersOnce.balance (h : AnswersOnce sdk w) (i : Input) :
    responseCount (appMainStep sdk w i).2 + (appMainStep sdk w i).1.unanswered =
      w.unanswered + received w i := by
  cases hrun : w.running with
  | false =>
    have hnone : received w i = 0 := by simp [received, hrun]
    rw [h.ended hrun i, hnone]
    exact Nat.add_comm _ _
  | true =>
    cases i with
    | recvFailure =>
      obtain ⟨hsent, hreview⟩ := h.recvFailure
      rw [hsent, received_eq_zero rfl, World.unanswered, hreview]
      exact Nat.add_comm _ _
    | choice confirm env =>
      rw [received_eq_zero rfl]
      by_cases hrev : w.review = none
      · rw [h.unasked hrev confirm env]
        exact Nat.add_comm _ _
      · obtain ⟨hsent, hclosed⟩ := h.choice hrun hrev confirm env
        rw [hsent, World.unanswered_none hclosed, World.unanswered_some hrev]
    | apdu cmd env =>
      rw [received_apdu hrun]
      by_cases hrev : w.review = none
      · rw [World.unanswered_none hrev]
        rcases h.command hrun hrev cmd env with ⟨hsent, hclosed⟩ | ⟨hsent, hshown, -⟩
        · rw [hsent, World.unanswered_none hclosed]
        · rw [hsent, World.unanswered_some hshown]
      · rw [h.pending hrun hrev cmd env]
        exact Nat.add_comm _ _

/-- A loop that has ended does not start again. -/
theorem running_of_step {i : Input} (h : (appMainStep sdk w i).1.running = true) :
    w.running = true := by
  by_contra hrun
  have hstep : appMainStep sdk w i = (w, []) := by simp [appMainStep, hrun]
  rw [hstep] at h
  exact hrun h

/-- In every run the responses sent, and the one that a review on the screen holds back, are never
more than the commands, and exactly as many while the loop runs.  In every state that is reached,
a command is answered at once and once, or it is the `SIGN_ACTION` that shows the review; while
the review is on the screen, other commands are refused and leave it there, and the user's choice
sends the one response that is open and takes it off; and nothing else sends any. -/
theorem commands_answered (sdk : Sdk) (inputs : List Input) :
    let w := (app sdk).state inputs
    (w.running = true → responseCount ((app sdk).trace inputs) + w.unanswered =
      inputs.countP Input.isApdu) ∧
    responseCount ((app sdk).trace inputs) + w.unanswered ≤ inputs.countP Input.isApdu ∧
    (∀ i, responseCount (appMainStep sdk w i).2 + (appMainStep sdk w i).1.unanswered =
      w.unanswered + received w i) ∧
    AnswersOnce sdk w := by
  have hanswers : ∀ is, AnswersOnce sdk ((app sdk).state is) := fun is =>
    answersOnce ((app_refines sdk).inv_state is) (payloadOk_state sdk is)
  suffices hcount : (((app sdk).state inputs).running = true →
      responseCount ((app sdk).trace inputs) + ((app sdk).state inputs).unanswered =
        inputs.countP Input.isApdu) ∧
      responseCount ((app sdk).trace inputs) + ((app sdk).state inputs).unanswered ≤
        inputs.countP Input.isApdu from
    ⟨hcount.1, hcount.2, (hanswers inputs).balance, hanswers inputs⟩
  induction inputs using List.reverseRecOn with
  | nil => exact ⟨fun _ => rfl, Nat.le_refl _⟩
  | append_singleton is i ih =>
    obtain ⟨hrunning, hle⟩ := ih
    have hstep : responseCount ((app sdk).step ((app sdk).state is) i).2 +
        ((app sdk).step ((app sdk).state is) i).1.unanswered =
          ((app sdk).state is).unanswered + received ((app sdk).state is) i :=
      (hanswers is).balance i
    rw [Machine.trace_snoc, Machine.state_snoc, responseCount_append, List.countP_append,
      List.countP_singleton]
    constructor
    · intro h
      have hrun : ((app sdk).state is).running = true := running_of_step h
      have hcount := hrunning hrun
      have hreceived : received ((app sdk).state is) i = if i.isApdu then 1 else 0 := by
        simp only [received, hrun, Bool.true_and]
      omega
    · have hreceived : received ((app sdk).state is) i ≤ if i.isApdu then 1 else 0 := by
        unfold received
        cases i.isApdu with
        | false => simp
        | true => split <;> simp
      omega

end Hyperliquid

/-
# The progress of a signing session

Once the first action of a confirmed review is signed, the session is a list of actions, an
index and a path, and commands only ask for the next signature.  `Progress` is that session:
`k` actions are signed, or all of them are, or it was aborted.  An APDU leaves it as it is,
signs the next action, or aborts it with new metadata (`apdu_progress`); so whatever commands
are interleaved, the signatures come in the order of the list, each once, and each response
tells how many remain (`session_progress`).

A confirmation under which nothing is signed starts no session: the list is still open then, and
another action may be added (`unsigned_confirmation_reopens`).
-/
import Hyperliquid.Signing
import Hyperliquid.StoringCommands

namespace Hyperliquid

open Lib

variable {sdk : Sdk} {env : Env} {w w' w₀ : World} {a : Action} {m : ActionMetadata}

/-! ## 1. The signature responses of a trace -/

def Event.isSignature : Event → Bool
  | .signature _ _ _ _ => true
  | _ => false

theorem Event.Quiet.isSignature {e : Event} (h : e.Quiet) : e.isSignature = false := by
  cases e <;> trivial

theorem length_signatureResponse (remaining : Nat) (sig : Signature) :
    (signatureResponse remaining sig).length = 66 := by
  simp [signatureResponse]

/-- A response with a signature: the action, what is stored, the signature, and the data. -/
abbrev SignatureResponse : Type := Action × Snapshot × Signature × Bytes

/-- The signature response that begins at an event, with the one after it. -/
def Event.answer : Event → Option Event → List SignatureResponse
  | .signature _ a now sig, some (.response data .success) => [(a, now, sig, data)]
  | _, _ => []

/-- The signature responses, in the order they were sent. -/
def signatureResponses : List Event → List SignatureResponse
  | [] => []
  | e :: events => e.answer events.head? ++ signatureResponses events

theorem Event.answer_of_not {e : Event} (h : e.isSignature = false) (next : Option Event) :
    e.answer next = [] := by
  cases e with
  | signature i a now sig => cases h
  | _ => rfl

/-- Without signatures. -/
theorem signatureResponses_eq_nil {events : List Event}
    (h : ∀ e ∈ events, e.isSignature = false) : signatureResponses events = [] := by
  induction events with
  | nil => rfl
  | cons e events ih =>
    rw [signatureResponses, Event.answer_of_not (h e (by simp)), ih fun x hx => h x (by simp [hx])]
    rfl

/-- A trace whose last event is not a signature. -/
def Answered (events : List Event) : Prop := ∀ e ∈ events.getLast?, e.isSignature = false

theorem answered_of_not {events : List Event} (h : ∀ e ∈ events, e.isSignature = false) :
    Answered events := fun e he => h e (List.mem_of_getLast? he)

theorem Answered.append {xs ys : List Event} (hx : Answered xs) (hy : Answered ys) :
    Answered (xs ++ ys) := by
  intro e he
  cases ys with
  | nil =>
    rw [List.append_nil] at he
    exact hx e he
  | cons y ys =>
    rw [List.getLast?_append_of_ne_nil _ (List.cons_ne_nil y ys)] at he
    exact hy e he

/-- Steps one after the other. -/
theorem signatureResponses_append {xs : List Event} (h : Answered xs) (ys : List Event) :
    signatureResponses (xs ++ ys) = signatureResponses xs ++ signatureResponses ys := by
  induction xs with
  | nil => rfl
  | cons e xs ih =>
    cases xs with
    | nil =>
      have he : e.isSignature = false := h e rfl
      simp only [List.cons_append, List.nil_append, signatureResponses,
        Event.answer_of_not he]
    | cons x xs =>
      rw [List.cons_append, signatureResponses, ih h, ← List.append_assoc]
      rfl

/-! ## 2. What the handlers leave of a session -/

/-- What a complete payload does to a session that is being signed: nothing, unless it is
authentic metadata. -/
theorem PayloadEffect.started {handler : PayloadHandler} {payload : Bytes} {ctx ctx' : HlContext}
    {ret : Bool} {events : List Event}
    (h : PayloadEffect sdk env payload ctx handler ret ctx' events) (hidx : 0 < ctx.actionIndex) :
    (ctx' = ctx ∧ ret = false ∧ events = []) ∨
    (handler = .parseActionMetadata ∧ (∃ m, AuthenticMetadata sdk env payload m) ∧ ctx' = {} ∧
      ret = false ∧ events = [.ctxReset]) := by
  cases h with
  | unchanged handler => exact .inl ⟨rfl, rfl, rfl⟩
  | appended a ctx' hzero _ => exact absurd hzero (Nat.ne_of_gt hidx)
  | loaded m _ hzero => exact absurd hzero (Nat.ne_of_gt hidx)
  | aborted m hm _ => exact .inr ⟨rfl, ⟨m, hm⟩, rfl, rfl, rfl⟩

/-- It signs nothing. -/
theorem PayloadEffect.events {handler : PayloadHandler} {payload : Bytes} {ctx ctx' : HlContext}
    {ret : Bool} {events : List Event}
    (h : PayloadEffect sdk env payload ctx handler ret ctx' events) :
    ∀ e ∈ events, e.isSignature = false := by
  cases h <;> simp [Event.isSignature]

variable (sdk) in
/-- Before signing has started, `handler_sign_action` signs nothing and leaves the list alone. -/
theorem handlerSignAction_first (env : Env) (data : Bytes) (hidx : w.ctx.actionIndex = 0) :
    (handlerSignAction sdk env data w).world.ctx = w.ctx ∧
      ∀ e ∈ (handlerSignAction sdk env data w).events, e.isSignature = false := by
  have hcases := handlerSignAction_cases sdk env data w
  generalize handlerSignAction sdk env data w = r at hcases ⊢
  cases hcases with
  | refused sw => exact ⟨rfl, fun e he => (quiet_response [] sw e he).isSignature⟩
  | unreviewed signing rawBuf events _ hevents =>
    exact ⟨rfl, fun e he => (quiet_after hevents [] .incorrectData e he).isSignature⟩
  | reviewed signing rawBuf calls screen _ hcalls _ =>
    refine ⟨rfl, List.forall_mem_append.mpr ⟨?_, by simp [Event.isSignature]⟩⟩
    exact fun e he => (hcalls e he).isSignature
  | signs hpos _ => exact absurd hidx (Nat.ne_of_gt hpos)

/-! ## 3. The progress of a session -/

/-- The session that was confirmed in `w₀`, with `k` of its actions signed and more to sign: the
list, the path and the address are those that were approved. -/
structure SignedTo (w₀ w : World) (k : Nat) : Prop where
  pos : 0 < k
  lt : k < w₀.ctx.actionCount
  ctx : w.ctx = { w₀.ctx with actionIndex := k }
  signing : w.signing = w₀.signing
  review : w.review = none
  running : w.running = true

/-- Some actions are signed and others remain, or all are signed, or the session was ended after
some of them. -/
inductive Progress where
  | signing (k : Nat)
  | complete
  | aborted (k : Nat)

namespace Progress

/-- How many of `n` actions are signed. -/
def signed (n : Nat) : Progress → Nat
  | .signing k => k
  | .complete => n
  | .aborted k => k

/-- A session that is over has left a context in which signing has not started. -/
def Represents (w₀ w : World) : Progress → Prop
  | .signing k => SignedTo w₀ w k
  | .complete => w.ctx.actionIndex = 0
  | .aborted k => k < w₀.ctx.actionCount ∧ w.ctx.actionIndex = 0

end Progress

/-- The command does nothing to the session. -/
structure Stays (w₀ w' : World) (k : Nat) (events : List Event) : Prop where
  session : SignedTo w₀ w' k
  events : ∀ e ∈ events, e.Quiet

/-- The command asks for the next signature on the path in use, and gets it: that of the action
`k`, made by the step itself.  The last one zeroes the context. -/
structure Signs (sdk : Sdk) (env : Env) (w₀ w w' : World) (k : Nat) (cmd : Option Command)
    (events : List Event) (a : Action) (m : ActionMetadata) (sig : Signature) : Prop where
  command : ∃ c, cmd = some c ∧ c.SignsAction ∧ SamePath sdk w₀.signing c.data
  action : w₀.ctx.actions.elems[k]? = some a
  metadata : w₀.ctx.metadata = some m
  made : HashedAndSigned sdk env w a m sig
  events : ∃ calls, events = List.map Event.cx calls ++ [.signature k a w₀.snapshot sig,
      .response (signatureResponse (w₀.ctx.actionCount - (k + 1)) sig) .success] ++
      if k + 1 = w₀.ctx.actionCount then [.ctxReset] else []
  next : if k + 1 = w₀.ctx.actionCount then w'.ctx = {} else SignedTo w₀ w' (k + 1)

/-- The command completes a payload, and the payload is authentic metadata: the session is reset,
and the answer is an error. -/
structure Aborts (sdk : Sdk) (env : Env) (w w' : World) (cmd : Option Command)
    (events : List Event) : Prop where
  command : ∃ c payload m, cmd = some c ∧ w.CompletesMetadata c payload ∧
    AuthenticMetadata sdk env payload m
  reset : w'.ctx = {}
  events : events = [.ctxReset, .response [] .incorrectData]

/-- Where the index is, the count of the remaining actions is exact. -/
theorem remainingAfter_eq {ctx : HlContext} (h : ctx.actionIndex < ctx.actionCount) :
    ctx.remainingAfter = ctx.actionCount - (ctx.actionIndex + 1) := by
  have hcount : ctx.actionCount ≤ maxActionCount := ctx.actions.bound
  simp only [maxActionCount] at hcount
  have hswitch : (ctxSwitchToNextAction ctx).actionCount = ctx.actionCount := rfl
  have hindex : (ctxSwitchToNextAction ctx).actionIndex = (ctx.actionIndex + 1) % 256 := rfl
  unfold HlContext.remainingAfter ctxRemainingActions
  rw [hswitch, hindex]
  omega

theorem ctxSwitchToNextAction_eq {ctx : HlContext} (h : ctx.actionIndex < ctx.actionCount) :
    ctxSwitchToNextAction ctx = { ctx with actionIndex := ctx.actionIndex + 1 } := by
  have hcount : ctx.actionCount ≤ maxActionCount := ctx.actions.bound
  simp only [maxActionCount] at hcount
  unfold ctxSwitchToNextAction
  rw [Nat.mod_eq_of_lt (by omega)]

/-- The current action while the index is in the list. -/
theorem ctxGetCurrentAction_of_lt {ctx : HlContext} (h : ctx.actionIndex < ctx.actionCount) :
    ∃ a, ctxGetCurrentAction ctx = some a ∧ ctx.actions.elems[ctx.actionIndex]? = some a := by
  have hlt : ctx.actionIndex < ctx.actions.elems.length := h
  unfold ctxGetCurrentAction
  rw [if_neg (Nat.not_le.mpr h), List.getElem?_eq_getElem hlt]
  exact ⟨_, rfl, rfl⟩

/-- `sign_action` at the index `k` of the list that was approved. -/
theorem SignatureAnswer.progress {sig : Signature} {r : Outcome} {k : Nat}
    (h : SignatureAnswer env w a sig r) (hsend : 0 ≤ env.send) (hk : k < w₀.ctx.actionCount)
    (hctx : w.ctx = { w₀.ctx with actionIndex := k }) (hsigning : w.signing = w₀.signing)
    (hrev : w.review = none) (hrun : w.running = true) :
    (∃ calls : List CxCall, r.events = calls.map Event.cx ++ [.signature k a w₀.snapshot sig,
      .response (signatureResponse (w₀.ctx.actionCount - (k + 1)) sig) .success] ++
      if k + 1 = w₀.ctx.actionCount then [.ctxReset] else []) ∧
    if k + 1 = w₀.ctx.actionCount then r.world.ctx = {} else SignedTo w₀ r.world (k + 1) := by
  have hlt : w.ctx.actionIndex < w.ctx.actionCount := by
    rw [hctx]
    exact hk
  have hremaining : w.ctx.remainingAfter = w₀.ctx.actionCount - (k + 1) := by
    rw [remainingAfter_eq hlt, hctx]
    rfl
  have hlast : (0 ≤ env.send ∧ w.ctx.remainingAfter = 0) ↔ k + 1 = w₀.ctx.actionCount := by
    rw [hremaining]
    omega
  have hsnapshot : w.snapshot = w₀.snapshot := by
    unfold World.snapshot
    rw [hctx, hsigning]
  obtain ⟨calls, hevents⟩ := h.events
  obtain ⟨rawBuf, hworld⟩ := h.world
  constructor
  · refine ⟨calls, ?_⟩
    rw [hevents, hsnapshot, hremaining, if_congr (hremaining ▸ hlast) rfl rfl, hctx]
  · rw [hworld]
    by_cases hdone : k + 1 = w₀.ctx.actionCount
    · rw [if_pos hdone]
      simp only [if_pos (hlast.mpr hdone)]
    · rw [if_neg hdone]
      simp only [if_neg (fun hl => hdone (hlast.mp hl))]
      refine ⟨Nat.succ_pos k, by omega, ?_, hsigning, hrev, hrun⟩
      dsimp only
      rw [ctxSwitchToNextAction_eq hlt, hctx]

/-! ## 4. One APDU -/

/-- A command that is dispatched, where sends succeed. -/
theorem appMainStep_dispatched {cmd : Command} {r : Outcome} (hrun : w.running = true)
    (hcomm : w.commEnabled = true) (h : apduDispatcher sdk env cmd w = .ok r) (hret : 0 ≤ r.ret) :
    appMainStep sdk w (.apdu (some cmd) env) = (r.world, r.events) := by
  have hneg : ¬ r.ret < 0 := Int.not_lt.mpr hret
  simp [appMainStep, appMainApdu, hrun, hcomm, h, hneg]

/-- An error that leaves the session as it was. -/
theorem SignedTo.stays {k : Nat} (h : SignedTo w₀ w k) {events : List Event} (hctx : w'.ctx = w.ctx)
    (hsigning : w'.signing = w.signing) (hrev : w'.review = w.review)
    (hrun : w'.running = w.running) (hevents : ∀ e ∈ events, e.Quiet) :
    Stays w₀ w' k events :=
  ⟨⟨h.pos, h.lt, hctx.trans h.ctx, hsigning.trans h.signing, hrev.trans h.review,
    hrun.trans h.running⟩, hevents⟩

/-- A command that is answered with a status word only. -/
theorem SignedTo.answered {k : Nat} {cmd : Command} {sw : StatusWord} (h : SignedTo w₀ w k)
    (hon : w.commEnabled = true) (hsend : 0 ≤ env.send)
    (hr : apduDispatcher sdk env cmd w = .ok (ioSendSw env sw w')) (hctx : w'.ctx = w.ctx)
    (hsigning : w'.signing = w.signing) (hrev : w'.review = w.review)
    (hrun : w'.running = w.running) :
    Stays w₀ (appMainStep sdk w (.apdu (some cmd) env)).1 k
      (appMainStep sdk w (.apdu (some cmd) env)).2 := by
  rw [appMainStep_dispatched h.running hon hr hsend]
  exact h.stays hctx hsigning hrev hrun (quiet_response [] sw)

variable (sdk) in
/-- `sign_action` during a session: the next action is signed, or the session stays as it is. -/
theorem SignedTo.signAction {k : Nat} {cmd : Option Command} (h : SignedTo w₀ w k)
    (hmd : w₀.ctx.metadata = some m) (hsend : 0 ≤ env.send)
    (hcmd : ∃ c, cmd = some c ∧ c.SignsAction ∧ SamePath sdk w₀.signing c.data) :
    (signAction sdk env w).ret = env.send ∧
    (Stays w₀ (signAction sdk env w).world k (signAction sdk env w).events ∨
      ∃ a m sig, Signs sdk env w₀ w (signAction sdk env w).world k cmd
        (signAction sdk env w).events a m sig) := by
  have hidx : w.ctx.actionIndex = k := by rw [h.ctx]
  have hlt : w.ctx.actionIndex < w.ctx.actionCount := by
    rw [h.ctx]
    exact h.lt
  have hmd' : w.ctx.metadata = some m := by
    rw [h.ctx]
    exact hmd
  obtain ⟨a, ha, hget⟩ := ctxGetCurrentAction_of_lt hlt
  rw [hidx, h.ctx] at hget
  rcases signAction_answer sdk env ha hmd' with ⟨sig, hsig, hans⟩ | ⟨-, hans⟩
  · obtain ⟨⟨calls, hevents⟩, hnext⟩ :=
      hans.progress hsend h.lt h.ctx h.signing h.review h.running
    exact ⟨hans.ret, .inr ⟨a, m, sig, hcmd, hget, hmd, hsig, ⟨calls, hevents⟩, hnext⟩⟩
  · obtain ⟨rawBuf, hworld⟩ := hans.world
    obtain ⟨calls, hevents⟩ := hans.events
    refine ⟨hans.ret, .inl ?_⟩
    rw [hworld]
    refine h.stays rfl rfl rfl rfl ?_
    rw [hevents]
    exact quiet_after (quiet_calls calls) [] .incorrectData

variable (sdk) in
/-- An APDU during a session, where sends succeed: it leaves the session as it is, or signs the
next action, or aborts the session. -/
theorem apdu_progress {k : Nat} (h : SignedTo w₀ w k) (hmd : w₀.ctx.metadata = some m)
    (hcomm : w.Comm) (hw : w.PayloadOk) (hsend : 0 ≤ env.send) (cmd : Option Command) :
    Stays w₀ (appMainStep sdk w (.apdu cmd env)).1 k (appMainStep sdk w (.apdu cmd env)).2 ∨
    (∃ a m sig, Signs sdk env w₀ w (appMainStep sdk w (.apdu cmd env)).1 k cmd
      (appMainStep sdk w (.apdu cmd env)).2 a m sig) ∨
    Aborts sdk env w (appMainStep sdk w (.apdu cmd env)).1 cmd
      (appMainStep sdk w (.apdu cmd env)).2 := by
  have hon : w.commEnabled = true := by
    rw [hcomm, h.review]
    rfl
  have hstarted : 0 < w.ctx.actionIndex := by
    rw [h.ctx]
    exact h.pos
  cases cmd with
  | none =>
    refine .inl (h.stays ?_ ?_ ?_ ?_ ?_)
    all_goals simp [appMainStep, appMainApdu, h.running, hon, Event.Quiet]
  | some cmd =>
    rcases apduDispatcher_cases sdk env cmd w with
      ⟨sw, hr, -⟩ | hr | ⟨handler, hprovides, hr⟩ | ⟨hsign, hr⟩
    · exact .inl (h.answered hon hsend hr rfl rfl rfl rfl)
    · obtain ⟨rawBuf, events, hget, hevents⟩ := handlerGetAddr_effect sdk env cmd.data w
      rw [hget] at hr
      rw [appMainStep_dispatched h.running hon hr hsend]
      exact .inl (h.stays rfl rfl rfl rfl hevents)
    · obtain ⟨r, hchunk, ⟨sw, payload', -, rfl⟩ |
          ⟨bytes, ret, ctx', events, hcompletes, hrun, rfl⟩⟩ :=
        handlerChunked_effect sdk handler env (cmd.p1 == p1First) cmd.data hw
      · exact .inl (h.answered hon hsend (hr.trans hchunk) rfl rfl rfl rfl)
      · rw [appMainStep_dispatched h.running hon (hr.trans hchunk) hsend]
        rcases (runPayloadHandler_effect hrun).started hstarted with
          ⟨hctx, -, rfl⟩ | ⟨rfl, ⟨m', hm'⟩, hctx, rfl, rfl⟩
        · exact .inl (h.stays hctx rfl rfl rfl (quiet_response [] _))
        · exact .inr (.inr ⟨⟨cmd, bytes, m', rfl, ⟨hprovides, hcompletes⟩, hm'⟩, hctx, rfl⟩)
    · have hcases := handlerSignAction_cases sdk env cmd.data w
      generalize handlerSignAction sdk env cmd.data w = r at hcases hr
      cases hcases with
      | refused sw => exact .inl (h.answered hon hsend hr rfl rfl rfl rfl)
      | unreviewed _ _ _ hzero _ => exact absurd hzero (Nat.ne_of_gt hstarted)
      | reviewed _ _ _ _ hzero _ _ => exact absurd hzero (Nat.ne_of_gt hstarted)
      | signs _ hpath =>
        rw [h.signing] at hpath
        obtain ⟨hret, hprogress⟩ := h.signAction sdk hmd hsend ⟨cmd, rfl, hsign, hpath⟩
        rw [appMainStep_dispatched h.running hon hr (hret ▸ hsend)]
        rcases hprogress with hstays | hsigns
        · exact .inl hstays
        · exact .inr (.inl hsigns)

/-- Authentic metadata that are complete do abort the session. -/
theorem SignedTo.aborts {k : Nat} {cmd : Command} {payload : Bytes} (h : SignedTo w₀ w k)
    (hcomm : w.Comm) (hsend : 0 ≤ env.send) (hcompletes : w.CompletesMetadata cmd payload)
    (hauth : AuthenticMetadata sdk env payload m) :
    Aborts sdk env w (appMainStep sdk w (.apdu (some cmd) env)).1 (some cmd)
      (appMainStep sdk w (.apdu (some cmd) env)).2 := by
  obtain ⟨hprovides, t, hrep, haccept⟩ := hcompletes
  have hon : w.commEnabled = true := by
    rw [hcomm, h.review]
    rfl
  have hstarted : 0 < w.ctx.actionIndex := by
    rw [h.ctx]
    exact h.pos
  have hrun : runPayloadHandler sdk env .parseActionMetadata payload w.ctx =
      .ok (false, {}, [.ctxReset]) := by
    obtain ⟨ret, ctx', reset, hparse, heffect⟩ := parseActionMetadata_effect sdk env payload w.ctx
    rcases heffect with ⟨-, -, hzero, -⟩ | ⟨-, -, -, rfl, rfl, rfl⟩ | ⟨hnone, -⟩
    · exact absurd hzero (Nat.ne_of_gt hstarted)
    · exact bind_ok_iff.mpr ⟨_, hparse, rfl⟩
    · exact absurd hauth (hnone m)
  have hdispatch := (hprovides.dispatched sdk env w).trans
    (handlerChunked_complete hrep haccept rfl hrun)
  rw [appMainStep_dispatched h.running hon hdispatch hsend]
  exact ⟨⟨cmd, payload, m, rfl, ⟨hprovides, t, hrep, haccept⟩, hauth⟩, rfl, rfl⟩

variable (sdk) in
/-- An APDU where signing has not started: nothing is signed, and signing does not start. -/
theorem apdu_first (hidx : w.ctx.actionIndex = 0) (hw : w.PayloadOk) (cmd : Option Command)
    (env : Env) :
    (appMainStep sdk w (.apdu cmd env)).1.ctx.actionIndex = 0 ∧
      ∀ e ∈ (appMainStep sdk w (.apdu cmd env)).2, e.isSignature = false := by
  have hresponse : ∀ data sw, ∀ e ∈ [Event.response data sw], e.isSignature = false := by
    simp [Event.isSignature]
  have hcases := appMainStep_cases sdk w (.apdu cmd env)
  generalize appMainStep sdk w (.apdu cmd env) = s at hcases ⊢
  cases hcases with
  | ignored i => exact ⟨hidx, by simp⟩
  | answered cmd env sw _ => exact ⟨hidx, hresponse _ _⟩
  | faulted cmd env e _ _ => exact ⟨hidx, by simp⟩
  | dispatched cmd env r running _ hr _ =>
    suffices hzero : r.world.ctx.actionIndex = 0 ∧ ∀ e ∈ r.events, e.isSignature = false from hzero
    rcases apduDispatcher_cases sdk env cmd w with
      ⟨sw, hr', -⟩ | hr' | ⟨handler, -, hr'⟩ | ⟨-, hr'⟩
    · cases hr.symm.trans hr'
      exact ⟨hidx, hresponse _ _⟩
    · obtain ⟨rawBuf, events, hget, hevents⟩ := handlerGetAddr_effect sdk env cmd.data w
      rw [hget] at hr'
      cases hr.symm.trans hr'
      exact ⟨hidx, fun e he => (hevents e he).isSignature⟩
    · obtain ⟨r', hchunk, ⟨sw, payload', -, rfl⟩ | ⟨bytes, ret, ctx', events, -, hrun, rfl⟩⟩ :=
        handlerChunked_effect sdk handler env (cmd.p1 == p1First) cmd.data hw
      · cases hr.symm.trans (hr'.trans hchunk)
        exact ⟨hidx, hresponse _ _⟩
      · cases hr.symm.trans (hr'.trans hchunk)
        have heffect := runPayloadHandler_effect hrun
        exact ⟨heffect.index hidx, List.forall_mem_append.mpr ⟨heffect.events, hresponse _ _⟩⟩
    · cases hr.symm.trans hr'
      obtain ⟨hctx, hevents⟩ := handlerSignAction_first sdk env cmd.data hidx
      exact ⟨by rw [hctx]; exact hidx, hevents⟩

/-! ## 5. Runs of APDUs after a confirmation -/

/-- The inputs of a session: the confirmation, and commands. -/
def sessionInputs (env₀ : Env) (apdus : List (Option Command × Env)) : List Input :=
  .choice true env₀ :: apdus.map fun x => .apdu x.1 x.2

/-- The world and the events of a run from the confirmation. -/
def sessionRun (sdk : Sdk) (w₀ : World) (env₀ : Env) (apdus : List (Option Command × Env)) :
    World × List Event :=
  (app sdk).runFrom w₀ (sessionInputs env₀ apdus)

theorem sessionRun_snoc (sdk : Sdk) (w₀ : World) (env₀ : Env)
    (apdus : List (Option Command × Env)) (cmd : Option Command) (env : Env) :
    sessionRun sdk w₀ env₀ (apdus ++ [(cmd, env)]) =
      ((appMainStep sdk (sessionRun sdk w₀ env₀ apdus).1 (.apdu cmd env)).1,
        (sessionRun sdk w₀ env₀ apdus).2 ++
          (appMainStep sdk (sessionRun sdk w₀ env₀ apdus).1 (.apdu cmd env)).2) := by
  have hinputs : sessionInputs env₀ (apdus ++ [(cmd, env)]) =
      sessionInputs env₀ apdus ++ [.apdu cmd env] := by simp [sessionInputs]
  unfold sessionRun
  rw [hinputs, Machine.runFrom_snoc]
  rfl

/-- It is a reachable state. -/
theorem sessionRun_state (sdk : Sdk) (inputs : List Input) (env₀ : Env)
    (apdus : List (Option Command × Env)) :
    (sessionRun sdk ((app sdk).state inputs) env₀ apdus).1 =
      (app sdk).state (inputs ++ sessionInputs env₀ apdus) :=
  Machine.runFrom_state (app sdk) inputs (sessionInputs env₀ apdus)

/-- The `k`-th signature was made by the confirmation, if it is the first, and otherwise by one of
the commands, in the state that the commands before it had left. -/
inductive SignedAt (sdk : Sdk) (w₀ : World) (env₀ : Env) (apdus : List (Option Command × Env))
    (a : Action) (m : ActionMetadata) (sig : Signature) : Nat → Prop where
  | confirmed : HashedAndSigned sdk env₀ w₀.afterReview a m sig →
      SignedAt sdk w₀ env₀ apdus a m sig 0
  | asked (before after : List (Option Command × Env)) (cmd : Option Command) (env : Env)
      (k : Nat) : apdus = before ++ (cmd, env) :: after →
      SignedTo w₀ (sessionRun sdk w₀ env₀ before).1 k →
      Signs sdk env w₀ (sessionRun sdk w₀ env₀ before).1
        (appMainStep sdk (sessionRun sdk w₀ env₀ before).1 (.apdu cmd env)).1 k cmd
        (appMainStep sdk (sessionRun sdk w₀ env₀ before).1 (.apdu cmd env)).2 a m sig →
      SignedAt sdk w₀ env₀ apdus a m sig k

/-- The signature responses are those of the first `n` actions of the list, in its order; the
`k`-th tells how many remain, and its signature is made from what was approved. -/
structure SignedInOrder (sdk : Sdk) (w₀ : World) (env₀ : Env)
    (apdus : List (Option Command × Env)) (n : Nat) (responses : List SignatureResponse) :
    Prop where
  length : responses.length = n
  kth : ∀ k r, responses[k]? = some r → ∃ a m sig,
    r = (a, w₀.snapshot, sig, signatureResponse (w₀.ctx.actionCount - (k + 1)) sig) ∧
    w₀.ctx.actions.elems[k]? = some a ∧ w₀.ctx.metadata = some m ∧
    SignedAt sdk w₀ env₀ apdus a m sig k

section

variable {env₀ : Env} {apdus : List (Option Command × Env)}

theorem SignedAt.append {sig : Signature} {k : Nat} (h : SignedAt sdk w₀ env₀ apdus a m sig k)
    (more : List (Option Command × Env)) : SignedAt sdk w₀ env₀ (apdus ++ more) a m sig k := by
  cases h with
  | confirmed hmade => exact .confirmed hmade
  | asked before after cmd env k happ hto hsigns =>
    refine .asked before (after ++ more) cmd env k ?_ hto hsigns
    rw [happ, List.append_assoc, List.cons_append]

theorem SignedInOrder.append {n : Nat} {rs : List SignatureResponse}
    (h : SignedInOrder sdk w₀ env₀ apdus n rs) (more : List (Option Command × Env)) :
    SignedInOrder sdk w₀ env₀ (apdus ++ more) n rs where
  length := h.length
  kth := by
    intro k r hr
    obtain ⟨a, m, sig, heq, ha, hmd, hat⟩ := h.kth k r hr
    exact ⟨a, m, sig, heq, ha, hmd, hat.append more⟩

/-- Before anything is signed. -/
theorem SignedInOrder.nil : SignedInOrder sdk w₀ env₀ apdus 0 [] where
  length := rfl
  kth := by
    intro k r hr
    cases hr

/-- The next signature. -/
theorem SignedInOrder.snoc {n : Nat} {rs : List SignatureResponse} {sig : Signature}
    (h : SignedInOrder sdk w₀ env₀ apdus n rs) (ha : w₀.ctx.actions.elems[n]? = some a)
    (hmd : w₀.ctx.metadata = some m) (hat : SignedAt sdk w₀ env₀ apdus a m sig n) :
    SignedInOrder sdk w₀ env₀ apdus (n + 1) (rs ++
      [(a, w₀.snapshot, sig, signatureResponse (w₀.ctx.actionCount - (n + 1)) sig)]) where
  length := by rw [List.length_append, h.length, List.length_singleton]
  kth := by
    intro k r hr
    rcases Nat.lt_or_ge k n with hk | hk
    · rw [List.getElem?_append_left (by rw [h.length]; exact hk)] at hr
      exact h.kth k r hr
    · rw [List.getElem?_append_right (by rw [h.length]; exact hk), h.length,
        List.getElem?_singleton] at hr
      split at hr
      · cases hr
        obtain rfl : k = n := by omega
        exact ⟨a, m, sig, rfl, ha, hmd, hat⟩
      · cases hr

end

/-- The responses of a step that signs. -/
theorem signatureResponses_signs (calls : List CxCall) (k : Nat) (now : Snapshot) (sig : Signature)
    (data : Bytes) {tail : List Event} (htail : ∀ e ∈ tail, e.isSignature = false) :
    signatureResponses (calls.map Event.cx ++
      [.signature k a now sig, .response data .success] ++ tail) = [(a, now, sig, data)] := by
  have hcalls : ∀ e ∈ calls.map Event.cx, e.isSignature = false := fun e he =>
    (quiet_calls calls e he).isSignature
  rw [List.append_assoc, signatureResponses_append (answered_of_not hcalls),
    signatureResponses_eq_nil hcalls]
  simp only [List.nil_append, List.cons_append, signatureResponses,
    signatureResponses_eq_nil htail, Event.answer, List.head?_cons]

theorem answered_signs (calls : List CxCall) (k : Nat) (now : Snapshot) (sig : Signature)
    (data : Bytes) {tail : List Event} (htail : ∀ e ∈ tail, e.isSignature = false) :
    Answered (calls.map Event.cx ++
      [.signature k a now sig, .response data .success] ++ tail) := by
  refine Answered.append ?_ (answered_of_not htail)
  intro e he
  rw [List.getLast?_append_of_ne_nil _ (List.cons_ne_nil _ _)] at he
  cases he
  rfl

theorem not_signature_reset (b : Prop) [Decidable b] :
    ∀ e ∈ (if b then [Event.ctxReset] else []), e.isSignature = false := by
  split <;> simp [Event.isSignature]

/-- The confirmation itself, when its signature is sent. -/
theorem confirm_progress {inputs : List Input} {screen : UiCtx} {env₀ : Env}
    (hrun : ((app sdk).state inputs).running = true)
    (hrev : ((app sdk).state inputs).review = some screen)
    (hsent : ∃ a, SignatureSent env₀ a
      (appMainStep sdk ((app sdk).state inputs) (.choice true env₀)).2) :
    let w₀ := (app sdk).state inputs
    let r := appMainStep sdk w₀ (.choice true env₀)
    (if 1 = w₀.ctx.actionCount then r.1.ctx = {} else SignedTo w₀ r.1 1) ∧
      SignedInOrder sdk w₀ env₀ [] 1 (signatureResponses r.2) ∧ Answered r.2 := by
  intro w₀ r
  obtain ⟨hidx, a, m, hget, hcur, hmd⟩ := pending_review hrev
  have hstep : r = reviewChoice sdk env₀ true w₀ := appMainStep_confirm env₀ hrun hrev
  have hevents := (congrArg Prod.snd hstep).trans (reviewChoice_confirm env₀ w₀)
  rcases signAction_answer sdk (w := w₀.afterReview) env₀ hcur hmd with
    ⟨sig, hsig, hanswer⟩ | ⟨-, hanswer⟩
  · obtain ⟨-, -, -, -, -, -, -, hsend⟩ := hsent
    have hret : ¬ (signAction sdk env₀ w₀.afterReview).ret = -1 := by
      rw [hanswer.ret]
      omega
    have hctx : w₀.afterReview.ctx = { w₀.ctx with actionIndex := 0 } := by
      show w₀.ctx = _
      rw [← show w₀.ctx.actionIndex = 0 from hidx]
    have hcount : 0 < w₀.ctx.actionCount := (List.getElem?_eq_some_iff.mp hget).1
    obtain ⟨⟨calls, hcalls⟩, hnext⟩ := hanswer.progress hsend hcount hctx rfl rfl hrun
    have hworld : r.1 = (signAction sdk env₀ w₀.afterReview).world :=
      (congrArg Prod.fst hstep).trans (reviewChoice_confirm_world env₀ w₀ hret)
    have hshape : r.2 = [.choice true] ++ (signAction sdk env₀ w₀.afterReview).events ++
        [.reviewStatus] := by
      rw [hevents]
      unfold confirmEvents
      rw [if_neg hret]
      rfl
    have hreset := not_signature_reset (0 + 1 = w₀.ctx.actionCount)
    have hchoice : ∀ e ∈ [Event.choice true], e.isSignature = false := by
      simp [Event.isSignature]
    have hstatus : ∀ e ∈ [Event.reviewStatus], e.isSignature = false := by
      simp [Event.isSignature]
    have hanswered : Answered (signAction sdk env₀ w₀.afterReview).events := by
      rw [hcalls]
      exact answered_signs calls _ _ _ _ hreset
    have hbefore := (answered_of_not hchoice).append hanswered
    rw [hworld, hshape]
    refine ⟨hnext, ?_, hbefore.append (answered_of_not hstatus)⟩
    rw [signatureResponses_append hbefore, signatureResponses_append (answered_of_not hchoice),
      signatureResponses_eq_nil hchoice,
      signatureResponses_eq_nil hstatus, hcalls, signatureResponses_signs calls _ _ _ _ hreset,
      List.append_nil]
    exact SignedInOrder.nil.snoc hget hmd (.confirmed hsig)
  · obtain ⟨b, hb⟩ := hsent
    rw [hevents] at hb
    exact absurd hb (hanswer.status (a := b)).2

/-- One of the commands aborted the session after `k` signatures. -/
def AbortedAfter (sdk : Sdk) (w₀ : World) (env₀ : Env) (apdus : List (Option Command × Env))
    (k : Nat) : Prop :=
  ∃ before cmd env after, apdus = before ++ (cmd, env) :: after ∧
    SignedTo w₀ (sessionRun sdk w₀ env₀ before).1 k ∧
    Aborts sdk env (sessionRun sdk w₀ env₀ before).1
      (appMainStep sdk (sessionRun sdk w₀ env₀ before).1 (.apdu cmd env)).1 cmd
      (appMainStep sdk (sessionRun sdk w₀ env₀ before).1 (.apdu cmd env)).2

theorem AbortedAfter.snoc {env₀ : Env} {apdus : List (Option Command × Env)} {k : Nat}
    (h : AbortedAfter sdk w₀ env₀ apdus k) (x : Option Command × Env) :
    AbortedAfter sdk w₀ env₀ (apdus ++ [x]) k := by
  obtain ⟨before, cmd, env, after, rfl, hsession, habort⟩ := h
  exact ⟨before, cmd, env, after ++ [x], by simp, hsession, habort⟩

/-- What the session has come to after some commands. -/
structure Progressed (sdk : Sdk) (w₀ : World) (env₀ : Env) (apdus : List (Option Command × Env))
    (p : Progress) : Prop where
  state : p.Represents w₀ (sessionRun sdk w₀ env₀ apdus).1
  signed : SignedInOrder sdk w₀ env₀ apdus (p.signed w₀.ctx.actionCount)
    (signatureResponses (sessionRun sdk w₀ env₀ apdus).2)
  aborted : ∀ k, p = .aborted k → AbortedAfter sdk w₀ env₀ apdus k

section

variable {env₀ : Env} {apdus : List (Option Command × Env)} {p : Progress} {cmd : Option Command}

/-- A command under which nothing is signed. -/
theorem Progressed.unsigned {q : Progress} (h : Progressed sdk w₀ env₀ apdus p)
    (hanswered : Answered (sessionRun sdk w₀ env₀ apdus).2)
    (hstate : q.Represents w₀
      (appMainStep sdk (sessionRun sdk w₀ env₀ apdus).1 (.apdu cmd env)).1)
    (hevents : ∀ e ∈ (appMainStep sdk (sessionRun sdk w₀ env₀ apdus).1 (.apdu cmd env)).2,
      e.isSignature = false)
    (hsigned : q.signed w₀.ctx.actionCount = p.signed w₀.ctx.actionCount)
    (haborted : ∀ k, q = .aborted k → AbortedAfter sdk w₀ env₀ (apdus ++ [(cmd, env)]) k) :
    Answered (sessionRun sdk w₀ env₀ (apdus ++ [(cmd, env)])).2 ∧
      ∃ p, Progressed sdk w₀ env₀ (apdus ++ [(cmd, env)]) p := by
  refine ⟨?_, q, ?_, ?_, haborted⟩
  · rw [sessionRun_snoc]
    exact hanswered.append (answered_of_not hevents)
  · rw [sessionRun_snoc]
    exact hstate
  · rw [sessionRun_snoc, hsigned, signatureResponses_append hanswered,
      signatureResponses_eq_nil hevents, List.append_nil]
    exact h.signed.append [(cmd, env)]

/-- A command under which the next action is signed. -/
theorem Progressed.signs {k : Nat} {sig : Signature}
    (h : Progressed sdk w₀ env₀ apdus (.signing k))
    (hanswered : Answered (sessionRun sdk w₀ env₀ apdus).2)
    (hsigns : Signs sdk env w₀ (sessionRun sdk w₀ env₀ apdus).1
      (appMainStep sdk (sessionRun sdk w₀ env₀ apdus).1 (.apdu cmd env)).1 k cmd
      (appMainStep sdk (sessionRun sdk w₀ env₀ apdus).1 (.apdu cmd env)).2 a m sig) :
    Answered (sessionRun sdk w₀ env₀ (apdus ++ [(cmd, env)])).2 ∧
      ∃ p, Progressed sdk w₀ env₀ (apdus ++ [(cmd, env)]) p := by
  obtain ⟨calls, hevents⟩ := hsigns.events
  have hnext := hsigns.next
  have hreset := not_signature_reset (k + 1 = w₀.ctx.actionCount)
  have hsigned : SignedInOrder sdk w₀ env₀ (apdus ++ [(cmd, env)]) (k + 1)
      (signatureResponses (sessionRun sdk w₀ env₀ (apdus ++ [(cmd, env)])).2) := by
    have hk : SignedInOrder sdk w₀ env₀ apdus k
        (signatureResponses (sessionRun sdk w₀ env₀ apdus).2) := h.signed
    have hat : SignedAt sdk w₀ env₀ (apdus ++ [(cmd, env)]) a m sig k :=
      .asked apdus [] cmd env k rfl h.state hsigns
    rw [sessionRun_snoc, signatureResponses_append hanswered, hevents,
      signatureResponses_signs calls _ _ _ _ hreset]
    exact (hk.append _).snoc hsigns.action hsigns.metadata hat
  constructor
  · rw [sessionRun_snoc, hevents]
    exact hanswered.append (answered_signs calls _ _ _ _ hreset)
  · by_cases hlast : k + 1 = w₀.ctx.actionCount
    · rw [if_pos hlast] at hnext
      refine ⟨.complete, ?_, ?_, by simp⟩
      · rw [sessionRun_snoc]
        exact congrArg HlContext.actionIndex hnext
      · rw [Progress.signed, ← hlast]
        exact hsigned
    · rw [if_neg hlast] at hnext
      refine ⟨.signing (k + 1), ?_, hsigned, by simp⟩
      rw [sessionRun_snoc]
      exact hnext

end

/-- The run after a confirmation whose signature was sent. -/
theorem session_run {inputs : List Input} {screen : UiCtx} {env₀ : Env}
    (apdus : List (Option Command × Env)) (hrun : ((app sdk).state inputs).running = true)
    (hrev : ((app sdk).state inputs).review = some screen)
    (hsent : ∃ a, SignatureSent env₀ a
      (appMainStep sdk ((app sdk).state inputs) (.choice true env₀)).2)
    (hsend : ∀ x ∈ apdus, 0 ≤ x.2.send) :
    Answered (sessionRun sdk ((app sdk).state inputs) env₀ apdus).2 ∧
      ∃ p, Progressed sdk ((app sdk).state inputs) env₀ apdus p := by
  obtain ⟨-, a₀, m, -, -, hmd⟩ := pending_review hrev
  induction apdus using List.reverseRecOn with
  | nil =>
    obtain ⟨hnext, hsigned, hanswered⟩ := confirm_progress hrun hrev hsent
    refine ⟨hanswered, ?_⟩
    by_cases hone : 1 = ((app sdk).state inputs).ctx.actionCount
    · rw [if_pos hone] at hnext
      refine ⟨.complete, congrArg HlContext.actionIndex hnext, ?_, by simp⟩
      rw [Progress.signed, ← hone]
      exact hsigned
    · rw [if_neg hone] at hnext
      exact ⟨.signing 1, hnext, hsigned, by simp⟩
  | append_singleton apdus x ih =>
    obtain ⟨cmd, env⟩ := x
    obtain ⟨hanswered, p, hp⟩ := ih fun y hy => hsend y (by simp [hy])
    have henv : 0 ≤ env.send := hsend (cmd, env) (by simp)
    have hpayload : (sessionRun sdk ((app sdk).state inputs) env₀ apdus).1.PayloadOk := by
      rw [sessionRun_state]
      exact payloadOk_state sdk _
    cases p with
    | signing k =>
      have hcomm : (sessionRun sdk ((app sdk).state inputs) env₀ apdus).1.Comm := by
        rw [sessionRun_state]
        exact (app_refines sdk).inv_state _
      rcases apdu_progress sdk hp.state hmd hcomm hpayload henv cmd with
        hstays | ⟨a, m, sig, hsigns⟩ | haborts
      · exact hp.unsigned (q := .signing k) hanswered hstays.session
          (fun e he => (hstays.events e he).isSignature) rfl (by simp)
      · exact hp.signs hanswered hsigns
      · refine hp.unsigned (q := .aborted k) hanswered ⟨hp.state.lt, ?_⟩ ?_ rfl ?_
        · rw [haborts.reset]
        · rw [haborts.events]
          simp [Event.isSignature]
        · rintro k' hk'
          cases hk'
          exact ⟨apdus, cmd, env, [], rfl, hp.state, haborts⟩
    | complete =>
      obtain ⟨hzero, hevents⟩ := apdu_first sdk hp.state hpayload cmd env
      exact hp.unsigned (q := .complete) hanswered hzero hevents rfl (by simp)
    | aborted k =>
      obtain ⟨hzero, hevents⟩ := apdu_first sdk hp.state.2 hpayload cmd env
      exact hp.unsigned (q := .aborted k) hanswered ⟨hp.state.1, hzero⟩ hevents rfl
        fun k' hk' => (hp.aborted k' hk').snoc _

/-- The progress of every session.  After a confirmation whose own signature is sent, and any
commands, as long as sends succeed: the signature responses are those of the first actions of
the list, in its order, and each tells how many remain; the session goes on as long as some
remain, unless authentic metadata aborted it; and each further command leaves it as it is, signs
the next action, or aborts it, which authentic metadata do as soon as they are complete. -/
theorem session_progress (sdk : Sdk) (inputs : List Input) (screen : UiCtx) (env₀ : Env)
    (apdus : List (Option Command × Env)) (hrun : ((app sdk).state inputs).running = true)
    (hrev : ((app sdk).state inputs).review = some screen)
    (hsent : ∃ a, SignatureSent env₀ a
      (appMainStep sdk ((app sdk).state inputs) (.choice true env₀)).2)
    (hsend : ∀ x ∈ apdus, 0 ≤ x.2.send) :
    let w₀ := (app sdk).state inputs
    (1 = w₀.ctx.actionCount → (sessionRun sdk w₀ env₀ []).1.ctx = {}) ∧
    ∃ p, Progressed sdk w₀ env₀ apdus p ∧
      ∀ k, p = .signing k → ∀ cmd env, 0 ≤ Env.send env →
        let w := (sessionRun sdk w₀ env₀ apdus).1
        let r := appMainStep sdk w (.apdu cmd env)
        (Stays w₀ r.1 k r.2 ∨ (∃ a m sig, Signs sdk env w₀ w r.1 k cmd r.2 a m sig) ∨
          Aborts sdk env w r.1 cmd r.2) ∧
        ∀ c payload m, cmd = some c → w.CompletesMetadata c payload →
          AuthenticMetadata sdk env payload m → Aborts sdk env w r.1 cmd r.2 := by
  intro w₀
  constructor
  · intro hone
    obtain ⟨hnext, -, -⟩ := confirm_progress hrun hrev hsent
    rw [if_pos hone] at hnext
    exact hnext
  · obtain ⟨-, a₀, m, -, -, hmd⟩ := pending_review hrev
    obtain ⟨-, p, hp⟩ := session_run apdus hrun hrev hsent hsend
    refine ⟨p, hp, ?_⟩
    rintro k rfl cmd env henv
    have hcomm : (sessionRun sdk w₀ env₀ apdus).1.Comm := by
      rw [sessionRun_state]
      exact (app_refines sdk).inv_state _
    have hpayload : (sessionRun sdk w₀ env₀ apdus).1.PayloadOk := by
      rw [sessionRun_state]
      exact payloadOk_state sdk _
    refine ⟨apdu_progress sdk hp.state hmd hcomm hpayload henv cmd, ?_⟩
    rintro c payload m' rfl hcompletes hauth
    exact hp.state.aborts hcomm henv hcompletes hauth

/-- A confirmation that sends a signature sends that of the first action. -/
theorem signatureSent_of_any {inputs : List Input} {screen : UiCtx} {env₀ : Env}
    (hrun : ((app sdk).state inputs).running = true)
    (hrev : ((app sdk).state inputs).review = some screen) (hsend : 0 ≤ env₀.send)
    (hany : (appMainStep sdk ((app sdk).state inputs) (.choice true env₀)).2.any
      Event.isSignature = true) :
    ∃ a, SignatureSent env₀ a
      (appMainStep sdk ((app sdk).state inputs) (.choice true env₀)).2 := by
  obtain ⟨hidx, a, m, -, hcur, hmd⟩ := pending_review hrev
  rw [appMainStep_confirm env₀ hrun hrev, reviewChoice_confirm] at hany ⊢
  rcases signAction_answer sdk (w := ((app sdk).state inputs).afterReview) env₀ hcur hmd
    with ⟨sig, -, hanswer⟩ | ⟨-, hanswer⟩
  · exact ⟨a, (hanswer.status hidx).2.mpr hsend⟩
  · obtain ⟨calls, hcalls⟩ := hanswer.events
    obtain ⟨e, he, hsig⟩ := List.any_eq_true.mp hany
    unfold confirmEvents at he
    rw [hcalls] at he
    have hno : e.isSignature = false := by
      simp only [List.mem_cons, List.mem_append] at he
      rcases he with (rfl | hcx | rfl | hnil) | hend
      · rfl
      · exact (quiet_calls calls e hcx).isSignature
      · rfl
      · cases hnil
      · split at hend
        · simp only [List.mem_cons, List.not_mem_nil, or_false] at hend
          rcases hend with rfl | rfl <;> rfl
        · rw [List.mem_singleton] at hend
          rw [hend]
          rfl
    rw [hno] at hsig
    cases hsig

/-- Two more requests to sign, and between them a `GET_ADDRESS`. -/
def moreCommands : List (Option Command × Env) :=
  let path : Bytes := UInt8.ofNat Client.bip32Path.length ::
    Client.bip32Path.flatMap fun level => Msgpack.beBytes 4 level
  [(some ⟨cla, insSignAction, 0, 0, path⟩, Client.env),
   (some ⟨cla, insGetAddress, 0, 0, path⟩, Client.env),
   (some ⟨cla, insSignAction, 0, 0, path⟩, Client.env)]

theorem session_progress_reviewSession :
    let w₀ := (app Client.sdk).state reviewSession
    (1 = w₀.ctx.actionCount → (sessionRun Client.sdk w₀ Client.env []).1.ctx = {}) ∧
    ∃ p, Progressed Client.sdk w₀ Client.env moreCommands p ∧
      ∀ k, p = .signing k → ∀ cmd env, 0 ≤ Env.send env →
        let w := (sessionRun Client.sdk w₀ Client.env moreCommands).1
        let r := appMainStep Client.sdk w (.apdu cmd env)
        (Stays w₀ r.1 k r.2 ∨ (∃ a m sig, Signs Client.sdk env w₀ w r.1 k cmd r.2 a m sig) ∨
          Aborts Client.sdk env w r.1 cmd r.2) ∧
        ∀ c payload m, cmd = some c → w.CompletesMetadata c payload →
          AuthenticMetadata Client.sdk env payload m → Aborts Client.sdk env w r.1 cmd r.2 := by
  have hrun : ((app Client.sdk).state reviewSession).running = true := by decide +kernel
  have hsome : ((app Client.sdk).state reviewSession).review.isSome = true := by decide +kernel
  obtain ⟨screen, hrev⟩ := Option.isSome_iff_exists.mp hsome
  have hany : (appMainStep Client.sdk ((app Client.sdk).state reviewSession)
      (.choice true Client.env)).2.any Event.isSignature = true := by decide +kernel
  exact session_progress Client.sdk reviewSession screen Client.env moreCommands hrun hrev
    (signatureSent_of_any hrun hrev (by decide) hany) (by decide)

/-- A confirmation whose own signature fails leaves the list open: before anything is signed,
another action is added to the one that was approved. -/
theorem unsigned_confirmation_reopens :
    let reviewed := Client.session (Client.ethMetadata .order)
      [Client.bulkOrderAction [Client.limitRequest true false .gtc "1973.7" "0.0072"]] ++
      [Client.signAction]
    let confirmed := reviewed ++ [.choice true { Client.env with ecdsa := none }]
    ((app Client.sdk).state reviewed).review.isSome = true ∧
      ((app Client.sdk).state confirmed).ctx.actionCount = 1 ∧
      ((app Client.sdk).state (confirmed ++
        Client.setAction Client.updateLeverageAction)).ctx.actionCount = 2 ∧
      ((app Client.sdk).trace (confirmed ++
        Client.setAction Client.updateLeverageAction)).all (fun e => !e.isSignature) = true := by
  decide +kernel

end Hyperliquid

/-
# A client and the application in conversation

The client sends a batch, asks for signatures, and counts on what it is told; the application
stores, shows the review to the user, and signs.  Whatever the primitives do in between, and
whatever the user decides: the answers that the client holds are signatures of the actions that it
sent, in its order, under one review that showed exactly these actions and that the user confirmed
(`conversation_agrees`); and the conversation comes to its end (`conversation_ends`).

The proof is one invariant of the two states (`Follows`), with one lemma for each state of the
client.
-/
import Hyperliquid.Answers
import Hyperliquid.ClientProgram
import Hyperliquid.HistoryIndependence
import Hyperliquid.SessionProgress

namespace Hyperliquid

open Lib

/-! ## 1. Requests to sign -/

section

variable {sdk : Sdk} {env : Env} {w : World} {data : Bytes}

/-- With the path in use, a later request is `sign_action`. -/
theorem handlerSignAction_samePath (hpos : 0 < w.ctx.actionIndex)
    (h : SamePath sdk w.signing data) :
    handlerSignAction sdk env data w = signAction sdk env w := by
  obtain ⟨rest, rfl, hread⟩ := h
  have hfirst : ctxCurrentActionIsFirst w.ctx = false := by
    unfold ctxCurrentActionIsFirst
    exact beq_eq_false_iff_ne.mpr (Nat.ne_of_gt hpos)
  simp [handlerSignAction, hread, hfirst]

variable (sdk env w) in
/-- Every exit of `sign_action` returns what sending its response returned. -/
theorem signAction_ret : (signAction sdk env w).ret = env.send := by
  rcases signAction_exits sdk env w with hexit | ⟨a, m, ha, hm⟩
  · rw [hexit]
    rfl
  · rcases signAction_answer sdk env ha hm with ⟨sig, -, hans⟩ | ⟨-, hans⟩
    · exact hans.ret
    · exact hans.ret

/-- What is left in the serialization buffer has no part in a signature. -/
theorem HashedAndSigned.anyBuffer {a : Action} {m : ActionMetadata} {sig : Signature}
    (h : HashedAndSigned sdk env w a m sig) (rawBuf : Bytes) :
    ((signWith sdk a m w.signing).exec (env.cxState rawBuf)).1 = some sig := by
  obtain ⟨hvalue, -⟩ := signWith_respects sdk a m w.signing _ _
    (sameButRawBuf_start env rawBuf w.rawBuf)
  rw [hvalue]
  exact hashedAndSigned_iff.mp h

variable (sdk env) in
theorem quiet_derivationEvents (path : Vector UInt32 maxBip32Path) (length : UInt8) :
    ∀ e ∈ derivationEvents sdk env path length, e.Quiet := by
  refine List.forall_mem_append.mpr ⟨?_, quiet_single trivial⟩
  unfold derivation
  split
  · exact quiet_single trivial
  · exact fun e he => absurd he List.not_mem_nil

/-- A request to sign is handed to its handler. -/
theorem appMainStep_sign (hrun : w.running = true) (hon : w.commEnabled = true) :
    appMainStep sdk w (.apdu (some ⟨cla, insSignAction, 0, 0, data⟩) env) =
      (if (handlerSignAction sdk env data w).ret < 0
        then { (handlerSignAction sdk env data w).world with running := false }
        else (handlerSignAction sdk env data w).world,
        (handlerSignAction sdk env data w).events) := by
  have hdispatch : apduDispatcher sdk env ⟨cla, insSignAction, 0, 0, data⟩ w =
      .ok (handlerSignAction sdk env data w) := by
    cases data with
    | nil => rfl
    | cons c cs => rfl
  simp [appMainStep, appMainApdu, hrun, hon, hdispatch]

/-- A command that is not a request to sign signs nothing. -/
theorem appMainStep_unsigned {cmd : Command} (hins : cmd.ins ≠ insSignAction) (hw : w.PayloadOk) :
    ∀ e ∈ (appMainStep sdk w (.apdu (some cmd) env)).2, e.isSignature = false := by
  have hresponse : ∀ data sw, ∀ e ∈ [Event.response data sw], e.isSignature = false :=
    fun data sw e he => (quiet_response data sw e he).isSignature
  have hcases := appMainStep_cases sdk w (.apdu (some cmd) env)
  generalize appMainStep sdk w (.apdu (some cmd) env) = s at hcases ⊢
  cases hcases with
  | ignored i => exact fun e he => absurd he List.not_mem_nil
  | answered cmd env sw _ => exact hresponse _ _
  | faulted cmd env e _ _ => exact fun e he => absurd he List.not_mem_nil
  | dispatched cmd env r running _ hr _ =>
    rcases apduDispatcher_cases sdk env cmd w with
      ⟨sw, hr', -⟩ | hr' | ⟨handler, -, hr'⟩ | ⟨hsign, -⟩
    · cases hr.symm.trans hr'
      exact hresponse _ _
    · obtain ⟨rawBuf, events, hget, hevents⟩ := handlerGetAddr_effect sdk env cmd.data w
      rw [hget] at hr'
      cases hr.symm.trans hr'
      exact fun e he => (hevents e he).isSignature
    · obtain ⟨r', hchunk, ⟨sw, payload', -, rfl⟩ | ⟨bytes, ret, ctx', events, -, hrun, rfl⟩⟩ :=
        handlerChunked_effect sdk handler env (cmd.p1 == p1First) cmd.data hw
      · cases hr.symm.trans (hr'.trans hchunk)
        exact hresponse _ _
      · cases hr.symm.trans (hr'.trans hchunk)
        exact List.forall_mem_append.mpr ⟨(runPayloadHandler_effect hrun).events, hresponse _ _⟩
    · exact absurd hsign.ins hins

end

namespace Client

/-! ## 2. What the client is told -/

/-- The answer that is made from a signature. -/
def answerOf (remaining : Nat) (sig : Signature) : Answer :=
  ⟨UInt8.ofNat remaining, sig.v, sig.r.toList, sig.s.toList⟩

theorem unpack_signatureResponse (remaining : Nat) (sig : Signature) :
    unpackSignActionResponse (signatureResponse remaining sig) = some (answerOf remaining sig) := by
  have hr : sig.r.toList.length = 32 := Vector.length_toList
  have hdrop : (sig.r.toList ++ sig.s.toList).drop 32 = sig.s.toList := List.drop_left' hr
  have htake : (sig.r.toList ++ sig.s.toList).take 32 = sig.r.toList := List.take_left' hr
  rw [unpackSignActionResponse, if_pos (length_signatureResponse remaining sig)]
  unfold signatureResponse answerOf
  rw [List.drop_succ_cons, List.drop_succ_cons, List.drop_succ_cons, List.drop_succ_cons,
    List.drop_zero, htake, hdrop]
  rfl

/-- The client goes on as long as actions remain. -/
theorem collect_signature (answers : List Answer) {remaining : Nat} (h : remaining < 256)
    (sig : Signature) : Host.collect answers (some (signatureResponse remaining sig)) =
      if 0 < remaining then .signing (answers ++ [answerOf remaining sig])
      else .done (answers ++ [answerOf remaining sig]) := by
  have hpos : 0 < (answerOf remaining sig).remaining ↔ 0 < remaining := by
    show 0 < UInt8.ofNat remaining ↔ _
    rw [UInt8.lt_iff_toNat_lt, UInt8.toNat_ofNat', Nat.mod_eq_of_lt h]
    rfl
  unfold Host.collect
  rw [Option.bind_some, unpack_signatureResponse]
  dsimp only
  rw [if_congr hpos rfl rfl]

/-- The events of a step with one response. -/
theorem answered_response {env : Env} {pre : List Event} (data : Bytes) (sw : StatusWord)
    (hpre : ∀ e ∈ pre, responseOf e = none) (post : List Event) (hsend : 0 ≤ env.send) :
    answered env (pre ++ .response data sw :: post) =
      if sw = .success then some data else none := by
  have hnone : pre.findSome? responseOf = none := List.findSome?_eq_none_iff.mpr hpre
  unfold answered
  rw [if_neg (Int.not_lt.mpr hsend), List.findSome?_append, hnone]
  rfl

theorem answered_unsent {env : Env} (h : ¬ 0 ≤ env.send) (events : List Event) :
    answered env events = none := if_pos (Int.not_le.mp h)

theorem responseOf_calls (calls : List CxCall) :
    ∀ e ∈ calls.map Event.cx, responseOf e = none := by
  intro e he
  obtain ⟨c, -, rfl⟩ := List.mem_map.mp he
  rfl

/-- The actions of the signatures in a trace. -/
def signaturesMade (tr : List Event) : List Action :=
  tr.filterMap fun
    | .signature _ a _ _ => some a
    | _ => none

theorem signaturesMade_append (xs ys : List Event) :
    signaturesMade (xs ++ ys) = signaturesMade xs ++ signaturesMade ys := List.filterMap_append

theorem signaturesMade_eq_nil {events : List Event} (h : ∀ e ∈ events, e.isSignature = false) :
    signaturesMade events = [] := by
  refine List.filterMap_eq_nil_iff.mpr ?_
  intro e he
  cases e with
  | signature i a now sig => cases h _ he
  | _ => rfl

/-- Only the signatures of the trace count. -/
theorem signaturesMade_filter (tr : List Event) :
    signaturesMade (tr.filter Event.isSignature) = signaturesMade tr := by
  induction tr with
  | nil => rfl
  | cons e tr ih =>
    cases e with
    | signature i a now sig =>
      show a :: signaturesMade (tr.filter Event.isSignature) = a :: signaturesMade tr
      rw [ih]
    | _ => exact ih

theorem length_signaturesMade (tr : List Event) :
    (signaturesMade tr).length = (tr.filter Event.isSignature).length := by
  induction tr with
  | nil => rfl
  | cons e tr ih =>
    cases e with
    | signature i a now sig => exact congrArg (· + 1) ih
    | _ => exact ih

/-! ## 3. The invariant -/

section

variable (sdk : Sdk) (user : UiCtx → Bool) (b : Batch)

/-- The user confirmed, in `w₁`, a review of the batch. -/
structure Reviewed (tr : List Event) (w₁ : World) : Prop where
  inv : SessionInv w₁.ctx
  stores : Stores b w₁.ctx
  path : SamePath sdk w₁.signing b.path
  confirmed : ∃ screen before since, handleUi sdk w₁.ctx w₁.ctx.metadata = some screen ∧
    user screen = true ∧ tr = before ++ [.useCaseReview w₁.snapshot screen, .choice true] ++ since

/-- The `k`-th signature of the trace is that of the action `s`, the `k`-th of the batch.  It was
made in its own turn, whatever the serialization buffer held: one turn for each command and one for
the first request come before. -/
structure KthSignature (turns : List Env) (tr : List Event) (w₁ : World) (k : Nat) (s : SetAction)
    (sig : Signature) : Prop where
  action : b.actions[k]? = some s
  event : (tr.filter Event.isSignature)[k]? = some (.signature k s.sent w₁.snapshot sig)
  made : ∃ env, turns[b.commands.length + 1 + k]? = some env ∧ ∀ rawBuf,
    ((signWith sdk s.sent b.metadata w₁.signing).exec (Env.cxState env rawBuf)).1 = some sig

/-- The answers are made from the signatures of the trace, one by one, and these are of the actions
of the batch, in its order. -/
def Collected (turns : List Env) (tr : List Event) (w₁ : World) (answers : List Answer) : Prop :=
  ∀ k answer, answers[k]? = some answer → ∃ s sig,
    KthSignature sdk b turns tr w₁ k s sig ∧ answer = answerOf (b.actions.length - (k + 1)) sig

/-- With these commands to send: the others were answered with success, one in each turn, and
nothing was signed. -/
def Sending (w₀ : World) (turns : List Env) (tr : List Event) (queue : List Command) (w : World) :
    Prop :=
  ∃ sent, sent.map Prod.fst ++ queue = b.commands ∧ sent.map Prod.snd = turns ∧
    storedAfter sdk w₀ sent = some w ∧ signaturesMade tr = []

/-- The batch is on the screen. -/
structure Reviewing (turns : List Env) (tr : List Event) (screen : UiCtx) (w : World) : Prop where
  turn : turns.length = b.commands.length + 1
  running : w.running = true
  review : w.review = some screen
  payload : w.payload.Represents .idle
  stores : Stores b w.ctx
  path : SamePath sdk w.signing b.path
  shown : handleUi sdk w.ctx w.ctx.metadata = some screen
  trace : ∃ before, tr = before ++ [.useCaseReview w.snapshot screen]
  unsigned : signaturesMade tr = []

/-- So many answers of the session that was confirmed in `w₁`. -/
structure Collecting (turns : List Env) (tr : List Event) (w₁ : World) (answers : List Answer) :
    Prop where
  reviewed : Reviewed sdk user b tr w₁
  collected : Collected sdk b turns tr w₁ answers
  made : signaturesMade tr = (b.actions.map SetAction.sent).take answers.length

/-- Nothing was signed, or some of the actions from the first on, in the order of the batch. -/
def Abandoned (turns : List Env) (tr : List Event) : Prop :=
  signaturesMade tr = [] ∨ ∃ w₁ n, Reviewed sdk user b tr w₁ ∧
    signaturesMade tr = (b.actions.map SetAction.sent).take n ∧
    ∀ k, k < n → ∃ s sig, KthSignature sdk b turns tr w₁ k s sig

/-- How the two states belong together. -/
def Follows (w₀ : World) (turns : List Env) (tr : List Event) : Host → World → Prop
  | .storing cmd queue, w => Sending sdk b w₀ turns tr (cmd :: queue) w
  | .asking, w => Sending sdk b w₀ turns tr [] w
  | .reviewing screen, w => Reviewing sdk b turns tr screen w
  | .signing answers, w => ∃ w₁, Collecting sdk user b turns tr w₁ answers ∧
    turns.length = b.commands.length + 1 + answers.length ∧
    SignedTo w₁ w answers.length ∧ w.payload.Represents .idle
  | .done answers, w => ∃ w₁, Collecting sdk user b turns tr w₁ answers ∧
    answers.length = b.actions.length ∧ w.ctx = {} ∧ Idle w
  | .raised, _ => Abandoned sdk user b turns tr

end

section

variable {sdk : Sdk} {user : UiCtx → Bool} {b : Batch} {w₀ w w₁ : World}
  {turns : List Env} {tr : List Event} {env : Env}

theorem Reviewed.mono (h : Reviewed sdk user b tr w₁) (events : List Event) :
    Reviewed sdk user b (tr ++ events) w₁ := by
  obtain ⟨screen, before, since, hshown, huser, rfl⟩ := h.confirmed
  exact ⟨h.inv, h.stores, h.path, screen, before, since ++ events, hshown, huser,
    List.append_assoc _ _ _⟩

theorem Stores.actionCount {ctx : HlContext} (h : Stores b ctx) :
    ctx.actionCount = b.actions.length := by
  show ctx.actions.elems.length = _
  rw [h.elems, List.length_map]

theorem getElem?_append_of_some {α : Type} {l : List α} {i : Nat} {x : α} (h : l[i]? = some x)
    (more : List α) : (l ++ more)[i]? = some x := by
  rw [List.getElem?_append_left (List.getElem?_eq_some_iff.mp h).1]
  exact h

theorem KthSignature.append {k : Nat} {s : SetAction} {sig : Signature}
    (h : KthSignature sdk b turns tr w₁ k s sig) (more : List Env) (events : List Event) :
    KthSignature sdk b (turns ++ more) (tr ++ events) w₁ k s sig where
  action := h.action
  event := by
    rw [List.filter_append]
    exact getElem?_append_of_some h.event _
  made := by
    obtain ⟨env, hturn, hsig⟩ := h.made
    exact ⟨env, getElem?_append_of_some hturn more, hsig⟩

/-- One answer more. -/
theorem Collected.snoc {answers : List Answer} {s : SetAction} {sig : Signature}
    {events : List Event} (h : Collected sdk b turns tr w₁ answers)
    (hsig : KthSignature sdk b (turns ++ [env]) (tr ++ events) w₁ answers.length s sig) :
    Collected sdk b (turns ++ [env]) (tr ++ events) w₁
      (answers ++ [answerOf (b.actions.length - (answers.length + 1)) sig]) := by
  intro k answer hk
  rcases Nat.lt_or_ge k answers.length with hlt | hge
  · rw [List.getElem?_append_left hlt] at hk
    obtain ⟨s, sig, hkth, hanswer⟩ := h k answer hk
    exact ⟨s, sig, hkth.append [env] events, hanswer⟩
  · rw [List.getElem?_append_right hge, List.getElem?_singleton] at hk
    split at hk
    · obtain rfl : k = answers.length := by omega
      cases hk
      exact ⟨s, sig, hsig, rfl⟩
    · cases hk

/-- Turns in which nothing is signed. -/
theorem Collecting.append {answers : List Answer} (h : Collecting sdk user b turns tr w₁ answers)
    (more : List Env) {events : List Event} (hevents : ∀ e ∈ events, e.isSignature = false) :
    Collecting sdk user b (turns ++ more) (tr ++ events) w₁ answers where
  reviewed := h.reviewed.mono events
  collected := by
    intro k answer hk
    obtain ⟨s, sig, hkth, hanswer⟩ := h.collected k answer hk
    exact ⟨s, sig, hkth.append more events, hanswer⟩
  made := by rw [signaturesMade_append, signaturesMade_eq_nil hevents, List.append_nil, h.made]

/-- What was collected was signed. -/
theorem Collecting.abandoned {answers : List Answer}
    (h : Collecting sdk user b turns tr w₁ answers) : Abandoned sdk user b turns tr := by
  refine .inr ⟨w₁, answers.length, h.reviewed, h.made, ?_⟩
  intro k hk
  obtain ⟨s, sig, hkth, -⟩ := h.collected k _ (List.getElem?_eq_getElem hk)
  exact ⟨s, sig, hkth⟩

theorem Abandoned.append (h : Abandoned sdk user b turns tr) (more : List Env) :
    Abandoned sdk user b (turns ++ more) (tr ++ []) := by
  rcases h with hnone | ⟨w₁, n, hreviewed, hmade, hkth⟩
  · left
    rw [List.append_nil]
    exact hnone
  · refine .inr ⟨w₁, n, hreviewed.mono [], ?_, ?_⟩
    · rw [List.append_nil]
      exact hmade
    · intro k hk
      obtain ⟨s, sig, h⟩ := hkth k hk
      exact ⟨s, sig, h.append more []⟩

/-! ## 4. One turn -/

/-- The commands of the first part are not requests to sign. -/
theorem commands_ins : ∀ cmd ∈ b.commands, cmd.ins ≠ insSignAction := by
  have hchunked : ∀ (handler : PayloadHandler) (payload : Bytes),
      ∀ cmd ∈ chunkedCommands handler payload, cmd.ins ≠ insSignAction := by
    intro handler payload cmd hcmd
    have hins : cmd.ins = handler.ins := by
      rcases List.mem_cons.mp hcmd with rfl | hcmd
      · rfl
      · obtain ⟨chunk, -, rfl⟩ := List.mem_map.mp hcmd
        rfl
    rw [hins]
    cases handler <;> decide
  intro cmd hcmd
  rcases List.mem_append.mp hcmd with hcmd | hcmd
  · exact hchunked _ _ cmd hcmd
  · obtain ⟨s, -, hcmd⟩ := List.mem_flatMap.mp hcmd
    exact hchunked _ _ cmd hcmd

theorem follows_next {queue : List Command} (h : Sending sdk b w₀ turns tr queue w) :
    Follows sdk user b w₀ turns tr (Host.next queue) w := by
  cases queue with
  | nil => exact h
  | cons cmd queue => exact h

/-- A command that stores. -/
theorem follows_storing {cmd : Command} {queue : List Command}
    (h : Sending sdk b w₀ turns tr (cmd :: queue) w) (hw : w.PayloadOk) :
    Follows sdk user b w₀ (turns ++ [env]) (tr ++ ((app sdk).step w (.apdu (some cmd) env)).2)
      (Host.hear (.storing cmd queue) env ((app sdk).step w (.apdu (some cmd) env)).2)
      ((app sdk).step w (.apdu (some cmd) env)).1 := by
  obtain ⟨sent, hsent, hturns, hstored, hmade⟩ := h
  have hcmd : cmd ∈ b.commands := by
    rw [← hsent]
    simp
  have hunsigned : signaturesMade (tr ++ ((app sdk).step w (.apdu (some cmd) env)).2) = [] := by
    rw [signaturesMade_append, hmade]
    exact signaturesMade_eq_nil (appMainStep_unsigned (commands_ins cmd hcmd) hw)
  unfold Host.hear
  dsimp only
  by_cases hgood : (answered env ((app sdk).step w (.apdu (some cmd) env)).2).isSome = true
  · rw [if_pos hgood]
    refine follows_next ⟨sent ++ [(cmd, env)], ?_, ?_, ?_, hunsigned⟩
    · rw [← hsent, List.map_append, List.append_assoc]
      rfl
    · rw [List.map_append, hturns]
      rfl
    · have hinputs : commandInputs (sent ++ [(cmd, env)]) =
          commandInputs sent ++ [.apdu (some cmd) env] := List.map_append
      rw [storedAfter, hinputs]
      exact Machine.attempt_snoc hstored hgood
  · rw [if_neg hgood]
    exact .inl hunsigned

theorem screenOf_derivation (path : Vector UInt32 maxBip32Path) (length : UInt8) :
    ∀ e ∈ derivationEvents sdk env path length, screenOf e = none := by
  intro e he
  have hquiet := quiet_derivationEvents sdk env path length e he
  cases e with
  | useCaseReview built screen => cases hquiet
  | _ => rfl

/-- The review that is shown is the one that the client's user looks at. -/
theorem hear_review (path : Vector UInt32 maxBip32Path) (length : UInt8) (built : Snapshot)
    (screen : UiCtx) : Host.hear .asking env
      (derivationEvents sdk env path length ++ [.useCaseReview built screen]) =
        .reviewing screen := by
  unfold Host.hear
  dsimp only
  rw [List.findSome?_append, List.findSome?_eq_none_iff.mpr (screenOf_derivation path length)]
  rfl

/-- The first request to sign. -/
theorem follows_asking (h : Understands sdk) (hb : b.Allowed) (hw₀ : Idle w₀)
    (hsending : Sending sdk b w₀ turns tr [] w) :
    Follows sdk user b w₀ (turns ++ [env])
      (tr ++ ((app sdk).step w (.apdu (some b.signCommand) env)).2)
      (Host.hear .asking env ((app sdk).step w (.apdu (some b.signCommand) env)).2)
      ((app sdk).step w (.apdu (some b.signCommand) env)).1 := by
  obtain ⟨sent, hsent, hturns, hstored, hmade⟩ := hsending
  rw [List.append_nil] at hsent
  have hturn : (turns ++ [env]).length = b.commands.length + 1 := by
    rw [← hturns, ← hsent, List.length_append, List.length_map, List.length_map]
    rfl
  obtain ⟨hidle, hstores, -⟩ := stored_batch h hb hsent hw₀ hstored
  have hstep : (app sdk).step w (.apdu (some b.signCommand) env) = _ :=
    appMainStep_sign hidle.running hidle.on
  have hunsigned : signaturesMade (tr ++ (handlerSignAction sdk env b.path w).events) = [] := by
    rw [signaturesMade_append, hmade]
    exact signaturesMade_eq_nil (handlerSignAction_first sdk env b.path hstores.unstarted).2
  have hanswer := handlerSignAction_answer sdk env b.path w
  rw [hstep]
  generalize handlerSignAction sdk env b.path w = r at hanswer hunsigned ⊢
  have hraised : (∀ e ∈ r.events, screenOf e = none) →
      Host.hear .asking env r.events = .raised := by
    intro hnone
    unfold Host.hear
    dsimp only
    rw [List.findSome?_eq_none_iff.mpr hnone]
  cases hanswer with
  | refused sw _ =>
    rw [hraised]
    · exact .inl hunsigned
    · intro e he
      obtain rfl := List.mem_singleton.mp he
      rfl
  | unreviewed signing events _ _ hevents =>
    rw [hraised]
    · exact .inl hunsigned
    · intro e he
      rcases List.mem_append.mp he with he | he
      · rcases hevents with rfl | rfl
        · cases he
        · exact screenOf_derivation _ _ e he
      · obtain rfl := List.mem_singleton.mp he
        rfl
  | reviewed signing screen _ hpath _ hshown =>
    dsimp only
    rw [hear_review]
    exact ⟨hturn, hidle.running, rfl, hidle.payload, hstores, hpath, hshown,
      ⟨tr ++ derivationEvents sdk env signing.bip32Path signing.bip32PathLength,
        (List.append_assoc _ _ _).symm⟩, hunsigned⟩
  | signs hpos => exact absurd hstores.unstarted (Nat.ne_of_gt hpos)

/-- The action that the next answer is about is the current one. -/
theorem Collecting.current {answers : List Answer} (hc : Collecting sdk user b turns tr w₁ answers)
    (hk : answers.length < b.actions.length)
    (hctx : w.ctx = { w₁.ctx with actionIndex := answers.length }) :
    ∃ s, b.actions[answers.length]? = some s ∧ ctxGetCurrentAction w.ctx = some s.sent ∧
      w.ctx.metadata = some b.metadata := by
  have hlt : w.ctx.actionIndex < w.ctx.actionCount := by
    rw [hctx]
    exact hc.reviewed.stores.actionCount ▸ hk
  obtain ⟨a, ha, hget⟩ := ctxGetCurrentAction_of_lt hlt
  rw [hctx] at hget
  have hget' : (b.actions.map SetAction.sent)[answers.length]? = some a := by
    rw [← hc.reviewed.stores.elems]
    exact hget
  rw [List.getElem?_map] at hget'
  obtain ⟨s, hs, rfl⟩ := Option.map_eq_some_iff.mp hget'
  refine ⟨s, hs, ha, ?_⟩
  rw [hctx]
  exact hc.reviewed.stores.metadata

/-- With a signature, one is made. -/
theorem signatures_signatureAnswer {a : Action} {sig : Signature} {r : Outcome}
    (h : SignatureAnswer env w a sig r) {post : List Event}
    (hpost : ∀ e ∈ post, e.isSignature = false) : (r.events ++ post).filter Event.isSignature =
      [.signature w.ctx.actionIndex a w.snapshot sig] := by
  have hnone : ∀ {events : List Event}, (∀ e ∈ events, e.isSignature = false) →
      events.filter Event.isSignature = [] := by
    intro events hevents
    exact List.filter_eq_nil_iff.mpr fun e he => ne_true_of_eq_false (hevents e he)
  obtain ⟨calls, hevents⟩ := h.events
  rw [hevents, List.filter_append, List.filter_append, List.filter_append, hnone hpost,
    hnone (not_signature_reset _), hnone fun e he => (quiet_calls calls e he).isSignature]
  rfl

theorem made_signatureAnswer {a : Action} {sig : Signature} {r : Outcome}
    (h : SignatureAnswer env w a sig r) {post : List Event}
    (hpost : ∀ e ∈ post, e.isSignature = false) : signaturesMade (r.events ++ post) = [a] := by
  rw [← signaturesMade_filter, signatures_signatureAnswer h hpost]
  rfl

/-- With an error, none is made. -/
theorem errorAnswer_unsigned {r : Outcome} (h : ErrorAnswer env w r) {post : List Event}
    (hpost : ∀ e ∈ post, e.isSignature = false) :
    ∀ e ∈ r.events ++ post, e.isSignature = false := by
  obtain ⟨calls, hevents⟩ := h.events
  rw [hevents]
  refine List.forall_mem_append.mpr ⟨?_, hpost⟩
  exact fun e he => (quiet_after (quiet_calls calls) [] .incorrectData e he).isSignature

/-- The signature of `sign_action` is the next one of the batch. -/
theorem Collecting.kthSignature {answers : List Answer}
    (hc : Collecting sdk user b turns tr w₁ answers)
    (hturn : turns.length = b.commands.length + 1 + answers.length)
    (hctx : w.ctx = { w₁.ctx with actionIndex := answers.length })
    (hsigning : w.signing = w₁.signing) {s : SetAction} {sig : Signature}
    (hs : b.actions[answers.length]? = some s)
    (hans : SignatureAnswer env w s.sent sig (Hyperliquid.signAction sdk env w))
    (hsig : HashedAndSigned sdk env w s.sent b.metadata sig) {post : List Event}
    (hpost : ∀ e ∈ post, e.isSignature = false) :
    KthSignature sdk b (turns ++ [env])
      (tr ++ ((Hyperliquid.signAction sdk env w).events ++ post)) w₁ answers.length s sig where
  action := hs
  event := by
    have hcount : (tr.filter Event.isSignature).length = answers.length := by
      have hlt : answers.length < b.actions.length := (List.getElem?_eq_some_iff.mp hs).1
      rw [← length_signaturesMade, hc.made, List.length_take, List.length_map]
      omega
    have hsnapshot : w.snapshot = w₁.snapshot := by
      unfold World.snapshot
      rw [hctx, hsigning]
    have hindex : w.ctx.actionIndex = answers.length := by rw [hctx]
    rw [List.filter_append, signatures_signatureAnswer hans hpost, hsnapshot, hindex,
      List.getElem?_append_right (Nat.le_of_eq hcount), hcount, Nat.sub_self]
    rfl
  made := by
    refine ⟨env, ?_, fun rawBuf => hsigning ▸ hsig.anyBuffer rawBuf⟩
    rw [← hturn, List.getElem?_append_right (Nat.le_refl _), Nat.sub_self]
    rfl

/-- With it, one answer more can be made. -/
theorem Collecting.snoc {answers : List Answer}
    (hc : Collecting sdk user b turns tr w₁ answers) {s : SetAction} {sig : Signature}
    {r : Outcome} {post : List Event} (hpost : ∀ e ∈ post, e.isSignature = false)
    (hans : SignatureAnswer env w s.sent sig r)
    (hkth : KthSignature sdk b (turns ++ [env]) (tr ++ (r.events ++ post)) w₁ answers.length s
      sig) :
    Collecting sdk user b (turns ++ [env]) (tr ++ (r.events ++ post)) w₁
      (answers ++ [answerOf (b.actions.length - (answers.length + 1)) sig]) where
  reviewed := hc.reviewed.mono _
  collected := hc.collected.snoc hkth
  made := by
    rw [signaturesMade_append, hc.made, made_signatureAnswer hans hpost, List.length_append,
      List.length_singleton, List.take_add_one, List.getElem?_map, hkth.action]
    rfl

variable (env) in
/-- Whatever has become of its response. -/
theorem abandoned_signAction {answers : List Answer}
    (hc : Collecting sdk user b turns tr w₁ answers)
    (hturn : turns.length = b.commands.length + 1 + answers.length)
    (hk : answers.length < b.actions.length)
    (hctx : w.ctx = { w₁.ctx with actionIndex := answers.length })
    (hsigning : w.signing = w₁.signing) {post : List Event}
    (hpost : ∀ e ∈ post, e.isSignature = false) :
    Abandoned sdk user b (turns ++ [env])
      (tr ++ ((Hyperliquid.signAction sdk env w).events ++ post)) := by
  obtain ⟨s, hs, ha, hmd⟩ := hc.current hk hctx
  rcases signAction_answer sdk env ha hmd with ⟨sig, hsig, hans⟩ | ⟨-, hans⟩
  · have hkth := hc.kthSignature hturn hctx hsigning hs hans hsig hpost
    exact (hc.snoc hpost hans hkth).abandoned
  · exact (hc.append [env] (errorAnswer_unsigned hans hpost)).abandoned

/-- What the client makes of the response of `sign_action`. -/
theorem collect_signAction {answers : List Answer}
    (hc : Collecting sdk user b turns tr w₁ answers)
    (hk : answers.length < b.actions.length)
    (hctx : w.ctx = { w₁.ctx with actionIndex := answers.length })
    (hsigning : w.signing = w₁.signing) (hidle : Idle w) (hsend : 0 ≤ env.send)
    (post : List Event) :
    (∃ s sig, b.actions[answers.length]? = some s ∧
      SignatureAnswer env w s.sent sig (Hyperliquid.signAction sdk env w) ∧
      HashedAndSigned sdk env w s.sent b.metadata sig ∧
      Host.collect answers (answered env ((Hyperliquid.signAction sdk env w).events ++ post)) =
        if answers.length + 1 < b.actions.length then
          .signing (answers ++ [answerOf (b.actions.length - (answers.length + 1)) sig])
        else .done (answers ++ [answerOf (b.actions.length - (answers.length + 1)) sig])) ∨
    (ErrorAnswer env w (Hyperliquid.signAction sdk env w) ∧
      Host.collect answers (answered env ((Hyperliquid.signAction sdk env w).events ++ post)) =
        .raised) := by
  have hcount := hc.reviewed.stores.actionCount
  have hfew : b.actions.length ≤ 4 := hcount ▸ hc.reviewed.inv.actionCount_le
  obtain ⟨s, hs, ha, hmd⟩ := hc.current hk hctx
  rcases signAction_answer sdk env ha hmd with ⟨sig, hsig, hans⟩ | ⟨-, hans⟩
  · obtain ⟨⟨calls, hevents⟩, -⟩ := hans.progress hsend (hcount ▸ hk) hctx hsigning
      hidle.review hidle.running
    rw [hcount] at hevents
    have hanswered : answered env ((Hyperliquid.signAction sdk env w).events ++ post) =
        some (signatureResponse (b.actions.length - (answers.length + 1)) sig) := by
      have hpre : ∀ e ∈ calls.map Event.cx ++ [.signature answers.length s.sent w₁.snapshot sig],
          responseOf e = none := by
        refine List.forall_mem_append.mpr ⟨responseOf_calls calls, ?_⟩
        intro e he
        obtain rfl := List.mem_singleton.mp he
        rfl
      have hresponse := answered_response
        (signatureResponse (b.actions.length - (answers.length + 1)) sig) .success hpre
        ((if answers.length + 1 = b.actions.length then [Event.ctxReset] else []) ++ post) hsend
      rw [if_pos rfl] at hresponse
      rw [hevents, ← hresponse]
      simp
    refine .inl ⟨s, sig, hs, hans, hsig, ?_⟩
    have hmore : 0 < b.actions.length - (answers.length + 1) ↔
        answers.length + 1 < b.actions.length := by omega
    rw [hanswered, collect_signature answers (by omega), if_congr hmore rfl rfl]
  · obtain ⟨calls, hevents⟩ := hans.events
    have hanswered : answered env ((Hyperliquid.signAction sdk env w).events ++ post) = none := by
      rw [hevents, List.append_assoc]
      exact answered_response [] _ (responseOf_calls calls) _ hsend
    refine .inr ⟨hans, ?_⟩
    rw [hanswered]
    rfl

variable (w₀) in
/-- `sign_action` at the action that the next answer is about. -/
theorem follows_signAction {answers : List Answer}
    (hc : Collecting sdk user b turns tr w₁ answers)
    (hturn : turns.length = b.commands.length + 1 + answers.length)
    (hk : answers.length < b.actions.length)
    (hctx : w.ctx = { w₁.ctx with actionIndex := answers.length })
    (hsigning : w.signing = w₁.signing) (hidle : Idle w) (hsend : 0 ≤ env.send)
    {post : List Event} (hpost : ∀ e ∈ post, e.isSignature = false) :
    Follows sdk user b w₀ (turns ++ [env])
      (tr ++ ((Hyperliquid.signAction sdk env w).events ++ post))
      (Host.collect answers (answered env ((Hyperliquid.signAction sdk env w).events ++ post)))
      (Hyperliquid.signAction sdk env w).world := by
  have hcount := hc.reviewed.stores.actionCount
  have habandoned := abandoned_signAction env hc hturn hk hctx hsigning hpost
  rcases collect_signAction hc hk hctx hsigning hidle hsend post with
    ⟨s, sig, hs, hans, hsig, hcollect⟩ | ⟨-, hcollect⟩
  · obtain ⟨-, hnext⟩ := hans.progress hsend (hcount ▸ hk) hctx hsigning hidle.review
      hidle.running
    rw [hcount] at hnext
    obtain ⟨rawBuf, hworld⟩ := hans.world
    have hkth := hc.kthSignature hturn hctx hsigning hs hans hsig hpost
    have hcollecting := hc.snoc hpost hans hkth
    have hlength : ∀ answer : Answer, (answers ++ [answer]).length = answers.length + 1 :=
      fun answer => List.length_append
    rw [hcollect]
    by_cases hlast : answers.length + 1 = b.actions.length
    · rw [if_pos hlast] at hnext
      rw [if_neg (by omega)]
      refine ⟨w₁, hcollecting, (hlength _).trans hlast, hnext, ?_⟩
      rw [hworld]
      exact ⟨hidle.running, hidle.on, hidle.review, hidle.payload⟩
    · rw [if_neg hlast] at hnext
      rw [if_pos (by omega)]
      refine ⟨w₁, hcollecting, ?_, ?_, ?_⟩
      · rw [hlength, List.length_append, hturn, List.length_singleton, Nat.add_assoc]
      · rw [hlength]
        exact hnext
      · rw [hworld]
        exact hidle.payload
  · rw [hcollect]
    exact habandoned

/-- An empty batch is not shown. -/
theorem reviewing_pos {screen : UiCtx} (h : Reviewing sdk b turns tr screen w)
    (hinv : SessionInv w.ctx) : 0 < b.actions.length := by
  obtain ⟨m, hm, hr⟩ := handleUi_some h.shown
  have hne := (hinv.actionList hm hr).ne_nil
  rw [h.stores.elems] at hne
  exact List.length_pos_of_ne_nil fun hnil => hne (by rw [hnil]; rfl)

/-- With the choice of a user who confirms, the collecting begins. -/
theorem Reviewing.collecting {screen : UiCtx} (h : Reviewing sdk b turns tr screen w)
    (hinv : SessionInv w.ctx) (huser : user screen = true) :
    Collecting sdk user b turns (tr ++ [.choice true]) w [] := by
  obtain ⟨before, htrace⟩ := h.trace
  refine ⟨⟨hinv, h.stores, h.path, screen, before, [], h.shown, huser, ?_⟩, ?_, ?_⟩
  · rw [htrace]
    simp
  · intro k answer hk
    cases hk
  · rw [signaturesMade_append, h.unsigned]
    rfl

theorem Reviewing.afterReview {screen : UiCtx} (h : Reviewing sdk b turns tr screen w) :
    w.afterReview.ctx = { w.ctx with actionIndex := 0 } ∧ Idle w.afterReview := by
  refine ⟨?_, h.running, rfl, rfl, h.payload⟩
  show w.ctx = _
  rw [← h.stores.unstarted]

theorem Reviewing.step {screen : UiCtx} (h : Reviewing sdk b turns tr screen w) (confirm : Bool) :
    (app sdk).step w (.choice confirm env) = reviewChoice sdk env confirm w := by
  simp [app, appMainStep, h.running, h.review]

/-- What is heard after a choice to confirm. -/
theorem reviewChoice_events (env : Env) (w : World) :
    (reviewChoice sdk env true w).2 = [.choice true] ++
      ((Hyperliquid.signAction sdk env w.afterReview).events ++
        if (Hyperliquid.signAction sdk env w.afterReview).ret = -1 then [.ctxReset, .menuMain]
        else [.reviewStatus]) := by
  rw [reviewChoice_confirm, confirmEvents]
  rfl

/-- The user's choice. -/
theorem follows_reviewing {screen : UiCtx} (h : Reviewing sdk b turns tr screen w)
    (hinv : SessionInv w.ctx) :
    Follows sdk user b w₀ (turns ++ [env]) (tr ++ ((app sdk).step w (.choice (user screen) env)).2)
      (Host.hear (.reviewing screen) env ((app sdk).step w (.choice (user screen) env)).2)
      ((app sdk).step w (.choice (user screen) env)).1 := by
  have hraised : ∀ events, answered env events = none →
      Host.hear (.reviewing screen) env events = .raised := by
    intro events hnone
    show Host.collect [] (answered env events) = .raised
    rw [hnone]
    rfl
  rw [h.step]
  cases huser : user screen with
  | false =>
    rw [hraised]
    · left
      rw [signaturesMade_append, h.unsigned]
      rfl
    · show answered env ([.choice false, .ctxReset] ++
        .response [] .conditionsNotSatisfied :: [.menuMain]) = none
      by_cases hsend : 0 ≤ env.send
      · refine answered_response [] .conditionsNotSatisfied ?_ [.menuMain] hsend
        intro e he
        rcases List.mem_cons.mp he with rfl | he
        · rfl
        · obtain rfl := List.mem_singleton.mp he
          rfl
      · exact answered_unsent hsend _
  | true =>
    have hpos := reviewing_pos h hinv
    have hcollecting := h.collecting hinv huser
    have hturn : turns.length = b.commands.length + 1 + ([] : List Answer).length :=
      h.turn.trans (Nat.add_zero _).symm
    obtain ⟨hctx, hidle⟩ := h.afterReview
    by_cases hsend : 0 ≤ env.send
    · have hret : (Hyperliquid.signAction sdk env w.afterReview).ret ≠ -1 := by
        rw [signAction_ret]
        omega
      have hstatus : ∀ e ∈ [Event.reviewStatus], e.isSignature = false := by
        simp [Event.isSignature]
      have hfollows := follows_signAction w₀ hcollecting hturn hpos hctx rfl hidle hsend hstatus
      rw [reviewChoice_events, if_neg hret, reviewChoice_confirm_world env w hret,
        ← List.append_assoc]
      exact hfollows
    · rw [hraised _ (answered_unsent hsend _), reviewChoice_events, ← List.append_assoc]
      refine abandoned_signAction env hcollecting hturn hpos hctx rfl ?_
      intro e he
      split at he
      · rcases List.mem_cons.mp he with rfl | he
        · rfl
        · obtain rfl := List.mem_singleton.mp he
          rfl
      · obtain rfl := List.mem_singleton.mp he
        rfl

/-- A request to sign in the loop is `sign_action`, where the next answer is due. -/
theorem Collecting.step {answers : List Answer} (hc : Collecting sdk user b turns tr w₁ answers)
    (hto : SignedTo w₁ w answers.length) (hpayload : w.payload.Represents .idle)
    (hcomm : w.Comm) :
    Idle w ∧ answers.length < b.actions.length ∧
      (app sdk).step w (.apdu (some b.signCommand) env) =
        (if (Hyperliquid.signAction sdk env w).ret < 0
          then { (Hyperliquid.signAction sdk env w).world with running := false }
          else (Hyperliquid.signAction sdk env w).world,
          (Hyperliquid.signAction sdk env w).events) := by
  have hon : w.commEnabled = true := by
    rw [hcomm, hto.review]
    rfl
  have hpos : 0 < w.ctx.actionIndex := by
    rw [hto.ctx]
    exact hto.pos
  have hpath : SamePath sdk w.signing b.path := hto.signing ▸ hc.reviewed.path
  have hstep : (app sdk).step w (.apdu (some b.signCommand) env) = _ :=
    appMainStep_sign hto.running hon
  rw [handlerSignAction_samePath hpos hpath] at hstep
  exact ⟨⟨hto.running, hon, hto.review, hpayload⟩, hc.reviewed.stores.actionCount ▸ hto.lt, hstep⟩

/-- A request to sign in the loop. -/
theorem follows_signing {answers : List Answer}
    (hc : Collecting sdk user b turns tr w₁ answers)
    (hturn : turns.length = b.commands.length + 1 + answers.length)
    (hto : SignedTo w₁ w answers.length) (hpayload : w.payload.Represents .idle)
    (hcomm : w.Comm) :
    Follows sdk user b w₀ (turns ++ [env])
      (tr ++ ((app sdk).step w (.apdu (some b.signCommand) env)).2)
      (Host.hear (.signing answers) env ((app sdk).step w (.apdu (some b.signCommand) env)).2)
      ((app sdk).step w (.apdu (some b.signCommand) env)).1 := by
  obtain ⟨hidle, hlt, hstep⟩ := hc.step hto hpayload hcomm
  have hnone : ∀ e ∈ ([] : List Event), e.isSignature = false :=
    fun e he => absurd he List.not_mem_nil
  rw [hstep]
  by_cases hsend : 0 ≤ env.send
  · have hfollows := follows_signAction w₀ hc hturn hlt hto.ctx hto.signing hidle hsend hnone
    rw [List.append_nil] at hfollows
    rw [if_neg (by rw [signAction_ret]; omega)]
    exact hfollows
  · have hraised : Host.hear (.signing answers) env (Hyperliquid.signAction sdk env w).events =
        .raised := by
      show Host.collect answers (answered env _) = .raised
      rw [answered_unsent hsend]
      rfl
    have habandoned := abandoned_signAction env hc hturn hlt hto.ctx hto.signing hnone
    rw [List.append_nil] at habandoned
    rw [hraised]
    exact habandoned

/-- One turn. -/
theorem follows_step (h : Understands sdk) (hb : b.Allowed) {inputs : List Input}
    (hw₀ : Idle ((app sdk).state inputs)) (c : Host × World) (env : Env)
    (hreach : (app sdk).Reachable c.2)
    (hfollows : Follows sdk user b ((app sdk).state inputs) turns tr c.1 c.2) :
    Follows sdk user b ((app sdk).state inputs) (turns ++ [env])
      (tr ++ ((conversation sdk user b inputs).step c env).2)
      ((conversation sdk user b inputs).step c env).1.1
      ((conversation sdk user b inputs).step c env).1.2 := by
  obtain ⟨k, w⟩ := c
  obtain ⟨is, rfl⟩ := hreach
  have hcomm : ((app sdk).state is).Comm := (app_refines sdk).inv_state is
  have hinv : SessionInv ((app sdk).state is).ctx := sessionInv_state sdk is
  have hpayload : ((app sdk).state is).PayloadOk := payloadOk_state sdk is
  cases k with
  | storing cmd queue => exact follows_storing hfollows hpayload
  | asking => exact follows_asking h hb hw₀ hfollows
  | reviewing screen => exact follows_reviewing hfollows hinv
  | signing answers =>
    obtain ⟨w₁, hc, hturn, hto, hidle⟩ := hfollows
    exact follows_signing hc hturn hto hidle hcomm
  | done answers =>
    obtain ⟨w₁, hc, hdone⟩ := hfollows
    exact ⟨w₁, hc.append [env] fun e he => absurd he List.not_mem_nil, hdone⟩
  | raised =>
    have habandoned : Abandoned sdk user b turns tr := hfollows
    exact habandoned.append [env]

variable (user) in
/-- The invariant of every conversation. -/
theorem follows_conversation (h : Understands sdk) (hb : b.Allowed) {inputs : List Input}
    (hw₀ : Idle ((app sdk).state inputs)) (turns : List Env) :
    (app sdk).Reachable ((conversation sdk user b inputs).state turns).2 ∧
      Follows sdk user b ((app sdk).state inputs) turns
        ((conversation sdk user b inputs).trace turns)
        ((conversation sdk user b inputs).state turns).1
        ((conversation sdk user b inputs).state turns).2 := by
  have hreach : ∀ turns, (app sdk).Reachable ((conversation sdk user b inputs).state turns).2 :=
    Machine.converse_reachable (app sdk) (host user b) (.next b.commands) inputs
  refine ⟨hreach turns, ?_⟩
  induction turns using List.reverseRecOn with
  | nil => exact follows_next ⟨[], rfl, rfl, rfl, rfl⟩
  | append_singleton turns env ih =>
    rw [Machine.state_snoc, Machine.trace_snoc]
    exact follows_step h hb hw₀ _ env (hreach turns) ih

/-! ## 5. The end of a conversation -/

/-- The turns that are left at most, with `n` actions. -/
def Host.rank (n : Nat) : Host → Nat
  | .storing _ queue => queue.length + 2 + n
  | .asking => 1 + n
  | .reviewing _ => n
  | .signing answers => n - answers.length
  | .done _ => 0
  | .raised => 0

theorem rank_next (n : Nat) (queue : List Command) :
    (Host.next queue).rank n = queue.length + 1 + n := by
  cases queue with
  | nil =>
    rw [List.length_nil, Nat.zero_add]
    rfl
  | cons cmd queue => rfl

theorem rank_collect (n : Nat) (answers : List Answer) (data : Option Bytes) :
    (Host.collect answers data).rank n ≤ n - answers.length - 1 := by
  unfold Host.collect
  split
  · exact Nat.zero_le _
  · split
    · show n - (answers ++ [_]).length ≤ _
      rw [List.length_append, List.length_singleton]
      omega
    · exact Nat.zero_le _

theorem rank_step (inputs : List Input) (n : Nat) (c : Host × World) (env : Env) :
    ((conversation sdk user b inputs).step c env).1.1.rank n ≤ c.1.rank n - 1 := by
  obtain ⟨k, w⟩ := c
  cases k with
  | storing cmd queue =>
    show (if (answered env _).isSome then Host.next queue else Host.raised).rank n ≤
      queue.length + 2 + n - 1
    split
    · rw [rank_next]
      omega
    · exact Nat.zero_le _
  | asking =>
    show (Host.hear .asking env _).rank n ≤ 1 + n - 1
    unfold Host.hear
    dsimp only
    split
    · show n ≤ _
      omega
    · exact Nat.zero_le _
  | reviewing screen => exact rank_collect n [] _
  | signing answers => exact rank_collect n answers _
  | done answers => exact Nat.zero_le _
  | raised => exact Nat.zero_le _

end

/-- Every conversation ends: after one turn for each command, one for the first request and one
for each action, at the latest, the client is done or has raised an exception. -/
theorem conversation_ends (sdk : Sdk) (h : Understands sdk) (user : UiCtx → Bool) (b : Batch)
    (hb : b.Allowed) (inputs : List Input) (hidle : Idle ((app sdk).state inputs))
    (turns : List Env) (hturns : b.commands.length + 1 + b.actions.length ≤ turns.length) :
    (∃ answers, ((conversation sdk user b inputs).state turns).1 = .done answers) ∨
      ((conversation sdk user b inputs).state turns).1 = .raised := by
  obtain ⟨⟨is, hreach⟩, hfollows⟩ := follows_conversation user h hb hidle turns
  have hinv : SessionInv ((conversation sdk user b inputs).state turns).2.ctx :=
    hreach ▸ sessionInv_state sdk is
  have hrank := (conversation sdk user b inputs).rank_state (fun c => c.1.rank b.actions.length)
    (rank_step inputs b.actions.length) turns
  have hinit : ((conversation sdk user b inputs).init).1.rank b.actions.length =
      b.commands.length + 1 + b.actions.length := rank_next b.actions.length b.commands
  rw [hinit, Nat.sub_eq_zero_of_le hturns] at hrank
  generalize (conversation sdk user b inputs).state turns = c at hfollows hrank hinv
  obtain ⟨k, w⟩ := c
  cases k with
  | storing cmd queue =>
    have hle : queue.length + 2 + b.actions.length ≤ 0 := hrank
    omega
  | asking =>
    have hle : 1 + b.actions.length ≤ 0 := hrank
    omega
  | reviewing screen =>
    have hpos := reviewing_pos hfollows hinv
    have hle : b.actions.length ≤ 0 := hrank
    omega
  | signing answers =>
    obtain ⟨w₁, hc, -, hto, -⟩ := hfollows
    have hle : b.actions.length - answers.length ≤ 0 := hrank
    have hlt := hto.lt
    rw [hc.reviewed.stores.actionCount] at hlt
    omega
  | done answers => exact .inl ⟨answers, rfl⟩
  | raised => exact .inr rfl

/-- Every conversation, from every state of the application in which a command can be taken, with
whatever primitives and whatever user.

While the client holds some answers and goes on, or when it is done, they are answers to the first
actions of its batch, in order: each was made from a signature of its action, under the metadata of
the batch and for its path, and tells how many actions remain.  Before, the user had confirmed a
review that showed exactly the batch.  When the client is done it has all answers, and the
application has forgotten the batch and is ready for the next one.

In any case the signatures that were made are those of some first actions of the batch, each once,
and there is none without such a review. -/
theorem conversation_agrees (sdk : Sdk) (h : Understands sdk) (user : UiCtx → Bool) (b : Batch)
    (hb : b.Allowed) (inputs : List Input) (hidle : Idle ((app sdk).state inputs))
    (turns : List Env) :
    let c := (conversation sdk user b inputs).state turns
    let tr := (conversation sdk user b inputs).trace turns
    (∀ answers, c.1 = .signing answers → (∃ w₁, Collecting sdk user b turns tr w₁ answers) ∧
      0 < answers.length ∧ answers.length < b.actions.length) ∧
    (∀ answers, c.1 = .done answers → (∃ w₁, Collecting sdk user b turns tr w₁ answers) ∧
      answers.length = b.actions.length ∧ c.2.ctx = {} ∧ Idle c.2) ∧
    Abandoned sdk user b turns tr := by
  intro c tr
  have hfollows : Follows sdk user b ((app sdk).state inputs) turns tr c.1 c.2 :=
    (follows_conversation user h hb hidle turns).2
  refine ⟨?_, ?_, ?_⟩
  · intro answers hsigning
    rw [hsigning] at hfollows
    obtain ⟨w₁, hc, -, hto, -⟩ := hfollows
    exact ⟨⟨w₁, hc⟩, hto.pos, hc.reviewed.stores.actionCount ▸ hto.lt⟩
  · intro answers hdone
    rw [hdone] at hfollows
    obtain ⟨w₁, hc, hcount, hctx, hw⟩ := hfollows
    exact ⟨⟨w₁, hc⟩, hcount, hctx, hw⟩
  · cases hc : c.1 with
    | storing cmd queue =>
      rw [hc] at hfollows
      obtain ⟨sent, -, -, -, hmade⟩ := hfollows
      exact .inl hmade
    | asking =>
      rw [hc] at hfollows
      obtain ⟨sent, -, -, -, hmade⟩ := hfollows
      exact .inl hmade
    | reviewing screen =>
      rw [hc] at hfollows
      exact .inl hfollows.unsigned
    | signing answers =>
      rw [hc] at hfollows
      obtain ⟨w₁, hcollecting, -⟩ := hfollows
      exact hcollecting.abandoned
    | done answers =>
      rw [hc] at hfollows
      obtain ⟨w₁, hcollecting, -⟩ := hfollows
      exact hcollecting.abandoned
    | raised =>
      rw [hc] at hfollows
      exact hfollows

/-- A fee for the builder, and an order with its stop loss. -/
def stopLossBatch : Batch where
  metadata := ethMetadata .order
  sig := List.replicate 71 7
  actions :=
    [⟨1772546706895, .approveBuilderFee ⟨42161, chars "0.1000%", builder⟩⟩, orderWithStopLoss]
  path := UInt8.ofNat bip32Path.length :: bip32Path.flatMap fun level => Msgpack.beBytes 4 level

theorem stopLossBatch_allowed : stopLossBatch.Allowed := by
  have hprice : Numeric (chars "2000.5") := ⟨by decide +kernel, by decide +kernel⟩
  have hsize : Numeric (chars "0.01") := ⟨by decide +kernel, by decide +kernel⟩
  have hstop : Numeric (chars "1800") := ⟨by decide +kernel, by decide +kernel⟩
  have hfee : Numeric (chars "0.1000%") := ⟨by decide +kernel, by decide +kernel⟩
  refine ⟨⟨by decide, by decide +kernel, by decide +kernel⟩, ⟨by decide, by decide⟩, ?_⟩
  intro s hs
  rcases List.mem_cons.mp hs with rfl | hs
  · exact hfee
  · obtain rfl := List.mem_singleton.mp hs
    refine ⟨by decide, ?_⟩
    intro o ho
    rcases List.mem_cons.mp ho with rfl | ho
    · exact ⟨rfl, trivial, hprice, hsize, fun t ht => by cases ht⟩
    · obtain rfl := List.mem_singleton.mp ho
      exact ⟨rfl, trivial, hstop, hsize, fun t ht => by cases ht; exact hstop⟩

theorem idle_init : Idle ((app sdk).state []) := ⟨rfl, rfl, rfl, rfl⟩

/-- A user who confirms. -/
theorem conversation_agrees_stopLoss :
    ∃ answers, ((conversation sdk (fun _ => true) stopLossBatch []).state
        (List.replicate 6 env)).1 = .done answers ∧
      (∃ w₁, Collecting sdk (fun _ => true) stopLossBatch (List.replicate 6 env)
        ((conversation sdk (fun _ => true) stopLossBatch []).trace (List.replicate 6 env)) w₁
        answers) ∧
      answers.length = 2 := by
  obtain ⟨-, hdone, -⟩ := conversation_agrees sdk sdk_understands (fun _ => true) stopLossBatch
    stopLossBatch_allowed [] idle_init (List.replicate 6 env)
  cases hhost : ((conversation sdk (fun _ => true) stopLossBatch []).state
      (List.replicate 6 env)).1 with
  | done answers =>
    obtain ⟨hcollecting, hcount, -⟩ := hdone answers hhost
    exact ⟨answers, rfl, hcollecting, hcount⟩
  | _ =>
    have hrun : ((conversation sdk (fun _ => true) stopLossBatch []).state
        (List.replicate 6 env)).1.isDone = true := by decide +kernel
    rw [hhost] at hrun
    cases hrun

end Client

end Hyperliquid

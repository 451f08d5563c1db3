/-
# One batch after the other

With primitives that work, a conversation is all or nothing: either every action of the batch is
signed, or none is, and in both cases the application is ready for the next batch
(`conversation_ready`).  So the batches of a series do not touch each other: each is signed if and
only if it would be signed as the first one after the start (`series_all_or_nothing`).

The argument is about the turn in which the client gives up.  While it stores, the command that
fails is the last one of its payload, and leaves the transfer idle (`storing_fails`); afterwards
only the review can be missing, or refused.
-/
import Hyperliquid.Completion

namespace Hyperliquid.Client

open Lib

/-! ## 1. A command that stores is refused -/

/-- A command can be taken, nothing is in progress, and no session is being signed. -/
structure Ready (w : World) : Prop where
  idle : Idle w
  unstarted : w.ctx.actionIndex = 0

section

variable {sdk : Sdk} {w w₁ : World} {sent : List (Command × Env)} {cmd : Command}
  {queue : List Command} {env : Env}

/-- Of the commands that bring a payload, only the last one can be refused, and it leaves what the
handler has left. -/
theorem last_of_refused {handler : PayloadHandler} {payload : Bytes}
    (hsplit : sent.map Prod.fst ++ cmd :: queue = chunkedCommands handler payload) (hw : Idle w)
    (hpos : 0 < payload.length) (hfits : payload.length ≤ payloadBufferSize)
    (hstored : storedAfter sdk w sent = some w₁) (hsend : 0 ≤ env.send)
    (hfail : answered env ((app sdk).step w₁ (.apdu (some cmd) env)).2 = none) :
    ∃ env' ctx' events,
      runPayloadHandler sdk env' handler payload w.ctx = .ok (false, ctx', events) ∧
      ((app sdk).step w₁ (.apdu (some cmd) env)).1 = { w with payload := {}, ctx := ctx' } := by
  obtain ⟨hsends, -, hrun₁⟩ := storedAfter_iff.mp hstored
  obtain ⟨hfull, hall⟩ := sent_completed (P := fun e => 0 ≤ e.send) hsplit hsends hsend
  obtain ⟨env', ret, ctx', events, -, hrun, hdelivered⟩ := delivered_chunks sdk hfull hw hpos hfits
  obtain ⟨hstate, hreplies⟩ := hdelivered hall
  have hinputs : commandInputs (sent ++ (cmd, env) :: queue.map fun c => (c, env)) =
      commandInputs sent ++ .apdu (some cmd) env ::
        commandInputs (queue.map fun c => (c, env)) := List.map_append
  have hlength : ((app sdk).replies w (commandInputs sent)).length = sent.length := by
    rw [Machine.length_replies, commandInputs, List.length_map]
  rw [hinputs, Machine.replies_append, hrun₁, Machine.replies_cons, List.length_append,
    List.length_cons, List.length_map] at hreplies
  have hat : (List.replicate (sent.length + (queue.length + 1) - 1)
      [Event.response [] .success] ++
        [events ++ [.response [] (if ret then .success else .incorrectData)]])[sent.length]? =
      some ((app sdk).step w₁ (.apdu (some cmd) env)).2 := by
    rw [← hreplies, List.getElem?_append_right hlength.le, hlength, Nat.sub_self]
    rfl
  cases queue with
  | cons c cs =>
    have hgood : ((app sdk).step w₁ (.apdu (some cmd) env)).2 = [.response [] .success] := by
      rw [List.getElem?_append_left (by rw [List.length_replicate, List.length_cons]; omega),
        List.getElem?_replicate, if_pos (by rw [List.length_cons]; omega)] at hat
      exact (Option.some.inj hat).symm
    rw [hgood] at hfail
    have hnone := (answered_response [] .success (fun e he => absurd he List.not_mem_nil) []
      hsend).symm.trans hfail
    cases hnone
  | nil =>
    have hlast : ((app sdk).step w₁ (.apdu (some cmd) env)).2 =
        events ++ [.response [] (if ret then .success else .incorrectData)] := by
      rw [List.getElem?_append_right (by rw [List.length_replicate]; exact Nat.le_refl _),
        List.length_replicate, List.length_nil, Nat.zero_add, Nat.add_sub_cancel, Nat.sub_self]
        at hat
      exact (Option.some.inj hat).symm
    have hret : ret = false := by
      cases ret with
      | false => rfl
      | true =>
        rw [hlast] at hfail
        have hnone := (answered_response [] .success (responseOf_payload hrun) []
          hsend).symm.trans hfail
        cases hnone
    rw [hret] at hrun
    refine ⟨env', ctx', events, hrun, ?_⟩
    rw [hinputs] at hstate
    rw [← hstate, ← hrun₁]
    exact (congrArg Prod.fst (Machine.runFrom_snoc (app sdk) w (commandInputs sent) _)).symm

/-- A payload does not start a session. -/
theorem runPayloadHandler_unstarted {handler : PayloadHandler} {payload : Bytes}
    {ctx ctx' : HlContext} {ret : Bool} {events : List Event}
    (hrun : runPayloadHandler sdk env handler payload ctx = .ok (ret, ctx', events))
    (hzero : ctx.actionIndex = 0) : ctx'.actionIndex = 0 := by
  cases runPayloadHandler_effect hrun with
  | unchanged => exact hzero
  | appended a ctx' _ happended =>
    obtain ⟨-, -, hindex⟩ := happended
    exact hindex.trans hzero
  | loaded => rfl
  | aborted => rfl

/-- A list of payloads is sent: the command that fails leaves the application ready. -/
theorem storing_fails {payloads : List (PayloadHandler × Bytes)}
    (hpayloads : ∀ p ∈ payloads, 0 < p.2.length ∧ p.2.length ≤ payloadBufferSize)
    (hsplit : sent.map Prod.fst ++ cmd :: queue =
      payloads.flatMap fun p => chunkedCommands p.1 p.2) (hw : Ready w)
    (hstored : storedAfter sdk w sent = some w₁) (hsend : 0 ≤ env.send)
    (hfail : answered env ((app sdk).step w₁ (.apdu (some cmd) env)).2 = none) :
    Ready ((app sdk).step w₁ (.apdu (some cmd) env)).1 := by
  induction payloads generalizing w sent with
  | nil =>
    rw [List.flatMap_nil, List.append_eq_nil_iff] at hsplit
    cases hsplit.2
  | cons p payloads ih =>
    obtain ⟨⟨hpos, hfits⟩, hothers⟩ := List.forall_mem_cons.mp hpayloads
    rw [List.flatMap_cons] at hsplit
    -- either all commands of the first payload were sent, or it is one of them that fails
    have hcases : (∃ more, sent.map Prod.fst = chunkedCommands p.1 p.2 ++ more ∧
        more ++ cmd :: queue = payloads.flatMap fun p => chunkedCommands p.1 p.2) ∨
        ∃ queue', sent.map Prod.fst ++ cmd :: queue' = chunkedCommands p.1 p.2 := by
      rcases List.append_eq_append_iff.mp hsplit with ⟨more, hfirst, hrest⟩ | ⟨more, hfirst, hrest⟩
      · cases more with
        | nil =>
          refine .inl ⟨[], ?_, ?_⟩
          · rw [hfirst]
            simp
          · exact hrest
        | cons c more =>
          obtain ⟨rfl, -⟩ := List.cons.inj hrest
          exact .inr ⟨more, hfirst.symm⟩
      · exact .inl ⟨more, hfirst, hrest.symm⟩
    rcases hcases with ⟨more, hmore, hrest⟩ | ⟨queue', hlast⟩
    · obtain ⟨first, others, rfl, hfirst, rfl⟩ := List.map_eq_append_iff.mp hmore
      obtain ⟨w₂, hstored₂, hstored⟩ := storedAfter_append.mp hstored
      obtain ⟨-, env', ctx', events, -, hrun, rfl⟩ :=
        (storedAfter_payload hfirst hw.idle hpos hfits).mp hstored₂
      exact ih hothers hrest ⟨hw.idle.handed ctx', runPayloadHandler_unstarted hrun hw.unstarted⟩
        hstored
    · obtain ⟨env', ctx', events, hrun, hstate⟩ :=
        last_of_refused hlast hw.idle hpos hfits hstored hsend hfail
      rw [hstate]
      exact ⟨hw.idle.handed ctx', runPayloadHandler_unstarted hrun hw.unstarted⟩

end

/-! ## 2. The turn in which the client gives up -/

/-- Nothing was signed, and the application is ready. -/
structure GivenUp (tr : List Event) (w : World) : Prop where
  ready : Ready w
  unsigned : signaturesMade tr = []

section

variable {sdk : Sdk} {user : UiCtx → Bool} {b : Batch} {w w₀ : World} {turns : List Env}
  {tr : List Event} {env : Env}

/-- The payloads of a batch are those of its commands, and they fit. -/
theorem commands_payloads (h : Understands sdk) (hb : b.Allowed) :
    ∃ payloads : List (PayloadHandler × Bytes),
      (b.commands = payloads.flatMap fun p => chunkedCommands p.1 p.2) ∧
      ∀ p ∈ payloads, 0 < p.2.length ∧ p.2.length ≤ payloadBufferSize := by
  refine ⟨(.parseActionMetadata, signedMetadata b.metadata b.sig) ::
    b.actions.map fun s => (.parseAction, s.serialize), ?_, ?_⟩
  · rw [List.flatMap_cons, List.flatMap_map]
    rfl
  · intro p hp
    rcases List.mem_cons.mp hp with rfl | hp
    · have hfits := length_signedMetadata_le b.metadata hb.sig
      refine ⟨List.length_pos_of_ne_nil
        (wellFormed_signedMetadata h hb.metadata hb.sig).nonempty, ?_⟩
      show (signedMetadata b.metadata b.sig).length ≤ payloadBufferSize
      rw [payloadBufferSize]
      omega
    · obtain ⟨s, -, rfl⟩ := List.mem_map.mp hp
      exact ⟨s.length_serialize_pos, s.length_serialize_le.trans (by decide)⟩

/-- A request to sign that shows no review signs nothing, and leaves the session as it is. -/
theorem ready_of_unreviewed (hidle : Idle w) (hzero : w.ctx.actionIndex = 0)
    (hsend : 0 ≤ env.send)
    (hraised : Host.hear .asking env
      ((app sdk).step w (.apdu (some b.signCommand) env)).2 = .raised) :
    Ready ((app sdk).step w (.apdu (some b.signCommand) env)).1 := by
  have hstep : (app sdk).step w (.apdu (some b.signCommand) env) = _ :=
    appMainStep_sign hidle.running hidle.on
  have hanswer := handlerSignAction_answer sdk env b.path w
  rw [hstep] at hraised ⊢
  generalize handlerSignAction sdk env b.path w = r at hanswer hraised ⊢
  cases hanswer with
  | refused sw _ =>
    show Ready (if env.send < 0 then _ else w)
    rw [if_neg (Int.not_lt.mpr hsend)]
    exact ⟨hidle, hzero⟩
  | unreviewed signing events _ _ _ =>
    show Ready (if env.send < 0 then _ else { w with signing := signing })
    rw [if_neg (Int.not_lt.mpr hsend)]
    exact ⟨⟨hidle.running, hidle.on, hidle.review, hidle.payload⟩, hzero⟩
  | reviewed signing screen _ _ _ _ =>
    dsimp only at hraised
    rw [hear_review] at hraised
    cases hraised
  | signs hpos => exact absurd hzero (Nat.ne_of_gt hpos)

/-- If a turn with primitives that work leads to an exception, nothing was signed, and the
application is ready. -/
theorem givenUp_step (hcmp : sdk.cmp.Compact) (h : Understands sdk) (hb : b.Allowed)
    {inputs : List Input} (hw₀ : Ready ((app sdk).state inputs)) (hworks : Works sdk b env)
    (c : Host × World) (hreach : (app sdk).Reachable c.2)
    (hfollows : Follows sdk user b ((app sdk).state inputs) turns tr c.1 c.2)
    (hgiven : c.1 = .raised → GivenUp tr c.2)
    (hraised : ((conversation sdk user b inputs).step c env).1.1 = .raised) :
    GivenUp (tr ++ ((conversation sdk user b inputs).step c env).2)
      ((conversation sdk user b inputs).step c env).1.2 := by
  obtain ⟨k, w⟩ := c
  obtain ⟨is, rfl⟩ := hreach
  have hcomm : ((app sdk).state is).Comm := (app_refines sdk).inv_state is
  have hinv : SessionInv ((app sdk).state is).ctx := sessionInv_state sdk is
  cases k with
  | storing cmd queue =>
    obtain ⟨sent, hsent, -, hstored, hmade⟩ := hfollows
    obtain ⟨payloads, hpayloads, hfit⟩ := commands_payloads h hb
    have hcmd : cmd ∈ b.commands := by
      rw [← hsent]
      simp
    by_cases hgood :
        (answered env ((app sdk).step ((app sdk).state is) (.apdu (some cmd) env)).2).isSome = true
    · exact absurd ((if_pos hgood).symm.trans hraised) (next_ne_raised queue)
    · refine ⟨storing_fails hfit (hsent.trans hpayloads) hw₀ hstored hworks.send
        (Option.not_isSome_iff_eq_none.mp hgood), ?_⟩
      rw [signaturesMade_append, hmade]
      exact signaturesMade_eq_nil (appMainStep_unsigned (commands_ins cmd hcmd)
        (payloadOk_state sdk is))
  | asking =>
    obtain ⟨sent, hsent, -, hstored, hmade⟩ := hfollows
    rw [List.append_nil] at hsent
    obtain ⟨hidle, hbatch, -⟩ := stored_batch h hb hsent hw₀.idle hstored
    refine ⟨ready_of_unreviewed hidle hbatch.unstarted hworks.send hraised, ?_⟩
    have hstep : (app sdk).step ((app sdk).state is) (.apdu (some b.signCommand) env) = _ :=
      appMainStep_sign hidle.running hidle.on
    show signaturesMade (tr ++ ((app sdk).step _ (.apdu (some b.signCommand) env)).2) = []
    rw [hstep, signaturesMade_append, hmade]
    exact signaturesMade_eq_nil (handlerSignAction_first sdk env b.path hbatch.unstarted).2
  | reviewing screen =>
    have hreviewing : Reviewing sdk b turns tr screen ((app sdk).state is) := hfollows
    have hstep : (conversation sdk user b inputs).step (.reviewing screen, (app sdk).state is)
        env = ((Host.hear (.reviewing screen) env
          (reviewChoice sdk env (user screen) ((app sdk).state is)).2,
          (reviewChoice sdk env (user screen) ((app sdk).state is)).1),
          (reviewChoice sdk env (user screen) ((app sdk).state is)).2) := by
      rw [← hreviewing.step]
      rfl
    rw [hstep] at hraised ⊢
    cases huser : user screen with
    | false =>
      refine ⟨⟨⟨hreviewing.running, rfl, rfl, hreviewing.payload⟩, rfl⟩, ?_⟩
      rw [signaturesMade_append, hreviewing.unsigned]
      rfl
    | true =>
      rw [huser] at hraised
      exact absurd hraised (hreviewing.signs hcmp hinv huser hworks)
  | signing answers =>
    obtain ⟨w₁, hc, -, hto, hpayload⟩ := hfollows
    exact absurd hraised (hc.signs hcmp hto hpayload hcomm hworks)
  | done answers => cases hraised
  | raised => exact (List.append_nil tr).symm ▸ hgiven rfl

/-- A conversation with primitives that work is given up before anything is signed. -/
theorem conversation_givenUp (hcmp : sdk.cmp.Compact) (h : Understands sdk) (hb : b.Allowed)
    {inputs : List Input} (hw₀ : Ready ((app sdk).state inputs)) (turns : List Env)
    (hall : ∀ e ∈ turns, Works sdk b e)
    (hraised : ((conversation sdk user b inputs).state turns).1 = .raised) :
    GivenUp ((conversation sdk user b inputs).trace turns)
      ((conversation sdk user b inputs).state turns).2 := by
  induction turns using List.reverseRecOn with
  | nil => exact absurd hraised (next_ne_raised b.commands)
  | append_singleton turns env ih =>
    obtain ⟨hfirst, hlast⟩ := List.forall_mem_append.mp hall
    obtain ⟨hreach, hfollows⟩ := follows_conversation user h hb hw₀.idle turns
    rw [Machine.state_snoc] at hraised
    rw [Machine.state_snoc, Machine.trace_snoc]
    exact givenUp_step hcmp h hb hw₀ (hlast env List.mem_cons_self) _ hreach hfollows (ih hfirst)
      hraised

end

/-! ## 3. A series of batches -/

/-- What has become of a batch: the client of its conversation, and what happened. -/
structure Result where
  host : Host
  trace : List Event

/-- The batches one after the other, each with the surroundings of its turns. -/
def series (sdk : Sdk) (user : UiCtx → Bool) : World → List (Batch × List Env) → World × List Result
  | w, [] => (w, [])
  | w, (b, turns) :: rest =>
    let talk := (app sdk).converse (host user b) (.next b.commands) w
    ((series sdk user (talk.state turns).2 rest).1,
      ⟨(talk.state turns).1, talk.trace turns⟩ ::
        (series sdk user (talk.state turns).2 rest).2)

/-- All or nothing: the batch was signed in full under a review of it that the user confirmed, if it
is accepted when it is the first one after the start; otherwise nothing was signed. -/
def AllOrNothing (sdk : Sdk) (user : UiCtx → Bool) (b : Batch) (turns : List Env) (r : Result) :
    Prop :=
  (Accepted sdk user b ((app sdk).state []) → ∃ answers w₁, r.host = .done answers ∧
    Collecting sdk user b turns r.trace w₁ answers ∧ answers.length = b.actions.length ∧
    signaturesMade r.trace = b.actions.map SetAction.sent) ∧
  (¬ Accepted sdk user b ((app sdk).state []) → r.host = .raised ∧ signaturesMade r.trace = [])

/-- One batch. -/
theorem allOrNothing_conversation {sdk : Sdk} (hcmp : sdk.cmp.Compact) (h : Understands sdk)
    (user : UiCtx → Bool) {b : Batch} (hb : b.Allowed) {inputs : List Input}
    (hw₀ : Ready ((app sdk).state inputs)) (turns : List Env)
    (hturns : b.commands.length + 1 + b.actions.length ≤ turns.length)
    (hworks : ∀ env ∈ turns, Works sdk b env) :
    AllOrNothing sdk user b turns ⟨((conversation sdk user b inputs).state turns).1,
        (conversation sdk user b inputs).trace turns⟩ ∧
      Ready ((conversation sdk user b inputs).state turns).2 := by
  have hfresh : Accepted sdk user b ((app sdk).state inputs) ↔
      Accepted sdk user b ((app sdk).state []) := by
    constructor
    · rintro ⟨-, hpath, hactions, hconfirmed⟩
      exact ⟨rfl, hpath, hactions, hconfirmed⟩
    · rintro ⟨-, hpath, hactions, hconfirmed⟩
      exact ⟨hw₀.unstarted, hpath, hactions, hconfirmed⟩
  have hgiven : ((conversation sdk user b inputs).state turns).1 = .raised → GivenUp _ _ :=
    conversation_givenUp hcmp h hb hw₀ turns hworks
  have hends := conversation_ends sdk h user b hb inputs hw₀.idle turns hturns
  have hne : Accepted sdk user b ((app sdk).state inputs) →
      ((conversation sdk user b inputs).state turns).1 ≠ .raised :=
    fun haccepted => conversation_ne_raised hcmp h hb hw₀.idle haccepted turns hworks
  obtain ⟨-, hfollows⟩ := follows_conversation user h hb hw₀.idle turns
  rcases hends with ⟨answers, hdone⟩ | hraised
  · rw [hdone] at hfollows
    have haccepted := accepted_of_follows hw₀.unstarted hfollows
    obtain ⟨w₁, hc, hcount, hctx, hidle⟩ := hfollows
    refine ⟨⟨fun _ => ⟨answers, w₁, hdone, hc, hcount, ?_⟩, fun hno =>
      absurd (hfresh.mp haccepted) hno⟩, hidle, by rw [hctx]⟩
    show signaturesMade ((conversation sdk user b inputs).trace turns) = _
    rw [hc.made, hcount, List.take_of_length_le (by rw [List.length_map])]
  · obtain ⟨hready, hunsigned⟩ := hgiven hraised
    exact ⟨⟨fun haccepted => absurd hraised (hne (hfresh.mpr haccepted)),
      fun _ => ⟨hraised, hunsigned⟩⟩, hready⟩

/-- Every series of batches, with primitives that work and enough turns for each of them, from every
state of the application that is ready: each batch is signed in full, or not at all, and which of
the two does not depend on the batches before it; and the application is ready again. -/
theorem series_all_or_nothing (sdk : Sdk) (hcmp : sdk.cmp.Compact) (h : Understands sdk)
    (user : UiCtx → Bool) (batches : List (Batch × List Env))
    (hallowed : ∀ x ∈ batches, x.1.Allowed)
    (hturns : ∀ x ∈ batches, x.1.commands.length + 1 + x.1.actions.length ≤ x.2.length)
    (hworks : ∀ x ∈ batches, ∀ env ∈ x.2, Works sdk x.1 env) (inputs : List Input)
    (hready : Ready ((app sdk).state inputs)) :
    List.Forall₂ (fun x r => AllOrNothing sdk user x.1 x.2 r) batches
        (series sdk user ((app sdk).state inputs) batches).2 ∧
      Ready (series sdk user ((app sdk).state inputs) batches).1 := by
  induction batches generalizing inputs with
  | nil => exact ⟨.nil, hready⟩
  | cons x batches ih =>
    obtain ⟨b, turns⟩ := x
    obtain ⟨hb, hallowed⟩ := List.forall_mem_cons.mp hallowed
    obtain ⟨henough, hturns⟩ := List.forall_mem_cons.mp hturns
    obtain ⟨hfine, hworks⟩ := List.forall_mem_cons.mp hworks
    obtain ⟨hresult, hnext⟩ := allOrNothing_conversation hcmp h user hb hready turns henough hfine
    obtain ⟨is, hreach⟩ := (follows_conversation user h hb hready.idle turns).1
    have hready' : Ready ((app sdk).state is) := hreach ▸ hnext
    obtain ⟨hresults, hlast⟩ := ih hallowed hturns hworks is hready'
    rw [hreach] at hresults hlast
    exact ⟨.cons hresult hresults, hlast⟩

/-- Without a path, no batch is signed. -/
def pathlessBatch : Batch := { stopLossBatch with path := [] }

theorem pathlessBatch_refused (w : World) : ¬ Accepted sdk (fun _ => true) pathlessBatch w := by
  intro h
  obtain ⟨path, length, rest, hpath, -⟩ := h.path
  cases hpath

/-- The batch after it is signed. -/
theorem series_all_or_nothing_pathless : ∃ refused signed,
    (series sdk (fun _ => true) ((app sdk).state [])
      [(pathlessBatch, List.replicate 6 env), (stopLossBatch, List.replicate 6 env)]).2 =
        [refused, signed] ∧
      refused.host = .raised ∧ signaturesMade refused.trace = [] ∧
      signaturesMade signed.trace = stopLossBatch.actions.map SetAction.sent := by
  have hworks : ∀ b, b = pathlessBatch ∨ b = stopLossBatch →
      ∀ e ∈ List.replicate 6 env, Works sdk b e := by
    intro b hb e he
    rw [List.eq_of_mem_replicate he]
    rcases hb with rfl | rfl
    · exact ⟨by decide, by decide, rfl, rfl, rfl⟩
    · exact ⟨by decide, by decide, rfl, rfl, rfl⟩
  have hallowed : pathlessBatch.Allowed :=
    ⟨stopLossBatch_allowed.metadata, stopLossBatch_allowed.sig, stopLossBatch_allowed.actions⟩
  obtain ⟨hresults, -⟩ := series_all_or_nothing sdk Msgpack.shortest_compact sdk_understands
    (fun _ => true) [(pathlessBatch, List.replicate 6 env), (stopLossBatch, List.replicate 6 env)]
    (by
      intro x hx
      rcases List.mem_cons.mp hx with rfl | hx
      · exact hallowed
      · obtain rfl := List.mem_singleton.mp hx
        exact stopLossBatch_allowed)
    (by decide +kernel)
    (by
      intro x hx
      rcases List.mem_cons.mp hx with rfl | hx
      · exact hworks _ (.inl rfl)
      · obtain rfl := List.mem_singleton.mp hx
        exact hworks _ (.inr rfl))
    [] ⟨idle_init, rfl⟩
  generalize (series sdk (fun _ => true) ((app sdk).state []) _).2 = results at hresults ⊢
  rcases hresults with - | ⟨hrefused, hrest⟩
  rcases hrest with - | ⟨hsigned, hnil⟩
  cases hnil
  obtain ⟨hraised, hnone⟩ := hrefused.2 (pathlessBatch_refused _)
  obtain ⟨answers, w₁, -, -, -, hmade⟩ := hsigned.1 stopLossBatch_accepted
  exact ⟨_, _, rfl, hraised, hnone, hmade⟩

end Hyperliquid.Client

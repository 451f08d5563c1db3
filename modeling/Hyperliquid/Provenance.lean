/-
# Where a signed action comes from

A signature names an action and an index.  Here it is traced back to bytes: in the layered
application the payloads that were delivered are events, and the session is told from them alone.
Since the last reset, the metadata are those of the one accepted metadata payload, the list of
actions is what the accepted action payloads spell, in the order they came, and the signatures are
of a prefix of that list (`History`).

So the action that is signed at an index is the one spelled by the accepted payload at that index,
and over a whole run the signed actions are a subsequence of the delivered ones: none is signed
that was not delivered, none twice for one delivery, and none out of order
(`signatures_delivered`).
-/
import Hyperliquid.Layers

namespace Hyperliquid

open Lib

/-! ## 1. The history that a trace tells -/

def LayerEvent.isReset : LayerEvent → Bool
  | .seen .ctxReset => true
  | _ => false

/-- The events after the last reset of the session. -/
def sinceReset (tr : List LayerEvent) : List LayerEvent :=
  tr.foldl (fun since e => if e.isReset then [] else since ++ [e]) []

/-- The payloads that a handler accepted. -/
def acceptedPayloads (handler : PayloadHandler) (tr : List LayerEvent) : List Bytes :=
  tr.filterMap fun
    | .delivered h payload true => if h = handler then some payload else none
    | _ => none

/-- The actions that were signed. -/
def signedActions (tr : List LayerEvent) : List Action :=
  tr.filterMap fun
    | .seen (.signature _ a _ _) => some a
    | _ => none

/-- The payload is this action under these metadata. -/
def SpellsAction (sdk : Sdk) (metadata : Option ActionMetadata) (payload : Bytes) (a : Action) :
    Prop :=
  ParsesAction sdk { metadata := metadata } payload a

/-- The payload is metadata that passed the check. -/
def SpellsMetadata (sdk : Sdk) (payload : Bytes) (m : ActionMetadata) : Prop :=
  ∃ env, AuthenticMetadata sdk env payload m

/-- The actions are what the payloads accepted since the reset spell, and the metadata too. -/
structure Spelled (sdk : Sdk) (tr : List LayerEvent) (md : Option ActionMetadata)
    (elems : List Action) : Prop where
  metadata : List.Forall₂ (SpellsMetadata sdk)
    (acceptedPayloads .parseActionMetadata (sinceReset tr)) md.toList
  actions : List.Forall₂ (SpellsAction sdk md)
    (acceptedPayloads .parseAction (sinceReset tr)) elems

/-- The signed actions, and after them those that are left, are among the delivered ones in their
order. -/
def DeliveredInOrder (sdk : Sdk) (tr : List LayerEvent) (left : List Action) : Prop :=
  ∃ delivered,
    List.Forall₂ (fun payload a => ∃ md, SpellsAction sdk md payload a)
      (acceptedPayloads .parseAction tr) delivered ∧
    (signedActions tr ++ left).Sublist delivered

/-- A signature is of the action at its index, after those before it, under the one metadata
payload since the reset. -/
def SignedAsDelivered (sdk : Sdk) (tr : List LayerEvent) : LayerEvent → Prop
  | .seen (.signature i a now _) =>
    (∃ m, now.metadata = some m) ∧
      Spelled sdk tr now.metadata now.actions.elems ∧ now.actions.elems[i]? = some a ∧
      signedActions (sinceReset tr) = now.actions.elems.take i
  | _ => True

section

variable {tr : List LayerEvent} {e : LayerEvent} {handler : PayloadHandler}

variable (tr) in
theorem sinceReset_snoc (h : e.isReset = false) :
    sinceReset (tr ++ [e]) = sinceReset tr ++ [e] := by
  simp [sinceReset, h]

@[simp] theorem sinceReset_reset : sinceReset (tr ++ [.seen .ctxReset]) = [] := by
  simp [sinceReset, LayerEvent.isReset]

@[simp] theorem acceptedPayloads_append (xs ys : List LayerEvent) :
    acceptedPayloads handler (xs ++ ys) =
      acceptedPayloads handler xs ++ acceptedPayloads handler ys :=
  List.filterMap_append

@[simp] theorem signedActions_append (xs ys : List LayerEvent) :
    signedActions (xs ++ ys) = signedActions xs ++ signedActions ys :=
  List.filterMap_append

@[simp] theorem acceptedPayloads_seen (e : Event) : acceptedPayloads handler [.seen e] = [] := rfl

@[simp] theorem acceptedPayloads_delivered (h : PayloadHandler) (payload : Bytes) :
    acceptedPayloads handler [.delivered h payload true] =
      if h = handler then [payload] else [] := by
  by_cases hh : h = handler
  · simp [acceptedPayloads, hh]
  · simp [acceptedPayloads, hh]

@[simp] theorem signedActions_delivered (h : PayloadHandler) (payload : Bytes) (accepted : Bool) :
    signedActions [.delivered h payload accepted] = [] := rfl

@[simp] theorem signedActions_reset : signedActions [.seen .ctxReset] = [] := rfl

@[simp] theorem signedActions_signature (i : Nat) (a : Action) (now : Snapshot)
    (sig : Signature) : signedActions [.seen (.signature i a now sig)] = [a] := rfl

end

/-! ## 2. What one event does to the session -/

/-- Neither an accepted payload nor a reset nor a signature. -/
def LayerEvent.Idle : LayerEvent → Prop
  | .delivered _ _ accepted => accepted = false
  | .seen .ctxReset | .seen (.signature _ _ _ _) => False
  | .seen _ => True

/-- The session, one event at a time. -/
inductive Advance (sdk : Sdk) : HlContext → List LayerEvent → HlContext → Prop where
  | idle (ctx : HlContext) (e : LayerEvent) : e.Idle → Advance sdk ctx [e] ctx
  | reset (ctx : HlContext) : Advance sdk ctx [.seen .ctxReset] {}
  | load (payload : Bytes) (m : ActionMetadata) : SpellsMetadata sdk payload m →
      Advance sdk {} [.delivered .parseActionMetadata payload true] { metadata := some m }
  | push (ctx ctx' : HlContext) (payload : Bytes) (a : Action) :
      ParsesAction sdk ctx payload a → ctx.actionIndex = 0 → ActionAppended ctx a ctx' →
      Advance sdk ctx [.delivered .parseAction payload true] ctx'
  | sign (ctx : HlContext) (a : Action) (m : ActionMetadata) (now : Snapshot) (sig : Signature) :
      ctxGetCurrentAction ctx = some a → ctx.metadata = some m → now.metadata = ctx.metadata →
      now.actions = ctx.actions →
      Advance sdk ctx [.seen (.signature ctx.actionIndex a now sig)] (ctxSwitchToNextAction ctx)

section

variable {sdk : Sdk} {env : Env} {w : World}

/-- Idle events change nothing. -/
theorem path_idle (ctx : HlContext) {events : List LayerEvent} (h : ∀ e ∈ events, e.Idle) :
    Path (Advance sdk) ctx events ctx := by
  induction events with
  | nil => exact .refl ctx
  | cons e events ih =>
    exact .step (.idle ctx e (h e List.mem_cons_self))
      (ih fun x hx => h x (List.mem_cons_of_mem e hx))

theorem seen_idle {events : List Event} (h : ∀ e ∈ events, e.Quiet) :
    ∀ e ∈ events.map LayerEvent.seen, e.Idle := by
  intro e he
  obtain ⟨x, hx, rfl⟩ := List.mem_map.mp he
  have hquiet := h x hx
  cases x with
  | ctxReset => exact hquiet.elim
  | useCaseReview now screen => trivial
  | choice confirm => trivial
  | signature i a now sig => exact hquiet.elim
  | _ => trivial

theorem path_quiet_seen (ctx : HlContext) {events : List Event} (h : ∀ e ∈ events, e.Quiet) :
    Path (Advance sdk) ctx (events.map .seen) ctx :=
  path_idle ctx (seen_idle h)

variable (sdk) in
/-- `sign_action` signs the current action, or nothing. -/
theorem signAction_advances (env : Env) (w : World) :
    Path (Advance sdk) w.ctx ((signAction sdk env w).events.map .seen)
      (signAction sdk env w).world.ctx := by
  rcases signAction_exits sdk env w with hr | ⟨a, m, ha, hm⟩
  · rw [hr]
    exact path_quiet_seen w.ctx (quiet_response [] .incorrectData)
  · rcases signAction_answer sdk env ha hm with ⟨sig, -, hanswer⟩ | ⟨-, hanswer⟩
    · obtain ⟨calls, hevents⟩ := hanswer.events
      obtain ⟨rawBuf, hworld⟩ := hanswer.world
      rw [hevents, hworld, List.map_append, List.map_append]
      have hcalls : Path (Advance sdk) w.ctx ((calls.map Event.cx).map .seen) w.ctx :=
        path_quiet_seen w.ctx (quiet_calls calls)
      have hsign : Path (Advance sdk) w.ctx
          [.seen (.signature w.ctx.actionIndex a w.snapshot sig)] (ctxSwitchToNextAction w.ctx) :=
        .single (.sign w.ctx a m w.snapshot sig ha hm rfl rfl)
      have hsent := hcalls.trans (hsign.trans (path_quiet_seen _
        (quiet_response (signatureResponse w.ctx.remainingAfter sig) .success)))
      refine hsent.trans ?_
      dsimp only
      split
      · exact .single (.reset _)
      · exact .refl _
    · obtain ⟨calls, hevents⟩ := hanswer.events
      obtain ⟨rawBuf, hworld⟩ := hanswer.world
      rw [hevents, hworld]
      exact path_quiet_seen w.ctx (quiet_after (quiet_calls calls) [] .incorrectData)

theorem handlerSignAction_advances (data : Bytes) (w : World) :
    Path (Advance sdk) w.ctx ((handlerSignAction sdk env data w).events.map .seen)
      (handlerSignAction sdk env data w).world.ctx := by
  have hanswer := handlerSignAction_answer sdk env data w
  have hderivation : ∀ path length, ∀ e ∈ derivationEvents sdk env path length, e.Quiet := by
    intro path length
    unfold derivationEvents derivation
    split <;> simp [Event.Quiet]
  generalize handlerSignAction sdk env data w = r at hanswer ⊢
  cases hanswer with
  | refused sw _ => exact path_quiet_seen w.ctx (quiet_response [] sw)
  | unreviewed signing events _ _ hevents =>
    refine path_quiet_seen w.ctx (quiet_after ?_ [] .incorrectData)
    rcases hevents with rfl | rfl
    · simp
    · exact hderivation _ _
  | reviewed signing screen _ _ _ _ =>
    rw [List.map_append]
    exact (path_quiet_seen w.ctx (hderivation _ _)).trans (.single (.idle _ _ trivial))
  | signs _ => exact signAction_advances sdk env w

theorem reviewChoice_advances (env : Env) (confirm : Bool) (w : World) :
    Path (Advance sdk) w.ctx ((reviewChoice sdk env confirm w).2.map .seen)
      (reviewChoice sdk env confirm w).1.ctx := by
  cases confirm with
  | false =>
    have hchoice : Path (Advance sdk) w.ctx [.seen (.choice false)] w.ctx :=
      .single (.idle w.ctx _ trivial)
    have hreset : Path (Advance sdk) w.ctx [.seen .ctxReset] {} := .single (.reset w.ctx)
    have hend : Path (Advance sdk) {}
        [.seen (.response [] .conditionsNotSatisfied), .seen .menuMain] {} :=
      path_idle {} (by simp [LayerEvent.Idle])
    exact hchoice.trans (hreset.trans hend)
  | true =>
    have hchoice : Path (Advance sdk) w.ctx [.seen (.choice true)] w.afterReview.ctx :=
      .single (.idle w.ctx _ trivial)
    have hsign := hchoice.trans (signAction_advances sdk env w.afterReview)
    rw [reviewChoice_confirm, confirmEvents, List.map_append, List.map_cons]
    refine hsign.trans ?_
    by_cases hret : (signAction sdk env w.afterReview).ret = -1
    · have hworld : (reviewChoice sdk env true w).1.ctx = {} := by
        unfold reviewChoice
        simp only [if_true]
        split
        · rename_i hne
          exact absurd hret (bne_iff_ne.mp hne)
        · rfl
      have hreset : Path (Advance sdk) (signAction sdk env w.afterReview).world.ctx
          [.seen .ctxReset] {} := .single (.reset _)
      rw [if_pos hret, hworld]
      exact hreset.trans (.single (.idle {} (.seen .menuMain) trivial))
    · rw [if_neg hret, reviewChoice_confirm_world env w hret]
      exact .single (.idle _ _ trivial)

/-- A step that receives no chunk. -/
theorem appMainStep_advances {i : Input} (h : w.receives i = none) :
    Path (Advance sdk) w.ctx ((appMainStep sdk w i).2.map .seen) (appMainStep sdk w i).1.ctx := by
  by_cases hrun : w.running = true
  · have hcases := appMainStep_cases sdk w i
    generalize appMainStep sdk w i = r at hcases ⊢
    cases hcases with
    | ignored i => exact .refl w.ctx
    | stopped => exact .refl w.ctx
    | answered cmd env sw _ => exact path_quiet_seen w.ctx (quiet_response [] sw)
    | faulted cmd env e _ _ => exact .refl w.ctx
    | chosen confirm env screen _ => exact reviewChoice_advances env confirm w
    | dispatched cmd env r running hon hr _ =>
      have hchunk : cmd.chunkFor = none := by
        simpa [World.receives, hrun, hon, Input.chunk] using h
      rcases dispatcher_unchunked sdk env hchunk with ⟨events, hquiet, hquery⟩ | hsign
      · cases hr.symm.trans (hquery w)
        exact path_quiet_seen w.ctx hquiet
      · cases hr.symm.trans (hsign w)
        exact handlerSignAction_advances cmd.data w
  · have hstep : appMainStep sdk w i = (w, []) := by simp [appMainStep, hrun]
    rw [hstep]
    exact .refl w.ctx

theorem answered_ctx (env : Env) (w : World) : (w.answered env).ctx = w.ctx := by
  unfold World.answered
  split <;> rfl

/-- A payload that is delivered. -/
theorem deliver_advances (handler : PayloadHandler) (payload : Bytes) (w : World) :
    Path (Advance sdk) w.ctx (deliver sdk env handler payload w).2
      (deliver sdk env handler payload w).1.ctx := by
  unfold deliver
  split
  · exact .refl w.ctx
  · rename_i ret ctx' events hrun
    have hend : ∀ sw, Path (Advance sdk) ctx' [.seen (.response [] sw)] ctx' :=
      fun sw => .single (.idle ctx' _ trivial)
    rw [answered_ctx]
    have hhandled : Path (Advance sdk) w.ctx
        (events.map .seen ++ [.delivered handler payload ret]) ctx' := by
      cases handler with
      | parseActionMetadata =>
        have heffect := runPayloadHandler_effect hrun
        cases heffect with
        | unchanged handler => exact .single (.idle w.ctx _ rfl)
        | loaded m hauth _ =>
          have hreset : Path (Advance sdk) w.ctx [.seen .ctxReset] {} := .single (.reset w.ctx)
          exact hreset.trans (.single (.load payload m ⟨env, hauth⟩))
        | aborted m _ _ =>
          have hreset : Path (Advance sdk) w.ctx [.seen .ctxReset] {} := .single (.reset w.ctx)
          exact hreset.trans (.single (.idle {} _ rfl))
      | parseAction =>
        obtain ⟨⟨ret', ctx''⟩, hp, hout⟩ := bind_ok_iff.mp hrun
        cases hout
        obtain ⟨ret₁, ctx₁, hp₁, heffect⟩ := parseAction_effect sdk payload w.ctx
        cases hp.symm.trans hp₁
        rcases heffect with ⟨rfl, rfl⟩ | ⟨rfl, a, hparse, -, hidx, -, happ⟩
        · exact .single (.idle w.ctx _ rfl)
        · exact .single (.push w.ctx _ payload a hparse hidx happ)
    have hall := hhandled.trans (hend (if ret then .success else .incorrectData))
    rwa [List.append_assoc] at hall

theorem receive_advances (c : Chunk) (s : Layered) :
    Path (Advance sdk) s.world.ctx (receive sdk c s).2 (receive sdk c s).1.world.ctx := by
  have hanswered : ∀ sw, Path (Advance sdk) s.world.ctx [.seen (.response [] sw)]
      (s.world.answered c.env).ctx := by
    intro sw
    rw [answered_ctx]
    exact .single (.idle _ _ trivial)
  unfold receive
  split
  · exact hanswered .incorrectData
  · dsimp only
    split
    · exact deliver_advances c.handler _ s.world
    · exact hanswered .success

end

/-- The layered application refines the session. -/
theorem layered_refines (sdk : Sdk) :
    (layered sdk).Refines (fun _ => True) (fun s => s.world.ctx) (Advance sdk) where
  init := trivial
  inv := fun _ _ _ => trivial
  path := by
    intro s i _
    show Path _ _ (layeredStep sdk s i).2 (layeredStep sdk s i).1.world.ctx
    unfold layeredStep
    split
    · exact receive_advances _ s
    · exact appMainStep_advances ‹_›

/-! ## 3. The history of a session -/

/-- What the session owes to the events: since the last reset, what is stored is what the accepted
payloads spell, and the actions before the index were signed. -/
structure History (sdk : Sdk) (tr : List LayerEvent) (ctx : HlContext) : Prop where
  spelled : Spelled sdk tr ctx.metadata ctx.actions.elems
  signed : signedActions (sinceReset tr) = ctx.actions.elems.take ctx.actionIndex
  signatures : EventsOk (SignedAsDelivered sdk) tr
  order : DeliveredInOrder sdk tr (ctx.actions.elems.drop ctx.actionIndex)

namespace History

variable {sdk : Sdk} {tr : List LayerEvent} {ctx ctx' : HlContext} {e : LayerEvent}

theorem init : History sdk [] {} where
  spelled := ⟨.nil, .nil⟩
  signed := rfl
  signatures := eventsOk_nil _
  order := ⟨[], .nil, .slnil⟩

theorem idle (h : History sdk tr ctx) (he : e.Idle) : History sdk (tr ++ [e]) ctx := by
  have hidle : e.isReset = false ∧ (∀ handler, acceptedPayloads handler [e] = []) ∧
      signedActions [e] = [] ∧ SignedAsDelivered sdk tr e := by
    cases e with
    | delivered handler payload accepted =>
      obtain rfl : accepted = false := he
      exact ⟨rfl, fun _ => rfl, rfl, trivial⟩
    | seen e =>
      cases e with
      | ctxReset => exact he.elim
      | signature i a now sig => exact he.elim
      | _ => exact ⟨rfl, fun _ => rfl, rfl, trivial⟩
  obtain ⟨hreset, haccepted, hsigned, hok⟩ := hidle
  refine ⟨⟨?_, ?_⟩, ?_, eventsOk_snoc h.signatures hok, ?_⟩
  · simpa [sinceReset_snoc tr hreset, haccepted] using h.spelled.metadata
  · simpa [sinceReset_snoc tr hreset, haccepted] using h.spelled.actions
  · simpa [sinceReset_snoc tr hreset, hsigned] using h.signed
  · obtain ⟨delivered, hdelivered, hsub⟩ := h.order
    exact ⟨delivered, by simpa [haccepted] using hdelivered, by simpa [hsigned] using hsub⟩

theorem reset (h : History sdk tr ctx) : History sdk (tr ++ [.seen .ctxReset]) {} := by
  refine ⟨⟨?_, ?_⟩, ?_, eventsOk_snoc h.signatures trivial, ?_⟩
  · rw [sinceReset_reset]
    exact .nil
  · rw [sinceReset_reset]
    exact .nil
  · rw [sinceReset_reset]
    rfl
  · obtain ⟨delivered, hdelivered, hsub⟩ := h.order
    have hsigned : (signedActions tr).Sublist delivered :=
      (List.sublist_append_left _ _).trans hsub
    exact ⟨delivered, by simpa using hdelivered, by simpa using hsigned⟩

/-- The metadata payload is the first one after the reset. -/
theorem load {payload : Bytes} {m : ActionMetadata} (h : History sdk tr {})
    (hm : SpellsMetadata sdk payload m) :
    History sdk (tr ++ [.delivered .parseActionMetadata payload true]) { metadata := some m } := by
  have hsince := sinceReset_snoc tr
    (e := .delivered .parseActionMetadata payload true) rfl
  have hmetadata : acceptedPayloads .parseActionMetadata (sinceReset tr) = [] :=
    List.forall₂_nil_right_iff.mp h.spelled.metadata
  have hactions : acceptedPayloads .parseAction (sinceReset tr) = [] :=
    List.forall₂_nil_right_iff.mp h.spelled.actions
  refine ⟨⟨?_, ?_⟩, ?_, eventsOk_snoc h.signatures trivial, ?_⟩
  · rw [hsince, acceptedPayloads_append, hmetadata]
    exact .cons hm .nil
  · rw [hsince, acceptedPayloads_append, hactions]
    exact .nil
  · rw [hsince, signedActions_append, h.signed]
    rfl
  · obtain ⟨delivered, hdelivered, hsub⟩ := h.order
    exact ⟨delivered, by simpa using hdelivered, by simpa using hsub⟩

/-- The action is the last one of the list. -/
theorem push {payload : Bytes} {a : Action} (h : History sdk tr ctx)
    (hparse : ParsesAction sdk ctx payload a) (hidx : ctx.actionIndex = 0)
    (happ : ActionAppended ctx a ctx') :
    History sdk (tr ++ [.delivered .parseAction payload true]) ctx' := by
  have hsince := sinceReset_snoc tr (e := .delivered .parseAction payload true) rfl
  -- a parser reads nothing of the context but the metadata
  have hspells : SpellsAction sdk ctx.metadata payload a := hparse
  have hidx' : ctx'.actionIndex = 0 := happ.index.trans hidx
  have hunsigned := h.signed
  obtain ⟨delivered, hdelivered, hsub⟩ := h.order
  rw [hidx, List.take_zero] at hunsigned
  rw [hidx, List.drop_zero] at hsub
  refine ⟨⟨?_, ?_⟩, ?_, eventsOk_snoc h.signatures trivial, delivered ++ [a], ?_, ?_⟩
  · rw [hsince, acceptedPayloads_append, happ.metadata]
    simpa using h.spelled.metadata
  · rw [hsince, acceptedPayloads_append, happ.metadata, happ.elems]
    exact List.rel_append h.spelled.actions (.cons hspells .nil)
  · rw [hsince, signedActions_append, hunsigned, hidx', List.take_zero]
    rfl
  · rw [acceptedPayloads_append]
    exact List.rel_append hdelivered (.cons ⟨_, hspells⟩ .nil)
  · rw [signedActions_append, hidx', List.drop_zero, happ.elems, signedActions_delivered,
      List.append_nil, ← List.append_assoc]
    exact hsub.append (List.Sublist.refl [a])

/-- The current action is signed; the index does not wrap. -/
theorem sign {a : Action} {m : ActionMetadata} {now : Snapshot} {sig : Signature}
    (h : History sdk tr ctx) (ha : ctxGetCurrentAction ctx = some a)
    (hm : ctx.metadata = some m) (hmd : now.metadata = ctx.metadata)
    (hactions : now.actions = ctx.actions) :
    History sdk (tr ++ [.seen (.signature ctx.actionIndex a now sig)])
      (ctxSwitchToNextAction ctx) := by
  obtain ⟨hlt, hget⟩ := ctxGetCurrentAction_some ha
  have hcount : ctx.actionCount ≤ 10 := ctx.actions.bound
  have hnext : (ctxSwitchToNextAction ctx).actionIndex = ctx.actionIndex + 1 := by
    show (ctx.actionIndex + 1) % 256 = ctx.actionIndex + 1
    omega
  have hsame : (ctxSwitchToNextAction ctx).actions = ctx.actions := rfl
  have hsince := sinceReset_snoc tr
    (e := .seen (.signature ctx.actionIndex a now sig)) rfl
  have hok : SignedAsDelivered sdk tr (.seen (.signature ctx.actionIndex a now sig)) := by
    refine ⟨⟨m, hmd.trans hm⟩, ?_, ?_, ?_⟩
    · rw [hmd, hactions]
      exact h.spelled
    · rw [hactions]
      exact hget
    · rw [hactions]
      exact h.signed
  obtain ⟨delivered, hdelivered, hsub⟩ := h.order
  refine ⟨⟨?_, ?_⟩, ?_, eventsOk_snoc h.signatures hok, delivered, ?_, ?_⟩
  · rw [hsince, acceptedPayloads_append, acceptedPayloads_seen, List.append_nil]
    exact h.spelled.metadata
  · rw [hsince, acceptedPayloads_append, acceptedPayloads_seen, List.append_nil]
    exact h.spelled.actions
  · rw [hsince, signedActions_append, h.signed, hnext, hsame, List.take_add_one, hget]
    rfl
  · simpa using hdelivered
  · obtain ⟨hbound, hat⟩ := List.getElem?_eq_some_iff.mp hget
    rw [List.drop_eq_getElem_cons hbound, hat] at hsub
    rw [hnext, hsame]
    simpa using hsub

end History

/-- Every event keeps the history. -/
theorem Advance.history {sdk : Sdk} {tr events : List LayerEvent} {ctx ctx' : HlContext}
    (hstep : Advance sdk ctx events ctx') (h : History sdk tr ctx) :
    History sdk (tr ++ events) ctx' := by
  cases hstep with
  | idle ctx e he => exact h.idle he
  | reset ctx => exact h.reset
  | load payload m hm => exact h.load hm
  | push ctx ctx' payload a hparse hidx happ => exact h.push hparse hidx happ
  | sign ctx a m now sig ha hm hmd hactions => exact h.sign ha hm hmd hactions

/-- In every run, a signature is of the action that the accepted payload at its index spells, under
the metadata that were accepted since the reset, and comes after the signatures of those before
it.  Over the whole run the signed actions are among the delivered ones, in their order. -/
theorem signatures_delivered (sdk : Sdk) (inputs : List Input) :
    (app sdk).trace inputs = ((layered sdk).trace inputs).filterMap LayerEvent.event ∧
    EventsOk (SignedAsDelivered sdk) ((layered sdk).trace inputs) ∧
    DeliveredInOrder sdk ((layered sdk).trace inputs) [] := by
  have hhistory := (layered_refines sdk).induction (P := History sdk) History.init
    (fun _ _ _ _ hstep h => hstep.history h) inputs
  obtain ⟨-, -, htrace⟩ := app_layered sdk inputs
  refine ⟨htrace, hhistory.signatures, ?_⟩
  obtain ⟨delivered, hdelivered, hsub⟩ := hhistory.order
  refine ⟨delivered, hdelivered, ?_⟩
  rw [List.append_nil]
  exact (List.sublist_append_left _ _).trans hsub

end Hyperliquid

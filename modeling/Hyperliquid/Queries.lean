/-
# Queries do not touch the session

`GET_ADDRESS`, and every command that the dispatcher refuses for its class, its instruction, its
parameters or its missing data, are queries: a host may put them anywhere, also between the chunks
of a payload or between the signatures of a session.

A query leaves the state as it is, so leaving all queries out of a run changes neither the state
it ends in nor what any other input is answered with; and the answer to a query depends on nothing
that is stored, but for whether a review is on the screen (`queries_invisible`).
-/
import Hyperliquid.Answers

namespace Hyperliquid

open Lib

/-! ## 1. Queries -/

/-- The dispatcher hands the command to a handler that may change the state. -/
def Command.updates (cmd : Command) : Bool :=
  cmd.cla == Hyperliquid.cla && cmd.p2 == 0 && !cmd.data.isEmpty &&
    (((cmd.ins == insProvideActionMetadata || cmd.ins == insSetAction) &&
        (cmd.p1 == p1First || cmd.p1 == p1Following)) ||
      (cmd.ins == insSignAction && cmd.p1 == 0))

/-- A command that does not, or bytes that are not a command. -/
def Input.isQuery : Input → Bool
  | .apdu none _ => true
  | .apdu (some cmd) _ => !cmd.updates
  | .recvFailure | .choice _ _ => false

/-- Responses can be sent. -/
def Input.Sends : Input → Prop
  | .apdu _ env | .choice _ env => 0 ≤ env.send
  | .recvFailure => True

instance : DecidablePred Input.Sends
  | .apdu _ env | .choice _ env => inferInstanceAs (Decidable (0 ≤ env.send))
  | .recvFailure => inferInstanceAs (Decidable True)

section

variable {sdk : Sdk} {env : Env} {cmd : Command}

/-- The dispatcher's outcome leaves the state as it is, with the same events in every state. -/
def Invisible (env : Env) (f : World → Except Failure Outcome) : Prop :=
  ∃ events, (∀ e ∈ events, e.Quiet) ∧ ∀ w, f w = .ok ⟨env.send, w, events⟩

variable (sdk env) in
theorem handlerGetAddr_query (data : Bytes) :
    Invisible env fun w => .ok (handlerGetAddr sdk env data w) := by
  rcases handlerGetAddr_answer sdk env data with
    ⟨sw, -, hget⟩ | ⟨path, length, -, hget⟩
  · exact ⟨_, quiet_response [] sw, fun w => congrArg Except.ok (hget w)⟩
  · have hquiet : ∀ e ∈ derivationEvents sdk env path length, e.Quiet := by
      unfold derivationEvents derivation
      split <;> simp [Event.Quiet]
    exact ⟨derivationEvents sdk env path length ++ [Event.response _ _], quiet_after hquiet _ _,
      fun w => congrArg Except.ok (hget w)⟩

/-- A refusal. -/
theorem refused_query (env : Env) (sw : StatusWord) :
    Invisible env fun w => .ok (ioSendSw env sw w) :=
  ⟨_, quiet_response [] sw, fun _ => rfl⟩

/-- A chunk that is refused before its bytes are looked at. -/
theorem dispatchChunked_query
    (handler : Env → Bool → Bytes → World → Except Failure Outcome)
    (h : cmd.p2 = 0 → cmd.data ≠ [] → cmd.p1 ≠ p1First ∧ cmd.p1 ≠ p1Following) :
    Invisible env (dispatchChunked handler env cmd) := by
  unfold dispatchChunked
  split
  · exact refused_query env _
  · rename_i hp
    split
    · exact refused_query env _
    · rename_i hdata
      simp only [Bool.or_eq_true, Bool.and_eq_true, bne_iff_ne, ne_eq, not_or, not_and,
        not_not] at hp
      obtain ⟨hfirst, hfollowing⟩ := h hp.2 (by simpa using hdata)
      exact absurd (hp.1 hfirst) hfollowing

/-- A `GET_ADDRESS`. -/
theorem dispatchSingle_getAddr :
    Invisible env (dispatchSingle (handlerGetAddr sdk) env cmd) := by
  unfold dispatchSingle
  split
  · exact refused_query env _
  · split
    · exact refused_query env _
    · exact handlerGetAddr_query sdk env cmd.data

/-- A request to sign that is refused before the session is looked at. -/
theorem dispatchSingle_signAction
    (h : cmd.p2 = 0 → cmd.data ≠ [] → cmd.p1 ≠ 0) :
    Invisible env (dispatchSingle (handlerSignAction sdk) env cmd) := by
  unfold dispatchSingle
  split
  · exact refused_query env _
  · rename_i hp
    split
    · exact refused_query env _
    · rename_i hdata
      simp only [Bool.or_eq_true, bne_iff_ne, ne_eq, not_or, not_not] at hp
      exact absurd hp.1 (h hp.2 (by simpa using hdata))

variable (sdk env) in
/-- A query is answered the same in every state, and leaves the state as it is. -/
theorem apduDispatcher_query (h : cmd.updates = false) :
    Invisible env (apduDispatcher sdk env cmd) := by
  unfold apduDispatcher
  split
  · exact refused_query env _
  · rename_i hcla
    have hcla' : cmd.cla = cla := by simpa using hcla
    have hupdates : cmd.p2 = 0 → cmd.data ≠ [] →
        ((cmd.ins = insProvideActionMetadata ∨ cmd.ins = insSetAction) →
          cmd.p1 ≠ p1First ∧ cmd.p1 ≠ p1Following) ∧
        (cmd.ins = insSignAction → cmd.p1 ≠ 0) := by
      intro hp2 hdata
      have hno : ¬ cmd.updates = true := by rw [h]; exact Bool.false_ne_true
      simp only [Command.updates, hcla', hp2, Bool.and_eq_true, Bool.or_eq_true, beq_iff_eq,
        Bool.not_eq_true', List.isEmpty_eq_false_iff, ne_eq, hdata, not_false_eq_true, and_true,
        true_and, not_or, not_and] at hno
      exact ⟨fun hins => hno.1 hins, hno.2⟩
    split
    · exact dispatchSingle_getAddr
    · split
      · rename_i hins
        exact dispatchChunked_query _ fun hp2 hdata =>
          (hupdates hp2 hdata).1 (.inl (beq_iff_eq.mp hins))
      · split
        · rename_i hins
          exact dispatchChunked_query _ fun hp2 hdata =>
            (hupdates hp2 hdata).1 (.inr (beq_iff_eq.mp hins))
        · split
          · rename_i hins
            exact dispatchSingle_signAction fun hp2 hdata =>
              (hupdates hp2 hdata).2 (beq_iff_eq.mp hins)
          · exact refused_query env _

end

/-! ## 2. Runs with and without them -/

section

variable {sdk : Sdk} {i : Input}

variable (sdk) in
/-- What a query is answered with, in every state in which commands are dispatched. -/
theorem appMainApdu_query (h : i.isQuery = true) (hsend : i.Sends) :
    ∃ cmd env events, i = .apdu cmd env ∧
      ∀ w : World, w.commEnabled = true → appMainApdu sdk cmd env w = (w, events) := by
  cases i with
  | recvFailure => cases h
  | choice confirm env => cases h
  | apdu cmd env =>
    cases cmd with
    | none =>
      refine ⟨none, env, [.response [] .wrongDataLength], rfl, ?_⟩
      intro w hon
      rw [appMainApdu, if_pos hon]
    | some cmd =>
      have hcmd : cmd.updates = false := by simpa [Input.isQuery] using h
      obtain ⟨events, -, hdispatch⟩ := apduDispatcher_query sdk env hcmd
      have hret : ¬ env.send < 0 := Int.not_lt.mpr hsend
      refine ⟨some cmd, env, events, rfl, ?_⟩
      intro w hon
      rw [appMainApdu, if_pos hon]
      dsimp only
      rw [hdispatch w]
      dsimp only
      rw [if_neg hret]

/-- A query leaves every state as it is. -/
theorem appMainStep_query (h : i.isQuery = true) (hsend : i.Sends) (w : World) :
    (appMainStep sdk w i).1 = w := by
  obtain ⟨cmd, env, events, rfl, happ⟩ := appMainApdu_query sdk h hsend
  unfold appMainStep
  split
  · rfl
  · by_cases hon : w.commEnabled = true
    · exact congrArg Prod.fst (happ w hon)
    · dsimp only [appMainApdu]
      rw [if_neg hon]

/-- Its answer depends on the loop alone. -/
theorem appMainStep_query_answer (h : i.isQuery = true) (hsend : i.Sends) {w w' : World}
    (hrun : w.running = w'.running) (hcomm : w.commEnabled = w'.commEnabled) :
    (appMainStep sdk w i).2 = (appMainStep sdk w' i).2 := by
  obtain ⟨cmd, env, events, rfl, happ⟩ := appMainApdu_query sdk h hsend
  unfold appMainStep
  rw [← hrun]
  split
  · rfl
  · by_cases hon : w.commEnabled = true
    · dsimp only
      rw [happ w hon, happ w' (hcomm ▸ hon)]
    · dsimp only [appMainApdu]
      rw [if_neg hon, if_neg (hcomm ▸ hon)]

end

/-- In every run whose queries can be answered, leaving the queries out changes neither the state
that is reached nor the events of the other inputs; and after any two runs that have both not
ended, with a review on the screen in both or in neither, a query is answered the same. -/
theorem queries_invisible (sdk : Sdk) (inputs : List Input)
    (hsend : ∀ i ∈ inputs, i.isQuery = true → i.Sends) :
    let others := inputs.filter fun i => !i.isQuery
    (app sdk).state inputs = (app sdk).state others ∧
    ((app sdk).transcript {} inputs).filter (fun x => !x.1.isQuery) =
      (app sdk).transcript {} others ∧
    ∀ i ∈ inputs, i.isQuery = true → ∀ is is',
      let w := (app sdk).state is
      let w' := (app sdk).state is'
      w.running = w'.running → w.review.isSome = w'.review.isSome →
        (appMainStep sdk w i).2 = (appMainStep sdk w' i).2 := by
  intro others
  have hsilent : ∀ i ∈ inputs, (!i.isQuery) = false → ∀ w, ((app sdk).step w i).1 = w := by
    intro i hi hquery
    have hquery' : i.isQuery = true := by simpa using hquery
    exact appMainStep_query hquery' (hsend i hi hquery')
  obtain ⟨hstate, hevents⟩ := Machine.purge hsilent ({} : World)
  refine ⟨hstate, hevents, ?_⟩
  intro i hi hquery is is' w w' hrun hrev
  refine appMainStep_query_answer hquery (hsend i hi hquery) hrun ?_
  have hcomm : w.Comm := (app_refines sdk).inv_state is
  have hcomm' : w'.Comm := (app_refines sdk).inv_state is'
  rw [hcomm, hcomm']
  cases hr : w.review <;> cases hr' : w'.review <;> simp [hr, hr'] at hrev ⊢

/-- The host asks for the address after every chunk and every request. -/
def askingSession : List Input :=
  reviewSession.flatMap fun i => [i, Client.exchange insGetAddress 0 (5 :: List.replicate 20 0)]

theorem queries_invisible_askingSession :
    (app Client.sdk).state askingSession =
      (app Client.sdk).state (askingSession.filter fun i => !i.isQuery) := by
  have hsend : ∀ i ∈ askingSession, i.Sends := by decide +kernel
  exact (queries_invisible Client.sdk askingSession fun i hi _ => hsend i hi).1

end Hyperliquid

/-
# The program of the client (`tests/application_client/`, `tests/standalone/test_full_flow.py`)

The client provides the metadata, sets the actions one after the other, and asks for signatures
until none remains (`common_sign`).  Every response that is not a success ends its program with an
exception.  Here the program is an automaton (`Host`): what it has still to send, or the answers
it has got so far.  Its user looks at the review that is shown, and decides by what is on the
screen.

The first part of the program is a list of commands.  What has become of the application when all
of them were answered with success is determined by what was sent (`stored_batch`).
-/
import Hyperliquid.Canonical
import Hyperliquid.ClientMetadata
import Hyperliquid.Lib.Dialogue

namespace Hyperliquid.Client

open Lib Lib.Msgpack

/-! ## 1. command_sender.py -/

/-- `split_message`; the number bounds how many chunks there are. -/
def splitMessage : Nat → Bytes → List Bytes
  | 0, _ => []
  | _ + 1, [] => []
  | n + 1, message => message.take maxApduLen :: splitMessage n (message.drop maxApduLen)

/-- `_send_chunked`. -/
def chunkedCommands (handler : PayloadHandler) (payload : Bytes) : List Command :=
  let data := beBytes 2 payload.length ++ payload
  ⟨cla, handler.ins, p1First, 0, data.take maxApduLen⟩ ::
    (splitMessage data.length (data.drop maxApduLen)).map fun chunk =>
      ⟨cla, handler.ins, p1Following, 0, chunk⟩

/-- What the client is to have signed: metadata with their signature, actions, and the path, as
`pack_derivation_path` packs it. -/
structure Batch where
  metadata : ActionMetadata
  sig : Bytes
  actions : List SetAction
  path : Bytes

namespace Batch

/-- `provide_action_metadata`, and `set_action` for each action. -/
def commands (b : Batch) : List Command :=
  chunkedCommands .parseActionMetadata (signedMetadata b.metadata b.sig) ++
    b.actions.flatMap fun s => chunkedCommands .parseAction s.serialize

/-- `sign_action`. -/
def signCommand (b : Batch) : Command := ⟨cla, insSignAction, 0, 0, b.path⟩

/-- What the specification asks of the values. -/
structure Allowed (b : Batch) : Prop where
  metadata : MetadataAllowed b.metadata
  sig : SignatureAllowed b.sig
  actions : ∀ s ∈ b.actions, s.action.Allowed b.metadata.assetId

end Batch

/-! ## 2. response_unpacker.py -/

structure Answer where
  remaining : UInt8
  v : UInt8
  r : Bytes
  s : Bytes
deriving DecidableEq

/-- `unpack_sign_action_response`. -/
def unpackSignActionResponse (response : Bytes) : Option Answer :=
  if response.length = 1 + 1 + 32 + 32 then
    some ⟨response.getD 0 0, response.getD 1 0, (response.drop 2).take 32, response.drop 34⟩
  else none

/-! ## 3. What arrives -/

def responseOf : Event → Option (Bytes × StatusWord)
  | .response data sw => some (data, sw)
  | _ => none

def screenOf : Event → Option UiCtx
  | .useCaseReview _ screen => some screen
  | _ => none

/-- The data of the response, if it is a success; without a response that arrives there is
none. -/
def answered (env : Env) (events : List Event) : Option Bytes :=
  if env.send < 0 then none
  else (events.findSome? responseOf).bind fun r => if r.2 = .success then some r.1 else none

/-! ## 4. The program -/

inductive Host where
  /-- The next command, and those after it. -/
  | storing (cmd : Command) (queue : List Command)
  /-- About to ask for the first signature. -/
  | asking
  /-- The review is on the screen. -/
  | reviewing (screen : UiCtx)
  /-- In the loop of `common_sign`, with the answers so far. -/
  | signing (answers : List Answer)
  | done (answers : List Answer)
  /-- An exception was raised. -/
  | raised

namespace Host

/-- With these commands to send. -/
def next : List Command → Host
  | [] => .asking
  | cmd :: queue => .storing cmd queue

/-- After a response to a request to sign: `while remaining > 0`. -/
def collect (answers : List Answer) (data : Option Bytes) : Host :=
  match data.bind unpackSignActionResponse with
  | none => .raised
  | some a => if 0 < a.remaining then .signing (answers ++ [a]) else .done (answers ++ [a])

def isDone : Host → Bool
  | .done _ => true
  | _ => false

def ask (user : UiCtx → Bool) (b : Batch) : Host → Env → Option Input
  | .storing cmd _, env => some (.apdu (some cmd) env)
  | .asking, env => some (.apdu (some b.signCommand) env)
  | .reviewing screen, env => some (.choice (user screen) env)
  | .signing _, env => some (.apdu (some b.signCommand) env)
  | .done _, _ => none
  | .raised, _ => none

def hear : Host → Env → List Event → Host
  | .storing _ queue, env, events => if (answered env events).isSome then next queue else .raised
  | .asking, _, events =>
    match events.findSome? screenOf with
    | some screen => .reviewing screen
    | none => .raised
  | .reviewing _, env, events => collect [] (answered env events)
  | .signing answers, env, events => collect answers (answered env events)
  | .done answers, _, _ => .done answers
  | .raised, _, _ => .raised

end Host

/-- The client with its user, who looks at the screen and decides. -/
def host (user : UiCtx → Bool) (b : Batch) : Party Host Env Input Event where
  ask := Host.ask user b
  hear := Host.hear

/-- The client and the application, from a state that the application has reached. -/
def conversation (sdk : Sdk) (user : UiCtx → Bool) (b : Batch) (inputs : List Input) :
    Machine (Host × World) Env Event :=
  (app sdk).converse (host user b) (.next b.commands) ((app sdk).state inputs)

/-! ## 5. A payload is sent -/

section

variable {n : Nat} {message : Bytes}

theorem splitMessage_cons (c : UInt8) (cs : Bytes) :
    splitMessage (n + 1) (c :: cs) =
      (c :: cs).take maxApduLen :: splitMessage n ((c :: cs).drop maxApduLen) := rfl

theorem splitMessage_ne_nil : ∀ chunk ∈ splitMessage n message, chunk ≠ [] := by
  induction n generalizing message with
  | zero => exact fun _ h => absurd h List.not_mem_nil
  | succ n ih =>
    cases message with
    | nil => exact fun _ h => absurd h List.not_mem_nil
    | cons c cs =>
      rw [splitMessage_cons, List.forall_mem_cons]
      exact ⟨by simp [maxApduLen], ih⟩

theorem flatten_splitMessage (h : message.length ≤ n) :
    (splitMessage n message).flatten = message := by
  induction n generalizing message with
  | zero =>
    obtain rfl := List.length_eq_zero_iff.mp (Nat.le_zero.mp h)
    rfl
  | succ n ih =>
    cases message with
    | nil => rfl
    | cons c cs =>
      have hrest : ((c :: cs).drop maxApduLen).length ≤ n := by
        rw [List.length_drop, maxApduLen]
        rw [List.length_cons] at h ⊢
        omega
      rw [splitMessage_cons, List.flatten_cons, ih hrest, List.take_append_drop]

end

/-- The commands, each in its surroundings. -/
def commandInputs (sent : List (Command × Env)) : List Input :=
  sent.map fun x => .apdu (some x.1) x.2

/-- The answer to a command that stores is a success. -/
def goodAnswer : Input → List Event → Bool
  | .apdu _ env, events => (answered env events).isSome
  | _, _ => false

/-- The application after the commands, if all of them were answered with success. -/
def storedAfter (sdk : Sdk) (w : World) (sent : List (Command × Env)) : Option World :=
  (app sdk).attempt goodAnswer w (commandInputs sent)

/-- A response can be sent. -/
def Sends : Input → Prop
  | .apdu _ env => 0 ≤ env.send
  | _ => False

theorem goodAnswer_iff (i : Input) (events : List Event) :
    goodAnswer i events = true ↔
      Sends i ∧ ∃ data, events.findSome? responseOf = some (data, .success) := by
  cases i with
  | apdu cmd env =>
    show (answered env events).isSome = true ↔ 0 ≤ env.send ∧ _
    unfold answered
    by_cases hsend : env.send < 0
    · rw [if_pos hsend]
      simp [Int.not_le.mpr hsend]
    · rw [if_neg hsend]
      cases h : events.findSome? responseOf with
      | none => simp
      | some r =>
        obtain ⟨data, sw⟩ := r
        by_cases hsw : sw = .success
        · simp [hsw, Int.not_lt.mp hsend]
        · simp [hsw]
  | _ =>
    refine iff_of_false Bool.false_ne_true ?_
    rintro ⟨hsends, -⟩
    exact hsends

/-- No command is refused, no review is on the screen, and no transfer is in progress. -/
structure Idle (w : World) : Prop where
  running : w.running = true
  on : w.commEnabled = true
  review : w.review = none
  payload : w.payload.Represents .idle

section

variable {handler : PayloadHandler} {payload : Bytes} {sent : List (Command × Env)}

/-- What `_send_chunked` sends is a payload in parts. -/
theorem exists_parts (h : sent.map Prod.fst = chunkedCommands handler payload) :
    ∃ part parts, commandInputs sent = sendParts handler part parts ∧
      joined (part :: parts) = payload ∧ (∀ p ∈ parts, p.1 ≠ []) ∧
      (part :: parts).map Prod.snd = sent.map Prod.snd := by
  obtain ⟨x, rest, rfl, hx, hrest⟩ := List.map_eq_cons_iff.mp h
  have hlength : (beBytes 2 payload.length).length = 2 := length_beBytes 2 _
  have htake : (beBytes 2 payload.length ++ payload).take maxApduLen =
      beBytes 2 payload.length ++ payload.take 253 := by
    rw [List.take_append, hlength, List.take_of_length_le (by rw [hlength]; decide)]
    rfl
  have hdrop : (beBytes 2 payload.length ++ payload).drop maxApduLen = payload.drop 253 := by
    rw [List.drop_append, hlength, List.drop_of_length_le (by rw [hlength]; decide)]
    rfl
  rw [hdrop] at hrest
  have hcommand : ∀ y ∈ rest, y.1 = ⟨cla, handler.ins, p1Following, 0, y.1.data⟩ := by
    intro y hy
    have hmem : y.1 ∈ rest.map Prod.fst := List.mem_map_of_mem hy
    rw [hrest] at hmem
    obtain ⟨chunk, -, heq⟩ := List.mem_map.mp hmem
    rw [← heq]
  have hdata : rest.map (fun y => y.1.data) =
      splitMessage (beBytes 2 payload.length ++ payload).length (payload.drop 253) := by
    have hmap := congrArg (List.map Command.data) hrest
    rw [List.map_map, List.map_map] at hmap
    exact hmap.trans (List.map_id _)
  have hchunks : (rest.map fun y => y.1.data).flatten = payload.drop 253 := by
    rw [hdata]
    refine flatten_splitMessage ?_
    rw [List.length_append, List.length_drop]
    omega
  have hjoined : joined ((payload.take 253, x.2) :: rest.map fun y => (y.1.data, y.2)) =
      payload := by
    rw [joined_cons, joined, List.map_map]
    exact (congrArg (payload.take 253 ++ ·) hchunks).trans (List.take_append_drop 253 payload)
  refine ⟨(payload.take 253, x.2), rest.map fun y => (y.1.data, y.2), ?_, hjoined, ?_, ?_⟩
  · rw [sendParts, hjoined, commandInputs, List.map_cons, hx, htake]
    refine congrArg _ ?_
    rw [followingParts, List.map_map]
    refine List.map_congr_left fun y hy => ?_
    rw [hcommand y hy]
    rfl
  · intro p hp
    obtain ⟨y, hy, rfl⟩ := List.mem_map.mp hp
    have hmem : y.1.data ∈ rest.map fun y => y.1.data := List.mem_map_of_mem hy
    rw [hdata] at hmem
    exact splitMessage_ne_nil _ hmem
  · rw [List.map_cons, List.map_map, List.map_cons]
    rfl

theorem lastEnv_of_map {part : Part} {parts : List Part} {envs : List Env}
    (h : (part :: parts).map Prod.snd = envs) : envs.getLast? = some (lastEnv part.2 parts) := by
  subst h
  induction parts generalizing part with
  | nil => rfl
  | cons q qs ih => exact (List.getLast?_cons_cons).trans ih

/-- What `_send_chunked` sends brings the payload, if the responses can be sent. -/
theorem delivered_chunks (sdk : Sdk) {w : World}
    (h : sent.map Prod.fst = chunkedCommands handler payload) (hw : Idle w)
    (hpos : 0 < payload.length) (hfits : payload.length ≤ payloadBufferSize) :
    ∃ env ret ctx' events, (sent.map Prod.snd).getLast? = some env ∧
      runPayloadHandler sdk env handler payload w.ctx = .ok (ret, ctx', events) ∧
      ((∀ x ∈ sent, 0 ≤ x.2.send) →
        Delivered sdk w (commandInputs sent) (sent.length - 1) ret ctx' events) := by
  obtain ⟨part, parts, hinputs, hjoined, hne, henvs⟩ := exists_parts h
  have hlast := lastEnv_of_map henvs
  have hlength : parts.length = sent.length - 1 := by
    have hlengths := congrArg List.length henvs
    rw [List.length_map, List.length_map, List.length_cons] at hlengths
    omega
  obtain ⟨⟨ret, ctx', events⟩, hrun⟩ :=
    runPayloadHandler_returns sdk (lastEnv part.2 parts) handler payload w.ctx
  refine ⟨_, ret, ctx', events, hlast, hrun, ?_⟩
  intro hall
  have hsendable : Sendable part parts := by
    refine ⟨?_, hne⟩
    have hmap : ∀ e ∈ (part :: parts).map Prod.snd, 0 ≤ e.send := by
      rw [henvs, List.forall_mem_map]
      exact hall
    intro p hp
    exact hmap p.2 (List.mem_map_of_mem hp)
  rw [hinputs, ← hlength]
  exact delivered_sendParts hw.running hw.on hw.payload hsendable (hjoined.symm ▸ hpos)
    (hjoined.symm ▸ hfits) (hjoined.symm ▸ hrun)

/-- A payload takes a command at least. -/
theorem exists_lastCommand (h : sent.map Prod.fst = chunkedCommands handler payload) :
    ∃ x ∈ sent, (sent.map Prod.snd).getLast? = some x.2 := by
  have hne : sent.map Prod.snd ≠ [] := by
    intro hnil
    obtain rfl := List.map_eq_nil_iff.mp hnil
    cases h
  obtain ⟨x, hx, hlast⟩ := List.mem_map.mp (List.getLast_mem hne)
  refine ⟨x, hx, ?_⟩
  rw [List.getLast?_eq_some_getLast hne, hlast]

/-- A payload handler sends no response. -/
theorem responseOf_payload {sdk : Sdk} {env : Env} {ctx ctx' : HlContext} {ret : Bool}
    {events : List Event}
    (hrun : runPayloadHandler sdk env handler payload ctx = .ok (ret, ctx', events)) :
    ∀ e ∈ events, responseOf e = none := by
  intro e he
  cases runPayloadHandler_effect hrun with
  | unchanged | appended => cases he
  | loaded | aborted =>
    obtain rfl := List.mem_singleton.mp he
    rfl

/-- All commands are answered with success. -/
theorem storedAfter_iff {sdk : Sdk} {w w' : World} : storedAfter sdk w sent = some w' ↔
    (∀ x ∈ sent, 0 ≤ x.2.send) ∧
      (∀ es ∈ (app sdk).replies w (commandInputs sent),
        ∃ data, es.findSome? responseOf = some (data, .success)) ∧
      ((app sdk).runFrom w (commandInputs sent)).1 = w' := by
  have hfair : (∀ i ∈ commandInputs sent, Sends i) ↔ ∀ x ∈ sent, 0 ≤ x.2.send := by
    rw [commandInputs, List.forall_mem_map]
    rfl
  rw [storedAfter, Machine.attempt_eq_some goodAnswer_iff, hfair]

/-- With commands left over, as if they were sent in the surroundings of the first of them. -/
theorem sent_completed {P : Env → Prop} {cmd : Command} {queue cmds : List Command} {env : Env}
    (hsplit : sent.map Prod.fst ++ cmd :: queue = cmds) (hall : ∀ x ∈ sent, P x.2) (henv : P env) :
    (sent ++ (cmd, env) :: queue.map fun c => (c, env)).map Prod.fst = cmds ∧
      ∀ x ∈ sent ++ (cmd, env) :: queue.map fun c => (c, env), P x.2 := by
  constructor
  · rw [List.map_append, List.map_cons, List.map_map, ← hsplit]
    exact congrArg (fun cs => sent.map Prod.fst ++ cmd :: cs) (List.map_id queue)
  · intro x hx
    rcases List.mem_append.mp hx with hx | hx
    · exact hall x hx
    · rcases List.mem_cons.mp hx with rfl | hx
      · exact henv
      · obtain ⟨c, -, rfl⟩ := List.mem_map.mp hx
        exact henv

/-- A payload is stored if and only if every response can be sent and its handler accepts it in the
surroundings of the last command. -/
theorem storedAfter_payload {sdk : Sdk} {w w' : World}
    (h : sent.map Prod.fst = chunkedCommands handler payload) (hw : Idle w)
    (hpos : 0 < payload.length) (hfits : payload.length ≤ payloadBufferSize) :
    storedAfter sdk w sent = some w' ↔
      (∀ x ∈ sent, 0 ≤ x.2.send) ∧ ∃ env ctx' events, (sent.map Prod.snd).getLast? = some env ∧
        runPayloadHandler sdk env handler payload w.ctx = .ok (true, ctx', events) ∧
        w' = { w with payload := {}, ctx := ctx' } := by
  obtain ⟨env, ret, ctx', events, hlast, hrun, hdelivered⟩ := delivered_chunks sdk h hw hpos hfits
  rw [storedAfter_iff]
  refine and_congr_right fun hall => ?_
  obtain ⟨hstate, hreplies⟩ := hdelivered hall
  have hfine : (∀ es ∈ (app sdk).replies w (commandInputs sent),
      ∃ data, es.findSome? responseOf = some (data, .success)) ↔ ret = true := by
    have hfirst : ∀ es ∈ List.replicate (sent.length - 1) [Event.response [] .success],
        ∃ data, es.findSome? responseOf = some (data, .success) := by
      intro es hes
      rw [List.eq_of_mem_replicate hes]
      exact ⟨[], rfl⟩
    have hnone : events.findSome? responseOf = none :=
      List.findSome?_eq_none_iff.mpr (responseOf_payload hrun)
    rw [hreplies, List.forall_mem_append, List.forall_mem_singleton, List.findSome?_append, hnone]
    cases ret with
    | true => exact iff_of_true ⟨hfirst, [], rfl⟩ rfl
    | false =>
      refine iff_of_false ?_ Bool.false_ne_true
      rintro ⟨-, data, hdata⟩
      cases hdata
  rw [hfine, hstate]
  constructor
  · rintro ⟨rfl, rfl⟩
    exact ⟨env, ctx', events, hlast, hrun, rfl⟩
  · rintro ⟨env', ctx'', events', henv, hrun', rfl⟩
    obtain rfl := Option.some.inj (hlast.symm.trans henv)
    obtain ⟨rfl, rfl, rfl⟩ : ret = true ∧ ctx' = ctx'' ∧ events = events' := by
      simpa using hrun.symm.trans hrun'
    exact ⟨rfl, rfl⟩

end

theorem storedAfter_append {sdk : Sdk} {w w' : World} {xs ys : List (Command × Env)} :
    storedAfter sdk w (xs ++ ys) = some w' ↔
      ∃ w₁, storedAfter sdk w xs = some w₁ ∧ storedAfter sdk w₁ ys = some w' := by
  have hinputs : commandInputs (xs ++ ys) = commandInputs xs ++ commandInputs ys :=
    List.map_append
  unfold storedAfter
  rw [hinputs, Machine.attempt_append]
  exact Option.bind_eq_some_iff

/-! ## 6. The batch is stored -/

/-- The batch, and nothing signed yet. -/
structure Stores (b : Batch) (ctx : HlContext) : Prop where
  metadata : ctx.metadata = some b.metadata
  elems : ctx.actions.elems = b.actions.map SetAction.sent
  unstarted : ctx.actionIndex = 0

/-- With the payload handed over. -/
theorem Idle.handed {w : World} (h : Idle w) (ctx' : HlContext) :
    Idle { w with payload := {}, ctx := ctx' } := ⟨h.running, h.on, h.review, rfl⟩

section

variable {sdk : Sdk} (h : Understands sdk) {m : ActionMetadata}

include h

/-- If what a client sends as metadata is stored, these metadata are. -/
theorem loaded_of_signedMetadata {sig : Bytes} {env : Env} {ctx ctx' : HlContext}
    {events : List Event} (hm : MetadataAllowed m) (hsig : SignatureAllowed sig)
    (hrun : runPayloadHandler sdk env .parseActionMetadata (signedMetadata m sig) ctx =
      .ok (true, ctx', events)) :
    ctx.actionIndex = 0 ∧ ctx' = { metadata := some m } := by
  have hpayload := wellFormed_signedMetadata h hm hsig
  obtain ⟨⟨ret, ctx₁, reset⟩, hparse, hout⟩ := bind_ok_iff.mp hrun
  cases hout
  rcases parseActionMetadata_accepts sdk env (signedMetadata m sig) hpayload.nonempty ctx with
    ⟨m', ⟨ds, sig', hpayload', -⟩, -, hparse'⟩ | ⟨-, hparse'⟩
  · obtain rfl := Option.some.inj (hpayload.elements.symm.trans hpayload'.elements)
    have hsame : m' = m := by
      rw [← hpayload.decodes.readMetadata_eq, ← hpayload'.decodes.readMetadata_eq]
    rw [hparse] at hparse'
    by_cases hfirst : ctxCurrentActionIsFirst ctx = true
    · rw [if_pos hfirst] at hparse'
      cases hparse'
      exact ⟨beq_iff_eq.mp hfirst, by rw [hsame]⟩
    · rw [if_neg hfirst] at hparse'
      cases hparse'
  · cases hparse.symm.trans hparse'

/-- If what a client sends as actions is stored, these actions are, in this order. -/
theorem stored_actions {actions : List SetAction} {w w' : World} {sent : List (Command × Env)}
    (hactions : ∀ s ∈ actions, s.action.Allowed m.assetId)
    (hsent : sent.map Prod.fst = actions.flatMap fun s => chunkedCommands .parseAction s.serialize)
    (hw : Idle w) (hm : w.ctx.metadata = some m) (hstored : storedAfter sdk w sent = some w') :
    Idle w' ∧ w'.ctx.metadata = some m ∧ w'.ctx.actionIndex = w.ctx.actionIndex ∧
      w'.ctx.actions.elems = w.ctx.actions.elems ++ actions.map SetAction.sent := by
  induction actions generalizing w sent with
  | nil =>
    obtain rfl := List.map_eq_nil_iff.mp hsent
    cases hstored
    exact ⟨hw, hm, rfl, (List.append_nil _).symm⟩
  | cons s actions ih =>
    obtain ⟨hs, hrest⟩ := List.forall_mem_cons.mp hactions
    rw [List.flatMap_cons] at hsent
    obtain ⟨first, others, rfl, hfirst, hothers⟩ := List.map_eq_append_iff.mp hsent
    obtain ⟨w₁, hstored₁, hstored⟩ := storedAfter_append.mp hstored
    obtain ⟨-, env, ctx', events, -, hrun, rfl⟩ := (storedAfter_payload hfirst hw
      s.length_serialize_pos (s.length_serialize_le.trans (by decide))).mp hstored₁
    obtain ⟨⟨ret, ctx₁⟩, hparse, hout⟩ := bind_ok_iff.mp hrun
    cases hout
    obtain ⟨hmd, helems, hindex⟩ := appended_of_sent h hm hs hparse
    obtain ⟨hw', hm', hindex', helems'⟩ :=
      ih hrest hothers (hw.handed ctx') (hmd.trans hm) hstored
    refine ⟨hw', hm', hindex'.trans hindex, ?_⟩
    rw [helems', helems, List.append_assoc]
    rfl

/-- If all commands of the client are answered with success, the batch is stored, and signing had
not started before. -/
theorem stored_batch {b : Batch} {w w' : World} {sent : List (Command × Env)} (hb : b.Allowed)
    (hsent : sent.map Prod.fst = b.commands) (hw : Idle w)
    (hstored : storedAfter sdk w sent = some w') :
    Idle w' ∧ Stores b w'.ctx ∧ w.ctx.actionIndex = 0 := by
  have hfits := length_signedMetadata_le b.metadata hb.sig
  have hpos : 0 < (signedMetadata b.metadata b.sig).length :=
    List.length_pos_of_ne_nil (wellFormed_signedMetadata h hb.metadata hb.sig).nonempty
  obtain ⟨first, others, rfl, hfirst, hothers⟩ := List.map_eq_append_iff.mp hsent
  obtain ⟨w₁, hstored₁, hstored⟩ := storedAfter_append.mp hstored
  obtain ⟨-, env, ctx', events, -, hrun, rfl⟩ := (storedAfter_payload hfirst hw hpos
    (by rw [payloadBufferSize]; omega)).mp hstored₁
  obtain ⟨hzero, rfl⟩ := loaded_of_signedMetadata h hb.metadata hb.sig hrun
  obtain ⟨hw', hm, hindex, helems⟩ :=
    stored_actions h hb.actions hothers (hw.handed _) rfl hstored
  exact ⟨hw', ⟨hm, helems, hindex⟩, hzero⟩

end

end Hyperliquid.Client

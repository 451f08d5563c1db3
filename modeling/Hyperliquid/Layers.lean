/-
# The application over whole payloads

Two of the commands bring a payload in chunks, and the rest of the application never looks at
them: it works on payloads.  The layered application says so.  Its lower layer is the transfer of
`Transfer.accept`, which collects the bytes of one payload; its upper layer is the application
without a chunk buffer, to which a payload is delivered whole.  The deliveries are events of their
own, so that a run shows which payloads were handed over and what became of them.

The application refines it (`app_layered`): in every run its chunk buffer represents the transfer,
the rest of its state is the upper layer, and its events are those of the layered application with
the deliveries left out.  So it does not matter how a payload was cut: any two ways to send it end
in the same state and the same answer (`payload_cut_anyhow`).
-/
import Hyperliquid.ClientTransfer
import Hyperliquid.Queries

namespace Hyperliquid

open Lib

/-! ## 1. The layered application -/

/-- The handler of the payload that a command brings a chunk of. -/
def Command.chunkFor (cmd : Command) : Option PayloadHandler :=
  if !cmd.updates then none
  else if cmd.ins == insProvideActionMetadata then some .parseActionMetadata
  else if cmd.ins == insSetAction then some .parseAction
  else none

/-- A chunk, with its handler and the command's surroundings. -/
structure Chunk where
  handler : PayloadHandler
  first : Bool
  data : Bytes
  env : Env

/-- The chunk that an input brings, if it does. -/
def Input.chunk : Input → Option Chunk
  | .apdu (some cmd) env =>
    cmd.chunkFor.map fun handler => ⟨handler, cmd.p1 == p1First, cmd.data, env⟩
  | .apdu none _ | .recvFailure | .choice _ _ => none

/-- A payload was delivered to its handler, which accepted it or not; or something is seen of the
application. -/
inductive LayerEvent where
  | delivered (handler : PayloadHandler) (payload : Bytes) (accepted : Bool)
  | seen (e : Event)

/-- What is seen of the application. -/
def LayerEvent.event : LayerEvent → Option Event
  | .delivered _ _ _ => none
  | .seen e => some e

structure Layered where
  transfer : Transfer PayloadHandler := .idle
  /-- Its chunk buffer stays empty. -/
  world : World := {}

/-- The loop goes on, unless the response could not be sent. -/
def World.answered (env : Env) (w : World) : World :=
  if env.send < 0 then { w with running := false } else w

section

variable (sdk : Sdk)

/-- A whole payload. -/
def deliver (env : Env) (handler : PayloadHandler) (payload : Bytes) (w : World) :
    World × List LayerEvent :=
  match runPayloadHandler sdk env handler payload w.ctx with
  | .error _ => ({ w with running := false, faulted := true }, [])
  | .ok (ret, ctx, events) =>
    ({ w with ctx := ctx }.answered env,
      events.map .seen ++
        [.delivered handler payload ret,
          .seen (.response [] (if ret then .success else .incorrectData))])

/-- A chunk: it is refused, and the transfer given up; or it completes a payload; or more chunks
are to come. -/
def receive (c : Chunk) (s : Layered) : Layered × List LayerEvent :=
  match s.transfer.accept c.first (some c.data) c.handler with
  | none => (⟨.idle, s.world.answered c.env⟩, [.seen (.response [] .incorrectData)])
  | some (n, acc) =>
    if acc.length = n then
      let r := deliver sdk c.env c.handler acc s.world
      (⟨.idle, r.1⟩, r.2)
    else
      (⟨.collecting c.handler n acc, s.world.answered c.env⟩, [.seen (.response [] .success)])

/-- The chunk that is received, if commands are. -/
def World.receives (w : World) (i : Input) : Option Chunk :=
  if w.running && w.commEnabled then i.chunk else none

def layeredStep (s : Layered) (i : Input) : Layered × List LayerEvent :=
  match s.world.receives i with
  | some c => receive sdk c s
  | none => (⟨s.transfer, (appMainStep sdk s.world i).1⟩,
      (appMainStep sdk s.world i).2.map .seen)

def layered : Machine Layered Input LayerEvent where
  init := {}
  step := layeredStep sdk

end

/-! ## 2. Everything but chunks leaves the chunk buffer alone -/

def World.withPayload (p : ChunkedPayload PayloadHandler) (w : World) : World :=
  { w with payload := p }

def Outcome.withPayload (p : ChunkedPayload PayloadHandler) (r : Outcome) : Outcome :=
  { r with world := r.world.withPayload p }

section

variable (sdk : Sdk) (env : Env) (p : ChunkedPayload PayloadHandler) (w : World)

theorem signAction_withPayload :
    signAction sdk env (w.withPayload p) = (signAction sdk env w).withPayload p := by
  unfold signAction
  have hcurrent : ctxGetCurrentAction (w.withPayload p).ctx = ctxGetCurrentAction w.ctx := rfl
  have hmetadata : ctxGetActionMetadata (w.withPayload p).ctx = ctxGetActionMetadata w.ctx := rfl
  rw [hcurrent, hmetadata]
  split
  · rfl
  · rename_i a _
    split
    · rfl
    · rename_i m _
      have hrun : runCx env (signWith sdk a m (w.withPayload p).signing) (w.withPayload p) =
          ((runCx env (signWith sdk a m w.signing) w).1,
            (runCx env (signWith sdk a m w.signing) w).2.1.withPayload p,
            (runCx env (signWith sdk a m w.signing) w).2.2) := rfl
      rw [hrun]
      generalize runCx env (signWith sdk a m w.signing) w = run
      obtain ⟨sig, w', calls⟩ := run
      cases sig with
      | none => rfl
      | some sig =>
        let last := env.send ≥ 0 && ctxRemainingActions (ctxSwitchToNextAction w'.ctx) == 0
        show (if last = true then _ else _) = Outcome.withPayload p (if last = true then _ else _)
        split <;> rfl

theorem handlerSignAction_withPayload (data : Bytes) :
    handlerSignAction sdk env data (w.withPayload p) =
      (handlerSignAction sdk env data w).withPayload p := by
  unfold handlerSignAction
  split
  · rfl
  · rename_i pathLength rest
    split
    · rfl
    · rename_i path _
      show (if ctxCurrentActionIsFirst w.ctx = true then _ else _) =
        Outcome.withPayload p (if ctxCurrentActionIsFirst w.ctx = true then _ else _)
      split
      · show (if (ctxRemainingActions w.ctx == 0) = true then _ else _) =
          Outcome.withPayload p (if (ctxRemainingActions w.ctx == 0) = true then _ else _)
        split
        · rfl
        · simp only [runCx_deriveAddrFromPath]
          cases (derivation sdk env).1 with
          | none => rfl
          | some addr =>
            dsimp only [World.withPayload]
            split <;> rfl
      · show (if (pathLength != w.signing.bip32PathLength ||
            path != w.signing.bip32Path) = true then _ else _) =
          Outcome.withPayload p (if (pathLength != w.signing.bip32PathLength ||
            path != w.signing.bip32Path) = true then _ else _)
        split
        · rfl
        · exact signAction_withPayload sdk env p w

theorem reviewChoice_withPayload (confirm : Bool) :
    reviewChoice sdk env confirm (w.withPayload p) =
      ((reviewChoice sdk env confirm w).1.withPayload p, (reviewChoice sdk env confirm w).2) := by
  cases confirm with
  | false => rfl
  | true =>
    let answered : World := { w with commEnabled := true, review := none }
    have hsign : signAction sdk env (answered.withPayload p) =
        (signAction sdk env answered).withPayload p := signAction_withPayload sdk env p answered
    have hleft : reviewChoice sdk env true (w.withPayload p) =
        (let r := (signAction sdk env (answered.withPayload p)).after [.choice true]
         if r.ret != -1 then (r.world, r.events ++ [.reviewStatus])
         else ({ r.world with ctx := ctxReset }, r.events ++ [.ctxReset, .menuMain])) := rfl
    have hright : reviewChoice sdk env true w =
        (let r := (signAction sdk env answered).after [.choice true]
         if r.ret != -1 then (r.world, r.events ++ [.reviewStatus])
         else ({ r.world with ctx := ctxReset }, r.events ++ [.ctxReset, .menuMain])) := rfl
    rw [hleft, hright, hsign]
    generalize signAction sdk env answered = r
    obtain ⟨ret, v, events⟩ := r
    dsimp only [Outcome.after, Outcome.withPayload]
    split <;> rfl

end

section

variable {sdk : Sdk} {env : Env} {cmd : Command} {handler : PayloadHandler}

/-- The commands that are handed to a handler that may change the state. -/
theorem updates_cases (h : cmd.updates = true) :
    ∃ b data, (∃ handler p1, (p1 = p1First ∨ p1 = p1Following) ∧
        cmd = ⟨cla, PayloadHandler.ins handler, p1, 0, b :: data⟩) ∨
      cmd = ⟨cla, insSignAction, 0, 0, b :: data⟩ := by
  obtain ⟨cla, ins, p1, p2, data⟩ := cmd
  simp only [Command.updates, Bool.and_eq_true, Bool.or_eq_true, beq_iff_eq,
    Bool.not_eq_true', List.isEmpty_eq_false_iff] at h
  obtain ⟨⟨⟨rfl, rfl⟩, hdata⟩, hins⟩ := h
  obtain ⟨b, data, rfl⟩ := List.exists_cons_of_ne_nil hdata
  refine ⟨b, data, ?_⟩
  rcases hins with ⟨rfl | rfl, hp1⟩ | ⟨rfl, rfl⟩
  · exact .inl ⟨.parseActionMetadata, p1, hp1, rfl⟩
  · exact .inl ⟨.parseAction, p1, hp1, rfl⟩
  · exact .inr rfl

/-- A command with a chunk is one that provides a payload. -/
theorem provides_of_chunkFor (h : cmd.chunkFor = some handler) : cmd.Provides handler := by
  have hupdates : cmd.updates = true := by
    by_contra hno
    simp [Command.chunkFor, hno] at h
  obtain ⟨b, data, ⟨handler', p1, hp1, rfl⟩ | rfl⟩ := updates_cases hupdates
  · obtain rfl : handler' = handler := by
      rcases hp1 with rfl | rfl
      · cases handler' <;> cases h <;> rfl
      · cases handler' <;> cases h <;> rfl
    exact ⟨rfl, rfl, hp1, rfl, List.cons_ne_nil b data⟩
  · cases h

/-- A command with a chunk is handed to the handler of chunks. -/
theorem apduDispatcher_chunk (h : cmd.chunkFor = some handler) (w : World) :
    apduDispatcher sdk env cmd w =
      handlerChunked sdk handler env (cmd.p1 == p1First) cmd.data w :=
  (provides_of_chunkFor h).dispatched sdk env w

variable (sdk env) in
/-- Every other command is a query or a request to sign. -/
theorem dispatcher_unchunked (h : cmd.chunkFor = none) :
    Invisible env (apduDispatcher sdk env cmd) ∨
      ∀ w, apduDispatcher sdk env cmd w = .ok (handlerSignAction sdk env cmd.data w) := by
  cases hupdates : cmd.updates with
  | true =>
    obtain ⟨b, data, ⟨handler, p1, hp1, rfl⟩ | rfl⟩ := updates_cases hupdates
    · rcases hp1 with rfl | rfl
      · cases handler <;> cases h
      · cases handler <;> cases h
    · exact .inr fun _ => rfl
  | false => exact .inl (apduDispatcher_query sdk env hupdates)

theorem apduDispatcher_withPayload (h : cmd.chunkFor = none)
    (p : ChunkedPayload PayloadHandler) (w : World) :
    apduDispatcher sdk env cmd (w.withPayload p) =
      (apduDispatcher sdk env cmd w).map (Outcome.withPayload p) := by
  rcases dispatcher_unchunked sdk env h with ⟨events, -, hquery⟩ | hsign
  · rw [hquery, hquery]
    rfl
  · rw [hsign, hsign, handlerSignAction_withPayload]
    rfl

/-! ## 3. The refinement -/

variable {w : World} {i : Input} {c : Chunk}

variable (sdk) in
/-- A step that receives no chunk. -/
theorem appMainStep_withPayload (h : w.receives i = none) (p : ChunkedPayload PayloadHandler) :
    appMainStep sdk (w.withPayload p) i =
      ((appMainStep sdk w i).1.withPayload p, (appMainStep sdk w i).2) := by
  by_cases hrun : w.running = true
  · have hrun' : (w.withPayload p).running = true := hrun
    cases i with
    | recvFailure => simp only [appMainStep, hrun, hrun']; rfl
    | choice confirm env =>
      have hreview : (w.withPayload p).review = w.review := rfl
      simp only [appMainStep, hrun, hrun', hreview]
      cases w.review with
      | none => rfl
      | some screen => exact reviewChoice_withPayload sdk env p w confirm
    | apdu cmd env =>
      simp only [appMainStep, hrun, hrun', appMainApdu]
      by_cases hon : w.commEnabled = true
      · have hon' : (w.withPayload p).commEnabled = true := hon
        rw [hon, hon']
        cases cmd with
        | none => rfl
        | some cmd =>
          have hchunk : cmd.chunkFor = none := by
            simpa [World.receives, hrun, hon, Input.chunk] using h
          dsimp only
          rw [apduDispatcher_withPayload hchunk p w]
          cases apduDispatcher sdk env cmd w with
          | error e => rfl
          | ok r =>
            obtain ⟨ret, w', events⟩ := r
            dsimp only [Except.map, Outcome.withPayload]
            by_cases hret : ret < 0
            · rw [if_pos hret, if_pos hret]
              rfl
            · rw [if_neg hret, if_neg hret]
              rfl
      · have hon' : ¬ (w.withPayload p).commEnabled = true := hon
        rw [if_neg hon, if_neg hon']
        rfl
  · have hrun' : ¬ (w.withPayload p).running = true := hrun
    simp [appMainStep, hrun, hrun']

/-- A step that receives a chunk. -/
theorem appMainStep_chunk {r : Outcome} (h : w.receives i = some c)
    (hr : handlerChunked sdk c.handler c.env c.first c.data w = .ok r) :
    appMainStep sdk w i =
      (if r.ret < 0 then { r.world with running := false } else r.world, r.events) := by
  unfold World.receives at h
  split at h
  · rename_i hcond
    obtain ⟨hrun, hon⟩ : w.running = true ∧ w.commEnabled = true := by simpa using hcond
    cases i with
    | recvFailure => cases h
    | choice confirm env => cases h
    | apdu cmd env =>
      cases cmd with
      | none => cases h
      | some cmd =>
        obtain ⟨handler, hhandler, rfl⟩ := Option.map_eq_some_iff.mp h
        have hdispatch := (apduDispatcher_chunk hhandler w).trans hr
        simp [appMainStep, appMainApdu, hrun, hon, hdispatch]
  · cases h

/-- The chunk buffer represents the transfer, and the rest of the state is the upper layer. -/
structure Layered.Represents (w : World) (s : Layered) : Prop where
  transfer : w.payload.Represents s.transfer
  world : s.world = w.withPayload {}

/-- After a response. -/
theorem represents_answered {t : Transfer PayloadHandler} (env : Env)
    (h : w.payload.Represents t) :
    Layered.Represents (if env.send < 0 then { w with running := false } else w)
      ⟨t, (w.withPayload {}).answered env⟩ := by
  unfold World.answered
  split
  · exact ⟨h, rfl⟩
  · exact ⟨h, rfl⟩

/-- One step of the application is one step of the layered application. -/
theorem layeredStep_represents {s : Layered} (h : Layered.Represents w s) (i : Input) :
    Layered.Represents (appMainStep sdk w i).1 (layeredStep sdk s i).1 ∧
      (appMainStep sdk w i).2 = (layeredStep sdk s i).2.filterMap LayerEvent.event := by
  obtain ⟨transfer, world⟩ := s
  obtain ⟨hrep, hworld⟩ := h
  obtain rfl : world = w.withPayload {} := hworld
  have hseen : ∀ events : List Event,
      (events.map LayerEvent.seen).filterMap LayerEvent.event = events := by
    intro events
    rw [List.filterMap_map]
    exact List.filterMap_some
  have hreceives : (w.withPayload {}).receives i = w.receives i := rfl
  unfold layeredStep
  dsimp only
  rw [hreceives]
  cases hchunk : w.receives i with
  | none =>
    have hstep := appMainStep_withPayload sdk hchunk w.payload
    have hpayload : (appMainStep sdk w i).1.payload = w.payload :=
      congrArg (fun r => r.1.payload) hstep
    dsimp only
    rw [appMainStep_withPayload sdk hchunk, hseen]
    exact ⟨⟨hpayload ▸ hrep, rfl⟩, rfl⟩
  | some c =>
    dsimp only [receive]
    cases haccept : transfer.accept c.first (some c.data) c.handler with
    | none =>
      rw [appMainStep_chunk hchunk (handlerChunked_rejected hrep haccept)]
      exact ⟨represents_answered (w := { w with payload := {} }) c.env rfl, rfl⟩
    | some x =>
      obtain ⟨n, acc⟩ := x
      dsimp only
      by_cases hn : acc.length = n
      · rw [if_pos hn]
        obtain ⟨⟨ret, ctx', events⟩, hrun⟩ :=
          runPayloadHandler_returns sdk c.env c.handler acc w.ctx
        have hrun' : runPayloadHandler sdk c.env c.handler acc (w.withPayload {}).ctx =
            .ok (ret, ctx', events) := hrun
        rw [appMainStep_chunk hchunk (handlerChunked_complete hrep haccept hn hrun), deliver,
          hrun']
        refine ⟨represents_answered (w := { w with payload := {}, ctx := ctx' }) c.env rfl, ?_⟩
        dsimp only
        rw [List.filterMap_append, hseen]
        rfl
      · rw [if_neg hn]
        obtain ⟨payload', hrep', hr⟩ := handlerChunked_partial hrep haccept hn
        rw [appMainStep_chunk hchunk hr]
        exact ⟨represents_answered (w := { w with payload := payload' }) c.env hrep', rfl⟩

end

/-- Commands are received while no review is on the screen. -/
theorem commEnabled_state (sdk : Sdk) {inputs : List Input}
    (hreview : ((app sdk).state inputs).review = none) :
    ((app sdk).state inputs).commEnabled = true := by
  have hcomm : ((app sdk).state inputs).Comm := (app_refines sdk).inv_state inputs
  rw [hcomm, hreview]
  rfl

/-- No transfer is in progress while no handler waits for bytes. -/
theorem represents_idle_state (sdk : Sdk) {inputs : List Input}
    (hidle : ((app sdk).state inputs).payload.handler = none) :
    ((app sdk).state inputs).payload.Represents .idle := by
  obtain ⟨t, hrep⟩ := payloadOk_state sdk inputs
  cases t with
  | idle => exact hrep
  | collecting handler n acc =>
    rw [hrep.1.handler] at hidle
    cases hidle

theorem layered_simulates (sdk : Sdk) :
    (app sdk).Simulates (layered sdk) Layered.Represents some LayerEvent.event where
  init := ⟨rfl, rfl⟩
  state := fun _ _ i h => (layeredStep_represents h i).1
  events := fun _ _ i h => List.filterMap_some.trans (layeredStep_represents h i).2

/-- In every run the chunk buffer of the application represents the transfer of the layered one,
the rest of its state is the state of the layered one, and its events are the events of the
layered one without the deliveries. -/
theorem app_layered (sdk : Sdk) (inputs : List Input) :
    ((app sdk).state inputs).payload.Represents ((layered sdk).state inputs).transfer ∧
    ((layered sdk).state inputs).world = ((app sdk).state inputs).withPayload {} ∧
    (app sdk).trace inputs = ((layered sdk).trace inputs).filterMap LayerEvent.event := by
  obtain ⟨hstate, htrace⟩ := (layered_simulates sdk).run inputs
  exact ⟨hstate.transfer, hstate.world, List.filterMap_some.symm.trans htrace⟩

/-! ## 4. A payload may be cut anyhow -/

/-- A part of a payload, and the surroundings of the command that brings it. -/
abbrev Part : Type := Bytes × Env

/-- The payload that the parts make. -/
def joined (parts : List Part) : Bytes := (parts.map Prod.fst).flatten

/-- The commands that bring the parts after the first. -/
def followingParts (handler : PayloadHandler) (parts : List Part) : List Input :=
  parts.map fun p => .apdu (some ⟨cla, handler.ins, p1Following, 0, p.1⟩) p.2

/-- The commands that bring a payload: the size of all of it goes before the first part. -/
def sendParts (handler : PayloadHandler) (part : Part) (parts : List Part) : List Input :=
  .apdu (some ⟨cla, handler.ins, p1First, 0,
      Msgpack.beBytes 2 (joined (part :: parts)).length ++ part.1⟩) part.2 ::
    followingParts handler parts

/-- The surroundings of the last command. -/
def lastEnv : Env → List Part → Env
  | env, [] => env
  | _, p :: parts => lastEnv p.2 parts

/-- Responses can be sent, and every part after the first brings something. -/
structure Sendable (part : Part) (parts : List Part) : Prop where
  sends : ∀ p ∈ part :: parts, 0 ≤ p.2.send
  ne_nil : ∀ p ∈ parts, p.1 ≠ []

/-- The payload was handed over after so many parts: what its handler did, and the answers. -/
def handedOver (w : World) (before : Nat) (ret : Bool) (ctx' : HlContext) (events : List Event) :
    World × List Event :=
  ({ w with payload := {}, ctx := ctx' },
    List.replicate before (.response [] .success) ++
      (events ++ [.response [] (if ret then .success else .incorrectData)]))

section

variable {sdk : Sdk} {w : World} {i : Input} {c : Chunk} {t : Transfer PayloadHandler} {n : Nat}
  {acc : Bytes} {handler : PayloadHandler} {ret : Bool} {ctx' : HlContext} {events : List Event}

variable (sdk) in
/-- A chunk with more to come. -/
theorem step_partial (h : w.receives i = some c) (hsend : 0 ≤ c.env.send)
    (hrep : w.payload.Represents t)
    (haccept : t.accept c.first (some c.data) c.handler = some (n, acc)) (hn : acc.length ≠ n) :
    ∃ payload', payload'.Represents (.collecting c.handler n acc) ∧
      (app sdk).step w i = (w.withPayload payload', [.response [] .success]) := by
  obtain ⟨payload', hrep', hr⟩ : ∃ payload',
      payload'.Represents (.collecting c.handler n acc) ∧
      handlerChunked sdk c.handler c.env c.first c.data w =
        .ok (ioSendSw c.env .success { w with payload := payload' }) :=
    handlerChunked_partial hrep haccept hn
  have hret : ¬ c.env.send < 0 := Int.not_lt.mpr hsend
  exact ⟨payload', hrep', (appMainStep_chunk h hr).trans (Prod.ext (if_neg hret) rfl)⟩

/-- The last chunk. -/
theorem step_complete (h : w.receives i = some c) (hsend : 0 ≤ c.env.send)
    (hrep : w.payload.Represents t)
    (haccept : t.accept c.first (some c.data) c.handler = some (n, acc)) (hn : acc.length = n)
    (hrun : runPayloadHandler sdk c.env c.handler acc w.ctx = .ok (ret, ctx', events)) :
    (app sdk).step w i = ({ w with payload := {}, ctx := ctx' },
      events ++ [.response [] (if ret then .success else .incorrectData)]) := by
  have hret : ¬ c.env.send < 0 := Int.not_lt.mpr hsend
  exact (appMainStep_chunk h (handlerChunked_complete hrep haccept hn hrun)).trans
    (Prod.ext (if_neg hret) rfl)

/-- A command with a part is received. -/
theorem receives_part (hrun : w.running = true) (hon : w.commEnabled = true) {p1 : UInt8}
    (hp1 : p1 = p1First ∨ p1 = p1Following) {data : Bytes} (hne : data ≠ []) (env : Env) :
    w.receives (.apdu (some ⟨cla, PayloadHandler.ins handler, p1, 0, data⟩) env) =
      some ⟨handler, p1 == p1First, data, env⟩ := by
  obtain ⟨b, data, rfl⟩ := List.exists_cons_of_ne_nil hne
  rw [World.receives, hrun, hon]
  rcases hp1 with rfl | rfl
  · cases handler <;> rfl
  · cases handler <;> rfl

theorem joined_nil : joined [] = [] := rfl

theorem joined_cons (part : Part) (parts : List Part) :
    joined (part :: parts) = part.1 ++ joined parts := by
  simp [joined]

theorem joined_pos {parts : List Part} (hne : ∀ p ∈ parts, p.1 ≠ []) (hparts : parts ≠ []) :
    0 < (joined parts).length := by
  obtain ⟨q, qs, rfl⟩ := List.exists_cons_of_ne_nil hparts
  have hq := List.length_pos_of_ne_nil (hne q List.mem_cons_self)
  rw [joined_cons, List.length_append]
  omega

/-- The inputs bring a payload: each command before the last is answered with success, and the
last one hands the payload over. -/
structure Delivered (sdk : Sdk) (w : World) (inputs : List Input) (before : Nat) (ret : Bool)
    (ctx' : HlContext) (events : List Event) : Prop where
  state : ((app sdk).runFrom w inputs).1 = { w with payload := {}, ctx := ctx' }
  replies : (app sdk).replies w inputs =
    List.replicate before [.response [] .success] ++
      [events ++ [.response [] (if ret then .success else .incorrectData)]]

theorem Delivered.runFrom {inputs : List Input} {before : Nat}
    (h : Delivered sdk w inputs before ret ctx' events) :
    (app sdk).runFrom w inputs = handedOver w before ret ctx' events := by
  have hevents := (app sdk).runFrom_eq_replies w inputs
  rw [h.replies, List.flatten_append, List.flatten_replicate_singleton, List.flatten_singleton]
    at hevents
  exact Prod.ext h.state hevents

/-- A part that is accepted, and the commands that bring the others, if there are any. -/
theorem delivered_part {first : Bool} {data : Bytes} {env : Env} {parts : List Part}
    (hreceives : w.receives i = some ⟨handler, first, data, env⟩) (hsend : 0 ≤ env.send)
    (hrep : w.payload.Represents t)
    (haccept : t.accept first (some data) handler = some (n, acc))
    (hn : acc.length + (joined parts).length = n) (hne : ∀ p ∈ parts, p.1 ≠ [])
    (hrun : runPayloadHandler sdk (lastEnv env parts) handler (acc ++ joined parts) w.ctx =
      .ok (ret, ctx', events))
    (hrest : parts ≠ [] → ∀ payload' : ChunkedPayload PayloadHandler,
      payload'.Represents (.collecting handler n acc) →
      Delivered sdk (w.withPayload payload') (followingParts handler parts) (parts.length - 1)
        ret ctx' events) :
    Delivered sdk w (i :: followingParts handler parts) parts.length ret ctx' events := by
  cases parts with
  | nil =>
    rw [joined_nil, List.append_nil] at hrun
    have hstep := step_complete hreceives hsend hrep haccept hn hrun
    constructor
    · rw [Machine.runFrom_cons, hstep]
      rfl
    · rw [Machine.replies_cons, hstep]
      rfl
  | cons q qs =>
    have hmore := joined_pos hne (List.cons_ne_nil q qs)
    obtain ⟨payload', hrep', hstep⟩ :=
      step_partial sdk hreceives hsend hrep haccept (by omega)
    obtain ⟨hstate, hreplies⟩ := hrest (List.cons_ne_nil q qs) payload' hrep'
    constructor
    · rw [Machine.runFrom_cons, hstep]
      exact hstate
    · rw [Machine.replies_cons, hstep, hreplies]
      rfl

/-- The parts after the first: the last one hands the payload over. -/
theorem delivered_followingParts {part : Part} {parts : List Part} (hrunning : w.running = true)
    (hon : w.commEnabled = true) (hrep : w.payload.Represents (.collecting handler n acc))
    (hn : acc.length + (joined (part :: parts)).length = n)
    (hsends : ∀ p ∈ part :: parts, 0 ≤ p.2.send) (hne : ∀ p ∈ part :: parts, p.1 ≠ [])
    (hrun : runPayloadHandler sdk (lastEnv part.2 parts) handler
      (acc ++ joined (part :: parts)) w.ctx = .ok (ret, ctx', events)) :
    Delivered sdk w (followingParts handler (part :: parts)) parts.length ret ctx' events := by
  induction parts generalizing part acc w with
  | nil =>
    have hpart : part.1 ≠ [] := hne part List.mem_cons_self
    rw [joined_cons, List.length_append] at hn
    rw [joined_cons, ← List.append_assoc] at hrun
    have haccept : (Transfer.collecting handler n acc).accept false (some part.1) handler =
        some (n, acc ++ part.1) := if_pos ⟨rfl, hpart, by omega⟩
    exact delivered_part (receives_part hrunning hon (.inr rfl) hpart part.2)
      (hsends part List.mem_cons_self) hrep haccept (by rw [List.length_append]; omega)
      (by simp) hrun (fun h => absurd rfl h)
  | cons q qs ih =>
    have hpart : part.1 ≠ [] := hne part List.mem_cons_self
    have hqs : ∀ p ∈ q :: qs, p.1 ≠ [] := fun p hp => hne p (List.mem_cons_of_mem part hp)
    rw [joined_cons, List.length_append] at hn
    rw [joined_cons, ← List.append_assoc] at hrun
    have hn' : (acc ++ part.1).length + (joined (q :: qs)).length = n := by
      rw [List.length_append]
      omega
    have haccept : (Transfer.collecting handler n acc).accept false (some part.1) handler =
        some (n, acc ++ part.1) := if_pos ⟨rfl, hpart, by omega⟩
    refine delivered_part (receives_part hrunning hon (.inr rfl) hpart part.2)
      (hsends part List.mem_cons_self) hrep haccept hn' hqs hrun ?_
    intro _ payload' hrep'
    exact ih (w := w.withPayload payload') hrunning hon hrep' hn'
      (fun p hp => hsends p (List.mem_cons_of_mem part hp)) hqs hrun

/-- All parts of a payload, from an idle transfer. -/
theorem delivered_sendParts {part : Part} {parts : List Part} (hrunning : w.running = true)
    (hon : w.commEnabled = true) (hrep : w.payload.Represents .idle)
    (hparts : Sendable part parts) (hpos : 0 < (joined (part :: parts)).length)
    (hfits : (joined (part :: parts)).length ≤ payloadBufferSize)
    (hrun : runPayloadHandler sdk (lastEnv part.2 parts) handler (joined (part :: parts)) w.ctx =
      .ok (ret, ctx', events)) :
    Delivered sdk w (sendParts handler part parts) parts.length ret ctx' events := by
  have hn : part.1.length + (joined parts).length = (joined (part :: parts)).length := by
    rw [joined_cons, List.length_append]
  have haccept : (Transfer.idle : Transfer PayloadHandler).accept true
      (some (Msgpack.beBytes 2 (joined (part :: parts)).length ++ part.1)) handler =
        some ((joined (part :: parts)).length, part.1) :=
    Client.accept_first part.1 hpos hfits (by omega)
  refine delivered_part (receives_part hrunning hon (.inl rfl) (List.cons_ne_nil _ _) part.2)
    (hparts.sends part List.mem_cons_self) hrep haccept hn hparts.ne_nil
    (joined_cons part parts ▸ hrun) ?_
  intro hne payload' hrep'
  obtain ⟨q, qs, rfl⟩ := List.exists_cons_of_ne_nil hne
  exact delivered_followingParts (w := w.withPayload payload') hrunning hon hrep' hn
    (fun p hp => hparts.sends p (List.mem_cons_of_mem part hp)) hparts.ne_nil
    (joined_cons part (q :: qs) ▸ hrun)

/-- The run of all parts. -/
theorem runFrom_sendParts {part : Part} {parts : List Part} (hrunning : w.running = true)
    (hon : w.commEnabled = true) (hrep : w.payload.Represents .idle)
    (hparts : Sendable part parts) (hpos : 0 < (joined (part :: parts)).length)
    (hfits : (joined (part :: parts)).length ≤ payloadBufferSize)
    (hrun : runPayloadHandler sdk (lastEnv part.2 parts) handler (joined (part :: parts)) w.ctx =
      .ok (ret, ctx', events)) :
    (app sdk).runFrom w (sendParts handler part parts) =
      handedOver w parts.length ret ctx' events :=
  (delivered_sendParts hrunning hon hrep hparts hpos hfits hrun).runFrom

end

/-- In every reachable state in which commands are received and no transfer is in progress, and
for either handler: two ways to cut one payload, whatever the surroundings of the commands before
the last, end in the same state, and after the answers to the parts before the last the same
events follow. -/
theorem payload_cut_anyhow (sdk : Sdk) (inputs : List Input) (handler : PayloadHandler)
    (part part' : Part) (parts parts' : List Part)
    (hrunning : ((app sdk).state inputs).running = true)
    (hreview : ((app sdk).state inputs).review = none)
    (hidle : ((app sdk).state inputs).payload.handler = none)
    (hparts : Sendable part parts) (hparts' : Sendable part' parts')
    (hsame : joined (part :: parts) = joined (part' :: parts'))
    (hlast : lastEnv part.2 parts = lastEnv part'.2 parts')
    (hpos : 0 < (joined (part :: parts)).length)
    (hfits : (joined (part :: parts)).length ≤ payloadBufferSize) :
    ∃ w' answer,
      (app sdk).runFrom ((app sdk).state inputs) (sendParts handler part parts) =
        (w', List.replicate parts.length (.response [] .success) ++ answer) ∧
      (app sdk).runFrom ((app sdk).state inputs) (sendParts handler part' parts') =
        (w', List.replicate parts'.length (.response [] .success) ++ answer) := by
  have hon := commEnabled_state sdk hreview
  have hrep := represents_idle_state sdk hidle
  obtain ⟨⟨ret, ctx', events⟩, hrun⟩ := runPayloadHandler_returns sdk (lastEnv part.2 parts)
    handler (joined (part :: parts)) ((app sdk).state inputs).ctx
  refine ⟨_, _, runFrom_sendParts hrunning hon hrep hparts hpos hfits hrun, ?_⟩
  refine runFrom_sendParts hrunning hon hrep hparts' (hsame ▸ hpos) (hsame ▸ hfits) ?_
  rw [← hsame, ← hlast]
  exact hrun

/-- The bytes of an action, one by one. -/
def byteParts : List Part :=
  (Client.action Client.updateLeverageAction).map fun b => ([b], Client.env)

theorem payload_cut_anyhow_byteParts :
    ∃ w' answer,
      (app Client.sdk).runFrom
          ((app Client.sdk).state (Client.provideActionMetadata (Client.ethMetadata .order)))
          (sendParts .parseAction ([], Client.env) byteParts) =
        (w', List.replicate byteParts.length (.response [] .success) ++ answer) ∧
      (app Client.sdk).runFrom
          ((app Client.sdk).state (Client.provideActionMetadata (Client.ethMetadata .order)))
          (sendParts .parseAction (Client.action Client.updateLeverageAction, Client.env) []) =
        (w', List.replicate 0 (.response [] .success) ++ answer) := by
  have hlast : ∀ parts : List Part, (∀ p ∈ parts, p.2 = Client.env) →
      lastEnv Client.env parts = Client.env := by
    intro parts
    induction parts with
    | nil => exact fun _ => rfl
    | cons p ps ih =>
      intro h
      rw [lastEnv, h p List.mem_cons_self]
      exact ih fun q hq => h q (List.mem_cons_of_mem p hq)
  have henv : ∀ p ∈ byteParts, p.2 = Client.env := by
    intro p hp
    obtain ⟨b, -, rfl⟩ := List.mem_map.mp hp
    rfl
  refine payload_cut_anyhow Client.sdk _ .parseAction _ _ _ _ (by decide +kernel)
    (by decide +kernel) (by decide +kernel) ⟨by decide +kernel, by decide +kernel⟩
    ⟨by decide +kernel, by simp⟩ (by decide +kernel) ?_ (by decide +kernel) (by decide +kernel)
  exact hlast byteParts henv

end Hyperliquid

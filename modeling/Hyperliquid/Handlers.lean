/-
# Commands and reviews (`handler/*.c`, `apdu/dispatcher.c`, `ui/operation.c`)

The globals of the application are the fields of `World`.  A handler takes the command and the
answers of its surroundings, and returns the value of the C function, the world it leaves and
the events an observer sees: what was hashed and signed, the reviews and the choices, the
responses, and the resets of the session.

A review and a signature are recorded with a `Snapshot` of what is stored at that moment: the
metadata, the actions, and the signing context.
-/
import Hyperliquid.Action
import Hyperliquid.ActionMetadata
import Hyperliquid.ChunkedPayload
import Hyperliquid.Ui.Operations

namespace Hyperliquid

open Lib

/-! ## 1. Commands, events and the world -/

/-- The status words the application sends. -/
inductive StatusWord where
  | success
  | incorrectData
  | wrongDataLength
  | incorrectP1P2
  | invalidCla
  | invalidIns
  | conditionsNotSatisfied
  | commandErrorNoInfo
deriving DecidableEq

/-- `command_t`; `apdu_parser` leaves its data pointer null exactly when there are no data. -/
structure Command where
  cla : UInt8
  ins : UInt8
  p1 : UInt8
  p2 : UInt8
  data : Bytes
deriving DecidableEq

/-- The handlers of chunked payloads. -/
inductive PayloadHandler where
  | parseActionMetadata
  | parseAction
deriving DecidableEq

/-- What is stored when a review is built or a signature is sent. -/
structure Snapshot where
  metadata : Option ActionMetadata
  actions : Bounded Action maxActionCount
  signing : SigningCtx
deriving DecidableEq

inductive Event where
  | cx (call : CxCall)
  | ctxReset
  | deriveAddr (path : Vector UInt32 maxBip32Path) (length : UInt8) (addr : Option Address)
  | useCaseReview (built : Snapshot) (screen : UiCtx)
  | choice (confirm : Bool)
  /-- The response that follows carries this signature of the action at this index. -/
  | signature (index : Nat) (action : Action) (now : Snapshot) (sig : Signature)
  | response (data : Bytes) (sw : StatusWord)
  | reviewStatus
  | menuMain
deriving DecidableEq

/-- The globals, the review on the screen, and whether `app_main` is still in its loop. -/
structure World where
  ctx : HlContext := {}
  payload : ChunkedPayload PayloadHandler := {}
  signing : SigningCtx := {}
  rawBuf : Bytes := List.replicate maxSerializedActionSize 0
  commEnabled : Bool := true
  review : Option UiCtx := none
  running : Bool := true
  /-- A null pointer was dereferenced. -/
  faulted : Bool := false

def World.snapshot (w : World) : Snapshot := ⟨w.ctx.metadata, w.ctx.actions, w.signing⟩

/-- What a handler returns, the world it leaves, and the events on the way. -/
structure Outcome where
  ret : Int
  world : World
  events : List Event

/-- Events that happened before. -/
def Outcome.after (r : Outcome) (events : List Event) : Outcome :=
  { r with events := events ++ r.events }

/-- `io_send_sw`. -/
def ioSendSw (env : Env) (sw : StatusWord) (w : World) : Outcome :=
  ⟨env.send, w, [.response [] sw]⟩

/-- `io_send_response_pointer`. -/
def ioSendResponsePointer (env : Env) (data : Bytes) (sw : StatusWord) (w : World) : Outcome :=
  ⟨env.send, w, [.response data sw]⟩

/-- Runs a computation over the crypto primitives. -/
def runCx {α : Type} (env : Env) (m : Cx α) (w : World) : Option α × World × List Event :=
  let r := m.exec (env.cxState w.rawBuf)
  (r.1, { w with rawBuf := r.2.rawBuf }, r.2.calls.map .cx)

section

variable (sdk : Sdk)

/-! ## 2. derive_addr_from_path.c, get_addr.c -/

/-- The last 20 bytes of the hash of the public key, without its leading byte. -/
def deriveAddrFromPath : Cx Address := do
  let rawPk ← bip32DeriveGetPubkey256
  let hashedPk ← cxKeccak256Hash sdk (rawPk.toList.drop 1)
  pure (Vector.ofFn fun i : Fin addressLength => hashedPk.get (i.natAdd 12))

def handlerGetAddr (env : Env) (payload : Bytes) (w : World) : Outcome :=
  match payload with
  | [] => ioSendSw env .wrongDataLength w
  | pathLength :: rest =>
    match sdk.bip32PathRead rest pathLength with
    | none => ioSendSw env .incorrectData w
    | some bip32Path =>
      let (addr, w, calls) := runCx env (deriveAddrFromPath sdk) w
      let events := calls ++ [.deriveAddr bip32Path pathLength addr]
      match addr with
      | none => (ioSendSw env .incorrectData w).after events
      | some addr => (ioSendResponsePointer env addr.toList .success w).after events

/-! ## 3. provide_action_metadata.c, set_action.c -/

/-- The handlers of chunked payloads, with the resets they make. -/
def runPayloadHandler (env : Env) (handler : PayloadHandler) (payload : Bytes)
    (ctx : HlContext) : Except Failure (Bool × HlContext × List Event) :=
  match handler with
  | .parseActionMetadata => do
    let (ret, ctx, reset) ← parseActionMetadata sdk env payload ctx
    .ok (ret, ctx, if reset then [.ctxReset] else [])
  | .parseAction => do
    let (ret, ctx) ← parseAction sdk payload ctx
    .ok (ret, ctx, [])

/-- `handler_provide_action_metadata` and `handler_set_action`, for their payload handler. -/
def handlerChunked (handler : PayloadHandler) (env : Env) (first : Bool) (payload : Bytes)
    (w : World) : Except Failure Outcome := do
  let r ← ChunkedPayload.processChunkedPayload (runPayloadHandler sdk env) first payload handler
    w.payload w.ctx
  let w := { w with payload := r.payload, ctx := r.state }
  .ok ((ioSendSw env (if r.ret then .success else .incorrectData) w).after r.events)

def handlerProvideActionMetadata (env : Env) (first : Bool) (payload : Bytes) (w : World) :
    Except Failure Outcome :=
  handlerChunked sdk .parseActionMetadata env first payload w

def handlerSetAction (env : Env) (first : Bool) (payload : Bytes) (w : World) :
    Except Failure Outcome :=
  handlerChunked sdk .parseAction env first payload w

/-! ## 4. sign_action.c -/

/-- Hashes an action and signs the hash. -/
def signWith (action : Action) (metadata : ActionMetadata) (signing : SigningCtx) :
    Cx Signature := do
  let hashes ← actionHash sdk action metadata signing.walletAddr
  eip712Sign sdk signing.bip32Path signing.bip32PathLength hashes

/-- The bytes of the response: the actions left, and the signature. -/
def signatureResponse (remaining : Nat) (sig : Signature) : Bytes :=
  UInt8.ofNat remaining :: sig.v :: (sig.r.toList ++ sig.s.toList)

def signAction (env : Env) (w : World) : Outcome :=
  match ctxGetCurrentAction w.ctx with
  | none => ioSendSw env .incorrectData w
  | some action =>
    match ctxGetActionMetadata w.ctx with
    | none => ioSendSw env .incorrectData w
    | some metadata =>
      let (sig, w, calls) := runCx env (signWith sdk action metadata w.signing) w
      match sig with
      | none => (ioSendSw env .incorrectData w).after calls
      | some sig =>
        let signed := Event.signature w.ctx.actionIndex action w.snapshot sig
        let w := { w with ctx := ctxSwitchToNextAction w.ctx }
        let remaining := ctxRemainingActions w.ctx
        let r := (ioSendResponsePointer env (signatureResponse remaining sig) .success w).after
          (calls ++ [signed])
        -- the last signature was sent
        if r.ret ≥ 0 && remaining == 0 then
          { r with world := { w with ctx := ctxReset }, events := r.events ++ [.ctxReset] }
        else r

/-- The first `SIGN_ACTION` of a session fixes the path, derives the address and shows the
review; the following ones sign, if the path is the same. -/
def handlerSignAction (env : Env) (payload : Bytes) (w : World) : Outcome :=
  match payload with
  | [] => ioSendSw env .wrongDataLength w
  | pathLength :: rest =>
    match sdk.bip32PathRead rest pathLength with
    | none => ioSendSw env .incorrectData w
    | some bip32Path =>
      if ctxCurrentActionIsFirst w.ctx then
        let w := { w with signing := { bip32Path := bip32Path, bip32PathLength := pathLength } }
        if ctxRemainingActions w.ctx == 0 then ioSendSw env .incorrectData w
        else
          let (addr, w, calls) := runCx env (deriveAddrFromPath sdk) w
          let events := calls ++ [.deriveAddr bip32Path pathLength addr]
          match addr with
          | none => (ioSendSw env .incorrectData w).after events
          | some addr =>
            let w := { w with signing := { w.signing with walletAddr := addr } }
            match handleUi sdk w.ctx (ctxGetActionMetadata w.ctx) with
            | none => (ioSendSw env .incorrectData w).after events
            | some screen =>
              ⟨0, { w with commEnabled := false, review := some screen },
                events ++ [.useCaseReview w.snapshot screen]⟩
      else if pathLength != w.signing.bip32PathLength || bip32Path != w.signing.bip32Path then
        ioSendSw env .incorrectData w
      else signAction sdk env w

/-! ## 5. The review's callback (operation.c) -/

def reviewChoice (env : Env) (confirm : Bool) (w : World) : World × List Event :=
  let w := { w with commEnabled := true, review := none }
  if confirm then
    let r := (signAction sdk env w).after [.choice true]
    if r.ret != -1 then (r.world, r.events ++ [.reviewStatus])
    else ({ r.world with ctx := ctxReset }, r.events ++ [.ctxReset, .menuMain])
  else
    let w := { w with ctx := ctxReset }
    (w, [.choice false, .ctxReset, .response [] .conditionsNotSatisfied, .menuMain])

/-! ## 6. dispatcher.c -/

/-- `CLA`. -/
abbrev cla : UInt8 := 0xE0

abbrev insGetAddress : UInt8 := 0x01
abbrev insProvideActionMetadata : UInt8 := 0x02
abbrev insSetAction : UInt8 := 0x03
abbrev insSignAction : UInt8 := 0x04

abbrev p1First : UInt8 := 0x01
abbrev p1Following : UInt8 := 0x00

/-- The checks on a chunked command, and its handler. -/
def dispatchChunked
    (handler : Env → Bool → Bytes → World → Except Failure Outcome) (env : Env)
    (cmd : Command) (w : World) : Except Failure Outcome :=
  if (cmd.p1 != p1First && cmd.p1 != p1Following) || cmd.p2 != 0 then
    .ok (ioSendSw env .incorrectP1P2 w)
  else if cmd.data.isEmpty then .ok (ioSendSw env .wrongDataLength w)
  else handler env (cmd.p1 == p1First) cmd.data w

/-- The checks on a command in one piece, and its handler. -/
def dispatchSingle (handler : Env → Bytes → World → Outcome) (env : Env) (cmd : Command)
    (w : World) : Except Failure Outcome :=
  if cmd.p1 != 0 || cmd.p2 != 0 then .ok (ioSendSw env .incorrectP1P2 w)
  else if cmd.data.isEmpty then .ok (ioSendSw env .wrongDataLength w)
  else .ok (handler env cmd.data w)

def apduDispatcher (env : Env) (cmd : Command) (w : World) : Except Failure Outcome :=
  if cmd.cla != cla then .ok (ioSendSw env .invalidCla w)
  else if cmd.ins == insGetAddress then dispatchSingle (handlerGetAddr sdk) env cmd w
  else if cmd.ins == insProvideActionMetadata then
    dispatchChunked (handlerProvideActionMetadata sdk) env cmd w
  else if cmd.ins == insSetAction then dispatchChunked (handlerSetAction sdk) env cmd w
  else if cmd.ins == insSignAction then dispatchSingle (handlerSignAction sdk) env cmd w
  else .ok (ioSendSw env .invalidIns w)

end

end Hyperliquid

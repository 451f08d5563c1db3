/-
# Payloads in chunks (`chunked_payload.c`)

A payload longer than one command arrives in several.  The first chunk begins with the size of
the whole payload; the following ones must come for the same handler.  When all bytes are
there, the handler is called on them.  Any failure wipes the buffer.

The handlers, and the state they work on, are parameters here.
-/
import Hyperliquid.Lib.Tlv

namespace Hyperliquid

open Lib

/-- `PAYLOAD_BUFFER_SIZE`. -/
abbrev payloadBufferSize : Nat := 0xff * 4

/-- `s_chunked_payload`; `H` names the handlers. -/
structure ChunkedPayload (H : Type) where
  buffer : Bytes := List.replicate payloadBufferSize 0
  size : UInt16 := 0
  received : UInt16 := 0
  handler : Option H := none
deriving DecidableEq

namespace ChunkedPayload

variable {H σ ε : Type} [DecidableEq H]

/-! ## 1. Receiving chunks -/

/-- What a call returns, the buffer and the state it leaves, and the events on the way. -/
structure Result (H σ ε : Type) where
  ret : Bool
  payload : ChunkedPayload H
  state : σ
  events : List ε

/-- `read_u16_be` at the start of the data. -/
def readU16Be (data : Bytes) : UInt16 :=
  UInt16.ofNat (256 * (data.getD 0 0).toNat + (data.getD 1 0).toNat)

/-- The checks on a chunk before its bytes are looked at, and the offset of the bytes. -/
def openChunk (first : Bool) (data : Bytes) (handler : H) (payload : ChunkedPayload H) :
    Option (ChunkedPayload H × Nat) :=
  if first then
    -- a new first chunk while a transfer is in progress
    if payload.handler.isSome then none
    else if data.length < 2 then none
    else
      let size := readU16Be data
      if size == 0 || size.toNat > payloadBufferSize then none
      else some ({ payload with size := size, received := 0, handler := some handler }, 2)
  else if data.isEmpty then none
  else if payload.handler != some handler then none
  else some (payload, 0)

section

variable (run : H → Bytes → σ → Except Failure (Bool × σ × List ε))

def processChunkedPayloadInternal (first : Bool) (data : Bytes) (handler : H)
    (payload : ChunkedPayload H) (s : σ) : Except Failure (Result H σ ε) :=
  match openChunk first data handler payload with
  | none => .ok ⟨false, payload, s, []⟩
  | some (payload, offset) =>
    let chunk := data.drop offset
    if payload.received.toNat + chunk.length > payload.size.toNat then
      .ok ⟨false, payload, s, []⟩
    else
      let payload := { payload with
        buffer := memcpy payload.buffer payload.received.toNat chunk
        received := payload.received + UInt16.ofNat chunk.length }
      if payload.received == payload.size then
        match run handler (payload.buffer.take payload.size.toNat) s with
        | .error e => .error e
        | .ok (false, s, events) => .ok ⟨false, payload, s, events⟩
        | .ok (true, s, events) => .ok ⟨true, {}, s, events⟩
      else .ok ⟨true, payload, s, []⟩

/-- A failure wipes the buffer. -/
def processChunkedPayload (first : Bool) (data : Bytes) (handler : H)
    (payload : ChunkedPayload H) (s : σ) : Except Failure (Result H σ ε) :=
  match processChunkedPayloadInternal run first data handler payload s with
  | .error e => .error e
  | .ok r => if !r.ret then .ok { r with payload := {} } else .ok r

end

variable {run : H → Bytes → σ → Except Failure (Bool × σ × List ε)}

/-- A call either leaves the state alone, or is one call of the handler. -/
theorem processChunkedPayload_cases {first : Bool} {data : Bytes} {handler : H}
    {payload : ChunkedPayload H} {s : σ} {r : Result H σ ε}
    (h : processChunkedPayload run first data handler payload s = .ok r) :
    (r.state = s ∧ r.events = []) ∨
    ∃ bytes ret, run handler bytes s = .ok (ret, r.state, r.events) := by
  unfold processChunkedPayload at h
  split at h
  · cases h
  · rename_i r₀ hr₀
    have hr : r.state = r₀.state ∧ r.events = r₀.events := by
      split at h <;> cases h <;> exact ⟨rfl, rfl⟩
    rw [hr.1, hr.2]
    unfold processChunkedPayloadInternal at hr₀
    split at hr₀
    · cases hr₀
      exact .inl ⟨rfl, rfl⟩
    · simp only at hr₀
      split at hr₀
      · cases hr₀
        exact .inl ⟨rfl, rfl⟩
      · split at hr₀
        · split at hr₀
          · cases hr₀
          · cases hr₀
            exact .inr ⟨_, false, ‹_›⟩
          · cases hr₀
            exact .inr ⟨_, true, ‹_›⟩
        · cases hr₀
          exact .inl ⟨rfl, rfl⟩

/-- If the handlers always return, so does a call. -/
theorem processChunkedPayload_returns (hrun : ∀ h bytes s, ∃ r, run h bytes s = .ok r)
    (first : Bool) (data : Bytes) (handler : H) (payload : ChunkedPayload H) (s : σ) :
    ∃ r, processChunkedPayload run first data handler payload s = .ok r := by
  have hinternal : ∃ r, processChunkedPayloadInternal run first data handler payload s = .ok r := by
    unfold processChunkedPayloadInternal
    split
    · exact ⟨_, rfl⟩
    · simp only
      split
      · exact ⟨_, rfl⟩
      · split
        · split
          · rename_i e he
            obtain ⟨r, hr⟩ := hrun handler _ s
            rw [hr] at he
            cases he
          · exact ⟨_, rfl⟩
          · exact ⟨_, rfl⟩
        · exact ⟨_, rfl⟩
  obtain ⟨r, hr⟩ := hinternal
  unfold processChunkedPayload
  rw [hr]
  simp only
  split <;> exact ⟨_, rfl⟩

/-! ## 2. Two calls on states that look alike -/

/-- The result, through a view of the state. -/
def Result.view {τ : Type} (view : σ → τ) (r : Result H σ ε) : Result H τ ε :=
  ⟨r.ret, r.payload, view r.state, r.events⟩

/-- If the handler takes states that look alike to states that look alike, so does a call. -/
theorem processChunkedPayload_view {τ : Type} {view : σ → τ} {handler : H} {s s' : σ}
    (hs : view s = view s')
    (hrun : ∀ bytes, (run handler bytes s).map (Prod.map id (Prod.map view id)) =
      (run handler bytes s').map (Prod.map id (Prod.map view id)))
    (first : Bool) (data : Bytes) (payload : ChunkedPayload H) :
    (processChunkedPayload run first data handler payload s).map (Result.view view) =
      (processChunkedPayload run first data handler payload s').map (Result.view view) := by
  have hsame : ∀ (ret : Bool) (payload : ChunkedPayload H),
      Result.view view (⟨ret, payload, s, []⟩ : Result H σ ε) =
        Result.view view ⟨ret, payload, s', []⟩ := by
    intro ret payload
    simp only [Result.view, hs]
  have hinternal : (processChunkedPayloadInternal run first data handler payload s).map
        (Result.view view) =
      (processChunkedPayloadInternal run first data handler payload s').map (Result.view view) := by
    unfold processChunkedPayloadInternal
    split
    · exact congrArg Except.ok (hsame _ _)
    · simp only
      split
      · exact congrArg Except.ok (hsame _ _)
      · split
        · generalize List.take _ _ = bytes
          rcases map_eq_map_cases (hrun bytes) with
            ⟨e, hr, hr'⟩ | ⟨⟨ret, t, events⟩, ⟨ret', t', events'⟩, hr, hr', hsame'⟩
          · rw [hr, hr']
          · obtain ⟨rfl, ht, rfl⟩ : ret = ret' ∧ view t = view t' ∧ events = events' := by
              simpa using hsame'
            rw [hr, hr']
            cases ret with
            | false => simp only [Except.map, Result.view, ht]
            | true => simp only [Except.map, Result.view, ht]
        · exact congrArg Except.ok (hsame _ _)
  unfold processChunkedPayload
  rcases map_eq_map_cases hinternal with ⟨e, hr, hr'⟩ | ⟨r, r', hr, hr', hsame'⟩
  · rw [hr, hr']
  · obtain ⟨hret, hpayload, hstate, hevents⟩ : r.ret = r'.ret ∧ r.payload = r'.payload ∧
        view r.state = view r'.state ∧ r.events = r'.events := by
      simpa only [Result.view, Result.mk.injEq] using hsame'
    rw [hr, hr']
    simp only [hret]
    split
    · simp only [Except.map, Result.view, hstate, hevents]
    · simp only [Except.map, Result.view, hret, hpayload, hstate, hevents]

end ChunkedPayload

end Hyperliquid

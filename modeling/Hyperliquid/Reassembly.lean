/-
# Reassembling payloads from chunks

What `process_chunked_payload` is for, said without its buffer: a transfer is idle, or it
collects a payload of `n` bytes for one handler and has some of them.  A chunk is accepted or
not (`Transfer.accept`); one that is not ends the transfer, and one that completes the payload
calls the handler and ends it too.

The buffer of the code represents such a transfer (`Represents`), and one call of
`process_chunked_payload` is one step of it, whatever the handlers do (`processChunk_rejected`,
`processChunk_complete`, `processChunk_partial`).  From that follow the results about every
sequence of calls: which calls invoke a handler, and on which bytes (`chunk_reassembly`).
-/
import Hyperliquid.ChunkedPayload
import Hyperliquid.Lib.Transition

namespace Hyperliquid

open Lib

/-! ## 1. The abstract transfer -/

/-- The big-endian size at the start of a first chunk. -/
def announcedSize (hi lo : UInt8) : Nat := 256 * hi.toNat + lo.toNat

/-- Nothing is in progress, or a payload of `n` bytes is collected for a handler. -/
inductive Transfer (H : Type) where
  | idle
  | collecting (handler : H) (n : Nat) (acc : Bytes)
deriving DecidableEq

namespace Transfer

variable {H : Type} [DecidableEq H]

/-- The size of the payload and its bytes so far, after a chunk that is accepted. -/
def accept (t : Transfer H) (first : Bool) (data : Option Bytes) (handler : H) :
    Option (Nat × Bytes) :=
  match t, first, data with
  | .idle, true, some (hi :: lo :: rest) =>
    if 1 ≤ announcedSize hi lo ∧ announcedSize hi lo ≤ payloadBufferSize ∧
        rest.length ≤ announcedSize hi lo then some (announcedSize hi lo, rest)
    else none
  | .collecting h n acc, false, some data =>
    if h = handler ∧ data ≠ [] ∧ acc.length + data.length ≤ n then some (n, acc ++ data) else none
  | _, _, _ => none

end Transfer

/-! ## 2. The buffer represents a transfer -/

namespace ChunkedPayload

variable {H σ ε : Type}

/-- `process_chunked_payload` on a data pointer that may be null. -/
def processChunk [DecidableEq H] (run : H → Bytes → σ → Except Failure (Bool × σ × List ε))
    (first : Bool) (data : Option Bytes) (handler : H) (payload : ChunkedPayload H) (s : σ) :
    Except Failure (Result H σ ε) :=
  match data with
  | none => .ok ⟨false, {}, s, []⟩
  | some data => processChunkedPayload run first data handler payload s

/-- The buffer while a payload of `n` bytes is collected and `acc` is there. -/
structure Holds (payload : ChunkedPayload H) (handler : H) (n : Nat) (acc : Bytes) : Prop where
  handler : payload.handler = some handler
  size : payload.size.toNat = n
  received : payload.received.toNat = acc.length
  bytes : payload.buffer.take acc.length = acc
  buffer : payload.buffer.length = payloadBufferSize
  le : acc.length ≤ n
  fits : n ≤ payloadBufferSize

/-- An idle buffer is zeroed; one that collects holds fewer bytes than announced. -/
def Represents (payload : ChunkedPayload H) : Transfer H → Prop
  | .idle => payload = {}
  | .collecting handler n acc => Holds payload handler n acc ∧ acc.length < n

/-- Writes a chunk behind the bytes that are there. -/
def fill (payload : ChunkedPayload H) (chunk : Bytes) : ChunkedPayload H :=
  { payload with
    buffer := memcpy payload.buffer payload.received.toNat chunk
    received := payload.received + UInt16.ofNat chunk.length }

/-- The write stays in the buffer and the counter does not wrap. -/
theorem Holds.fill {payload : ChunkedPayload H} {handler : H} {n : Nat} {acc chunk : Bytes}
    (h : Holds payload handler n acc) (hle : acc.length + chunk.length ≤ n) :
    Holds (payload.fill chunk) handler n (acc ++ chunk) := by
  have hacc : acc.length ≤ payload.buffer.length := by
    rw [h.buffer]
    exact h.le.trans h.fits
  have hfits := h.fits
  have hlen : (acc ++ chunk).length = acc.length + chunk.length := List.length_append
  refine ⟨h.handler, h.size, ?_, ?_, ?_, by rw [hlen]; exact hle, h.fits⟩
  · unfold ChunkedPayload.fill
    simp only [payloadBufferSize] at hfits
    rw [UInt16.toNat_add, h.received, hlen, UInt16.toNat_ofNat']
    omega
  · unfold ChunkedPayload.fill
    simp only [h.received, hlen, take_memcpy hacc, h.bytes]
  · unfold ChunkedPayload.fill memcpy
    have hbuf := h.buffer
    simp only [h.received, List.length_append, List.length_take, List.length_drop]
    omega

/-- A payload that fits the buffer is all there when the counter has reached its size. -/
theorem Holds.complete_iff {payload : ChunkedPayload H} {handler : H} {n : Nat} {acc : Bytes}
    (h : Holds payload handler n acc) : payload.received = payload.size ↔ acc.length = n := by
  rw [← UInt16.toNat_inj, h.received, h.size]

theorem Holds.take_size {payload : ChunkedPayload H} {handler : H} {n : Nat} {acc : Bytes}
    (h : Holds payload handler n acc) (hn : acc.length = n) :
    payload.buffer.take payload.size.toNat = acc := by
  rw [h.size, ← hn, h.bytes]

variable [DecidableEq H]

theorem readU16Be_toNat (hi lo : UInt8) (rest : Bytes) :
    (readU16Be (hi :: lo :: rest)).toNat = announcedSize hi lo := by
  have hhi := hi.toNat_lt
  have hlo := lo.toNat_lt
  unfold readU16Be announcedSize
  rw [UInt16.toNat_ofNat']
  simp only [List.getD_cons_zero, List.getD_cons_succ]
  omega

/-- A first chunk with a size, into the zeroed buffer. -/
theorem openChunk_first (hi lo : UInt8) (rest : Bytes) (handler : H) :
    openChunk true (hi :: lo :: rest) handler {} =
      if 1 ≤ announcedSize hi lo ∧ announcedSize hi lo ≤ payloadBufferSize then
        some ({ size := readU16Be (hi :: lo :: rest), handler := some handler }, 2)
      else none := by
  have hsize := readU16Be_toNat hi lo rest
  have hbad : (readU16Be (hi :: lo :: rest) == 0 ||
      decide ((readU16Be (hi :: lo :: rest)).toNat > payloadBufferSize)) = true ↔
      ¬ (1 ≤ announcedSize hi lo ∧ announcedSize hi lo ≤ payloadBufferSize) := by
    rw [Bool.or_eq_true, beq_iff_eq, decide_eq_true_eq, ← UInt16.toNat_inj, hsize]
    show announcedSize hi lo = 0 ∨ announcedSize hi lo > payloadBufferSize ↔ _
    omega
  unfold openChunk
  rw [if_pos rfl, if_neg (by simp), if_neg (by simp)]
  by_cases hn : 1 ≤ announcedSize hi lo ∧ announcedSize hi lo ≤ payloadBufferSize
  · rw [if_neg (fun h => hbad.mp h hn), if_pos hn]
  · rw [if_pos (hbad.mpr hn), if_neg hn]

/-- A following chunk, while a payload is collected. -/
theorem openChunk_following {payload : ChunkedPayload H} {h handler : H}
    (hcollects : payload.handler = some h) (b : UInt8) (data : Bytes) :
    openChunk false (b :: data) handler payload =
      if h = handler then some (payload, 0) else none := by
  unfold openChunk
  by_cases hh : h = handler <;> simp [hcollects, hh]

/-- A chunk that is opened goes behind the bytes `acc` of a payload of `n` bytes. -/
theorem openChunk_represents {payload : ChunkedPayload H} {t : Transfer H} {first : Bool}
    {data : Bytes} {handler : H} (hrep : Represents payload t) :
    (openChunk first data handler payload = none ∧ t.accept first (some data) handler = none) ∨
    ∃ p offset n acc, openChunk first data handler payload = some (p, offset) ∧
      Holds p handler n acc ∧
      t.accept first (some data) handler =
        if acc.length + (data.drop offset).length ≤ n then some (n, acc ++ data.drop offset)
        else none := by
  cases t with
  | idle =>
    obtain rfl : payload = {} := hrep
    cases first with
    | false =>
      cases data with
      | nil => exact .inl ⟨rfl, rfl⟩
      | cons b data => exact .inl ⟨rfl, rfl⟩
    | true =>
      rcases data with - | ⟨hi, - | ⟨lo, rest⟩⟩
      · exact .inl ⟨rfl, rfl⟩
      · exact .inl ⟨rfl, rfl⟩
      · rw [openChunk_first]
        by_cases hn : 1 ≤ announcedSize hi lo ∧ announcedSize hi lo ≤ payloadBufferSize
        · refine .inr ⟨_, 2, announcedSize hi lo, [], if_pos hn, ?_, ?_⟩
          · exact ⟨rfl, readU16Be_toNat hi lo rest, rfl, rfl, List.length_replicate,
              Nat.zero_le _, hn.2⟩
          · simp [Transfer.accept, hn]
        · refine .inl ⟨if_neg hn, ?_⟩
          simp only [Transfer.accept]
          rw [if_neg]
          rintro ⟨hpos, hle, -⟩
          exact hn ⟨hpos, hle⟩
  | collecting h n acc =>
    obtain ⟨hholds, -⟩ := hrep
    cases first with
    | true =>
      have hsome : payload.handler.isSome = true := by
        rw [hholds.handler]
        rfl
      refine .inl ⟨?_, rfl⟩
      unfold openChunk
      rw [if_pos rfl, if_pos hsome]
    | false =>
      cases data with
      | nil => exact .inl ⟨rfl, by simp [Transfer.accept]⟩
      | cons b data =>
        rw [openChunk_following hholds.handler]
        by_cases hh : h = handler
        · subst hh
          exact .inr ⟨payload, 0, n, acc, if_pos rfl, hholds, by simp [Transfer.accept]⟩
        · exact .inl ⟨if_neg hh, by simp [Transfer.accept, hh]⟩

variable {run : H → Bytes → σ → Except Failure (Bool × σ × List ε)} {payload : ChunkedPayload H}
  {t : Transfer H} {first : Bool} {data : Option Bytes} {handler : H} {n : Nat} {acc : Bytes}

theorem processChunk_some (bytes : Bytes) (s : σ) :
    processChunk run first (some bytes) handler payload s =
      processChunkedPayload run first bytes handler payload s := rfl

/-- The buffer after a chunk that was opened and fits, and what is done with it. -/
theorem internal_opened {p : ChunkedPayload H} {bytes : Bytes} {offset : Nat}
    (hopen : openChunk first bytes handler payload = some (p, offset)) (hp : Holds p handler n acc)
    (hle : acc.length + (bytes.drop offset).length ≤ n) (s : σ) :
    processChunkedPayloadInternal run first bytes handler payload s =
      if (acc ++ bytes.drop offset).length = n then
        match run handler (acc ++ bytes.drop offset) s with
        | .error e => .error e
        | .ok (false, s, events) => .ok ⟨false, p.fill (bytes.drop offset), s, events⟩
        | .ok (true, s, events) => .ok ⟨true, {}, s, events⟩
      else .ok ⟨true, p.fill (bytes.drop offset), s, []⟩ := by
  have hfill := hp.fill hle
  have hfits : ¬ p.received.toNat + (bytes.drop offset).length > p.size.toNat := by
    rw [hp.received, hp.size]
    omega
  unfold processChunkedPayloadInternal
  simp only [hopen]
  rw [if_neg hfits]
  by_cases hn : (acc ++ bytes.drop offset).length = n
  · have hfull : (p.fill (bytes.drop offset)).received == (p.fill (bytes.drop offset)).size := by
      rw [beq_iff_eq]
      exact hfill.complete_iff.mpr hn
    have htake := hfill.take_size hn
    unfold ChunkedPayload.fill at hfull htake
    rw [if_pos hfull, if_pos hn]
    simp only [htake]
    rfl
  · have hmore : ¬ ((p.fill (bytes.drop offset)).received ==
        (p.fill (bytes.drop offset)).size) = true := by
      rw [beq_iff_eq]
      exact fun h => hn (hfill.complete_iff.mp h)
    unfold ChunkedPayload.fill at hmore
    rw [if_neg hmore, if_neg hn]
    rfl

/-- A chunk that is not accepted: the call fails, and the buffer is wiped. -/
theorem processChunk_rejected (hrep : Represents payload t)
    (h : t.accept first data handler = none) (s : σ) :
    processChunk run first data handler payload s = .ok ⟨false, {}, s, []⟩ := by
  cases data with
  | none => rfl
  | some bytes =>
    rw [processChunk_some, processChunkedPayload]
    rcases openChunk_represents hrep with
      ⟨hopen, -⟩ | ⟨p, offset, n, acc, hopen, hp, haccept⟩
    · have hinternal : processChunkedPayloadInternal run first bytes handler payload s =
          .ok ⟨false, payload, s, []⟩ := by
        unfold processChunkedPayloadInternal
        rw [hopen]
      rw [hinternal]
      rfl
    · have hlarge : p.received.toNat + (bytes.drop offset).length > p.size.toNat := by
        rw [hp.received, hp.size]
        by_contra hle
        rw [h, if_pos (Nat.not_lt.mp hle)] at haccept
        cases haccept
      have hinternal : processChunkedPayloadInternal run first bytes handler payload s =
          .ok ⟨false, p, s, []⟩ := by
        unfold processChunkedPayloadInternal
        simp only [hopen]
        rw [if_pos hlarge]
      rw [hinternal]
      rfl

/-- An accepted chunk was opened and fits. -/
theorem opened_of_accept {bytes : Bytes} (hrep : Represents payload t)
    (h : t.accept first (some bytes) handler = some (n, acc)) :
    ∃ p offset acc₀, openChunk first bytes handler payload = some (p, offset) ∧
      Holds p handler n acc₀ ∧ acc = acc₀ ++ bytes.drop offset ∧
      acc₀.length + (bytes.drop offset).length ≤ n := by
  rcases openChunk_represents hrep with ⟨-, hnone⟩ | ⟨p, offset, m, acc₀, hopen, hp, haccept⟩
  · rw [h] at hnone
    cases hnone
  · rw [h] at haccept
    split at haccept
    · cases haccept
      exact ⟨p, offset, acc₀, hopen, hp, rfl, ‹_›⟩
    · cases haccept

/-- A chunk that completes the payload: the handler is called, and the buffer is wiped. -/
theorem processChunk_complete (hrep : Represents payload t)
    (h : t.accept first data handler = some (n, acc)) (hn : acc.length = n) (s : σ) :
    processChunk run first data handler payload s =
      (run handler acc s).map fun r => ⟨r.1, {}, r.2.1, r.2.2⟩ := by
  cases data with
  | none => cases t <;> cases first <;> cases h
  | some bytes =>
    obtain ⟨p, offset, acc₀, hopen, hp, rfl, hle⟩ := opened_of_accept hrep h
    rw [processChunk_some, processChunkedPayload]
    rw [internal_opened hopen hp hle, if_pos hn]
    cases run handler (acc₀ ++ bytes.drop offset) s with
    | error e => rfl
    | ok r =>
      obtain ⟨ret, s', events⟩ := r
      cases ret <;> rfl

/-- A chunk that is accepted and leaves bytes to come. -/
theorem processChunk_partial (hrep : Represents payload t)
    (h : t.accept first data handler = some (n, acc)) (hn : acc.length ≠ n) (s : σ) :
    ∃ payload', Represents payload' (.collecting handler n acc) ∧
      processChunk run first data handler payload s = .ok ⟨true, payload', s, []⟩ := by
  cases data with
  | none => cases t <;> cases first <;> cases h
  | some bytes =>
    obtain ⟨p, offset, acc₀, hopen, hp, rfl, hle⟩ := opened_of_accept hrep h
    have hfill := hp.fill hle
    refine ⟨p.fill (bytes.drop offset), ⟨hfill, Nat.lt_of_le_of_ne hfill.le hn⟩, ?_⟩
    rw [processChunk_some, processChunkedPayload]
    rw [internal_opened hopen hp hle, if_neg hn]
    rfl

end ChunkedPayload

/-! ## 3. Sequences of calls -/

/-- One call: its arguments, and what the handler returns if it is called. -/
structure Call (H : Type) where
  first : Bool
  data : Option Bytes
  handler : H
  result : Bool

/-- What is seen of a call. -/
inductive CallEvent (H : Type) where
  | invoked (handler : H) (bytes : Bytes)
  | returned (ok : Bool)
deriving DecidableEq

variable {H : Type}

/-- The bytes of the data of a call. -/
def Call.bytes (c : Call H) : Bytes := c.data.getD []

/-- The handler notes the bytes it is called on. -/
def Call.run (c : Call H) (handler : H) (bytes : Bytes) (_ : Unit) :
    Except Failure (Bool × Unit × List (CallEvent H)) :=
  .ok (c.result, (), [.invoked handler bytes])

variable [DecidableEq H]

/-- A call on the buffer. -/
def callStep (payload : ChunkedPayload H) (c : Call H) :
    ChunkedPayload H × List (CallEvent H) :=
  match ChunkedPayload.processChunk c.run c.first c.data c.handler payload () with
  | .ok r => (r.payload, r.events ++ [.returned r.ret])
  | .error _ => (payload, [])

/-- A call on the abstract transfer. -/
def Transfer.step (t : Transfer H) (c : Call H) : Transfer H × List (CallEvent H) :=
  match t.accept c.first c.data c.handler with
  | none => (.idle, [.returned false])
  | some (n, acc) =>
    if acc.length = n then (.idle, [.invoked c.handler acc, .returned c.result])
    else (.collecting c.handler n acc, [.returned true])

variable (H) in
/-- The buffer, from its zeroed state. -/
def chunks : Machine (ChunkedPayload H) (Call H) (CallEvent H) := ⟨{}, callStep⟩

variable (H) in
/-- The transfer, from idle. -/
def transfers : Machine (Transfer H) (Call H) (CallEvent H) := ⟨.idle, Transfer.step⟩

/-- One call on the buffer is one call on the transfer it represents. -/
theorem callStep_represents {payload : ChunkedPayload H} {t : Transfer H}
    (hrep : payload.Represents t) (c : Call H) :
    (callStep payload c).1.Represents (t.step c).1 ∧ (callStep payload c).2 = (t.step c).2 := by
  unfold callStep Transfer.step
  cases haccept : t.accept c.first c.data c.handler with
  | none =>
    rw [ChunkedPayload.processChunk_rejected hrep haccept]
    exact ⟨rfl, rfl⟩
  | some r =>
    obtain ⟨n, acc⟩ := r
    by_cases hn : acc.length = n
    · rw [ChunkedPayload.processChunk_complete hrep haccept hn]
      simp only [if_pos hn]
      exact ⟨rfl, rfl⟩
    · obtain ⟨payload', hrep', hcall⟩ := ChunkedPayload.processChunk_partial hrep haccept hn ()
      rw [hcall]
      simp only [if_neg hn]
      exact ⟨hrep', rfl⟩

/-- Every sequence of calls: the same events, and the buffer represents the transfer. -/
theorem chunks_represents (calls : List (Call H)) :
    ((chunks H).state calls).Represents ((transfers H).state calls) ∧
      (chunks H).trace calls = (transfers H).trace calls := by
  induction calls using List.reverseRecOn with
  | nil => exact ⟨rfl, rfl⟩
  | append_singleton calls c ih =>
    obtain ⟨hrep, htrace⟩ := ih
    obtain ⟨hrep', hevents⟩ := callStep_represents hrep c
    simp only [Machine.state_snoc, Machine.trace_snoc, htrace]
    exact ⟨hrep', congrArg _ hevents⟩

omit [DecidableEq H] in
/-- A zeroed buffer is an idle transfer. -/
theorem ChunkedPayload.Represents.zeroed_iff {payload : ChunkedPayload H} {t : Transfer H}
    (h : payload.Represents t) : payload = {} ↔ t = .idle := by
  cases t with
  | idle =>
    constructor
    · intro _
      rfl
    · intro _
      exact h
  | collecting handler n acc =>
    constructor
    · intro hzero
      have hhandler := h.1.handler
      rw [hzero] at hhandler
      cases hhandler
    · intro hidle
      cases hidle

/-! ## 4. Which calls invoke a handler -/

/-- A following chunk for the handler that is not empty. -/
structure Call.Follows (h : H) (c : Call H) : Prop where
  first : c.first = false
  handler : c.handler = h
  data : ∃ b bs, c.data = some (b :: bs)

omit [DecidableEq H] in
theorem Call.Follows.bytes_ne_nil {h : H} {c : Call H} (hc : c.Follows h) : c.bytes ≠ [] := by
  obtain ⟨b, bs, hdata⟩ := hc.data
  simp [Call.bytes, hdata]

/-- The calls end with a first chunk on a zeroed buffer that announces `n` bytes for the handler,
and following chunks for it; `acc` are their bytes. -/
def Collected (calls : List (Call H)) (h : H) (n : Nat) (acc : Bytes) : Prop :=
  ∃ before f rest hi lo d, calls = before ++ f :: rest ∧ (chunks H).state before = {} ∧
    f.first = true ∧ f.handler = h ∧ f.data = some (hi :: lo :: d) ∧ announcedSize hi lo = n ∧
    (∀ c ∈ rest, c.Follows h) ∧ acc = d ++ rest.flatMap Call.bytes

theorem Collected.first {before : List (Call H)} {f : Call H} {hi lo : UInt8} {d : Bytes}
    (hidle : (chunks H).state before = {}) (hfirst : f.first = true)
    (hdata : f.data = some (hi :: lo :: d)) :
    Collected (before ++ [f]) f.handler (announcedSize hi lo) d :=
  ⟨before, f, [], hi, lo, d, rfl, hidle, hfirst, rfl, hdata, rfl, by simp, by simp⟩

/-- One more chunk. -/
theorem Collected.snoc {calls : List (Call H)} {c : Call H} {h : H} {n : Nat} {acc : Bytes}
    (hcol : Collected calls h n acc) (hc : c.Follows h) :
    Collected (calls ++ [c]) h n (acc ++ c.bytes) := by
  obtain ⟨before, f, rest, hi, lo, d, rfl, hidle, hfirst, hf, hdata, hn, hrest, rfl⟩ := hcol
  refine ⟨before, f, rest ++ [c], hi, lo, d, by simp, hidle, hfirst, hf, hdata, hn, ?_, by simp⟩
  intro x hx
  rcases List.mem_append.mp hx with hx | hx
  · exact hrest x hx
  · rw [List.mem_singleton] at hx
    rw [hx]
    exact hc

/-- The last of the calls is a first chunk, or follows calls that collected less. -/
theorem Collected.cases_snoc {calls : List (Call H)} {c : Call H} {h : H} {n : Nat} {acc : Bytes}
    (hcol : Collected (calls ++ [c]) h n acc) :
    ((chunks H).state calls = {} ∧ c.first = true ∧ c.handler = h ∧
      ∃ hi lo, c.data = some (hi :: lo :: acc) ∧ announcedSize hi lo = n) ∨
    ∃ acc₀, Collected calls h n acc₀ ∧ c.Follows h ∧ acc = acc₀ ++ c.bytes := by
  obtain ⟨before, f, rest, hi, lo, d, hcalls, hidle, hfirst, hf, hdata, hn, hrest, hacc⟩ := hcol
  rcases List.eq_nil_or_concat rest with rfl | ⟨rest', x, rfl⟩
  · obtain ⟨rfl, hx⟩ := List.append_inj' hcalls rfl
    cases hx
    refine .inl ⟨hidle, hfirst, hf, hi, lo, ?_, hn⟩
    rw [hdata, hacc]
    simp
  · have hsplit : calls ++ [c] = (before ++ f :: rest') ++ [x] := by
      rw [hcalls]
      simp
    obtain ⟨rfl, hx⟩ := List.append_inj' hsplit rfl
    cases hx
    refine .inr ⟨d ++ rest'.flatMap Call.bytes, ?_, hrest c (by simp), by simp [hacc]⟩
    exact ⟨before, f, rest', hi, lo, d, rfl, hidle, hfirst, hf, hdata, hn,
      fun y hy => hrest y (by simp [hy]), rfl⟩

/-- A first chunk on an idle transfer. -/
theorem accept_first {c : Call H} {n : Nat} {acc : Bytes} :
    Transfer.idle.accept c.first c.data c.handler = some (n, acc) ↔
      c.first = true ∧ acc.length ≤ n ∧ 1 ≤ n ∧ n ≤ payloadBufferSize ∧
        ∃ hi lo, c.data = some (hi :: lo :: acc) ∧ announcedSize hi lo = n := by
  obtain ⟨first, data, handler, result⟩ := c
  constructor
  · intro h
    cases first with
    | false => cases h
    | true =>
      rcases data with - | - | ⟨hi, - | ⟨lo, rest⟩⟩
      · cases h
      · cases h
      · cases h
      · simp only [Transfer.accept] at h
        split at h
        · rename_i hsize
          cases h
          exact ⟨rfl, hsize.2.2, hsize.1, hsize.2.1, hi, lo, rfl, rfl⟩
        · cases h
  · rintro ⟨hfirst, hle, hpos, hmax, hi, lo, hdata, rfl⟩
    simp only at hfirst hdata
    subst hfirst hdata
    simp [Transfer.accept, hpos, hmax, hle]

/-- A following chunk on a transfer that collects. -/
theorem accept_following {h : H} {m n : Nat} {acc₀ acc : Bytes} {c : Call H} :
    (Transfer.collecting h m acc₀).accept c.first c.data c.handler = some (n, acc) ↔
      c.Follows h ∧ m = n ∧ acc = acc₀ ++ c.bytes ∧ acc.length ≤ n := by
  obtain ⟨first, data, handler, result⟩ := c
  constructor
  · intro haccept
    cases first with
    | true => cases haccept
    | false =>
      rcases data with - | data
      · cases haccept
      · simp only [Transfer.accept] at haccept
        split at haccept
        · rename_i hsize
          obtain ⟨rfl, hne, hle⟩ := hsize
          cases haccept
          obtain ⟨b, bs, rfl⟩ := List.exists_cons_of_ne_nil hne
          refine ⟨⟨rfl, rfl, b, bs, rfl⟩, rfl, rfl, ?_⟩
          rw [List.length_append]
          exact hle
        · cases haccept
  · rintro ⟨⟨hfirst, hh, b, bs, hdata⟩, rfl, rfl, hle⟩
    simp only at hfirst hh hdata
    subst hfirst hh hdata
    rw [List.length_append] at hle
    simp only [Call.bytes, Option.getD_some] at hle ⊢
    simp only [Transfer.accept]
    rw [if_pos ⟨trivial, List.cons_ne_nil b bs, hle⟩]

/-- The transfer that accepts a call is idle or collects. -/
theorem Transfer.step_collecting_iff {t : Transfer H} {c : Call H} {h : H} {n : Nat}
    {acc : Bytes} :
    (t.step c).1 = .collecting h n acc ↔
      t.accept c.first c.data c.handler = some (n, acc) ∧ acc.length ≠ n ∧ c.handler = h := by
  unfold Transfer.step
  cases haccept : t.accept c.first c.data c.handler with
  | none => simp
  | some r =>
    obtain ⟨m, acc'⟩ := r
    by_cases hm : acc'.length = m
    · simp only [if_pos hm]
      constructor
      · intro hstate
        cases hstate
      · rintro ⟨hsome, hn, -⟩
        cases hsome
        exact absurd hm hn
    · simp only [if_neg hm]
      constructor
      · intro hstate
        cases hstate
        exact ⟨rfl, hm, rfl⟩
      · rintro ⟨hsome, -, rfl⟩
        cases hsome
        rfl

/-- What the transfer accepts after some calls is what the last of them collected. -/
theorem accept_iff_collected {calls : List (Call H)} {c : Call H} {n : Nat} {acc : Bytes}
    (hcalls : ∀ h m acc₀, (transfers H).state calls = .collecting h m acc₀ ↔
      Collected calls h m acc₀ ∧ acc₀.length < m ∧ m ≤ payloadBufferSize) :
    ((transfers H).state calls).accept c.first c.data c.handler = some (n, acc) ↔
      Collected (calls ++ [c]) c.handler n acc ∧ acc.length ≤ n ∧ 1 ≤ n ∧
        n ≤ payloadBufferSize := by
  have hzeroed := (chunks_represents calls).1.zeroed_iff
  constructor
  · intro haccept
    cases hstate : (transfers H).state calls with
    | idle =>
      rw [hstate] at haccept
      obtain ⟨hfirst, hle, hpos, hmax, hi, lo, hdata, rfl⟩ := accept_first.mp haccept
      exact ⟨Collected.first (hzeroed.mpr hstate) hfirst hdata, hle, hpos, hmax⟩
    | collecting h m acc₀ =>
      rw [hstate] at haccept
      obtain ⟨hcol, hlt, hmax⟩ := (hcalls h m acc₀).mp hstate
      obtain ⟨hfollows, rfl, rfl, hle⟩ := accept_following.mp haccept
      have hhandler := hfollows.handler
      subst hhandler
      exact ⟨hcol.snoc hfollows, hle, Nat.one_le_of_lt hlt, hmax⟩
  · rintro ⟨hcol, hle, hpos, hmax⟩
    rcases hcol.cases_snoc with
      ⟨hidle, hfirst, -, hi, lo, hdata, hn⟩ | ⟨acc₀, hcol₀, hfollows, hacc⟩
    · rw [hzeroed.mp hidle]
      exact accept_first.mpr ⟨hfirst, hle, hpos, hmax, hi, lo, hdata, hn⟩
    · have hshort : acc₀.length < n := by
        have hne := List.length_pos_of_ne_nil hfollows.bytes_ne_nil
        rw [hacc, List.length_append] at hle
        omega
      rw [(hcalls c.handler n acc₀).mpr ⟨hcol₀, hshort, hmax⟩]
      exact accept_following.mpr ⟨hfollows, rfl, hacc, hle⟩

/-- A transfer collects what the last calls brought. -/
theorem state_collecting_iff (calls : List (Call H)) (h : H) (n : Nat) (acc : Bytes) :
    (transfers H).state calls = .collecting h n acc ↔
      Collected calls h n acc ∧ acc.length < n ∧ n ≤ payloadBufferSize := by
  induction calls using List.reverseRecOn generalizing h n acc with
  | nil =>
    constructor
    · intro hstate
      cases hstate
    · rintro ⟨⟨before, f, rest, hi, lo, d, hcalls, -⟩, -⟩
      simp at hcalls
  | append_singleton calls c ih =>
    rw [Machine.state_snoc]
    refine Transfer.step_collecting_iff.trans ?_
    rw [accept_iff_collected ih]
    constructor
    · rintro ⟨⟨hcol, hle, -, hmax⟩, hn, rfl⟩
      exact ⟨hcol, Nat.lt_of_le_of_ne hle hn, hmax⟩
    · rintro ⟨hcol, hlt, hmax⟩
      have hhandler : c.handler = h := by
        rcases hcol.cases_snoc with ⟨-, -, hhandler, -⟩ | ⟨-, -, hfollows, -⟩
        · exact hhandler
        · exact hfollows.handler
      subst hhandler
      exact ⟨⟨hcol, hlt.le, Nat.one_le_of_lt hlt, hmax⟩, Nat.ne_of_lt hlt, rfl⟩

/-- What a call is seen to do. -/
theorem mem_step_invoked {t : Transfer H} {c : Call H} {h : H} {b : Bytes} :
    CallEvent.invoked h b ∈ (t.step c).2 ↔
      t.accept c.first c.data c.handler = some (b.length, b) ∧ c.handler = h := by
  unfold Transfer.step
  cases haccept : t.accept c.first c.data c.handler with
  | none => simp
  | some r =>
    obtain ⟨n, acc⟩ := r
    by_cases hn : acc.length = n
    · simp only [if_pos hn, List.mem_cons, CallEvent.invoked.injEq, List.not_mem_nil, or_false,
        reduceCtorEq, Option.some.injEq, Prod.mk.injEq]
      constructor
      · rintro ⟨rfl, rfl⟩
        exact ⟨⟨hn.symm, rfl⟩, rfl⟩
      · rintro ⟨⟨-, rfl⟩, rfl⟩
        exact ⟨rfl, rfl⟩
    · simp only [if_neg hn, List.mem_singleton, reduceCtorEq, Option.some.injEq, Prod.mk.injEq,
        false_iff]
      rintro ⟨⟨rfl, rfl⟩, -⟩
      exact hn rfl

/-- A call invokes a handler exactly when it completes a payload of an accepted size. -/
theorem invoked_iff_collected (calls : List (Call H)) (c : Call H) (h : H) (b : Bytes) :
    CallEvent.invoked h b ∈ (callStep ((chunks H).state calls) c).2 ↔
      Collected (calls ++ [c]) h b.length b ∧ 1 ≤ b.length ∧ b.length ≤ payloadBufferSize := by
  rw [(callStep_represents (chunks_represents calls).1 c).2, mem_step_invoked,
    accept_iff_collected (state_collecting_iff calls)]
  constructor
  · rintro ⟨⟨hcol, -, hpos, hmax⟩, rfl⟩
    exact ⟨hcol, hpos, hmax⟩
  · rintro ⟨hcol, hpos, hmax⟩
    have hhandler : c.handler = h := by
      rcases hcol.cases_snoc with ⟨-, -, hhandler, -⟩ | ⟨-, -, hfollows, -⟩
      · exact hhandler
      · exact hfollows.handler
    subst hhandler
    exact ⟨⟨hcol, Nat.le_refl _, hpos, hmax⟩, rfl⟩

/-- A call that is not accepted returns false and leaves the buffer zeroed; so does one whose
handler fails. -/
theorem callStep_failed (calls : List (Call H)) (c : Call H)
    (h : ((transfers H).state calls).accept c.first c.data c.handler = none ∨
      c.result = false ∧ ∃ handler b,
        CallEvent.invoked handler b ∈ (callStep ((chunks H).state calls) c).2) :
    (callStep ((chunks H).state calls) c).1 = {} ∧
      CallEvent.returned false ∈ (callStep ((chunks H).state calls) c).2 := by
  obtain ⟨hrep, hevents⟩ := callStep_represents (chunks_represents calls).1 c
  rcases h with hnone | ⟨hresult, handler, b, hmem⟩
  · unfold Transfer.step at hrep hevents
    rw [hnone] at hrep hevents
    refine ⟨hrep, ?_⟩
    rw [hevents]
    exact List.mem_singleton_self _
  · rw [hevents, mem_step_invoked] at hmem
    obtain ⟨haccept, -⟩ := hmem
    unfold Transfer.step at hrep hevents
    simp only [haccept, if_true] at hrep hevents
    refine ⟨hrep, ?_⟩
    rw [hevents, hresult]
    simp

/-- Chunk reassembly.  Every sequence of calls has the events of the abstract transfer, and the
buffer represents it; a handler is invoked exactly on the payloads that the last calls collected;
a call that is not accepted, or whose handler fails, returns false on a zeroed buffer; and while
a payload is collected the counter is below its size, which is within the buffer. -/
theorem chunk_reassembly (calls : List (Call H)) :
    ((chunks H).state calls).Represents ((transfers H).state calls) ∧
    (chunks H).trace calls = (transfers H).trace calls ∧
    (∀ c h b, CallEvent.invoked h b ∈ (callStep ((chunks H).state calls) c).2 ↔
      Collected (calls ++ [c]) h b.length b ∧ 1 ≤ b.length ∧ b.length ≤ payloadBufferSize) ∧
    (∀ c : Call H, (((transfers H).state calls).accept c.first c.data c.handler = none ∨
        c.result = false ∧ ∃ h b,
          CallEvent.invoked h b ∈ (callStep ((chunks H).state calls) c).2) →
      (callStep ((chunks H).state calls) c).1 = {} ∧
        CallEvent.returned false ∈ (callStep ((chunks H).state calls) c).2) ∧
    (((chunks H).state calls).handler ≠ none →
      ((chunks H).state calls).received < ((chunks H).state calls).size ∧
        ((chunks H).state calls).size.toNat ≤ payloadBufferSize) ∧
    ((chunks H).state calls).buffer.length = payloadBufferSize := by
  obtain ⟨hrep, htrace⟩ := chunks_represents calls
  refine ⟨hrep, htrace, invoked_iff_collected calls, callStep_failed calls, ?_, ?_⟩
  · intro hhandler
    cases hstate : (transfers H).state calls with
    | idle => exact absurd (congrArg ChunkedPayload.handler (hrep.zeroed_iff.mpr hstate)) hhandler
    | collecting h n acc =>
      rw [hstate] at hrep
      obtain ⟨hholds, hlt⟩ := hrep
      rw [UInt16.lt_iff_toNat_lt, hholds.received, hholds.size]
      exact ⟨hlt, hholds.fits⟩
  · cases hstate : (transfers H).state calls with
    | idle =>
      rw [hrep.zeroed_iff.mpr hstate]
      exact List.length_replicate
    | collecting h n acc =>
      rw [hstate] at hrep
      exact hrep.1.buffer

end Hyperliquid

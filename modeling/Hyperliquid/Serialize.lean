/-
# Writing MessagePack into the scratch buffer

`cmp` writes through a callback, `ser_writer` (`action.c`), which appends to a buffer of
fixed size and refuses what does not fit.  The buffer is the static `g_raw_buf`, which still
holds an earlier serialization; `offset` bytes of it belong to the current one.

`Emits sdk m ts` says that a serializer is the sequence of the writes `ts`; its rules follow the
text of a serializer.  Then it has written exactly these items if it succeeds (`Writes`), and it
succeeds exactly when they fit (`exec_emit_isSome`).
-/
import Hyperliquid.Sdk

namespace Hyperliquid

open Lib Lib.Msgpack

/-! ## 1. The buffer and the callback -/

/-- `buffer_t`, used for output. -/
structure Buffer where
  ptr : Bytes
  size : Nat
  offset : Nat
deriving DecidableEq

/-- A serializer. -/
abbrev Ser := Fallible Buffer

def serWriter (data : Bytes) : Ser Unit := do
  let buf ← get
  if buf.offset + data.length > buf.size then failure
  else set { buf with ptr := memcpy buf.ptr buf.offset data, offset := buf.offset + data.length }

/-! ## 2. The `cmp_write_*` functions -/

section Cmp

variable (sdk : Sdk)

/-- One write of the library. -/
def cmpWrite (t : Token) : Ser Unit := serWriter (sdk.cmp.bytes t)

def cmpWriteStr (s : Bytes) : Ser Unit := cmpWrite sdk (.str s)
def cmpWriteMap (size : UInt32) : Ser Unit := cmpWrite sdk (.map size)
def cmpWriteArray (size : UInt32) : Ser Unit := cmpWrite sdk (.array size)
def cmpWriteUinteger (u : UInt64) : Ser Unit := cmpWrite sdk (.uinteger u)
def cmpWriteInteger (d : Int64) : Ser Unit := cmpWrite sdk (.integer d)
def cmpWriteBool (b : Bool) : Ser Unit := cmpWrite sdk (.bool b)

end Cmp

/-! ## 3. What a serializer writes -/

/-- The writes, one after the other. -/
def emit (sdk : Sdk) : List Token → Ser Unit
  | [] => pure ()
  | t :: ts => do
    cmpWrite sdk t
    emit sdk ts

theorem emit_append (sdk : Sdk) (ts us : List Token) :
    emit sdk (ts ++ us) = (do emit sdk ts; emit sdk us) := by
  induction ts with
  | nil => rfl
  | cons t ts ih =>
    rw [List.cons_append, emit, emit, ih, bind_assoc]

/-- The serializer makes the writes `ts`, in this order, and gives up at the first one that does
not fit. -/
def Emits (sdk : Sdk) (m : Ser Unit) (ts : List Token) : Prop := m = emit sdk ts

namespace Emits

variable {sdk : Sdk}

theorem nil : Emits sdk (pure ()) [] := rfl

/-- One write. -/
theorem single (t : Token) : Emits sdk (cmpWrite sdk t) [t] := (bind_pure _).symm

/-- One write, and the rest. -/
theorem cons {m : Ser Unit} {ts : List Token} (t : Token) (h : Emits sdk m ts) :
    Emits sdk (do cmpWrite sdk t; m) (t :: ts) := by
  unfold Emits at h ⊢
  rw [h, emit]

/-- A nested serializer, and the rest. -/
theorem append {m n : Ser Unit} {ts us : List Token} (hm : Emits sdk m ts)
    (hn : Emits sdk n us) : Emits sdk (do m; n) (ts ++ us) := by
  unfold Emits at hm hn ⊢
  rw [hm, hn, emit_append]

/-- A loop over an array. -/
theorem forM {α : Type} {f : α → Ser Unit} {g : α → List Token}
    (h : ∀ x, Emits sdk (f x) (g x)) :
    ∀ xs : List α, Emits sdk (xs.forM f) (xs.flatMap g)
  | [] => nil
  | x :: xs => (h x).append (forM h xs)

end Emits

/-- The bytes written so far, as a record. -/
def written : Fallible.Recorder Buffer UInt8 :=
  ⟨fun b => b.offset ≤ b.ptr.length, fun b => b.ptr.take b.offset⟩

theorem records_serWriter (data : Bytes) :
    Fallible.Records written (serWriter data) () data := by
  intro s a s' hi h
  unfold serWriter at h
  obtain ⟨t, s₁, h1, h2⟩ := Fallible.exec_bind_some.mp h
  cases h1
  split at h2
  · cases h2
  · cases h2
    refine ⟨?_, rfl, take_memcpy hi⟩
    have hi' : s.offset ≤ s.ptr.length := hi
    show s.offset + data.length ≤ (memcpy s.ptr s.offset data).length
    simp only [memcpy, List.length_append, List.length_take, Nat.min_eq_left hi']
    omega

/-- If the serializer succeeds, it has written the items `ts`. -/
def Writes (sdk : Sdk) (m : Ser Unit) (ts : List Token) : Prop :=
  Fallible.Records written m () (sdk.cmp.encode ts)

namespace Writes

variable {sdk : Sdk}

theorem fail (ts : List Token) : Writes sdk failure ts := Fallible.records_failure () _

theorem emit : ∀ ts : List Token, Writes sdk (emit sdk ts) ts
  | [] => Fallible.records_pure ()
  | _ :: ts => (records_serWriter _).andThen (emit ts)

/-- The bytes that are in the buffer after a serialization from its start. -/
theorem take_offset {m : Ser Unit} {ts : List Token} (h : Writes sdk m ts) {ptr : Bytes}
    {size : Nat} {buf : Buffer}
    (hm : m.exec { ptr := ptr, size := size, offset := 0 } = (some (), buf)) :
    buf.ptr.take buf.offset = sdk.cmp.encode ts := by
  obtain ⟨-, -, hlog⟩ := h _ _ _ (Nat.zero_le _) hm
  simpa [written] using hlog

end Writes

theorem Emits.writes {sdk : Sdk} {m : Ser Unit} {ts : List Token} (h : Emits sdk m ts) :
    Writes sdk m ts := by
  unfold Emits at h
  exact h ▸ Writes.emit ts

/-! ## 4. When a serializer succeeds -/

theorem exec_serWriter (data : Bytes) (buf : Buffer) :
    (serWriter data).exec buf =
      if buf.offset + data.length > buf.size then (none, buf)
      else (some (),
        { buf with ptr := memcpy buf.ptr buf.offset data, offset := buf.offset + data.length }) := by
  unfold serWriter
  rw [Fallible.exec_bind]
  show (if _ then failure else _ : Ser Unit).exec buf = _
  split <;> rfl

/-- The writes succeed exactly when all of them fit, whatever the buffer holds. -/
theorem exec_emit_isSome (sdk : Sdk) (ts : List Token) (buf : Buffer)
    (hle : buf.offset ≤ buf.size) :
    ((emit sdk ts).exec buf).1.isSome ↔
      buf.offset + (sdk.cmp.encode ts).length ≤ buf.size := by
  induction ts generalizing buf with
  | nil =>
    constructor
    · intro _
      exact hle
    · intro _
      rfl
  | cons t ts ih =>
    rw [emit, Fallible.exec_bind, cmpWrite, exec_serWriter, Writer.encode_cons,
      List.length_append]
    by_cases hlarge : buf.offset + (sdk.cmp.bytes t).length > buf.size
    · rw [if_pos hlarge]
      constructor
      · intro h
        cases h
      · intro h
        omega
    · rw [if_neg hlarge]
      have hstep := ih { buf with
        ptr := memcpy buf.ptr buf.offset (sdk.cmp.bytes t)
        offset := buf.offset + (sdk.cmp.bytes t).length } (Nat.le_of_not_gt hlarge)
      rw [← Nat.add_assoc]
      exact hstep

/-- From the start of a buffer. -/
theorem Emits.isSome {sdk : Sdk} {m : Ser Unit} {ts : List Token} (h : Emits sdk m ts)
    (ptr : Bytes) (size : Nat) :
    (m.exec { ptr := ptr, size := size, offset := 0 }).1.isSome ↔
      (sdk.cmp.encode ts).length ≤ size := by
  have hfits := exec_emit_isSome sdk ts { ptr := ptr, size := size, offset := 0 }
    (Nat.zero_le size)
  rw [Nat.zero_add] at hfits
  unfold Emits at h
  rw [h]
  exact hfits

end Hyperliquid

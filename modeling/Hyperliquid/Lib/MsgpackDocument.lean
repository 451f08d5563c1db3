/-
# MessagePack documents

A document is one value: a scalar, an array of values, or a map of pairs of values.  The
decoder reads the item in front; the header of an array or of a map says how many values or
pairs to read after it.  `decode` takes a whole byte string for one value, with nothing left
over.

`Spells d ts v` says that the writes `ts` are the value `v`, nested at most `d` levels deep:
whatever library emits them in standard form, the decoder reads `v` back, and stops right after
it.  Its rules follow the text of a serializer, header by header: a header is right if it says
the number of the pairs, or elements, that are then shown to follow.
-/
import Hyperliquid.Lib.Msgpack

namespace Lib.Msgpack

/-! ## 1. The decoder -/

inductive Value where
  | int (i : Int)
  | bool (b : Bool)
  | str (s : Bytes)
  | array (elems : List Value)
  | map (pairs : List (Value × Value))

section

variable {α : Type}

/-- `n` things, one after the other. -/
def decodeMany (dec : Bytes → Option (α × Bytes)) : Nat → Bytes → Option (List α × Bytes)
  | 0, bs => some ([], bs)
  | n + 1, bs => do
    let (x, rest) ← dec bs
    let (xs, rest) ← decodeMany dec n rest
    some (x :: xs, rest)

def decodePair (dec : Bytes → Option (α × Bytes)) (bs : Bytes) : Option ((α × α) × Bytes) := do
  let (k, rest) ← dec bs
  let (v, rest) ← dec rest
  some ((k, v), rest)

variable {dec : Bytes → Option (α × Bytes)}

theorem decodeMany_cons {n : Nat} {bs rest rest' : Bytes} {x : α} {xs : List α}
    (hx : dec bs = some (x, rest)) (hxs : decodeMany dec n rest = some (xs, rest')) :
    decodeMany dec (n + 1) bs = some (x :: xs, rest') := by
  refine Option.bind_eq_some_iff.mpr ⟨(x, rest), hx, ?_⟩
  exact Option.bind_eq_some_iff.mpr ⟨(xs, rest'), hxs, rfl⟩

theorem decodePair_eq {bs rest rest' : Bytes} {k v : α} (hk : dec bs = some (k, rest))
    (hv : dec rest = some (v, rest')) : decodePair dec bs = some ((k, v), rest') := by
  refine Option.bind_eq_some_iff.mpr ⟨(k, rest), hk, ?_⟩
  exact Option.bind_eq_some_iff.mpr ⟨(v, rest'), hv, rfl⟩

end

/-- The first value, which is nested less than `limit` levels deep, and the rest. -/
def decodeValue : Nat → Bytes → Option (Value × Bytes)
  | 0, _ => none
  | limit + 1, bs =>
    match decodeItem bs with
    | none => none
    | some (.int i, rest) => some (.int i, rest)
    | some (.bool b, rest) => some (.bool b, rest)
    | some (.str s, rest) => some (.str s, rest)
    | some (.array n, rest) =>
      (decodeMany (decodeValue limit) n rest).map fun p => (.array p.1, p.2)
    | some (.map n, rest) =>
      (decodeMany (decodePair (decodeValue limit)) n rest).map fun p => (.map p.1, p.2)

/-- The value that the byte string is.  Each level takes a byte at least, so the length is limit
enough (`decode_of_decodeValue`). -/
def decode (bs : Bytes) : Option Value :=
  match decodeValue bs.length bs with
  | some (v, []) => some v
  | _ => none

/-! ## 2. The limit does not matter -/

section

variable {α : Type} {bs rest : Bytes} {x : α}

/-- What is decoded is taken off the bytes, and another decoder, for shorter strings, finds it
too. -/
def Taken (dec' : Bytes → Option (α × Bytes)) (m : Nat) (bs : Bytes) (r : α × Bytes) : Prop :=
  r.2.length < bs.length ∧ (bs.length ≤ m → dec' bs = some r)

/-- At most `m` bytes are left. -/
def Leaves (m : Nat) (o : Option (α × Bytes)) : Prop := ∀ r, o = some r → r.2.length ≤ m

theorem Leaves.none {m : Nat} : Leaves m (Option.none : Option (α × Bytes)) := by
  intro r h
  cases h

theorem Leaves.some {m : Nat} (h : rest.length ≤ m) : Leaves m (Option.some (x, rest)) := by
  intro r hr
  cases hr
  exact h

theorem Leaves.map {β : Type} {m : Nat} {o : Option (α × Bytes)} {f : α × Bytes → β × Bytes}
    (h : Leaves m o) (hf : ∀ r, (f r).2 = r.2) : Leaves m (o.map f) := by
  intro r hr
  obtain ⟨r', hr', rfl⟩ := Option.map_eq_some_iff.mp hr
  rw [hf]
  exact h r' hr'

theorem Leaves.ite {m : Nat} {c : Prop} [Decidable c] {o o' : Option (α × Bytes)}
    (h : Leaves m o) (h' : Leaves m o') : Leaves m (if c then o else o') := by
  split
  · exact h
  · exact h'

theorem leaves_takeBytes (k : Nat) (bs : Bytes) : Leaves bs.length (takeBytes k bs) := by
  unfold takeBytes
  refine .ite .none (.some ?_)
  rw [List.length_drop]
  exact Nat.sub_le _ _

theorem leaves_takeNat (k : Nat) (bs : Bytes) : Leaves bs.length (takeNat k bs) :=
  (leaves_takeBytes k bs).map fun _ => rfl

theorem leaves_takeItem (k : Nat) (f : Nat → Item) (bs : Bytes) :
    Leaves bs.length (takeItem k f bs) :=
  (leaves_takeNat k bs).map fun _ => rfl

theorem leaves_takeStr (k : Nat) (bs : Bytes) : Leaves bs.length (takeStr k bs) :=
  (leaves_takeBytes k bs).map fun _ => rfl

theorem leaves_takeLenStr (k : Nat) (bs : Bytes) : Leaves bs.length (takeLenStr k bs) := by
  intro r hr
  unfold takeLenStr at hr
  split at hr
  · cases hr
  · rename_i n rest hn
    exact (leaves_takeStr n rest r hr).trans (leaves_takeNat k bs _ hn)

/-- An item takes a byte at least. -/
theorem decodeItem_length {i : Item} (h : decodeItem bs = some (i, rest)) :
    rest.length < bs.length := by
  cases bs with
  | nil => cases h
  | cons b bs =>
    suffices hleaves : Leaves bs.length (decodeItem (b :: bs)) from
      Nat.lt_succ_of_le (hleaves _ h)
    rw [decodeItem]
    repeat' with_reducible apply Leaves.ite
    all_goals with_reducible first
      | exact leaves_takeItem _ _ _
      | exact leaves_takeStr _ _
      | exact leaves_takeLenStr _ _
      | exact .some (Nat.le_refl _)
      | exact .none

variable {dec dec' : Bytes → Option (α × Bytes)} {m : Nat}

theorem decodeMany_taken (h : ∀ bs r, dec bs = some r → Taken dec' m bs r) {n : Nat} {xs : List α}
    (hxs : decodeMany dec n bs = some (xs, rest)) :
    rest.length ≤ bs.length ∧ (bs.length ≤ m → decodeMany dec' n bs = some (xs, rest)) := by
  induction n generalizing bs xs with
  | zero =>
    cases hxs
    exact ⟨Nat.le_refl _, fun _ => rfl⟩
  | succ n ih =>
    obtain ⟨⟨x, rest₁⟩, hx, hxs⟩ := Option.bind_eq_some_iff.mp hxs
    obtain ⟨⟨xs', rest₂⟩, hxs', hxs⟩ := Option.bind_eq_some_iff.mp hxs
    cases hxs
    obtain ⟨hlt, hdec⟩ := h _ _ hx
    obtain ⟨hle, hmany⟩ := ih hxs'
    refine ⟨hle.trans hlt.le, fun hm => ?_⟩
    exact decodeMany_cons (hdec hm) (hmany (hlt.le.trans hm))

theorem decodePair_taken (h : ∀ bs r, dec bs = some r → Taken dec' m bs r) (bs : Bytes)
    (r : (α × α) × Bytes) (hr : decodePair dec bs = some r) : Taken (decodePair dec') m bs r := by
  obtain ⟨⟨k, rest₁⟩, hk, hr⟩ := Option.bind_eq_some_iff.mp hr
  obtain ⟨⟨v, rest₂⟩, hv, hr⟩ := Option.bind_eq_some_iff.mp hr
  cases hr
  obtain ⟨hlt, hdec⟩ := h _ _ hk
  obtain ⟨hlt', hdec'⟩ := h _ _ hv
  refine ⟨hlt'.trans hlt, fun hm => ?_⟩
  exact decodePair_eq (hdec hm) (hdec' (hlt.le.trans hm))

end

/-- A value takes a byte at least, and any limit from the length of the string on finds it. -/
theorem decodeValue_taken {limit : Nat} (limit' : Nat) (bs : Bytes) (r : Value × Bytes)
    (h : decodeValue limit bs = some r) : Taken (decodeValue limit') limit' bs r := by
  induction limit generalizing limit' bs r with
  | zero => cases h
  | succ limit ih =>
    rw [decodeValue] at h
    cases hitem : decodeItem bs with
    | none =>
      rw [hitem] at h
      cases h
    | some p =>
      obtain ⟨i, rest⟩ := p
      have hlt := decodeItem_length hitem
      rw [hitem] at h
      refine ⟨?_, fun hm => ?_⟩
      · cases i with
        | int | bool | str =>
          cases h
          exact hlt
        | array n =>
          obtain ⟨⟨vs, rest'⟩, hvs, hr⟩ := Option.map_eq_some_iff.mp h
          cases hr
          exact Nat.lt_of_le_of_lt (decodeMany_taken (m := 0) (ih 0) hvs).1 hlt
        | map n =>
          obtain ⟨⟨ps, rest'⟩, hps, hr⟩ := Option.map_eq_some_iff.mp h
          cases hr
          exact Nat.lt_of_le_of_lt
            (decodeMany_taken (m := 0) (decodePair_taken (ih 0)) hps).1 hlt
      · obtain ⟨l, rfl⟩ : ∃ l, limit' = l + 1 := ⟨limit' - 1, by omega⟩
        have hrest : rest.length ≤ l := by omega
        rw [decodeValue, hitem]
        cases i with
        | int | bool | str => exact h
        | array n =>
          obtain ⟨⟨vs, rest'⟩, hvs, hr⟩ := Option.map_eq_some_iff.mp h
          cases hr
          have hmany := (decodeMany_taken (ih l) hvs).2 hrest
          exact Option.map_eq_some_iff.mpr ⟨_, hmany, rfl⟩
        | map n =>
          obtain ⟨⟨ps, rest'⟩, hps, hr⟩ := Option.map_eq_some_iff.mp h
          cases hr
          have hmany := (decodeMany_taken (decodePair_taken (ih l)) hps).2 hrest
          exact Option.map_eq_some_iff.mpr ⟨_, hmany, rfl⟩

theorem decode_of_decodeValue {limit : Nat} {bs : Bytes} {v : Value}
    (h : decodeValue limit bs = some (v, [])) : decode bs = some v := by
  have hlength := (decodeValue_taken bs.length bs _ h).2 (Nat.le_refl _)
  unfold decode
  rw [hlength]

/-! ## 3. What a sequence of writes spells -/

/-- The value of an item that is not a header. -/
def Item.scalar : Item → Option Value
  | .int i => some (.int i)
  | .bool b => some (.bool b)
  | .str s => some (.str s)
  | .map _ | .array _ => none

/-- The writes `ts` are read back as `x`, whatever follows, by the decoders `dec limit` with
`limit > d`. -/
def ReadAs {α : Type} (dec : Nat → Bytes → Option (α × Bytes)) (d : Nat) (ts : List Token)
    (x : α) : Prop :=
  ∀ w : Writer, w.Standard → (∀ t ∈ ts, t.Fits) → ∀ limit, d < limit → ∀ rest,
    dec limit (w.encode ts ++ rest) = some (x, rest)

/-- The writes are one value. -/
def Spells (d : Nat) : List Token → Value → Prop := ReadAs decodeValue d

/-- The writes are these pairs. -/
def SpellsPairs (d : Nat) (ts : List Token) (ps : List (Value × Value)) : Prop :=
  ReadAs (fun limit => decodeMany (decodePair (decodeValue limit)) ps.length) d ts ps

/-- The writes are these values. -/
def SpellsElems (d : Nat) (ts : List Token) (vs : List Value) : Prop :=
  ReadAs (fun limit => decodeMany (decodeValue limit) vs.length) d ts vs

theorem ReadAs.mono {α : Type} {dec : Nat → Bytes → Option (α × Bytes)} {d d' : Nat}
    {ts : List Token} {x : α} (h : ReadAs dec d ts x) (hle : d ≤ d') : ReadAs dec d' ts x := by
  intro w hw hfits limit hlimit rest
  exact h w hw hfits limit (Nat.lt_of_le_of_lt hle hlimit) rest

section

variable {d : Nat} {ts us : List Token} {v : Value} {ps qs : List (Value × Value)}

/-- An integer, a boolean or a string. -/
theorem Spells.scalar {t : Token} (ht : t.item.scalar = some v) : Spells d [t] v := by
  intro w hw hfits limit hlimit rest
  obtain ⟨limit, rfl⟩ : ∃ l, limit = l + 1 := ⟨limit - 1, by omega⟩
  rw [Writer.encode_cons, Writer.encode_nil, List.append_nil, decodeValue,
    hw t rest (hfits t (by simp))]
  cases hitem : t.item <;> rw [hitem] at ht <;> cases ht <;> rfl

/-- A map: its header says how many pairs follow. -/
theorem Spells.map {n : UInt32} (hn : n.toNat = ps.length) (h : SpellsPairs d ts ps) :
    Spells (d + 1) (.map n :: ts) (.map ps) := by
  intro w hw hfits limit hlimit rest
  obtain ⟨limit, rfl⟩ : ∃ l, limit = l + 1 := ⟨limit - 1, by omega⟩
  have hheader := hw (.map n) (w.encode ts ++ rest) trivial
  have hpairs : decodeMany (decodePair (decodeValue limit)) ps.length (w.encode ts ++ rest) =
      some (ps, rest) := h w hw (fun t ht => hfits t (by simp [ht])) limit (by omega) rest
  rw [Writer.encode_cons, List.append_assoc, decodeValue, hheader]
  show Option.map _ (decodeMany _ n.toNat _) = _
  rw [hn, hpairs]
  rfl

/-- An array: its header says how many elements follow. -/
theorem Spells.array {n : UInt32} {vs : List Value} (hn : n.toNat = vs.length)
    (h : SpellsElems d ts vs) : Spells (d + 1) (.array n :: ts) (.array vs) := by
  intro w hw hfits limit hlimit rest
  obtain ⟨limit, rfl⟩ : ∃ l, limit = l + 1 := ⟨limit - 1, by omega⟩
  have hheader := hw (.array n) (w.encode ts ++ rest) trivial
  have helems : decodeMany (decodeValue limit) vs.length (w.encode ts ++ rest) =
      some (vs, rest) := h w hw (fun t ht => hfits t (by simp [ht])) limit (by omega) rest
  rw [Writer.encode_cons, List.append_assoc, decodeValue, hheader]
  show Option.map _ (decodeMany _ n.toNat _) = _
  rw [hn, helems]
  rfl

theorem SpellsPairs.nil : SpellsPairs d [] [] := by
  intro w _ _ limit _ rest
  rfl

/-- A key, its value, and the other pairs. -/
theorem SpellsPairs.entry {key : Bytes} (hv : Spells d ts v) (h : SpellsPairs d us ps) :
    SpellsPairs d (.str key :: (ts ++ us)) ((.str key, v) :: ps) := by
  intro w hw hfits limit hlimit rest
  have hkey : Spells d [.str key] (.str key) := .scalar rfl
  have h₁ := hkey w hw (fun t ht => hfits t (by simp_all)) limit hlimit
    (w.encode ts ++ (w.encode us ++ rest))
  have h₂ := hv w hw (fun t ht => hfits t (by simp [ht])) limit hlimit (w.encode us ++ rest)
  have h₃ := h w hw (fun t ht => hfits t (by simp [ht])) limit hlimit rest
  have hbytes : w.encode (.str key :: (ts ++ us)) ++ rest =
      w.encode [.str key] ++ (w.encode ts ++ (w.encode us ++ rest)) := by
    simp
  rw [hbytes]
  exact decodeMany_cons (decodePair_eq h₁ h₂) h₃

/-- The last pair. -/
theorem SpellsPairs.last {key : Bytes} (hv : Spells d ts v) :
    SpellsPairs d (.str key :: ts) [(.str key, v)] := by
  have h : SpellsPairs d (.str key :: (ts ++ [])) [(.str key, v)] := .entry hv .nil
  rwa [List.append_nil] at h

/-- A key with a scalar, and the other pairs. -/
theorem SpellsPairs.scalar {key : Bytes} {t : Token} (ht : t.item.scalar = some v)
    (h : SpellsPairs d us ps) : SpellsPairs d (.str key :: t :: us) ((.str key, v) :: ps) :=
  .entry (.scalar ht) h

/-- The values of an array, one after the other. -/
theorem SpellsElems.flatMap {α : Type} {f : α → List Token} {g : α → Value}
    (h : ∀ x, Spells d (f x) (g x)) (xs : List α) :
    SpellsElems d (xs.flatMap f) (xs.map g) := by
  intro w hw hfits limit hlimit rest
  induction xs with
  | nil => rfl
  | cons x xs ih =>
    have h₁ := h x w hw (fun t ht => hfits t (by simp [ht])) limit hlimit
      (w.encode (xs.flatMap f) ++ rest)
    have h₂ := ih fun t ht => hfits t (by simp [List.flatMap_cons, ht])
    rw [List.flatMap_cons, Writer.encode_append, List.append_assoc]
    exact decodeMany_cons h₁ h₂

end

/-- Written by a library that emits standard MessagePack, a document is read back. -/
theorem Writer.Standard.decode_encode {w : Writer} (hw : w.Standard) {d : Nat} {ts : List Token}
    {v : Value} (hfits : ∀ t ∈ ts, t.Fits) (h : Spells d ts v) : decode (w.encode ts) = some v := by
  have hread := h w hw hfits (d + 1) (Nat.lt_succ_self d) []
  rw [List.append_nil] at hread
  exact decode_of_decodeValue hread

end Lib.Msgpack

/-
# Tag-length-value records, dispatched to handlers

A TLV parser walks a payload element by element.  Each known tag has a handler that updates
an output context; an unknown tag is refused, a tag enforced unique is refused the second
time, and the tags met so far are recorded in the context, where the final check and some of
the handlers read them.  How the payload bytes split into elements is a parameter (`decode`).

The proof rule is `parse_induction`: a property of the context that every handler preserves,
from contexts where its own tag is marked and (if it is enforced unique) was not marked
before, holds of the context the parser returns.
-/
import Hyperliquid.Lib.Bounded

namespace Lib

/-- One element: its tag, its value, and the bytes of the whole element. -/
structure TlvData where
  tag : Nat
  value : Bytes
  raw : Bytes
deriving DecidableEq

/-- Why a parsing function gave up: it refused its input, or it read through a null pointer
(which the program must never do). -/
inductive Failure where
  | rejected
  | nullDeref
deriving DecidableEq

/-- A row of a parser's table. -/
structure TagHandler (σ : Type) where
  tag : Nat
  handler : TlvData → σ → Except Failure σ
  unique : Bool

/-- A context that records the tags received. -/
class TlvContext (σ : Type) where
  receivedTags : σ → List Nat
  receive : Nat → σ → σ

/-- Were all these tags received? -/
def checkReceivedTags (received tags : List Nat) : Bool := tags.all (· ∈ received)

/-- The check that a structure is complete. -/
def requireTags (received tags : List Nat) : Except Failure Unit :=
  if !checkReceivedTags received tags then .error .rejected else .ok ()

theorem checkReceivedTags_iff {received tags : List Nat} :
    checkReceivedTags received tags = true ↔ ∀ t ∈ tags, t ∈ received := by
  simp [checkReceivedTags]

theorem requireTags_ok {received tags : List Nat} :
    requireTags received tags = .ok () ↔ ∀ t ∈ tags, t ∈ received := by
  rw [← checkReceivedTags_iff]
  unfold requireTags
  cases checkReceivedTags received tags <;> simp

theorem requireTags_ne_nullDeref (received tags : List Nat) :
    requireTags received tags ≠ .error .nullDeref := by
  unfold requireTags
  split <;> simp

/-- A sequence succeeds when both parts do. -/
theorem bind_ok_iff {ε α β : Type} {x : Except ε α} {f : α → Except ε β} {b : β} :
    x >>= f = .ok b ↔ ∃ a, x = .ok a ∧ f a = .ok b := by
  cases x with
  | error e => simp [bind, Except.bind]
  | ok a => simp [bind, Except.bind]

/-- A sequence fails where its first failing part does. -/
theorem bind_error_iff {ε α β : Type} {x : Except ε α} {f : α → Except ε β} {e : ε} :
    x >>= f = .error e ↔ x = .error e ∨ ∃ a, x = .ok a ∧ f a = .error e := by
  cases x with
  | error e => simp [bind, Except.bind]
  | ok a => simp [bind, Except.bind]

/-- Computations that are the same through a map fail alike, or return values that are. -/
theorem map_eq_map_cases {ε α β : Type} {x y : Except ε α} {f : α → β}
    (h : x.map f = y.map f) :
    (∃ e, x = .error e ∧ y = .error e) ∨ ∃ a b, x = .ok a ∧ y = .ok b ∧ f a = f b := by
  cases x with
  | error e =>
    cases y with
    | error e' =>
      cases h
      exact .inl ⟨e, rfl, rfl⟩
    | ok b => cases h
  | ok a =>
    cases y with
    | error e' => cases h
    | ok b => exact .inr ⟨a, b, rfl, rfl, Except.ok.inj h⟩

/-- A parser: its table, and a handler called for every element before the tag's own. -/
structure TlvParser (σ : Type) where
  tags : List (TagHandler σ)
  common : TlvData → σ → Except Failure σ

namespace TlvParser

variable {σ : Type} [TlvContext σ]

open TlvContext

/-- One element. -/
def step (p : TlvParser σ) (s : σ) (d : TlvData) : Except Failure σ :=
  match p.tags.find? (fun h => h.tag == d.tag) with
  | none => .error .rejected
  | some h =>
    if h.unique && (receivedTags s).contains d.tag then .error .rejected
    else p.common d (receive d.tag s) >>= h.handler d

/-- The elements in turn; the first failure ends the parse. -/
def parseElements (p : TlvParser σ) : List TlvData → σ → Except Failure σ
  | [], s => .ok s
  | d :: ds, s => p.step s d >>= p.parseElements ds

/-- A payload that does not split into elements is refused. -/
def parse (p : TlvParser σ) (decode : Bytes → Option (List TlvData)) (payload : Bytes)
    (s : σ) : Except Failure σ :=
  match decode payload with
  | none => .error .rejected
  | some ds => p.parseElements ds s

/-- What a successful step did. -/
theorem step_ok {p : TlvParser σ} {s s' : σ} {d : TlvData} (h : p.step s d = .ok s') :
    ∃ row ∈ p.tags, row.tag = d.tag ∧ (row.unique = true → d.tag ∉ receivedTags s) ∧
      ∃ s₁, p.common d (receive d.tag s) = .ok s₁ ∧ row.handler d s₁ = .ok s' := by
  unfold step at h
  split at h
  · cases h
  · rename_i row hfind
    split at h
    · cases h
    · rename_i huniq
      refine ⟨row, List.mem_of_find?_eq_some hfind, ?_, ?_, ?_⟩
      · simpa using List.find?_some hfind
      · intro hu hmem
        exact huniq (by simp [hu, hmem])
      · exact bind_ok_iff.mp h

/-- A property each step preserves holds at the end. -/
theorem parseElements_induction {p : TlvParser σ} {P : σ → Prop}
    (hstep : ∀ s s' d, P s → p.step s d = .ok s' → P s') :
    ∀ (ds : List TlvData) (s s' : σ), P s → p.parseElements ds s = .ok s' → P s'
  | [], s, s', hs, h => by
    cases h
    exact hs
  | d :: ds, s, s', hs, h => by
    unfold parseElements at h
    obtain ⟨s₁, hd, hrest⟩ := bind_ok_iff.mp h
    exact parseElements_induction hstep ds s₁ s' (hstep s s₁ d hs hd) hrest

/-- The parser rule: it is enough to look at each row of the table. -/
theorem parse_induction {p : TlvParser σ} {decode : Bytes → Option (List TlvData)}
    {P : σ → Prop} {payload : Bytes} {s s' : σ}
    (hrow : ∀ row ∈ p.tags, ∀ d s s₁ s', d.tag = row.tag → P s →
      (row.unique = true → row.tag ∉ receivedTags s) →
      p.common d (receive row.tag s) = .ok s₁ → row.handler d s₁ = .ok s' → P s')
    (hs : P s) (h : p.parse decode payload s = .ok s') : P s' := by
  unfold parse at h
  split at h
  · cases h
  · rename_i ds _
    refine parseElements_induction ?_ ds s s' hs h
    intro s s' d hs hstep
    obtain ⟨row, hmem, htag, huniq, s₁, hc, hh⟩ := step_ok hstep
    rw [← htag] at huniq hc
    exact hrow row hmem d s s₁ s' htag.symm hs huniq hc hh

/-- A step dereferences null only in one of its handlers. -/
theorem step_ne_nullDeref {p : TlvParser σ} (hcommon : ∀ d s, p.common d s ≠ .error .nullDeref)
    (hrow : ∀ row ∈ p.tags, ∀ d s, row.handler d s ≠ .error .nullDeref) (s : σ)
    (d : TlvData) : p.step s d ≠ .error .nullDeref := by
  intro h
  unfold step at h
  split at h
  · cases h
  · rename_i row hfind
    split at h
    · cases h
    · obtain hc | ⟨s₁, -, hh⟩ := bind_error_iff.mp h
      · exact hcommon _ _ hc
      · exact hrow row (List.mem_of_find?_eq_some hfind) d s₁ hh

theorem parseElements_ne_nullDeref {p : TlvParser σ}
    (hcommon : ∀ d s, p.common d s ≠ .error .nullDeref)
    (hrow : ∀ row ∈ p.tags, ∀ d s, row.handler d s ≠ .error .nullDeref) :
    ∀ (ds : List TlvData) (s : σ), p.parseElements ds s ≠ .error .nullDeref
  | [], s => by simp [parseElements]
  | d :: ds, s => by
    intro h
    unfold parseElements at h
    obtain hd | ⟨s₁, -, hrest⟩ := bind_error_iff.mp h
    · exact step_ne_nullDeref hcommon hrow s d hd
    · exact parseElements_ne_nullDeref hcommon hrow ds s₁ hrest

theorem parse_ne_nullDeref {p : TlvParser σ} {decode : Bytes → Option (List TlvData)}
    (hcommon : ∀ d s, p.common d s ≠ .error .nullDeref)
    (hrow : ∀ row ∈ p.tags, ∀ d s, row.handler d s ≠ .error .nullDeref) (payload : Bytes)
    (s : σ) : p.parse decode payload s ≠ .error .nullDeref := by
  unfold parse
  split
  · simp
  · exact parseElements_ne_nullDeref hcommon hrow _ s

/-! ### Parsing a structure: the elements, then a final check -/

/-- Parses the payload, and accepts the context if it passes the check. -/
def parseVerified (p : TlvParser σ) (decode : Bytes → Option (List TlvData))
    (verify : σ → Except Failure Unit) (payload : Bytes) (s : σ) : Except Failure σ := do
  let s ← p.parse decode payload s
  verify s
  .ok s

theorem parseVerified_ok {p : TlvParser σ} {decode : Bytes → Option (List TlvData)}
    {verify : σ → Except Failure Unit} {payload : Bytes} {s s' : σ} :
    p.parseVerified decode verify payload s = .ok s' ↔
      p.parse decode payload s = .ok s' ∧ verify s' = .ok () := by
  unfold parseVerified
  simp only [bind_ok_iff]
  constructor
  · rintro ⟨s₁, hp, u, hv, hs⟩
    cases hs
    exact ⟨hp, hv⟩
  · rintro ⟨hp, hv⟩
    exact ⟨s', hp, (), hv, rfl⟩

/-- A payload whose elements are known. -/
theorem parseVerified_elements {p : TlvParser σ} {decode : Bytes → Option (List TlvData)}
    {verify : σ → Except Failure Unit} {payload : Bytes} {ds : List TlvData} {s s' : σ}
    (hds : decode payload = some ds) :
    p.parseVerified decode verify payload s = .ok s' ↔
      p.parseElements ds s = .ok s' ∧ verify s' = .ok () := by
  rw [parseVerified_ok, parse, hds]

theorem parseVerified_ne_nullDeref {p : TlvParser σ}
    {decode : Bytes → Option (List TlvData)} {verify : σ → Except Failure Unit}
    (hcommon : ∀ d s, p.common d s ≠ .error .nullDeref)
    (hrow : ∀ row ∈ p.tags, ∀ d s, row.handler d s ≠ .error .nullDeref)
    (hverify : ∀ s, verify s ≠ .error .nullDeref) (payload : Bytes) (s : σ) :
    p.parseVerified decode verify payload s ≠ .error .nullDeref := by
  intro h
  unfold parseVerified at h
  simp only [bind_error_iff] at h
  obtain hp | ⟨s₁, -, hv | ⟨u, -, hs⟩⟩ := h
  · exact parse_ne_nullDeref hcommon hrow payload s hp
  · exact hverify s₁ hv
  · cases hs

end TlvParser

/-- The common handler of a parser that has none. -/
def noCommon {σ : Type} (_ : TlvData) (s : σ) : Except Failure σ := .ok s

theorem noCommon_ne_nullDeref {σ : Type} (d : TlvData) (s : σ) :
    noCommon d s ≠ .error .nullDeref := by simp [noCommon]

/-! ## Handlers that read one value -/

/-- Reads a value out of the element and stores it. -/
def storing {σ α : Type} (get : TlvData → Option α) (set : α → σ → σ) (d : TlvData) (s : σ) :
    Except Failure σ :=
  match get d with
  | none => .error .rejected
  | some a => .ok (set a s)

theorem storing_ok {σ α : Type} {get : TlvData → Option α} {set : α → σ → σ} {d : TlvData}
    {s s' : σ} : storing get set d s = .ok s' ↔ ∃ a, get d = some a ∧ s' = set a s := by
  unfold storing
  cases get d with
  | none => simp
  | some a => simp [eq_comm]

/-- Parses one more element of an array and appends it, if a slot is free. -/
def pushing {σ α : Type} {n : Nat} (get : Bytes → Except Failure α) (arr : σ → Bounded α n)
    (set : Bounded α n → σ → σ) (d : TlvData) (s : σ) : Except Failure σ :=
  if h : (arr s).count ≥ n then .error .rejected
  else do
    let a ← get d.value
    .ok (set ((arr s).push a (Nat.lt_of_not_ge h)) s)

theorem pushing_ok {σ α : Type} {n : Nat} {get : Bytes → Except Failure α}
    {arr : σ → Bounded α n} {set : Bounded α n → σ → σ} {d : TlvData} {s s' : σ}
    (h : pushing get arr set d s = .ok s') :
    ∃ a hlt, get d.value = .ok a ∧ s' = set ((arr s).push a hlt) s := by
  unfold pushing at h
  split at h
  · cases h
  · obtain ⟨a, hget, hs⟩ := bind_ok_iff.mp h
    cases hs
    exact ⟨a, _, hget, rfl⟩

theorem pushing_ne_nullDeref {σ α : Type} {n : Nat} {get : Bytes → Except Failure α}
    {arr : σ → Bounded α n} {set : Bounded α n → σ → σ}
    (hget : ∀ v, get v ≠ .error .nullDeref) (d : TlvData) (s : σ) :
    pushing get arr set d s ≠ .error .nullDeref := by
  intro h
  unfold pushing at h
  split at h
  · cases h
  · obtain hg | ⟨a, -, hs⟩ := bind_error_iff.mp h
    · exact hget _ hg
    · cases hs

theorem storing_ne_nullDeref {σ α : Type} {get : TlvData → Option α} {set : α → σ → σ}
    (d : TlvData) (s : σ) : storing get set d s ≠ .error .nullDeref := by
  unfold storing
  cases get d <;> simp

end Lib

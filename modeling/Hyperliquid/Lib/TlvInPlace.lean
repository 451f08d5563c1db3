/-
# Arrays that a parser fills in place

A program has no list to append to: an array has all of its slots from the start, and a counter.
The handler of a tag that may come several times parses the element straight into the next slot,
through one sub-context that every element uses again.  What an earlier element left in the
sub-context is still there when the next one begins; it is harmless because the handler wipes the
sub-context first, and a slot that was not used yet is still blank.

`reusing` is that handler, and `pushing` is what it amounts to: the first agrees with the second
as long as the array holds the list (`Slots.Holds`), whatever the sub-context holds
(`reusing_agrees`).  Two parsers whose handlers agree row by row agree on every payload
(`TlvParser.Simulates.parseVerified`).
-/
import Hyperliquid.Lib.TlvElements

namespace Lib

/-! ## 1. Slots -/

/-- An array with all of its slots, beside the counter of the used ones. -/
structure Slots (α : Type) (n : Nat) where
  slots : Vector α n
  count : Nat
deriving DecidableEq

namespace Slots

variable {α : Type} {n : Nat}

/-- No slot is used. -/
def blank (a : α) : Slots α n := ⟨Vector.replicate n a, 0⟩

/-- The next slot, as it is. -/
def next (s : Slots α n) (h : s.count < n) : α := s.slots.get ⟨s.count, h⟩

/-- Writes the next slot and counts it. -/
def store (s : Slots α n) (a : α) (h : s.count < n) : Slots α n :=
  ⟨s.slots.set s.count a h, s.count + 1⟩

/-- The slot of an index, if it is used. -/
def used? (s : Slots α n) (i : Nat) : Option α := if i < s.count then s.slots[i]? else none

/-- The used slots hold the list, and the others are blank. -/
structure Holds (a : α) (s : Slots α n) (b : Bounded α n) : Prop where
  count : s.count = b.count
  slots : s.slots.toList = b.elems ++ List.replicate (n - b.count) a

variable {a x : α} {s : Slots α n} {b : Bounded α n}

theorem holds_blank : Holds a (blank a : Slots α n) .empty where
  count := rfl
  slots := by simp [blank, Bounded.count]

/-- The slots from the counter on are blank. -/
theorem Holds.next (h : Holds a s b) (hlt : s.count < n) : s.next hlt = a := by
  have hget : s.slots.toList[s.count]? = some a := by
    have hlt' : b.elems.length < n := by
      have hcount := h.count
      unfold Bounded.count at hcount
      omega
    rw [h.slots, h.count, Bounded.count, List.getElem?_append_right (Nat.le_refl _), Nat.sub_self,
      List.getElem?_replicate, if_pos (Nat.sub_pos_of_lt hlt')]
  rw [Vector.getElem?_toList, Vector.getElem?_eq_getElem hlt] at hget
  exact Option.some.inj hget

/-- Storing is pushing. -/
theorem Holds.store (h : Holds a s b) (hlt : s.count < n) (hlt' : b.count < n) :
    Holds a (s.store x hlt) (b.push x hlt') where
  count := by
    rw [Bounded.count_push, ← h.count]
    rfl
  slots := by
    have hfree : n - b.count = n - (b.count + 1) + 1 := by omega
    show (s.slots.set s.count x hlt).toList = _
    rw [Vector.toList_set, h.slots, h.count, Bounded.count_push, Bounded.elems_push, hfree,
      List.replicate_succ, Bounded.count,
      List.set_append_right _ _ (Nat.le_refl _), Nat.sub_self, List.set_cons_zero,
      List.append_assoc, List.singleton_append]

/-- The used slots are the elements of the list, in order. -/
theorem Holds.used? (h : Holds a s b) (i : Nat) : s.used? i = b.elems[i]? := by
  unfold Slots.used?
  rw [h.count, ← Vector.getElem?_toList, h.slots]
  by_cases hi : i < b.elems.length
  · rw [Bounded.count, if_pos hi, List.getElem?_append_left hi]
  · rw [Bounded.count, if_neg hi, List.getElem?_eq_none (Nat.le_of_not_lt hi)]

end Slots

/-! ## 2. Parsers that agree -/

/-- Both fail alike, or both return, and what they return is related. -/
inductive Agree {σ τ : Type} (R : σ → τ → Prop) : Except Failure σ → Except Failure τ → Prop where
  | ok {s : σ} {t : τ} : R s t → Agree R (.ok s) (.ok t)
  | error (e : Failure) : Agree R (.error e) (.error e)

section

variable {σ τ σ' τ' : Type} {R : σ → τ → Prop} {Q : σ' → τ' → Prop}

theorem Agree.bind {x : Except Failure σ} {y : Except Failure τ}
    {f : σ → Except Failure σ'} {g : τ → Except Failure τ'} (h : Agree R x y)
    (hfg : ∀ s t, R s t → Agree Q (f s) (g t)) : Agree Q (x >>= f) (y >>= g) := by
  cases h with
  | ok hst => exact hfg _ _ hst
  | error e => exact .error e

/-- What the left side returns is related to what the right side returns. -/
theorem Agree.of_ok {x : Except Failure σ} {y : Except Failure τ} {s : σ} (h : Agree R x y)
    (hx : x = .ok s) : ∃ t, y = .ok t ∧ R s t := by
  cases h with
  | ok hst =>
    cases hx
    exact ⟨_, rfl, hst⟩
  | error e => cases hx

/-- One side returns exactly when the other does. -/
theorem Agree.exists_ok_iff {x : Except Failure σ} {y : Except Failure τ} (h : Agree R x y) :
    (∃ s, x = .ok s) ↔ ∃ t, y = .ok t := by
  cases h with
  | ok hst => exact ⟨fun _ => ⟨_, rfl⟩, fun _ => ⟨_, rfl⟩⟩
  | error e =>
    constructor
    · rintro ⟨s, hs⟩
      cases hs
    · rintro ⟨t, ht⟩
      cases ht

/-- The same computation on both sides. -/
theorem Agree.refl (x : Except Failure σ) : Agree (fun s t => s = t) x x := by
  cases x with
  | error e => exact .error e
  | ok s => exact .ok rfl

/-- A value that is read, and stored on both sides. -/
theorem storing_agrees {α : Type} {get : TlvData → Option α} {set : α → σ → σ} {set' : α → τ → τ}
    (hset : ∀ a s t, R s t → R (set a s) (set' a t)) (d : TlvData) {s : σ} {t : τ} (h : R s t) :
    Agree R (storing get set d s) (storing get set' d t) := by
  unfold storing
  cases get d with
  | none => exact .error _
  | some a => exact .ok (hset a s t h)

end

namespace TlvParser

open TlvContext

variable {σ τ : Type} [TlvContext σ] [TlvContext τ]

/-- The parsers have the same table, and their handlers agree on contexts that are related. -/
structure Simulates (R : σ → τ → Prop) (p : TlvParser σ) (q : TlvParser τ) : Prop where
  rows : List.Forall₂ (fun r r' => r.tag = r'.tag ∧ r.unique = r'.unique ∧
    ∀ d s t, R s t → Agree R (r.handler d s) (r'.handler d t)) p.tags q.tags
  common : ∀ d s t, R s t → Agree R (p.common d s) (q.common d t)
  received : ∀ s t, R s t → receivedTags s = receivedTags t
  receive : ∀ tag s t, R s t → R (receive tag s) (receive tag t)

namespace Simulates

variable {R : σ → τ → Prop} {p : TlvParser σ} {q : TlvParser τ}

theorem step (h : Simulates R p q) (d : TlvData) {s : σ} {t : τ} (hst : R s t) :
    Agree R (p.step s d) (q.step t d) := by
  have hfind : (p.tags.find? (fun r => r.tag == d.tag) = none ∧
        q.tags.find? (fun r => r.tag == d.tag) = none) ∨
      ∃ r r', p.tags.find? (fun r => r.tag == d.tag) = some r ∧
        q.tags.find? (fun r => r.tag == d.tag) = some r' ∧ r.unique = r'.unique ∧
        ∀ d s t, R s t → Agree R (r.handler d s) (r'.handler d t) := by
    have hrows := h.rows
    generalize p.tags = rows at hrows ⊢
    generalize q.tags = rows' at hrows ⊢
    induction hrows with
    | nil => exact .inl ⟨rfl, rfl⟩
    | @cons r r' rows rows' hr _ ih =>
      obtain ⟨htag, huniq, hagree⟩ := hr
      rw [List.find?_cons, List.find?_cons, ← htag]
      cases r.tag == d.tag with
      | true => exact .inr ⟨r, r', rfl, rfl, huniq, hagree⟩
      | false => exact ih
  unfold TlvParser.step
  rcases hfind with ⟨hp, hq⟩ | ⟨r, r', hp, hq, huniq, hagree⟩
  · rw [hp, hq]
    exact .error _
  · rw [hp, hq]
    dsimp only
    rw [huniq, h.received s t hst]
    split
    · exact .error _
    · exact (h.common d _ _ (h.receive d.tag s t hst)).bind (hagree d)

theorem parseElements (h : Simulates R p q) (ds : List TlvData) {s : σ} {t : τ} (hst : R s t) :
    Agree R (p.parseElements ds s) (q.parseElements ds t) := by
  induction ds generalizing s t with
  | nil => exact .ok hst
  | cons d ds ih => exact (h.step d hst).bind fun s₁ t₁ hst₁ => ih hst₁

/-- The parser rule: handlers that agree row by row make parsers that agree. -/
theorem parseVerified (h : Simulates R p q) {decode : Bytes → Option (List TlvData)}
    {verify : σ → Except Failure Unit} {verify' : τ → Except Failure Unit}
    (hverify : ∀ s t, R s t → verify s = verify' t) (payload : Bytes) {s : σ} {t : τ}
    (hst : R s t) :
    Agree R (p.parseVerified decode verify payload s)
      (q.parseVerified decode verify' payload t) := by
  have hparse : Agree R (p.parse decode payload s) (q.parse decode payload t) := by
    unfold TlvParser.parse
    cases decode payload with
    | none => exact .error _
    | some ds => exact h.parseElements ds hst
  refine hparse.bind fun s₁ t₁ hst₁ => ?_
  rw [hverify s₁ t₁ hst₁]
  exact (Agree.refl (verify' t₁)).bind fun _ _ _ => .ok hst₁

end Simulates

end TlvParser

/-! ## 3. Parsing into the next slot -/

/-- Parses one more element of an array into its next slot, if there is one: the sub-context is
wiped and pointed at the slot, and what the parser leaves in its target is the slot. -/
def reusing {σ γ α : Type} {n : Nat} (parse : Bytes → γ → Except Failure γ) (wiped : γ)
    (pointTo : α → γ → γ) (target : γ → α) (sub : σ → γ) (setSub : γ → σ → σ)
    (array : σ → Slots α n) (setArray : Slots α n → σ → σ) (d : TlvData) (s : σ) :
    Except Failure σ :=
  let slots := array s
  if h : slots.count ≥ n then .error .rejected
  else do
    let s := setSub wiped s
    let c ← parse d.value (pointTo (slots.next (Nat.lt_of_not_ge h)) (sub s))
    .ok (setArray (slots.store (target c) (Nat.lt_of_not_ge h)) (setSub c s))

section

variable {σ τ γ α : Type} {n : Nat} {parse : Bytes → γ → Except Failure γ} {wiped : γ}
  {pointTo : α → γ → γ} {target : γ → α} {sub : σ → γ} {setSub : γ → σ → σ}
  {array : σ → Slots α n} {setArray : Slots α n → σ → σ} {arr : τ → Bounded α n}
  {set : Bounded α n → τ → τ} {R : σ → τ → Prop}

/-- What the sub-context held does not matter, and the slot was blank: the handler appends what
the parser makes of a wiped sub-context with a blank target. -/
theorem reusing_agrees (blank : α) (hsub : ∀ c s, sub (setSub c s) = c)
    (hpoint : pointTo blank wiped = wiped)
    (hholds : ∀ s t, R s t → (array s).Holds blank (arr t))
    (hset : ∀ s t x b c, R s t → x.Holds blank b → R (setArray x (setSub c s)) (set b t))
    (htwice : ∀ c c' s, setSub c (setSub c' s) = setSub c s)
    (d : TlvData) {s : σ} {t : τ} (h : R s t) :
    Agree R (reusing parse wiped pointTo target sub setSub array setArray d s)
      (pushing (fun value => do
        let c ← parse value wiped
        .ok (target c)) arr set d t) := by
  have hs := hholds s t h
  unfold reusing pushing
  by_cases hfull : (array s).count ≥ n
  · rw [dif_pos hfull, dif_pos (hs.count ▸ hfull)]
    exact .error _
  · have hlt : (array s).count < n := Nat.lt_of_not_ge hfull
    rw [dif_neg hfull, dif_neg (hs.count ▸ hfull)]
    dsimp only
    rw [hsub, hs.next hlt, hpoint, bind_assoc]
    refine (Agree.refl (parse d.value wiped)).bind ?_
    rintro c _ rfl
    refine .ok ?_
    rw [htwice]
    exact hset s t _ _ c h (hs.store hlt _)

end

end Lib

/-
# Computations that may fail, over a state

Firmware calls primitives that may fail, and gives up at the first failure: each function
returns `false` and the state keeps what was done so far.  That is `OptionT (StateM σ)`.

The judgement used throughout is about the successful runs: `Records R m v l` says that if
`m` succeeds, its value is `v` and it has appended `l` to the record that `R` reads off the
state (a log of calls, the bytes written so far).  It has one rule for `pure` and one for
`bind`, so a computation written as a `do` block is verified by following its text, and the
record of a whole function is the concatenation of the records of its steps.

`Respects S m` is about all runs, failed ones too: `m` cannot tell two states apart that `S`
relates, and leaves states that `S` relates.  `Keeps f m` says that no run changes the part `f`
of the state.  Both have the same rules.
-/
import Mathlib.Data.List.Basic
import Mathlib.Control.Monad.Basic

namespace Lib

/-- A computation over `σ` that may fail. -/
abbrev Fallible (σ α : Type) := OptionT (StateM σ) α

namespace Fallible

variable {σ α β : Type}

/-- The outcome from a state: the value, unless it failed, and the state left behind. -/
def exec (m : Fallible σ α) (s : σ) : Option α × σ := m.run s

@[simp] theorem exec_pure (a : α) (s : σ) : exec (pure a : Fallible σ α) s = (some a, s) := rfl

@[simp] theorem exec_failure (s : σ) : exec (failure : Fallible σ α) s = (none, s) := rfl

theorem exec_bind (m : Fallible σ α) (f : α → Fallible σ β) (s : σ) :
    exec (m >>= f) s =
      match exec m s with
      | (some a, s') => exec (f a) s'
      | (none, s') => (none, s') := by
  have hrun : exec (m >>= f) s =
      (exec m s).1.elim (pure none : StateM σ (Option β)) (fun a => (f a).run) (exec m s).2 := by
    rw [exec, OptionT.run_bind]
    rfl
  rw [hrun]
  generalize exec m s = r
  obtain ⟨o, s'⟩ := r
  cases o with
  | none => rfl
  | some a => rfl

/-- A successful run of a sequence is a successful run of each part. -/
theorem exec_bind_some {m : Fallible σ α} {f : α → Fallible σ β} {s s'' : σ} {b : β} :
    exec (m >>= f) s = (some b, s'') ↔
      ∃ a s', exec m s = (some a, s') ∧ exec (f a) s' = (some b, s'') := by
  rw [exec_bind]
  constructor
  · intro h
    split at h
    · exact ⟨_, _, ‹_›, h⟩
    · simp at h
  · rintro ⟨a, s', hm, hf⟩
    rw [hm]
    exact hf

/-- Reading the state. -/
theorem exec_get_bind (f : σ → Fallible σ β) (s : σ) : exec (get >>= f) s = exec (f s) s := rfl

/-! ## 1. What a successful run records -/

/-- A record kept in the state, readable in the states that satisfy `inv`. -/
structure Recorder (σ ε : Type) where
  inv : σ → Prop
  log : σ → List ε

variable {ε : Type} {R : Recorder σ ε}

/-- If `m` succeeds, its value is `v` and it has appended `l` to the record. -/
def Records (R : Recorder σ ε) (m : Fallible σ α) (v : α) (l : List ε) : Prop :=
  ∀ s a s', R.inv s → exec m s = (some a, s') →
    R.inv s' ∧ a = v ∧ R.log s' = R.log s ++ l

theorem records_pure (v : α) : Records R (pure v) v [] := by
  intro s a s' hi h
  simp only [exec_pure, Prod.mk.injEq, Option.some.injEq] at h
  obtain ⟨rfl, rfl⟩ := h
  exact ⟨hi, rfl, (List.append_nil _).symm⟩

theorem records_failure (v : α) (l : List ε) : Records R failure v l := by
  intro s a s' _ h
  simp at h

theorem Records.bind {m : Fallible σ α} {f : α → Fallible σ β} {v : α} {w : β}
    {l l' : List ε} (hm : Records R m v l) (hf : Records R (f v) w l') :
    Records R (m >>= f) w (l ++ l') := by
  intro s b s'' hi h
  obtain ⟨a, s', h1, h2⟩ := exec_bind_some.mp h
  obtain ⟨hi', rfl, hl⟩ := hm s a s' hi h1
  obtain ⟨hi'', hb, hl'⟩ := hf s' b s'' hi' h2
  exact ⟨hi'', hb, by rw [hl', hl, List.append_assoc]⟩

/-- A sequence whose first part is run for its effect. -/
theorem Records.andThen {m : Fallible σ Unit} {n : Fallible σ β} {w : β} {l l' : List ε}
    (hm : Records R m () l) (hn : Records R n w l') :
    Records R (do m; n) w (l ++ l') :=
  hm.bind hn

/-- The record may be described by any equal list. -/
theorem Records.congr {m : Fallible σ α} {v : α} {l l' : List ε} (h : Records R m v l)
    (hl : l = l') : Records R m v l' := hl ▸ h

/-! ## 2. What a computation cannot tell apart -/

section

variable {S : σ → σ → Prop}

/-- From two states that `S` relates, `m` returns the same, and leaves states that `S` relates,
also where it fails. -/
def Respects (S : σ → σ → Prop) (m : Fallible σ α) : Prop :=
  ∀ s t, S s t → (exec m s).1 = (exec m t).1 ∧ S (exec m s).2 (exec m t).2

theorem respects_pure (a : α) : Respects S (pure a) := by
  intro s t h
  exact ⟨rfl, h⟩

theorem respects_failure : Respects S (failure : Fallible σ α) := by
  intro s t h
  exact ⟨rfl, h⟩

theorem Respects.bind {m : Fallible σ α} {f : α → Fallible σ β} (hm : Respects S m)
    (hf : ∀ a, Respects S (f a)) : Respects S (m >>= f) := by
  intro s t h
  obtain ⟨hvalue, hstate⟩ := hm s t h
  rw [exec_bind, exec_bind]
  generalize exec m s = r at hvalue hstate
  generalize exec m t = r' at hvalue hstate
  obtain ⟨o, s'⟩ := r
  obtain ⟨o', t'⟩ := r'
  obtain rfl : o = o' := hvalue
  cases o with
  | none => exact ⟨rfl, hstate⟩
  | some a => exact hf a s' t' hstate

end

/-! ## 3. What a computation leaves alone -/

section

variable {τ : Type} {f : σ → τ}

/-- From every state, `m` leaves the part `f` of it as it is, also where it fails. -/
def Keeps (f : σ → τ) (m : Fallible σ α) : Prop := ∀ s, f (exec m s).2 = f s

theorem keeps_pure (a : α) : Keeps f (pure a) := by
  intro s
  rfl

theorem keeps_failure : Keeps f (failure : Fallible σ α) := by
  intro s
  rfl

theorem Keeps.bind {m : Fallible σ α} {g : α → Fallible σ β} (hm : Keeps f m)
    (hg : ∀ a, Keeps f (g a)) : Keeps f (m >>= g) := by
  intro s
  have hfirst := hm s
  rw [exec_bind]
  generalize exec m s = r at hfirst
  obtain ⟨o, s'⟩ := r
  cases o with
  | none => exact hfirst
  | some a => exact (hg a s').trans hfirst

end

end Fallible

end Lib

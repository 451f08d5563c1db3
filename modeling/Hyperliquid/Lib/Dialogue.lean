/-
# A party that talks to a machine

A machine waits for inputs.  The party on its other side decides what to ask next from what it has
heard, and is an automaton as well; what neither of them decides comes from the surroundings, turn
by turn.  Together they are a machine whose inputs are the turns (`Machine.converse`).

A conversation is a run of the machine it is held with (`converse_run`), so what holds of all runs
holds in every conversation.  A party whose turns are numbered falls silent in time
(`Machine.rank_state`).

Often a party begins with a list of requests, and gives up at the first answer that is not good
(`Machine.attempt`).
-/
import Hyperliquid.Lib.Transition

namespace Lib

variable {σ ι ε κ τ : Type}

/-! ## 1. Conversations -/

/-- What to ask, unless the conversation is over, and what becomes of what is heard. -/
structure Party (κ τ ι ε : Type) where
  ask : κ → τ → Option ι
  hear : κ → τ → List ε → κ

namespace Machine

/-- The machine in the state `s` and the party in the state `k`, talking to each other. -/
def converse (M : Machine σ ι ε) (P : Party κ τ ι ε) (k : κ) (s : σ) : Machine (κ × σ) τ ε where
  init := (k, s)
  step c t :=
    match P.ask c.1 t with
    | none => (c, [])
    | some i => ((P.hear c.1 t (M.step c.2 i).2, (M.step c.2 i).1), (M.step c.2 i).2)

variable {M : Machine σ ι ε} {P : Party κ τ ι ε} {k : κ} {s : σ}

theorem converse_step_none {c : κ × σ} {t : τ} (h : P.ask c.1 t = none) :
    (M.converse P k s).step c t = (c, []) := by
  simp only [converse, h]

theorem converse_step_some {c : κ × σ} {t : τ} {i : ι} (h : P.ask c.1 t = some i) :
    (M.converse P k s).step c t =
      ((P.hear c.1 t (M.step c.2 i).2, (M.step c.2 i).1), (M.step c.2 i).2) := by
  simp only [converse, h]

/-- A conversation is a run of the machine. -/
theorem converse_run (M : Machine σ ι ε) (P : Party κ τ ι ε) (k : κ) (s : σ) (ts : List τ) :
    ∃ is, M.runFrom s is = (((M.converse P k s).state ts).2, (M.converse P k s).trace ts) := by
  induction ts using List.reverseRecOn with
  | nil => exact ⟨[], rfl⟩
  | append_singleton ts t ih =>
    obtain ⟨is, hrun⟩ := ih
    rw [state_snoc, trace_snoc]
    cases hask : P.ask ((M.converse P k s).state ts).1 t with
    | none =>
      rw [converse_step_none hask, List.append_nil]
      exact ⟨is, hrun⟩
    | some i =>
      refine ⟨is ++ [i], ?_⟩
      rw [converse_step_some hask, runFrom_snoc, hrun]
      rfl

/-- Held with a state that some run ends in, a conversation ends in such a state. -/
theorem converse_reachable (M : Machine σ ι ε) (P : Party κ τ ι ε) (k : κ) (is : List ι)
    (ts : List τ) : M.Reachable ((M.converse P k (M.state is)).state ts).2 := by
  obtain ⟨more, hrun⟩ := converse_run M P k (M.state is) ts
  refine ⟨is ++ more, ?_⟩
  rw [← runFrom_state, hrun]

/-! ## 2. Falling silent -/

/-- If every step lowers a rank that is not zero, it is zero after as many steps. -/
theorem rank_state (M : Machine σ ι ε) (rank : σ → Nat)
    (hrank : ∀ s i, rank (M.step s i).1 ≤ rank s - 1) (is : List ι) :
    rank (M.state is) ≤ rank M.init - is.length := by
  induction is using List.reverseRecOn with
  | nil => exact Nat.le_refl _
  | append_singleton is i ih =>
    have hlower := hrank (M.state is) i
    rw [state_snoc, List.length_append, List.length_singleton]
    omega

/-! ## 3. Requests in a row -/

/-- The state after the inputs, as long as every answer is good. -/
def attempt (M : Machine σ ι ε) (good : ι → List ε → Bool) : σ → List ι → Option σ
  | s, [] => some s
  | s, i :: is => if good i (M.step s i).2 then M.attempt good (M.step s i).1 is else none

theorem replies_append (M : Machine σ ι ε) (s : σ) (is js : List ι) :
    M.replies s (is ++ js) = M.replies s is ++ M.replies (M.runFrom s is).1 js := by
  induction is generalizing s with
  | nil => rfl
  | cons i is ih =>
    rw [List.cons_append, replies_cons, replies_cons, runFrom_cons, ih]
    rfl

theorem length_replies (M : Machine σ ι ε) (s : σ) (is : List ι) :
    (M.replies s is).length = is.length := by
  induction is generalizing s with
  | nil => rfl
  | cons i is ih => rw [replies_cons, List.length_cons, List.length_cons, ih]

variable {good : ι → List ε → Bool}

theorem attempt_append (is js : List ι) :
    M.attempt good s (is ++ js) = (M.attempt good s is).bind fun s' => M.attempt good s' js := by
  induction is generalizing s with
  | nil => rfl
  | cons i is ih =>
    rw [List.cons_append, attempt, attempt]
    by_cases h : good i (M.step s i).2 = true
    · rw [if_pos h, if_pos h, ih]
    · rw [if_neg h, if_neg h]
      rfl

/-- One request more. -/
theorem attempt_snoc {is : List ι} {i : ι} {s' : σ} (h : M.attempt good s is = some s')
    (hgood : good i (M.step s' i).2 = true) :
    M.attempt good s (is ++ [i]) = some (M.step s' i).1 := by
  rw [attempt_append, h, Option.bind_some, attempt, if_pos hgood, attempt]

/-- All answers are good; whether one is may depend on the input and on the events. -/
theorem attempt_eq_some {fair : ι → Prop} {fine : List ε → Prop}
    (hgood : ∀ i es, good i es = true ↔ fair i ∧ fine es) {is : List ι} {s' : σ} :
    M.attempt good s is = some s' ↔
      (∀ i ∈ is, fair i) ∧ (∀ es ∈ M.replies s is, fine es) ∧ (M.runFrom s is).1 = s' := by
  induction is generalizing s with
  | nil => simp [attempt, replies, transcript, runFrom_nil]
  | cons i is ih =>
    rw [attempt, replies_cons, runFrom_cons, List.forall_mem_cons, List.forall_mem_cons]
    by_cases h : good i (M.step s i).2 = true
    · obtain ⟨hfair, hfine⟩ := (hgood i _).mp h
      rw [if_pos h, ih]
      simp only [hfair, hfine, true_and]
    · rw [if_neg h]
      constructor
      · intro hnone
        cases hnone
      · rintro ⟨⟨hfair, -⟩, ⟨hfine, -⟩, -⟩
        exact absurd ((hgood i _).mpr ⟨hfair, hfine⟩) h

end Machine

end Lib

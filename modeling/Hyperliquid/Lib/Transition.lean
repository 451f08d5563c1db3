/-
# Transition systems that emit events

A reactive program, seen from outside: a state, an input at a time, and the events each step
emits.  Everything proved about all runs goes through `run_induction`: a property of the
trace so far and the current state that holds at power-on and that one step preserves holds
of every run.

A step of a program usually does several things at once.  The second part describes it by a
path of small moves of an abstract system, each with its own events; what every move preserves
then holds of all runs of the program (`Machine.Refines.induction`).

The last part is about events inside a trace.  `EventsOk P tr` says that every event of `tr`
satisfies `P` of the events before it; it is the form of a safety property such as "never X
without an earlier Y", and it is checked one event at a time (`eventsOk_snoc`).

Between them stands the rule for two runs (`Machine.alike_runFrom`): if one step hides what two
states differ in, from an observer of states and events, then so do all runs.
-/
import Mathlib.Data.List.Induction

namespace Lib

/-- A deterministic machine: the nondeterminism of its surroundings is in the inputs. -/
structure Machine (σ ι ε : Type) where
  init : σ
  step : σ → ι → σ × List ε

namespace Machine

variable {σ ι ε : Type}

/-! ## 1. Runs -/

/-- One step of a run that has emitted `r.2` so far. -/
def extend (M : Machine σ ι ε) (r : σ × List ε) (i : ι) : σ × List ε :=
  ((M.step r.1 i).1, r.2 ++ (M.step r.1 i).2)

/-- The state after the inputs, and the trace of the events emitted on the way. -/
def run (M : Machine σ ι ε) (is : List ι) : σ × List ε := is.foldl M.extend (M.init, [])

/-- The state a run ends in. -/
def state (M : Machine σ ι ε) (is : List ι) : σ := (M.run is).1

/-- The events a run emits. -/
def trace (M : Machine σ ι ε) (is : List ι) : List ε := (M.run is).2

@[simp] theorem run_nil (M : Machine σ ι ε) : M.run [] = (M.init, []) := rfl

theorem run_snoc (M : Machine σ ι ε) (is : List ι) (i : ι) :
    M.run (is ++ [i]) = M.extend (M.run is) i := by
  simp [run, List.foldl_append]

theorem state_snoc (M : Machine σ ι ε) (is : List ι) (i : ι) :
    M.state (is ++ [i]) = (M.step (M.state is) i).1 := by
  simp [state, run_snoc, extend]

theorem trace_snoc (M : Machine σ ι ε) (is : List ι) (i : ι) :
    M.trace (is ++ [i]) = M.trace is ++ (M.step (M.state is) i).2 := by
  simp [trace, state, run_snoc, extend]

/-- The run rule: what power-on establishes and one step preserves holds of every run. -/
theorem run_induction (M : Machine σ ι ε) {P : List ε → σ → Prop} (h0 : P [] M.init)
    (hstep : ∀ tr s i, P tr s → P (tr ++ (M.step s i).2) (M.step s i).1) (is : List ι) :
    P (M.trace is) (M.state is) := by
  induction is using List.reverseRecOn with
  | nil => exact h0
  | append_singleton is i ih =>
    rw [trace_snoc, state_snoc]
    exact hstep _ _ i ih

/-- The run rule for a property of the state alone. -/
theorem state_induction (M : Machine σ ι ε) {P : σ → Prop} (h0 : P M.init)
    (hstep : ∀ s i, P s → P (M.step s i).1) (is : List ι) : P (M.state is) :=
  M.run_induction (P := fun _ s => P s) h0 (fun _ s i h => hstep s i h) is

/-- A state some run ends in. -/
def Reachable (M : Machine σ ι ε) (s : σ) : Prop := ∃ is, M.state is = s

theorem reachable_state (M : Machine σ ι ε) (is : List ι) : M.Reachable (M.state is) :=
  ⟨is, rfl⟩

/-- An invariant holds in every reachable state. -/
theorem Reachable.induction {M : Machine σ ι ε} {P : σ → Prop} {s : σ} (hs : M.Reachable s)
    (h0 : P M.init) (hstep : ∀ s i, P s → P (M.step s i).1) : P s := by
  obtain ⟨is, rfl⟩ := hs
  exact M.state_induction h0 hstep is

end Machine

/-! ## 2. Paths of moves, and refinement -/

variable {σ τ ι ε : Type}

/-- Zero or more moves, and the events they emit. -/
inductive Path (R : τ → List ε → τ → Prop) : τ → List ε → τ → Prop where
  | refl (s : τ) : Path R s [] s
  | step {s s₁ s₂ : τ} {e₁ e₂ : List ε} : R s e₁ s₁ → Path R s₁ e₂ s₂ → Path R s (e₁ ++ e₂) s₂

namespace Path

variable {R : τ → List ε → τ → Prop} {s s₁ s₂ : τ} {e₁ e₂ : List ε}

theorem single (h : R s e₁ s₁) : Path R s e₁ s₁ := by
  have hp := Path.step h (Path.refl s₁)
  rwa [List.append_nil] at hp

theorem trans (h₁ : Path R s e₁ s₁) (h₂ : Path R s₁ e₂ s₂) : Path R s (e₁ ++ e₂) s₂ := by
  induction h₁ with
  | refl s => exact h₂
  | step hm _ ih =>
    rw [List.append_assoc]
    exact Path.step hm (ih h₂)

/-- What every move preserves, a path preserves. -/
theorem invariant {P : List ε → τ → Prop}
    (hmove : ∀ tr s e s', R s e s' → P tr s → P (tr ++ e) s') {tr : List ε}
    (h : Path R s e₁ s₁) (hs : P tr s) : P (tr ++ e₁) s₁ := by
  induction h generalizing tr with
  | refl s => rwa [List.append_nil]
  | step hm _ ih =>
    rw [← List.append_assoc]
    exact ih (hmove _ _ _ _ hm hs)

end Path

/-- Seen through `view`, every step of the machine is a path of moves, from the states that
satisfy its own invariant `J`. -/
structure Machine.Refines (M : Machine σ ι ε) (J : σ → Prop) (view : σ → τ)
    (R : τ → List ε → τ → Prop) : Prop where
  init : J M.init
  inv : ∀ s i, J s → J (M.step s i).1
  path : ∀ s i, J s → Path R (view s) (M.step s i).2 (view (M.step s i).1)

namespace Machine.Refines

variable {M : Machine σ ι ε} {J : σ → Prop} {view : σ → τ} {R : τ → List ε → τ → Prop}

/-- The machine's own invariant holds after every run. -/
theorem inv_state (h : M.Refines J view R) (is : List ι) : J (M.state is) :=
  (M.reachable_state is).induction h.init h.inv

/-- The refinement rule: what holds at power-on and every move preserves holds of every run. -/
theorem induction (h : M.Refines J view R) {P : List ε → τ → Prop} (h0 : P [] (view M.init))
    (hmove : ∀ tr s e s', R s e s' → P tr s → P (tr ++ e) s') (is : List ι) :
    P (M.trace is) (view (M.state is)) := by
  have hrun : J (M.state is) ∧ P (M.trace is) (view (M.state is)) := by
    refine M.run_induction (P := fun tr s => J s ∧ P tr (view s)) ⟨h.init, h0⟩ ?_ is
    intro tr s i hs
    exact ⟨h.inv s i hs.1, (h.path s i hs.1).invariant hmove hs.2⟩
  exact hrun.2

end Machine.Refines

/-! ## 3. Two runs that look alike -/

/-- A run from any state. -/
def Machine.runFrom {σ ι ε : Type} (M : Machine σ ι ε) (s : σ) (is : List ι) : σ × List ε :=
  is.foldl M.extend (s, [])

theorem Machine.runFrom_snoc {σ ι ε : Type} (M : Machine σ ι ε) (s : σ) (is : List ι) (i : ι) :
    M.runFrom s (is ++ [i]) = M.extend (M.runFrom s is) i := by
  simp [runFrom, List.foldl_append]

theorem Machine.runFrom_nil {σ ι ε : Type} (M : Machine σ ι ε) (s : σ) :
    M.runFrom s [] = (s, []) := rfl

/-- The first input, and then the others. -/
theorem Machine.runFrom_cons {σ ι ε : Type} (M : Machine σ ι ε) (s : σ) (i : ι) (is : List ι) :
    M.runFrom s (i :: is) =
      ((M.runFrom (M.step s i).1 is).1, (M.step s i).2 ++ (M.runFrom (M.step s i).1 is).2) := by
  induction is using List.reverseRecOn with
  | nil => simp [runFrom, extend]
  | append_singleton is j ih =>
    rw [← List.cons_append, runFrom_snoc, ih, runFrom_snoc]
    simp [extend]

/-- Going on from a state that was reached. -/
theorem Machine.runFrom_state {σ ι ε : Type} (M : Machine σ ι ε) (is more : List ι) :
    (M.runFrom (M.state is) more).1 = M.state (is ++ more) := by
  induction more using List.reverseRecOn with
  | nil => simp [runFrom]
  | append_singleton more i ih =>
    rw [runFrom_snoc, ← List.append_assoc, state_snoc, ← ih]
    rfl

/-- States and events that look alike. -/
def Alike {σ τ ε δ : Type} (view : σ → τ) (seen : ε → δ) (r r' : σ × List ε) : Prop :=
  view r.1 = view r'.1 ∧ r.2.map seen = r'.2.map seen

/-- The unwinding rule: steps from states that look alike lead to states that look alike, so runs
do. -/
theorem Machine.alike_runFrom {σ τ ι ε δ : Type} {M : Machine σ ι ε} {view : σ → τ}
    {seen : ε → δ}
    (hstep : ∀ s s' i, view s = view s' → Alike view seen (M.step s i) (M.step s' i))
    {s s' : σ} (h : view s = view s') (is : List ι) :
    Alike view seen (M.runFrom s is) (M.runFrom s' is) := by
  have hrun : ∀ (is : List ι) (r r' : σ × List ε), Alike view seen r r' →
      Alike view seen (is.foldl M.extend r) (is.foldl M.extend r') := by
    intro is
    induction is with
    | nil => exact fun _ _ hr => hr
    | cons i is ih =>
      intro r r' hr
      obtain ⟨hview, hseen⟩ := hstep r.1 r'.1 i hr.1
      refine ih _ _ ⟨hview, ?_⟩
      simp only [Machine.extend, List.map_append, hr.2, hseen]
  exact hrun is _ _ ⟨h, rfl⟩

/-! ## 4. Inputs that change nothing -/

/-- The inputs of a run from a state, each with the events it caused. -/
def Machine.transcript {σ ι ε : Type} (M : Machine σ ι ε) : σ → List ι → List (ι × List ε)
  | _, [] => []
  | s, i :: is => (i, (M.step s i).2) :: M.transcript (M.step s i).1 is

/-- The events of a run are those of its inputs, in their order. -/
theorem Machine.runFrom_eq_transcript {σ ι ε : Type} (M : Machine σ ι ε) (s : σ) (is : List ι) :
    (M.runFrom s is).2 = (M.transcript s is).flatMap Prod.snd := by
  induction is generalizing s with
  | nil => rfl
  | cons i is ih => rw [runFrom_cons, transcript, List.flatMap_cons, ih]

/-- The events of each input. -/
def Machine.replies {σ ι ε : Type} (M : Machine σ ι ε) (s : σ) (is : List ι) : List (List ε) :=
  (M.transcript s is).map Prod.snd

theorem Machine.replies_cons {σ ι ε : Type} (M : Machine σ ι ε) (s : σ) (i : ι) (is : List ι) :
    M.replies s (i :: is) = (M.step s i).2 :: M.replies (M.step s i).1 is := rfl

theorem Machine.runFrom_eq_replies {σ ι ε : Type} (M : Machine σ ι ε) (s : σ) (is : List ι) :
    (M.runFrom s is).2 = (M.replies s is).flatten := by
  rw [runFrom_eq_transcript, replies, List.flatMap_def]

/-- The purge rule: inputs that leave every state as it is can be left out.  The run ends in the
same state, and the other inputs cause the same events. -/
theorem Machine.purge {σ ι ε : Type} {M : Machine σ ι ε} {keep : ι → Bool} {is : List ι}
    (h : ∀ i ∈ is, keep i = false → ∀ s, (M.step s i).1 = s) (s : σ) :
    (M.runFrom s is).1 = (M.runFrom s (is.filter keep)).1 ∧
      (M.transcript s is).filter (fun x => keep x.1) = M.transcript s (is.filter keep) := by
  induction is generalizing s with
  | nil => exact ⟨rfl, rfl⟩
  | cons i is ih =>
    have hrest : ∀ j ∈ is, keep j = false → ∀ s, (M.step s j).1 = s :=
      fun j hj => h j (List.mem_cons_of_mem i hj)
    obtain ⟨hstate, hevents⟩ := ih hrest (M.step s i).1
    cases hkeep : keep i with
    | true =>
      simp only [List.filter_cons, hkeep, if_true, runFrom_cons, transcript]
      exact ⟨hstate, congrArg _ hevents⟩
    | false =>
      have hsame : (M.step s i).1 = s := h i List.mem_cons_self hkeep s
      rw [hsame] at hstate hevents
      simp only [List.filter_cons, hkeep, Bool.false_eq_true, if_false, runFrom_cons, transcript,
        hsame]
      exact ⟨hstate, hevents⟩

/-! ## 5. Properties of the events of a trace -/

/-- Every event of the trace satisfies `P` of the events before it. -/
def EventsOk (P : List ε → ε → Prop) (tr : List ε) : Prop :=
  ∀ pre e post, tr = pre ++ e :: post → P pre e

theorem eventsOk_nil (P : List ε → ε → Prop) : EventsOk P [] := by
  intro pre e post h
  simp at h

/-- One more event. -/
theorem eventsOk_snoc {P : List ε → ε → Prop} {tr : List ε} {e : ε} (h : EventsOk P tr)
    (he : P tr e) : EventsOk P (tr ++ [e]) := by
  intro pre x post heq
  rcases List.eq_nil_or_concat post with rfl | ⟨post', y, rfl⟩
  · obtain ⟨rfl, hx⟩ := List.append_inj' heq rfl
    cases hx
    exact he
  · have h' : tr ++ [e] = (pre ++ x :: post') ++ [y] := by simpa using heq
    exact h pre x post' (List.append_inj' h' rfl).1

/-- Several more events. -/
theorem eventsOk_append {P : List ε → ε → Prop} {tr es : List ε} (h : EventsOk P tr)
    (hes : ∀ pre e post, es = pre ++ e :: post → P (tr ++ pre) e) : EventsOk P (tr ++ es) := by
  induction es using List.reverseRecOn with
  | nil => rwa [List.append_nil]
  | append_singleton es e ih =>
    rw [← List.append_assoc]
    refine eventsOk_snoc (ih ?_) (hes es e [] rfl)
    intro pre x post heq
    refine hes pre x (post ++ [e]) ?_
    rw [heq, List.append_assoc, List.cons_append]

/-! ## 6. Two machines over the same inputs -/

/-- Related states stay related, and what is seen of their events is the same.  An event that is
not seen may be missing on the other side. -/
structure Machine.Simulates {σ τ ι ε δ γ : Type} (M : Machine σ ι ε) (N : Machine τ ι δ)
    (R : σ → τ → Prop) (see : ε → Option γ) (see' : δ → Option γ) : Prop where
  init : R M.init N.init
  state : ∀ s t i, R s t → R (M.step s i).1 (N.step t i).1
  events : ∀ s t i, R s t →
    (M.step s i).2.filterMap see = (N.step t i).2.filterMap see'

/-- The simulation rule: the states of all runs are related, and what is seen of the traces is the
same. -/
theorem Machine.Simulates.run {σ τ ι ε δ γ : Type} {M : Machine σ ι ε} {N : Machine τ ι δ}
    {R : σ → τ → Prop} {see : ε → Option γ} {see' : δ → Option γ}
    (h : M.Simulates N R see see') (is : List ι) :
    R (M.state is) (N.state is) ∧ (M.trace is).filterMap see = (N.trace is).filterMap see' := by
  induction is using List.reverseRecOn with
  | nil => exact ⟨h.init, rfl⟩
  | append_singleton is i ih =>
    obtain ⟨hstate, htrace⟩ := ih
    rw [Machine.state_snoc, Machine.state_snoc, Machine.trace_snoc, Machine.trace_snoc,
      List.filterMap_append, List.filterMap_append, htrace, h.events _ _ i hstate]
    exact ⟨h.state _ _ i hstate, rfl⟩

end Lib

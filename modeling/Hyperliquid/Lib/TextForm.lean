/-
# Forms whose values are printed into buffers

A form is a list of labelled values.  A value is a constant, or it points to a buffer of fixed
capacity that a text was printed into; so it shows what the buffer holds when the form is read,
not what it held when the value was added.  Two things can go wrong: a text is cut because its
buffer is too small, and a buffer is used again while a value points to it, or shares its memory
with one that is (`Apart`).

`Form.Shows` is what holds as long as neither happens: the form reads as a list of texts, and
everything that was printed had room.  Its rules follow the operations (`Shows.print`,
`Shows.add`, `Shows.literal`).
-/
import Hyperliquid.Lib.Bounded

namespace Lib

/-! ## 1. Buffers and forms -/

/-- Buffers for texts. -/
class TextBuffers (B : Type) where
  /-- How many characters a buffer holds before its terminator. -/
  capacity : B → Nat
  /-- Different buffers in the same memory. -/
  overlaps : B → B → Bool

export TextBuffers (capacity)

/-- A text that was printed, in full, and the buffer it was printed into. -/
structure Print (B : Type) where
  buffer : B
  output : Bytes

/-- Where a value of a form is found. -/
inductive Source (B : Type) where
  | literal (s : Bytes)
  | buffer (b : B)

/-- What the buffers hold, what was printed, and the labelled values. -/
structure Form (B : Type) where
  memory : B → Bytes := fun _ => []
  prints : List (Print B) := []
  pairs : List (String × Source B) := []

variable {B : Type}

def Source.read (memory : B → Bytes) : Source B → Bytes
  | .literal s => s
  | .buffer b => memory b

namespace Form

/-- The form as it is read. -/
def texts (s : Form B) : List (String × Bytes) := s.pairs.map fun p => (p.1, p.2.read s.memory)

def addPair (s : Form B) (label : String) (value : Source B) : Form B :=
  { s with pairs := s.pairs ++ [(label, value)] }

@[simp] theorem addPair_memory (s : Form B) (label : String) (value : Source B) :
    (s.addPair label value).memory = s.memory := rfl

/-- Every value in a buffer is a text that was printed there, in full. -/
def Uncut (s : Form B) : Prop :=
  ∀ p ∈ s.pairs, ∀ b, p.2 = .buffer b → ⟨b, s.memory b⟩ ∈ s.prints

/-- Every print had room. -/
def Fits [TextBuffers B] (s : Form B) : Prop :=
  ∀ p ∈ s.prints, p.output.length ≤ capacity p.buffer

variable [DecidableEq B] [TextBuffers B]

/-- Prints an output into a buffer, which keeps this much of it.  What other buffers in the same
memory held is lost. -/
def print (s : Form B) (b : B) (output kept : Bytes) : Form B :=
  { s with
    memory := fun c =>
      if c = b then kept else if TextBuffers.overlaps b c then [] else s.memory c
    prints := s.prints ++ [⟨b, output⟩] }

theorem print_memory (s : Form B) (b : B) (output kept : Bytes) :
    (s.print b output kept).memory b = kept := if_pos rfl

end Form

/-! ## 2. Buffers that do not disturb each other -/

variable [TextBuffers B]

/-- Another buffer, in other memory. -/
def Apart (b c : B) : Prop := c ≠ b ∧ TextBuffers.overlaps b c = false

instance [DecidableEq B] (b c : B) : Decidable (Apart b c) :=
  inferInstanceAs (Decidable (c ≠ b ∧ TextBuffers.overlaps b c = false))

theorem Form.print_other [DecidableEq B] (s : Form B) {b c : B} (h : Apart b c) (output kept : Bytes) :
    (s.print b output kept).memory c = s.memory c := by
  have hoverlaps : ¬ TextBuffers.overlaps b c = true := by
    rw [h.2]
    exact Bool.false_ne_true
  exact (if_neg h.1).trans (if_neg hoverlaps)

/-! ## 3. What a form shows -/

namespace Form

/-- The form reads as these texts, its values are in these buffers, and nothing was cut. -/
structure Shows (s : Form B) (used : List B) (texts : List (String × Bytes)) : Prop where
  texts : s.texts = texts
  used : ∀ p ∈ s.pairs, ∀ b, p.2 = .buffer b → b ∈ used
  uncut : s.Uncut
  fits : s.Fits

namespace Shows

variable {s : Form B} {used used' : List B} {texts : List (String × Bytes)} {b : B}
  {output : Bytes}

theorem empty : ({} : Form B).Shows [] [] where
  texts := rfl
  used := fun _ hp => absurd hp List.not_mem_nil
  uncut := fun _ hp => absurd hp List.not_mem_nil
  fits := fun _ hp => absurd hp List.not_mem_nil

theorem length_pairs (h : s.Shows used texts) : s.pairs.length = texts.length := by
  rw [← h.texts, Form.texts, List.length_map]

theorem mono (h : s.Shows used texts) (hsub : ∀ b ∈ used, b ∈ used') : s.Shows used' texts :=
  ⟨h.texts, fun p hp b hb => hsub b (h.used p hp b hb), h.uncut, h.fits⟩

/-- A print into a buffer that no value is in. -/
theorem print [DecidableEq B] (h : s.Shows used texts) (hfits : output.length ≤ capacity b)
    (hfree : ∀ c ∈ used, Apart b c) : (s.print b output output).Shows used texts where
  texts := by
    rw [← h.texts]
    refine List.map_congr_left fun p hp => ?_
    rcases hsource : p.2 with literal | c
    · rfl
    · have hother := s.print_other (hfree c (h.used p hp c hsource)) output output
      exact congrArg (Prod.mk p.1) hother
  used := h.used
  uncut := by
    intro p hp c hc
    rw [s.print_other (hfree c (h.used p hp c hc)) output output]
    exact List.mem_append_left _ (h.uncut p hp c hc)
  fits := by
    intro p hp
    rcases List.mem_append.mp hp with hp | hp
    · exact h.fits p hp
    · rw [List.mem_singleton.mp hp]
      exact hfits

/-- A value in a buffer. -/
theorem add (h : s.Shows used texts) (label : String) (hmemory : s.memory b = output)
    (hprinted : ⟨b, output⟩ ∈ s.prints) :
    (s.addPair label (.buffer b)).Shows (b :: used) (texts ++ [(label, output)]) where
  texts := by
    rw [← h.texts, ← hmemory]
    exact List.map_append
  used := by
    intro p hp c hc
    rcases List.mem_append.mp hp with hp | hp
    · exact List.mem_cons_of_mem b (h.used p hp c hc)
    · rw [List.mem_singleton.mp hp] at hc
      cases hc
      exact List.mem_cons_self
  uncut := by
    intro p hp c hc
    rcases List.mem_append.mp hp with hp | hp
    · exact h.uncut p hp c hc
    · rw [List.mem_singleton.mp hp] at hc
      cases hc
      rw [addPair_memory, hmemory]
      exact hprinted
  fits := h.fits

/-- A constant value. -/
theorem literal (h : s.Shows used texts) (label : String) (value : Bytes) :
    (s.addPair label (.literal value)).Shows used (texts ++ [(label, value)]) where
  texts := by
    rw [← h.texts]
    exact List.map_append
  used := by
    intro p hp c hc
    rcases List.mem_append.mp hp with hp | hp
    · exact h.used p hp c hc
    · rw [List.mem_singleton.mp hp] at hc
      cases hc
  uncut := by
    intro p hp c hc
    rcases List.mem_append.mp hp with hp | hp
    · exact h.uncut p hp c hc
    · rw [List.mem_singleton.mp hp] at hc
      cases hc
  fits := h.fits

end Shows

end Form

end Lib

/-
# Parsers that do not see the order of their elements

The handlers of a parser write different fields, so two elements with different tags may come in
either order, unless one of the handlers looks for the tag of the other.  `OrderFree` says this of
a parser's table: which tags may come several times and keep their order (`repeated`), and which
tag a handler looks for (`before t u`: the handler of `u` looks for `t`).

From the table it follows that rearranged elements are accepted alike and leave the same context,
up to the order in which the tags were recorded (`OrderFree.parseElements`).  What the handlers of
two tags do to each other is all that has to be checked, and mostly it is that two fields of a
structure are set independently.

A handler that refuses its element until another tag was received makes the parser refuse every
sequence in which it comes first (`parseElements_misordered`).
-/
import Hyperliquid.Lib.Reordering
import Hyperliquid.Lib.TlvElements
import Mathlib.Data.List.Forall2
import Mathlib.Data.List.Pairwise

namespace Lib

open TlvContext

/-! ## 1. Contexts that are their tags and the rest -/

/-- The tags received are a field of the context, and nothing else depends on them.  Where they are
a field of a structure, an instance only says which. -/
class LawfulTlvContext (σ : Type) [TlvContext σ] where
  withTags : List Nat → σ → σ
  receive_eq : ∀ t (s : σ), receive t s = withTags (t :: receivedTags s) s := by intros; rfl
  receivedTags_withTags : ∀ l (s : σ), receivedTags (withTags l s) = l := by intros; rfl
  withTags_withTags : ∀ l l' (s : σ), withTags l (withTags l' s) = withTags l s := by intros; rfl
  withTags_receivedTags : ∀ s : σ, withTags (receivedTags s) s = s := by intros; rfl

open LawfulTlvContext

section

variable {σ : Type} [TlvContext σ] [LawfulTlvContext σ]

/-- The same tags were received, in any order, and the rest is the same. -/
structure ReadAlike (s t : σ) : Prop where
  tags : ∀ u, u ∈ receivedTags s ↔ u ∈ receivedTags t
  rest : t = withTags (receivedTags t) s

theorem ReadAlike.refl (s : σ) : ReadAlike s s :=
  ⟨fun _ => Iff.rfl, (withTags_receivedTags s).symm⟩

theorem ReadAlike.symm {s t : σ} (h : ReadAlike s t) : ReadAlike t s := by
  refine ⟨fun u => (h.tags u).symm, ?_⟩
  have hrest := congrArg (withTags (receivedTags s)) h.rest
  rw [withTags_withTags, withTags_receivedTags] at hrest
  exact hrest.symm

theorem ReadAlike.trans {s t u : σ} (h : ReadAlike s t) (h' : ReadAlike t u) : ReadAlike s u := by
  refine ⟨fun x => (h.tags x).trans (h'.tags x), ?_⟩
  rw [h'.rest, h.rest, withTags_withTags, receivedTags_withTags]

/-- What does not depend on the tags is the same. -/
theorem ReadAlike.eq {α : Type} {s t : σ} (h : ReadAlike s t) {view : σ → α}
    (hview : ∀ l s, view (withTags l s) = view s) : view s = view t := by
  rw [h.rest, hview]

/-- Whether tags were received is the same. -/
theorem ReadAlike.requireTags {s t : σ} (h : ReadAlike s t) (tags : List Nat) :
    requireTags (receivedTags s) tags = requireTags (receivedTags t) tags := by
  have hcheck : checkReceivedTags (receivedTags s) tags =
      checkReceivedTags (receivedTags t) tags := by
    rw [Bool.eq_iff_iff, checkReceivedTags_iff, checkReceivedTags_iff]
    simp only [h.tags]
  unfold Lib.requireTags
  rw [hcheck]

/-- Both fail, or both return contexts that are alike. -/
abbrev AlikeOutcome : Option σ → Option σ → Prop := Option.Rel ReadAlike

theorem alikeOutcome_equivalence : Equivalence (AlikeOutcome (σ := σ)) where
  refl o := by
    cases o with
    | none => exact .none
    | some s => exact .some (ReadAlike.refl s)
  symm h := by
    cases h with
    | none => exact .none
    | some h => exact .some h.symm
  trans h h' := by
    cases h with
    | none => exact h'
    | some h =>
      cases h' with
      | some h' => exact .some (h.trans h')

/-! ## 2. Handlers -/

/-- The handler sees no tags but those that `before` says it looks for. -/
def Blind (before : Nat → Nat → Prop) (u : Nat) (h : TlvData → σ → Except Failure σ) : Prop :=
  ∀ d s l, (∀ t, before t u → (t ∈ l ↔ t ∈ receivedTags s)) →
    h d (withTags l s) = (h d s).map (withTags l)

/-- A handler records no tags. -/
theorem Blind.receivedTags {before : Nat → Nat → Prop} {u : Nat}
    {h : TlvData → σ → Except Failure σ} (hblind : Blind before u h) {d : TlvData} {s s' : σ}
    (hh : h d s = .ok s') : receivedTags s' = receivedTags s := by
  have hsame := hblind d s (TlvContext.receivedTags s) fun _ _ => Iff.rfl
  rw [withTags_receivedTags, hh] at hsame
  rw [Except.ok.inj hsame, receivedTags_withTags]

/-- The handlers may be called in either order. -/
def HandlersCommute {σ : Type} (h h' : TlvData → σ → Except Failure σ) : Prop :=
  ∀ d e s, (h d s >>= h' e).toOption = (h' e s >>= h d).toOption

theorem HandlersCommute.symm {σ : Type} {h h' : TlvData → σ → Except Failure σ}
    (hc : HandlersCommute h h') : HandlersCommute h' h := fun d e s => (hc e d s).symm

/-- The handler reads some of the context, and writes a value that it computes from it. -/
def Updates {σ α β : Type} (read : TlvData → β → Except Failure α) (view : σ → β)
    (set : α → σ → σ) (h : TlvData → σ → Except Failure σ) : Prop :=
  ∀ d s, h d s = (read d (view s)).map fun a => set a s

theorem storing_updates {σ α : Type} (get : TlvData → Option α) (set : α → σ → σ) :
    Updates (fun d (_ : Unit) => (get d).elim (.error .rejected) .ok) (fun _ => ()) set
      (storing get set) := by
  intro d s
  unfold storing
  dsimp only
  cases get d with
  | none => rfl
  | some a => rfl

/-- One more element at the end of an array. -/
def pushOne {α : Type} {n : Nat} (get : Bytes → Except Failure α) (d : TlvData)
    (b : Bounded α n) : Except Failure (Bounded α n) :=
  if h : b.count ≥ n then .error .rejected
  else do
    let a ← get d.value
    .ok (b.push a (Nat.lt_of_not_ge h))

theorem pushing_updates {σ α : Type} {n : Nat} (get : Bytes → Except Failure α)
    (arr : σ → Bounded α n) (set : Bounded α n → σ → σ) :
    Updates (pushOne get) arr set (pushing get arr set) := by
  intro d s
  unfold pushing pushOne
  by_cases hfull : (arr s).count ≥ n
  · rw [dif_pos hfull, dif_pos hfull]
    rfl
  · rw [dif_neg hfull, dif_neg hfull]
    cases get d.value with
    | error e => rfl
    | ok a => rfl

section

variable {α β : Type} {read : TlvData → β → Except Failure α} {view : σ → β} {set : α → σ → σ}
  {h : TlvData → σ → Except Failure σ} {before : Nat → Nat → Prop} {u : Nat}

/-- A handler that reads no tags, but for those it looks for, and writes none. -/
theorem Updates.blind (hu : Updates read view set h)
    (hview : ∀ l s, (∀ t, before t u → (t ∈ l ↔ t ∈ receivedTags s)) →
      view (withTags l s) = view s)
    (hset : ∀ a l s, set a (withTags l s) = withTags l (set a s)) : Blind before u h := by
  intro d s l hl
  rw [hu, hu, hview l s hl]
  cases read d (view s) with
  | error e => rfl
  | ok a => exact congrArg Except.ok (hset a l s)

end

/-- Handlers that write different fields, and read none that the other writes. -/
theorem Updates.commute {σ α β α' β' : Type} {read : TlvData → β → Except Failure α}
    {view : σ → β} {set : α → σ → σ} {h : TlvData → σ → Except Failure σ}
    {read' : TlvData → β' → Except Failure α'} {view' : σ → β'} {set' : α' → σ → σ}
    {h' : TlvData → σ → Except Failure σ} (hu : Updates read view set h)
    (hu' : Updates read' view' set' h') (hview : ∀ a s, view (set' a s) = view s)
    (hview' : ∀ a s, view' (set a s) = view' s)
    (hset : ∀ a b s, set a (set' b s) = set' b (set a s)) : HandlersCommute h h' := by
  intro d e s
  rw [hu, hu']
  cases hr : read d (view s) with
  | error x =>
    cases hr' : read' e (view' s) with
    | error y => rfl
    | ok b =>
      show none = (h d (set' b s)).toOption
      rw [hu, hview, hr]
      rfl
  | ok a =>
    show (h' e (set a s)).toOption = _
    rw [hu', hview']
    cases hr' : read' e (view' s) with
    | error y => rfl
    | ok b =>
      show some (set' b (set a s)) = (h d (set' b s)).toOption
      rw [hu, hview, hr, ← hset]
      rfl

/-- A handler that stores what it reads out of the element. -/
theorem storing_blind {α : Type} {get : TlvData → Option α} {set : α → σ → σ}
    {before : Nat → Nat → Prop} {u : Nat}
    (hset : ∀ a l s, set a (withTags l s) = withTags l (set a s)) :
    Blind before u (storing get set) :=
  (storing_updates get set).blind (fun _ _ _ => rfl) hset

/-- Two of them, which store in different fields. -/
theorem storing_commute {σ α β : Type} {get : TlvData → Option α} {set : α → σ → σ}
    {get' : TlvData → Option β} {set' : β → σ → σ}
    (hset : ∀ a b s, set a (set' b s) = set' b (set a s)) :
    HandlersCommute (storing get set) (storing get' set') :=
  (storing_updates get set).commute (storing_updates get' set') (fun _ _ => rfl) (fun _ _ => rfl)
    hset

end

/-! ## 3. Tables -/

/-- No tag may come several times. -/
def noRepeats (_ : Nat) : Bool := false

/-- No tag must come before another. -/
def noFirst (_ _ : Nat) : Prop := False

/-- The tag of a type must come before the tag of what it is the type of. -/
def typeFirst (type nested : Nat) (t u : Nat) : Prop := t = type ∧ u = nested

namespace TlvParser

section

variable {σ : Type} [TlvContext σ]

/-- No element comes before one that must come first. -/
def InOrder (before : Nat → Nat → Prop) (ds : List TlvData) : Prop :=
  ds.Pairwise fun x y => ¬ before y.tag x.tag

/-- The same elements in another order, in which those of a repeated tag keep theirs, and what
must come first still does. -/
structure Reordered (repeated : Nat → Bool) (before : Nat → Nat → Prop) (ds ds' : List TlvData) :
    Prop where
  perm : ds.Perm ds'
  kept : ds.filter (fun d => repeated d.tag) = ds'.filter fun d => repeated d.tag
  first : InOrder before ds ↔ InOrder before ds'

/-- What a parser makes of one more element. -/
def accept (p : TlvParser σ) (o : Option σ) (d : TlvData) : Option σ :=
  o.bind fun s => (p.step s d).toOption

@[simp] theorem accept_none (p : TlvParser σ) (d : TlvData) : p.accept none d = none := rfl

@[simp] theorem accept_some (p : TlvParser σ) (s : σ) (d : TlvData) :
    p.accept (some s) d = (p.step s d).toOption := rfl

/-- A tag that is not in the table is refused. -/
theorem accept_unknown {p : TlvParser σ} {d : TlvData}
    (hfind : p.tags.find? (fun r => r.tag == d.tag) = none) (o : Option σ) :
    p.accept o d = none := by
  cases o with
  | none => rw [accept_none]
  | some s =>
    rw [accept_some]
    unfold step
    rw [hfind]
    rfl

/-- What was refused stays refused. -/
theorem foldl_accept_none (p : TlvParser σ) (ds : List TlvData) :
    ds.foldl p.accept none = none := by
  induction ds with
  | nil => rfl
  | cons d ds ih =>
    rw [List.foldl_cons, accept_none]
    exact ih

theorem toOption_parseElements (p : TlvParser σ) (ds : List TlvData) (s : σ) :
    (p.parseElements ds s).toOption = ds.foldl p.accept (some s) := by
  induction ds generalizing s with
  | nil => rfl
  | cons d ds ih =>
    rw [List.foldl_cons, accept_some]
    unfold parseElements
    cases p.step s d with
    | error e => exact (foldl_accept_none p ds).symm
    | ok s' => exact ih s'

variable [LawfulTlvContext σ]

/-- The handlers may be called in any order, but for what `before` asks, and for a tag that may
come several times; and what `before` asks is checked. -/
structure OrderFree (p : TlvParser σ) (repeated : Nat → Bool) (before : Nat → Nat → Prop) :
    Prop where
  common : p.common = noCommon
  irrefl : ∀ t, ¬ before t t
  once : ∀ row ∈ p.tags, repeated row.tag = false → row.unique = true
  blind : ∀ row ∈ p.tags, Blind before row.tag row.handler
  commute : p.tags.Pairwise fun r r' =>
    before r.tag r'.tag ∨ before r'.tag r.tag ∨ HandlersCommute r.handler r'.handler
  refuses : ∀ row ∈ p.tags, ∀ t, before t row.tag →
    repeated t = false ∧ ∀ d s s', t ∉ receivedTags s → row.handler d s ≠ .ok s'

/-- A table of unique tags none of which looks for another. -/
theorem OrderFree.of_unique {p : TlvParser σ} (hcommon : p.common = noCommon)
    (hunique : ∀ row ∈ p.tags, row.unique = true)
    (hblind : ∀ row ∈ p.tags, Blind noFirst row.tag row.handler)
    (hcommute : p.tags.Pairwise fun r r' => HandlersCommute r.handler r'.handler) :
    p.OrderFree noRepeats noFirst where
  common := hcommon
  irrefl _ h := h
  once row hrow _ := hunique row hrow
  blind := hblind
  commute := hcommute.imp fun h => .inr (.inr h)
  refuses _ _ _ h := h.elim

/-- A table of an array and nothing else. -/
theorem OrderFree.of_array {p : TlvParser σ} {α : Type} {n t : Nat}
    {get : Bytes → Except Failure α} {arr : σ → Bounded α n} {set : Bounded α n → σ → σ}
    (htags : p.tags = [⟨t, pushing get arr set, false⟩]) (hcommon : p.common = noCommon)
    (harr : ∀ l s, arr (withTags l s) = arr s)
    (hset : ∀ b l s, set b (withTags l s) = withTags l (set b s)) :
    p.OrderFree (· == t) noFirst where
  common := hcommon
  irrefl _ h := h
  once := by
    rw [htags, List.forall_mem_singleton]
    simp
  blind := by
    rw [htags, List.forall_mem_singleton]
    exact (pushing_updates get arr set).blind (fun l s _ => harr l s) hset
  commute := by
    rw [htags]
    exact List.pairwise_singleton _ _
  refuses _ _ _ h := h.elim

namespace OrderFree

variable {p : TlvParser σ} {repeated : Nat → Bool} {before : Nat → Nat → Prop}
  {row row' : TagHandler σ} {x y d : TlvData}

/-- A step from a context with other tags, as far as the tag and its handler look at them. -/
theorem step_withTags (hp : p.OrderFree repeated before)
    (hfind : p.tags.find? (fun r => r.tag == d.tag) = some row) (s : σ) {l : List Nat}
    (hl : ∀ u, u = d.tag ∨ before u d.tag → (u ∈ l ↔ u ∈ receivedTags s)) :
    p.step (withTags l s) d =
      if row.unique = true ∧ d.tag ∈ receivedTags s then .error .rejected
      else (row.handler d s).map (withTags (d.tag :: l)) := by
  have htag : row.tag = d.tag := by simpa using List.find?_some hfind
  have hhandler : row.handler d (receive d.tag (withTags l s)) =
      (row.handler d s).map (withTags (d.tag :: l)) := by
    rw [receive_eq, withTags_withTags, receivedTags_withTags]
    refine hp.blind row (List.mem_of_find?_eq_some hfind) d s (d.tag :: l) ?_
    intro t ht
    rw [htag] at ht
    have hne : t ≠ d.tag := by
      rintro rfl
      exact hp.irrefl _ ht
    rw [List.mem_cons, hl t (.inr ht)]
    exact ⟨fun h => h.resolve_left hne, .inr⟩
  unfold step
  rw [hfind, hp.common, receivedTags_withTags]
  dsimp only
  by_cases hdup : row.unique = true ∧ d.tag ∈ receivedTags s
  · rw [if_pos hdup, if_pos (by simpa [hdup.1] using (hl d.tag (.inl rfl)).mpr hdup.2)]
  · rw [if_neg hdup, if_neg ?_]
    · exact hhandler
    · simpa [hl d.tag (.inl rfl)] using hdup

/-- A step. -/
theorem step_eq (hp : p.OrderFree repeated before)
    (hfind : p.tags.find? (fun r => r.tag == d.tag) = some row) (s : σ) :
    p.step s d =
      if row.unique = true ∧ d.tag ∈ receivedTags s then .error .rejected
      else (row.handler d s).map (withTags (d.tag :: receivedTags s)) := by
  have h := hp.step_withTags hfind s (l := receivedTags s) fun _ _ => Iff.rfl
  rwa [withTags_receivedTags] at h

/-- A step records its tag. -/
theorem receivedTags_step (hp : p.OrderFree repeated before) {s s' : σ}
    (h : p.step s d = .ok s') : receivedTags s' = d.tag :: receivedTags s := by
  cases hfind : p.tags.find? (fun r => r.tag == d.tag) with
  | none =>
    unfold step at h
    rw [hfind] at h
    cases h
  | some row =>
    rw [hp.step_eq hfind] at h
    split at h
    · cases h
    · cases hh : row.handler d s with
      | error e =>
        rw [hh] at h
        cases h
      | ok s₁ =>
        rw [hh] at h
        cases h
        exact receivedTags_withTags _ _

/-- Steps from contexts that are alike end alike. -/
theorem accept_alike (hp : p.OrderFree repeated before) {o o' : Option σ} (d : TlvData)
    (h : AlikeOutcome o o') : AlikeOutcome (p.accept o d) (p.accept o' d) := by
  cases h with
  | none => exact .none
  | @some s t h =>
    cases hfind : p.tags.find? (fun r => r.tag == d.tag) with
    | none =>
      rw [accept_unknown hfind, accept_unknown hfind]
      exact .none
    | some row =>
      rw [accept_some, accept_some, h.rest, hp.step_withTags hfind s fun u _ => (h.tags u).symm, hp.step_eq hfind]
      split
      · exact .none
      · cases row.handler d s with
        | error e => exact .none
        | ok s₁ =>
          refine .some ⟨?_, ?_⟩
          · intro u
            simp only [receivedTags_withTags, List.mem_cons, h.tags u]
          · rw [receivedTags_withTags, withTags_withTags]

/-- Two steps with different tags, the first of which the second does not look for. -/
theorem accept_accept (hp : p.OrderFree repeated before)
    (hrow : p.tags.find? (fun r => r.tag == x.tag) = some row)
    (hrow' : p.tags.find? (fun r => r.tag == y.tag) = some row') (hne : x.tag ≠ y.tag)
    (hxy : ¬ before x.tag y.tag) (s : σ) :
    p.accept (p.accept (some s) x) y =
      if (row.unique = true ∧ x.tag ∈ receivedTags s) ∨
        (row'.unique = true ∧ y.tag ∈ receivedTags s) then none
      else (row.handler x s >>= row'.handler y).toOption.map
        (withTags (y.tag :: x.tag :: receivedTags s)) := by
  rw [accept_some, hp.step_eq hrow]
  by_cases hdup : row.unique = true ∧ x.tag ∈ receivedTags s
  · rw [if_pos hdup, if_pos (.inl hdup)]
    rfl
  · rw [if_neg hdup]
    cases hx : row.handler x s with
    | error e =>
      split
      · rfl
      · rfl
    | ok s₁ =>
      have htags : receivedTags s₁ = receivedTags s :=
        (hp.blind row (List.mem_of_find?_eq_some hrow)).receivedTags hx
      have hsecond : p.step (withTags (x.tag :: receivedTags s) s₁) y =
          if row'.unique = true ∧ y.tag ∈ receivedTags s₁ then .error .rejected
          else (row'.handler y s₁).map (withTags (y.tag :: x.tag :: receivedTags s)) := by
        refine hp.step_withTags hrow' s₁ ?_
        intro u hu
        have hux : u ≠ x.tag := by
          rintro rfl
          rcases hu with hu | hu
          · exact hne hu
          · exact hxy hu
        rw [htags, List.mem_cons]
        exact ⟨fun h => h.resolve_left hux, .inr⟩
      rw [Except.map, Except.toOption, accept_some, hsecond, htags]
      by_cases hdup' : row'.unique = true ∧ y.tag ∈ receivedTags s
      · rw [if_pos hdup', if_pos (.inr hdup')]
        rfl
      · rw [if_neg hdup', if_neg (not_or.mpr ⟨hdup, hdup'⟩)]
        change _ = (row'.handler y s₁).toOption.map _
        cases row'.handler y s₁ with
        | error e => rfl
        | ok s₂ => rfl

/-- The handlers of two rows, when neither looks for the other's tag. -/
theorem handlers_commute (hp : p.OrderFree repeated before) (hrow : row ∈ p.tags)
    (hrow' : row' ∈ p.tags) (hne : row.tag ≠ row'.tag) (h : ¬ before row.tag row'.tag)
    (h' : ¬ before row'.tag row.tag) : HandlersCommute row.handler row'.handler := by
  have hsymm : Std.Symm fun r r' : TagHandler σ =>
      before r.tag r'.tag ∨ before r'.tag r.tag ∨ HandlersCommute r.handler r'.handler := by
    refine ⟨?_⟩
    rintro r r' (hr | hr | hr)
    · exact .inr (.inl hr)
    · exact .inl hr
    · exact .inr (.inr hr.symm)
  have hrows := hp.commute.forall hrow hrow' (fun heq => hne (by rw [heq]))
  exact (hrows.resolve_left h).resolve_left h'

/-- A unique tag that comes again is refused. -/
theorem accept_twice (hp : p.OrderFree repeated before) (htag : x.tag = y.tag)
    (honce : repeated x.tag = false) (s : σ) : p.accept (p.accept (some s) x) y = none := by
  rw [accept_some]
  cases hx : p.step s x with
  | error e => rfl
  | ok s₁ =>
    rw [Except.toOption]
    cases hfind : p.tags.find? (fun r => r.tag == y.tag) with
    | none => exact accept_unknown hfind _
    | some row =>
      have hrow : row.tag = y.tag := by simpa using List.find?_some hfind
      have hunique : row.unique = true :=
        hp.once row (List.mem_of_find?_eq_some hfind) (by rw [hrow, ← htag, honce])
      have hreceived : y.tag ∈ receivedTags s₁ := by
        rw [hp.receivedTags_step hx, htag]
        exact List.mem_cons_self
      rw [accept_some, hp.step_eq hfind, if_pos ⟨hunique, hreceived⟩]
      rfl

/-- Two steps may be exchanged, unless one must come first, or both keep their places. -/
theorem accept_comm (hp : p.OrderFree repeated before)
    (hkept : ¬ (repeated x.tag = true ∧ repeated y.tag = true)) (hxy : ¬ before x.tag y.tag)
    (hyx : ¬ before y.tag x.tag) (o : Option σ) :
    AlikeOutcome (p.accept (p.accept o y) x) (p.accept (p.accept o x) y) := by
  cases o with
  | none => exact .none
  | some s =>
    by_cases htag : x.tag = y.tag
    · have honce : repeated x.tag = false := by
        rw [← htag, and_self, Bool.not_eq_true] at hkept
        exact hkept
      rw [hp.accept_twice htag honce, hp.accept_twice htag.symm (htag ▸ honce)]
      exact .none
    · cases hx : p.tags.find? (fun r => r.tag == x.tag) with
      | none =>
        rw [accept_unknown hx, accept_unknown hx, accept_none]
        exact .none
      | some row =>
        cases hy : p.tags.find? (fun r => r.tag == y.tag) with
        | none =>
          rw [accept_unknown hy, accept_unknown hy, accept_none]
          exact .none
        | some row' =>
          have hrow : row.tag = x.tag := by simpa using List.find?_some hx
          have hrow' : row'.tag = y.tag := by simpa using List.find?_some hy
          have hcommute : HandlersCommute row.handler row'.handler := by
            refine hp.handlers_commute (List.mem_of_find?_eq_some hx)
              (List.mem_of_find?_eq_some hy) ?_ ?_ ?_
            · rw [hrow, hrow']
              exact htag
            · rwa [hrow, hrow']
            · rwa [hrow, hrow']
          rw [hp.accept_accept hx hy htag hxy, hp.accept_accept hy hx (Ne.symm htag) hyx,
            ← hcommute x y s]
          simp only [or_comm (a := row'.unique = true ∧ y.tag ∈ receivedTags s)]
          split
          · exact .none
          · cases (row.handler x s >>= row'.handler y).toOption with
            | none => exact .none
            | some s' =>
              refine .some ⟨?_, ?_⟩
              · intro u
                simp only [receivedTags_withTags, List.mem_cons]
                exact or_left_comm
              · rw [receivedTags_withTags, withTags_withTags]

/-- The parser rule: rearranged elements are accepted alike, and end alike. -/
theorem parseElements (hp : p.OrderFree repeated before) {ds ds' : List TlvData}
    (h : Rearranged (fun d => repeated d.tag) (fun d e => before d.tag e.tag) ds ds') (s : σ) :
    AlikeOutcome (p.parseElements ds s).toOption (p.parseElements ds' s).toOption := by
  rw [toOption_parseElements, toOption_parseElements]
  refine h.foldl alikeOutcome_equivalence ?_ ?_ (alikeOutcome_equivalence.refl (some s))
  · intro o o' d ho
    exact hp.accept_alike d ho
  · intro o x y hkept hxy hyx
    exact hp.accept_comm hkept hxy hyx o

/-- A unique tag that was received does not come again. -/
theorem not_mem_of_received (hp : p.OrderFree repeated before) {t : Nat}
    (honce : repeated t = false) {ds : List TlvData} {s s' : σ}
    (h : p.parseElements ds s = .ok s') (ht : t ∈ receivedTags s) : ∀ d ∈ ds, d.tag ≠ t := by
  induction ds generalizing s with
  | nil =>
    intro d hd
    cases hd
  | cons d ds ih =>
    obtain ⟨s₁, hstep, hrest⟩ := bind_ok_iff.mp h
    have htags := hp.receivedTags_step hstep
    have ht₁ : t ∈ receivedTags s₁ := by
      rw [htags]
      exact List.mem_cons_of_mem _ ht
    intro x hx
    rcases List.mem_cons.mp hx with rfl | hx
    · rintro rfl
      obtain ⟨row, hrow, htag, hunique, -⟩ := step_ok hstep
      exact hunique (hp.once row hrow (by rw [htag, honce])) ht
    · exact ih hrest ht₁ x hx

/-- In a sequence that is accepted, what must come first does. -/
theorem inOrder (hp : p.OrderFree repeated before) {ds : List TlvData} {s s' : σ}
    (h : p.parseElements ds s = .ok s') : InOrder before ds := by
  induction ds generalizing s with
  | nil => exact .nil
  | cons d ds ih =>
    obtain ⟨s₁, hstep, hrest⟩ := bind_ok_iff.mp h
    refine .cons ?_ (ih hrest)
    intro y hy hbefore
    obtain ⟨row, hrow, htag, -, s₂, hc, hh⟩ := step_ok hstep
    rw [hp.common] at hc
    cases hc
    obtain ⟨honce, hrefuses⟩ := hp.refuses row hrow y.tag (htag ▸ hbefore)
    have hreceived : y.tag ∈ receivedTags (receive d.tag s) := by
      by_contra hnot
      exact hrefuses d _ s₁ hnot hh
    rw [receive_eq, receivedTags_withTags, ← hp.receivedTags_step hstep] at hreceived
    exact hp.not_mem_of_received honce hrest hreceived y hy rfl

/-- Elements in another order are accepted alike, and end alike. -/
theorem reordered (hp : p.OrderFree repeated before) {ds ds' : List TlvData}
    (h : Reordered repeated before ds ds') (s : σ) :
    AlikeOutcome (p.parseElements ds s).toOption (p.parseElements ds' s).toOption := by
  by_cases hfirst : InOrder before ds
  · exact hp.parseElements ⟨h.perm, h.kept, hfirst, h.first.mp hfirst⟩ s
  · have hnone : ∀ ds, ¬ InOrder before ds → (p.parseElements ds s).toOption = none := by
      intro ds hnot
      cases hrun : p.parseElements ds s with
      | error e => rfl
      | ok s' => exact absurd (hp.inOrder hrun) hnot
    rw [hnone ds hfirst, hnone ds' (mt h.first.mpr hfirst)]
    exact .none

/-! ### Payloads -/

variable {decode : Bytes → Option (List TlvData)} {verify : σ → Except Failure Unit}
  {payload payload' : Bytes} {ds ds' : List TlvData}

/-- Payloads whose elements are the same, in another order. -/
theorem parseVerified (hp : p.OrderFree repeated before)
    (hverify : ∀ s t, ReadAlike s t → verify s = verify t) (hds : decode payload = some ds)
    (hds' : decode payload' = some ds') (h : Reordered repeated before ds ds') (s : σ) :
    AlikeOutcome (p.parseVerified decode verify payload s).toOption
      (p.parseVerified decode verify payload' s).toOption := by
  have helements := hp.reordered h s
  unfold TlvParser.parseVerified TlvParser.parse
  rw [hds, hds']
  dsimp only
  generalize p.parseElements ds s = r at helements ⊢
  generalize p.parseElements ds' s = r' at helements ⊢
  cases r with
  | error e =>
    cases r' with
    | error e' => exact .none
    | ok t => cases helements
  | ok s₁ =>
    cases r' with
    | error e' => cases helements
    | ok t =>
      cases helements with
      | some halike =>
        show AlikeOutcome (verify s₁ >>= fun _ => .ok s₁).toOption
          (verify t >>= fun _ => .ok t).toOption
        rw [hverify s₁ t halike]
        cases verify t with
        | error e => exact .none
        | ok _ => exact .some halike

/-- What does not show the order of the tags is the same after both. -/
theorem parseVerified_map {α : Type} (hp : p.OrderFree repeated before)
    (hverify : ∀ s t, ReadAlike s t → verify s = verify t) {view : σ → α}
    (hview : ∀ l s, view (withTags l s) = view s) (hds : decode payload = some ds)
    (hds' : decode payload' = some ds') (h : Reordered repeated before ds ds') (s : σ) :
    (p.parseVerified decode verify payload s).toOption.map view =
      (p.parseVerified decode verify payload' s).toOption.map view := by
  have houtcome := hp.parseVerified hverify hds hds' h s
  generalize (p.parseVerified decode verify payload s).toOption = o at houtcome ⊢
  generalize (p.parseVerified decode verify payload' s).toOption = o' at houtcome ⊢
  cases houtcome with
  | none => rfl
  | some halike => exact congrArg some (halike.eq hview)

/-- A payload in which what must come first does not is refused. -/
theorem parseVerified_misordered (hp : p.OrderFree repeated before)
    (hds : decode payload = some ds) (h : ¬ InOrder before ds) (s s' : σ) :
    p.parseVerified decode verify payload s ≠ .ok s' := by
  intro hok
  obtain ⟨hparse, -⟩ := (parseVerified_elements hds).mp hok
  exact h (hp.inOrder hparse)

end OrderFree

end

end TlvParser

/-- Parses that end alike, where neither reads through a null pointer: both refuse, or both return
what looks the same. -/
theorem outcome_cases {σ α : Type} {x y : Except Failure σ} {view : σ → α}
    (h : x.toOption.map view = y.toOption.map view) (hx : x ≠ .error .nullDeref)
    (hy : y ≠ .error .nullDeref) :
    (x = .error .rejected ∧ y = .error .rejected) ∨
      ∃ s t, x = .ok s ∧ y = .ok t ∧ view s = view t := by
  cases x with
  | error e =>
    cases y with
    | error e' =>
      cases e with
      | nullDeref => exact absurd rfl hx
      | rejected =>
        cases e' with
        | nullDeref => exact absurd rfl hy
        | rejected => exact .inl ⟨rfl, rfl⟩
    | ok t => cases h
  | ok s =>
    cases y with
    | error e => cases h
    | ok t => exact .inr ⟨s, t, rfl, rfl, Option.some.inj h⟩

end Lib

/-
# Which sequences a parser accepts

A parser accepts a sequence when it accepts each element after those before it
(`TlvParser.parseElements_iff`).  Said of the whole sequence this is a condition for each tag: how
often it occurs, and what its elements must read as.  `occurrences t ds` are the elements with a
tag, in order, and `Once t` says that there is at most one.
-/
import Hyperliquid.Lib.TlvInPlace

namespace Lib

/-! ## 1. The elements of a tag -/

/-- The elements with the tag, in order. -/
def occurrences (t : Nat) (ds : List TlvData) : List TlvData := ds.filter fun d => d.tag == t

section

variable {t : Nat} {ds es : List TlvData} {d : TlvData}

@[simp] theorem occurrences_nil (t : Nat) : occurrences t [] = [] := rfl

theorem occurrences_append (t : Nat) (ds es : List TlvData) :
    occurrences t (ds ++ es) = occurrences t ds ++ occurrences t es := List.filter_append ds es

/-- One element more, with the tag. -/
theorem occurrences_same (h : d.tag = t) : occurrences t [d] = [d] := by
  simp [occurrences, h]

/-- One element more, with another tag. -/
theorem occurrences_other (h : d.tag ≠ t) : occurrences t [d] = [] := by
  simp [occurrences, h]

theorem mem_occurrences : d ∈ occurrences t ds ↔ d ∈ ds ∧ d.tag = t := by
  simp [occurrences]

/-- A sequence of elements with one tag. -/
theorem occurrences_eq_self (h : ∀ d ∈ ds, d.tag = t) : occurrences t ds = ds :=
  List.filter_eq_self.mpr fun d hd => by simpa using h d hd

/-- A tag that was received has an element, and no other tag has. -/
theorem mem_tags_iff : t ∈ ds.map TlvData.tag ↔ occurrences t ds ≠ [] := by
  constructor
  · intro h
    obtain ⟨d, hd, rfl⟩ := List.mem_map.mp h
    exact List.ne_nil_of_mem (mem_occurrences.mpr ⟨hd, rfl⟩)
  · intro h
    obtain ⟨d, hd⟩ := List.exists_mem_of_ne_nil _ h
    obtain ⟨hmem, htag⟩ := mem_occurrences.mp hd
    exact List.mem_map.mpr ⟨d, hmem, htag⟩

/-- The elements of the tag around one of them. -/
theorem occurrences_split (h : d.tag = t) (l r : List TlvData) :
    occurrences t (l ++ d :: r) = occurrences t l ++ d :: occurrences t r := by
  have hcons : d :: r = [d] ++ r := rfl
  rw [hcons, occurrences_append, occurrences_append, occurrences_same h]
  rfl

/-- The tag occurs once, in an element that satisfies `R`, or not at all, and then `A` holds. -/
def Once (t : Nat) (R : TlvData → Prop) (A : Prop) (ds : List TlvData) : Prop :=
  (occurrences t ds = [] ∧ A) ∨ ∃ d, occurrences t ds = [d] ∧ R d

variable {R : TlvData → Prop} {A : Prop}

/-- One element more, with another tag. -/
theorem Once.concat_other (h : Once t R A ds) (hd : d.tag ≠ t) : Once t R A (ds ++ [d]) := by
  unfold Once
  rw [occurrences_append, occurrences_other hd, List.append_nil]
  exact h

/-- The one element with the tag. -/
theorem Once.concat_same (hnew : t ∉ ds.map TlvData.tag) (hd : d.tag = t) (hR : R d) :
    Once t R A (ds ++ [d]) := by
  rw [mem_tags_iff, ne_eq, not_not] at hnew
  unfold Once
  rw [occurrences_append, hnew, occurrences_same hd]
  exact .inr ⟨d, rfl, hR⟩

/-- Before the tag is received, `A` holds. -/
theorem Once.absent (h : Once t R A ds) (hnew : t ∉ ds.map TlvData.tag) : A := by
  rw [mem_tags_iff, ne_eq, not_not] at hnew
  rcases h with ⟨-, hA⟩ | ⟨d, hd, -⟩
  · exact hA
  · rw [hnew] at hd
    cases hd

/-- Once the tag is received, its element is there. -/
theorem Once.present (h : Once t R A ds) (hmem : t ∈ ds.map TlvData.tag) :
    ∃ d, occurrences t ds = [d] ∧ R d := by
  rcases h with ⟨hnil, -⟩ | h
  · exact absurd hnil (mem_tags_iff.mp hmem)
  · exact h

/-- A single element of the tag has none before it. -/
theorem not_mem_tags_of_single {x : TlvData} {l r : List TlvData} (hd : d.tag = t)
    (h : occurrences t (l ++ d :: r) = [x]) : t ∉ l.map TlvData.tag ∧ d = x := by
  rw [occurrences_split hd] at h
  rw [mem_tags_iff, ne_eq, not_not]
  cases hl : occurrences t l with
  | nil =>
    rw [hl, List.nil_append] at h
    exact ⟨rfl, (List.cons.inj h).1⟩
  | cons y ys =>
    rw [hl] at h
    have hlen := congrArg List.length h
    simp at hlen

end

/-! ## 2. Acceptance, element by element -/

/-- A value that is computed from another. -/
theorem bind_return_ok_iff {ε α β : Type} {x : Except ε α} {f : α → β} {b : β} :
    (do
      let a ← x
      .ok (f a)) = .ok b ↔ ∃ a, x = .ok a ∧ b = f a := by
  rw [bind_ok_iff]
  constructor
  · rintro ⟨a, ha, hb⟩
    cases hb
    exact ⟨a, ha, rfl⟩
  · rintro ⟨a, ha, rfl⟩
    exact ⟨a, ha, rfl⟩

theorem exists_bind_return_ok_iff {ε α β : Type} {x : Except ε α} {f : α → β} :
    (∃ b, (do
      let a ← x
      .ok (f a)) = .ok b) ↔ ∃ a, x = .ok a := by
  constructor
  · rintro ⟨b, hb⟩
    obtain ⟨a, ha, -⟩ := bind_return_ok_iff.mp hb
    exact ⟨a, ha⟩
  · rintro ⟨a, ha⟩
    exact ⟨f a, bind_return_ok_iff.mpr ⟨a, ha, rfl⟩⟩

namespace TlvParser

open TlvContext

variable {σ : Type} [TlvContext σ] {p : TlvParser σ} {d : TlvData} {s s' : σ}

/-- An element whose tag is in the table. -/
theorem step_ok_iff {t : Nat} {unique : Bool} {handler : TlvData → σ → Except Failure σ}
    (hcommon : p.common = noCommon)
    (hfind : p.tags.find? (fun row => row.tag == d.tag) = some ⟨t, handler, unique⟩) :
    p.step s d = .ok s' ↔
      (unique = true → d.tag ∉ receivedTags s) ∧ handler d (receive d.tag s) = .ok s' := by
  unfold step
  rw [hfind, hcommon]
  dsimp only
  by_cases h : (unique && (receivedTags s).contains d.tag) = true
  · rw [if_pos h]
    simp only [Bool.and_eq_true, List.contains_iff_mem] at h
    constructor
    · intro hs
      cases hs
    · rintro ⟨hnew, -⟩
      exact absurd h.2 (hnew h.1)
  · rw [if_neg h]
    simp only [Bool.and_eq_true, List.contains_iff_mem, not_and] at h
    exact ⟨fun hs => ⟨h, hs⟩, fun hs => hs.2⟩

/-- An element whose tag is not. -/
theorem step_unknown (hfind : p.tags.find? (fun row => row.tag == d.tag) = none) :
    p.step s d ≠ .ok s' := by
  unfold step
  rw [hfind]
  intro h
  cases h

/-- Under an invariant that says which elements are accepted next, a sequence is accepted exactly
when each element is, after those before it. -/
theorem parseElements_iff {P : List TlvData → σ → Prop} {Q : List TlvData → TlvData → Prop}
    (haccept : ∀ pre d s, P pre s → ((∃ s', p.step s d = .ok s') ↔ Q pre d))
    (hinv : ∀ pre d s s', P pre s → p.step s d = .ok s' → P (pre ++ [d]) s')
    (ds pre : List TlvData) (s : σ) (hs : P pre s) :
    (∃ s', p.parseElements ds s = .ok s') ↔ ∀ l d r, ds = l ++ d :: r → Q (pre ++ l) d := by
  induction ds generalizing pre s with
  | nil =>
    constructor
    · intro _ l d r h
      simp at h
    · intro _
      exact ⟨s, rfl⟩
  | cons d ds ih =>
    constructor
    · rintro ⟨s', h⟩ l x r hsplit
      obtain ⟨s₁, hd, hds⟩ := bind_ok_iff.mp h
      cases l with
      | nil =>
        obtain ⟨rfl, rfl⟩ := List.cons.inj hsplit
        rw [List.append_nil]
        exact (haccept pre d s hs).mp ⟨s₁, hd⟩
      | cons y l =>
        obtain ⟨rfl, htail⟩ := List.cons.inj hsplit
        have hrest := (ih (pre ++ [d]) s₁ (hinv pre d s s₁ hs hd)).mp ⟨s', hds⟩ l x r htail
        rwa [List.append_assoc] at hrest
    · intro h
      have hfirst := h [] d ds rfl
      rw [List.append_nil] at hfirst
      obtain ⟨s₁, hd⟩ := (haccept pre d s hs).mpr hfirst
      obtain ⟨s', hds⟩ := (ih (pre ++ [d]) s₁ (hinv pre d s s₁ hs hd)).mpr (by
        intro l x r hsplit
        rw [List.append_assoc]
        exact h (d :: l) x r (by rw [hsplit, List.cons_append]))
      exact ⟨s', bind_ok_iff.mpr ⟨s₁, hd, hds⟩⟩

/-- What holds of the sequence read, after a parse. -/
theorem parseElements_inv {P : List TlvData → σ → Prop}
    (hinv : ∀ pre d s s', P pre s → p.step s d = .ok s' → P (pre ++ [d]) s')
    (ds pre : List TlvData) (s s' : σ) (hs : P pre s) (h : p.parseElements ds s = .ok s') :
    P (pre ++ ds) s' := by
  induction ds generalizing pre s with
  | nil =>
    cases h
    rwa [List.append_nil]
  | cons d ds ih =>
    obtain ⟨s₁, hd, hds⟩ := bind_ok_iff.mp h
    have hall := ih (pre ++ [d]) s₁ (hinv pre d s s₁ hs hd) hds
    rwa [List.append_assoc] at hall

end TlvParser

/-! ## 3. The elements of an array -/

section

variable {σ α : Type} {n : Nat} {get : Bytes → Except Failure α} {arr : σ → Bounded α n}
  {set : Bounded α n → σ → σ} {d : TlvData} {s s' : σ}

theorem pushing_ok_iff : pushing get arr set d s = .ok s' ↔
    ∃ a, ∃ hlt : (arr s).count < n, get d.value = .ok a ∧ s' = set ((arr s).push a hlt) s := by
  constructor
  · exact pushing_ok
  · rintro ⟨a, hlt, ha, rfl⟩
    unfold pushing
    rw [dif_neg (Nat.not_le_of_lt hlt), ha]
    rfl

/-- The elements of the tag read as the elements of the array, one by one. -/
def ReadAs (get : Bytes → Except Failure α) (t : Nat) (ds : List TlvData) (b : Bounded α n) :
    Prop :=
  List.Forall₂ (fun d a => get d.value = .ok a) (occurrences t ds) b.elems

variable {t : Nat} {ds : List TlvData} {b : Bounded α n}

theorem readAs_nil : ReadAs get t [] (.empty : Bounded α n) := .nil

theorem ReadAs.concat_other (h : ReadAs get t ds b) (hd : d.tag ≠ t) :
    ReadAs get t (ds ++ [d]) b := by
  unfold ReadAs
  rw [occurrences_append, occurrences_other hd, List.append_nil]
  exact h

theorem ReadAs.concat_same (h : ReadAs get t ds b) (hd : d.tag = t) {a : α}
    (hlt : b.count < n) (ha : get d.value = .ok a) :
    ReadAs get t (ds ++ [d]) (b.push a hlt) := by
  unfold ReadAs
  rw [occurrences_append, occurrences_same hd]
  exact List.rel_append h (.cons ha .nil)

theorem ReadAs.count (h : ReadAs get t ds b) : b.count = (occurrences t ds).length :=
  h.length_eq.symm

/-- Each element of the tag is readable. -/
theorem ReadAs.readable (h : ReadAs get t ds b) :
    ∀ d ∈ occurrences t ds, ∃ a, get d.value = .ok a := by
  unfold ReadAs at h
  generalize b.elems = as at h
  generalize occurrences t ds = ds at h ⊢
  induction h with
  | nil =>
    intro d hd
    cases hd
  | @cons d a ds as ha _ ih =>
    intro x hx
    rcases List.mem_cons.mp hx with rfl | hx
    · exact ⟨a, ha⟩
    · exact ih x hx

/-- The array has what an element reads as at the place of the element. -/
theorem ReadAs.getElem? (h : ReadAs get t ds b) {i : Nat} (hd : (occurrences t ds)[i]? = some d) :
    ∃ a, get d.value = .ok a ∧ b.elems[i]? = some a := by
  unfold ReadAs at h
  generalize b.elems = as at h ⊢
  generalize occurrences t ds = ds at h hd
  induction h generalizing i with
  | nil => cases hd
  | @cons x a ds as ha _ ih =>
    cases i with
    | zero =>
      cases hd
      exact ⟨a, ha, rfl⟩
    | succ i => exact ih hd

/-- The slots that are used hold what the elements read as, each read by itself. -/
structure ElementWise {γ : Type} (parse : Bytes → Except Failure γ) (target : γ → α)
    (es : List TlvData) (s : Slots α n) : Prop where
  count : s.count = es.length
  elems : ∀ i d, es[i]? = some d → ∃ c, parse d.value = .ok c ∧ s.used? i = some (target c)

/-- An array that holds a list holds its elements. -/
theorem ReadAs.elementWise {γ : Type} {parse : Bytes → Except Failure γ} {target : γ → α}
    {blank : α} {s : Slots α n} (h : ReadAs (fun value => do
      let c ← parse value
      .ok (target c)) t ds b)
    (hs : s.Holds blank b) : ElementWise parse target (occurrences t ds) s where
  count := hs.count.trans h.count
  elems i d hd := by
    obtain ⟨a, ha, hi⟩ := h.getElem? hd
    obtain ⟨c, hc, rfl⟩ := bind_return_ok_iff.mp ha
    exact ⟨c, hc, (hs.used? i).trans hi⟩

end

/-! ## 4. A parser of an array and nothing else -/

open TlvContext in
/-- The only tag of the table is the one of the array's elements. -/
structure TlvParser.ParsesArray {σ α : Type} {n : Nat} [TlvContext σ] (p : TlvParser σ) (t : Nat)
    (get : Bytes → Except Failure α) (arr : σ → Bounded α n) (set : Bounded α n → σ → σ) :
    Prop where
  tags : p.tags = [⟨t, pushing get arr set, false⟩]
  common : p.common = noCommon
  arr_set : ∀ b s, arr (set b s) = b
  arr_receive : ∀ tag (s : σ), arr (receive tag s) = arr s
  received_set : ∀ b s, receivedTags (set b s) = receivedTags s
  received_receive : ∀ tag (s : σ), receivedTags (receive tag s) = tag :: receivedTags s

namespace TlvParser.ParsesArray

open TlvContext

variable {σ α : Type} {n : Nat} [TlvContext σ] {p : TlvParser σ} {t : Nat}
  {get : Bytes → Except Failure α} {arr : σ → Bounded α n} {set : Bounded α n → σ → σ}
  {ds : List TlvData} {d : TlvData} {s s' : σ}

/-- The context after these elements. -/
structure HasRead (get : Bytes → Except Failure α) (arr : σ → Bounded α n) (t : Nat)
    (ds : List TlvData) (s : σ) : Prop where
  received : receivedTags s = (ds.map TlvData.tag).reverse
  known : ∀ d ∈ ds, d.tag = t
  elems : ReadAs get t ds (arr s)

theorem step_ok_iff (hp : p.ParsesArray t get arr set) :
    p.step s d = .ok s' ↔ d.tag = t ∧ ∃ a, ∃ hlt : (arr s).count < n, get d.value = .ok a ∧
      s' = set ((arr s).push a hlt) (receive d.tag s) := by
  by_cases htag : d.tag = t
  · have hfind : p.tags.find? (fun row => row.tag == d.tag) =
        some ⟨t, pushing get arr set, false⟩ := by
      rw [hp.tags, htag]
      simp
    rw [TlvParser.step_ok_iff hp.common hfind, pushing_ok_iff, hp.arr_receive]
    simp [htag]
  · have hfind : p.tags.find? (fun row => row.tag == d.tag) = none := by
      rw [hp.tags]
      simpa using fun h => htag h.symm
    constructor
    · intro h
      exact absurd h (TlvParser.step_unknown hfind)
    · rintro ⟨h, -⟩
      exact absurd h htag

theorem hasRead_step (hp : p.ParsesArray t get arr set) (hs : HasRead get arr t ds s)
    (h : p.step s d = .ok s') : HasRead get arr t (ds ++ [d]) s' := by
  obtain ⟨htag, a, hlt, ha, rfl⟩ := hp.step_ok_iff.mp h
  refine ⟨?_, ?_, ?_⟩
  · rw [hp.received_set, hp.received_receive, hs.received]
    simp
  · exact List.forall_mem_append.mpr ⟨hs.known, by simpa using htag⟩
  · rw [hp.arr_set]
    exact hs.elems.concat_same htag hlt ha

/-- What a sequence of elements must be, and what its array is then. -/
theorem parseElements_iff (hp : p.ParsesArray t get arr set) (ds : List TlvData) {s : σ}
    (hs : HasRead get arr t [] s) :
    ((∃ s', p.parseElements ds s = .ok s') ↔
      (∀ d ∈ ds, d.tag = t) ∧ (occurrences t ds).length ≤ n ∧
        ∀ d ∈ occurrences t ds, ∃ a, get d.value = .ok a) ∧
      ∀ s', p.parseElements ds s = .ok s' → HasRead get arr t ds s' := by
  have hread : ∀ s', p.parseElements ds s = .ok s' → HasRead get arr t ds s' := fun s' h =>
    TlvParser.parseElements_inv (P := HasRead get arr t)
      (fun _ _ _ _ hs h => hp.hasRead_step hs h) ds [] s s' hs h
  refine ⟨⟨?_, ?_⟩, hread⟩
  · rintro ⟨s', h⟩
    have hs' := hread s' h
    exact ⟨hs'.known, hs'.elems.count ▸ (arr s').bound, hs'.elems.readable⟩
  · rintro ⟨hknown, hle, hreadable⟩
    refine (TlvParser.parseElements_iff (P := HasRead get arr t)
      (Q := fun pre d => d.tag = t ∧ (occurrences t pre).length < n ∧ ∃ a, get d.value = .ok a)
      ?_ (fun _ _ _ _ hs h => hp.hasRead_step hs h) ds [] s hs).mpr ?_
    · intro pre d s hs
      rw [← hs.elems.count]
      constructor
      · rintro ⟨s', h⟩
        obtain ⟨htag, a, hlt, ha, -⟩ := hp.step_ok_iff.mp h
        exact ⟨htag, hlt, a, ha⟩
      · rintro ⟨htag, hlt, a, ha⟩
        exact ⟨_, hp.step_ok_iff.mpr ⟨htag, a, hlt, ha, rfl⟩⟩
    · rintro l d r rfl
      have htag := hknown d (by simp)
      rw [occurrences_split htag, List.length_append, List.length_cons] at hle
      rw [List.nil_append]
      exact ⟨htag, by omega, hreadable d (mem_occurrences.mpr ⟨by simp, htag⟩)⟩

end TlvParser.ParsesArray

/-- The sequences that are an array of one to `n` elements, which `A` accepts, and nothing else. -/
structure ArrayOf (t n : Nat) (A : Bytes → Prop) (ds : List TlvData) : Prop where
  count_pos : 1 ≤ (occurrences t ds).length
  count_le : (occurrences t ds).length ≤ n
  elems : ∀ d ∈ occurrences t ds, A d.value
  known : ∀ d ∈ ds, d.tag = t

open TlvContext in
/-- A payload of an array that must have an element. -/
theorem TlvParser.ParsesArray.parseVerified_iff {σ α : Type} {n : Nat} [TlvContext σ]
    {p : TlvParser σ} {t : Nat} {get : Bytes → Except Failure α} {arr : σ → Bounded α n}
    {set : Bounded α n → σ → σ} {ds : List TlvData} {s : σ} (hp : p.ParsesArray t get arr set)
    {decode : Bytes → Option (List TlvData)} {payload : Bytes}
    (hds : decode payload = some ds) (hs : HasRead get arr t [] s) :
    ((∃ s', p.parseVerified decode (fun s => requireTags (receivedTags s) [t]) payload s =
        .ok s') ↔ ArrayOf t n (fun v => ∃ a, get v = .ok a) ds) ∧
      ∀ s', p.parseVerified decode (fun s => requireTags (receivedTags s) [t]) payload s =
        .ok s' → ReadAs get t ds (arr s') := by
  obtain ⟨hiff, hread⟩ := hp.parseElements_iff ds hs
  have hverified : ∀ s', p.parseVerified decode (fun s => requireTags (receivedTags s) [t]) payload
      s = .ok s' ↔ p.parseElements ds s = .ok s' ∧ t ∈ receivedTags s' := by
    intro s'
    rw [TlvParser.parseVerified_elements hds, requireTags_ok]
    simp
  have hreceived : ∀ s', p.parseElements ds s = .ok s' →
      (t ∈ receivedTags s' ↔ occurrences t ds ≠ []) := by
    intro s' h
    rw [(hread s' h).received, List.mem_reverse, mem_tags_iff]
  refine ⟨⟨?_, ?_⟩, fun s' h => (hread s' ((hverified s').mp h).1).elems⟩
  · rintro ⟨s', h⟩
    obtain ⟨hparse, ht⟩ := (hverified s').mp h
    obtain ⟨hknown, hle, hreadable⟩ := hiff.mp ⟨s', hparse⟩
    exact ⟨List.length_pos_iff.mpr ((hreceived s' hparse).mp ht), hle, hreadable, hknown⟩
  · intro h
    obtain ⟨s', hparse⟩ := hiff.mpr ⟨h.known, h.count_le, h.elems⟩
    exact ⟨s', (hverified s').mpr
      ⟨hparse, (hreceived s' hparse).mpr (List.ne_nil_of_length_pos h.count_pos)⟩⟩

end Lib

/-
# Records and arrays

A parser whose tags are unique reads a record: some tags are required, the others optional, and
each comes at most once.  Where its handlers may be called in any order (`OrderFree`), what it
makes of a record is what they make of it in the order of the table, each called with the element
of its tag, if there is one (`readTable`).

So acceptance is a statement about the fields (`OrderFree.parseVerified_iff`): the elements are a
record, what must come first does, and the fields read as the values that the context ends up
with.  The lemmas on `readTable` take a table apart row by row.
-/
import Hyperliquid.Lib.TlvOccurrences
import Hyperliquid.Lib.TlvOrder
import Mathlib.Data.List.Nodup

namespace Lib

/-! ## 1. Records -/

/-- The elements of a record: every required tag, perhaps optional ones, and none twice. -/
structure IsRecord (required optional : List Nat) (ds : List TlvData) : Prop where
  known : ∀ d ∈ ds, d.tag ∈ required ++ optional
  once : (ds.map TlvData.tag).Nodup
  complete : ∀ t ∈ required, t ∈ ds.map TlvData.tag

/-- The element with the tag. -/
def element (t : Nat) (ds : List TlvData) : Option TlvData := ds.find? fun d => d.tag == t

/-- The elements, in the order of these tags. -/
def inTableOrder (tags : List Nat) (ds : List TlvData) : List TlvData :=
  tags.filterMap fun t => element t ds

/-- The value of an optional field: none without an element. -/
def OptionalField {α : Type} (get : TlvData → Option α) (t : Nat) (ds : List TlvData)
    (o : Option α) : Prop :=
  (t ∉ ds.map TlvData.tag ∧ o = none) ∨ ∃ a, field get t ds = some a ∧ o = some a

section

variable {t : Nat} {tags : List Nat} {ds : List TlvData} {d : TlvData}

theorem element_some (h : element t ds = some d) : d ∈ ds ∧ d.tag = t :=
  ⟨List.mem_of_find?_eq_some h, by simpa using List.find?_some h⟩

theorem element_eq_none : element t ds = none ↔ t ∉ ds.map TlvData.tag := by
  simp [element, List.find?_eq_none]

theorem exists_element (h : t ∈ ds.map TlvData.tag) : ∃ d, element t ds = some d := by
  cases he : element t ds with
  | none => exact absurd h (element_eq_none.mp he)
  | some d => exact ⟨d, rfl⟩

/-- Where no two elements have a tag in common, each is the element of its tag. -/
theorem element_of_mem (honce : (ds.map TlvData.tag).Nodup) (hd : d ∈ ds) :
    element d.tag ds = some d := by
  obtain ⟨x, hx⟩ := exists_element (List.mem_map_of_mem hd)
  obtain ⟨hmem, htag⟩ := element_some hx
  rw [hx, List.inj_on_of_nodup_map honce hmem hd htag]

/-- The elements, in the order of the tags. -/
theorem perm_inTableOrder (hknown : ∀ d ∈ ds, d.tag ∈ tags) (honce : (ds.map TlvData.tag).Nodup)
    (htags : tags.Nodup) : ds.Perm (inTableOrder tags ds) := by
  have hnodup : (inTableOrder tags ds).Nodup := by
    refine htags.filterMap ?_
    intro t u d ht hu
    exact (element_some ht).2.symm.trans (element_some hu).2
  refine (List.perm_ext_iff_of_nodup (.of_map _ honce) hnodup).mpr ?_
  intro d
  rw [inTableOrder, List.mem_filterMap]
  constructor
  · intro hd
    exact ⟨d.tag, hknown d hd, element_of_mem honce hd⟩
  · rintro ⟨t, -, ht⟩
    exact (element_some ht).1

/-- A relation of the tags that holds along the table holds along the elements. -/
theorem pairwise_inTableOrder {R : Nat → Nat → Prop} (h : tags.Pairwise R) :
    (inTableOrder tags ds).Pairwise fun x y => R x.tag y.tag := by
  refine h.filterMap _ ?_
  intro t u htu x hx y hy
  rw [(element_some hx).2, (element_some hy).2]
  exact htu

end

/-! ## 2. A table, row by row -/

section

open TlvContext

variable {σ : Type} [TlvContext σ] {ds : List TlvData} {t : Nat} {unique : Bool}
  {rows : List (TagHandler σ)} {handler : TlvData → σ → Except Failure σ} {s s' : σ}

/-- The handlers in the order of the table, each with the element of its tag. -/
def readTable (ds : List TlvData) : List (TagHandler σ) → σ → Except Failure σ
  | [], s => .ok s
  | row :: rows, s =>
    match element row.tag ds with
    | none => readTable ds rows s
    | some d => row.handler d (receive d.tag s) >>= readTable ds rows

theorem readTable_nil : readTable ds [] s = .ok s' ↔ s = s' := by
  simp [readTable]

/-- A tag with an element. -/
theorem readTable_cons (ht : t ∈ ds.map TlvData.tag) :
    readTable ds (⟨t, handler, unique⟩ :: rows) s = .ok s' ↔
      ∃ d, element t ds = some d ∧ ∃ s₁, handler d (receive t s) = .ok s₁ ∧
        readTable ds rows s₁ = .ok s' := by
  obtain ⟨d, hd⟩ := exists_element ht
  obtain ⟨-, rfl⟩ := element_some hd
  simp only [readTable, hd, bind_ok_iff, Option.some.injEq, exists_eq_left']

variable {α : Type} {get : TlvData → Option α} {set : α → σ → σ}

/-- A required field. -/
theorem readTable_field (ht : t ∈ ds.map TlvData.tag) :
    readTable ds (⟨t, storing get set, unique⟩ :: rows) s = .ok s' ↔
      ∃ a, field get t ds = some a ∧ readTable ds rows (set a (receive t s)) = .ok s' := by
  rw [readTable_cons ht]
  constructor
  · rintro ⟨d, hd, s₁, hs₁, hrest⟩
    obtain ⟨a, ha, rfl⟩ := storing_ok.mp hs₁
    exact ⟨a, Option.bind_eq_some_iff.mpr ⟨d, hd, ha⟩, hrest⟩
  · rintro ⟨a, hfield, hrest⟩
    obtain ⟨d, hd, ha⟩ := Option.bind_eq_some_iff.mp hfield
    exact ⟨d, hd, _, storing_ok.mpr ⟨a, ha, rfl⟩, hrest⟩

/-- A field that reads. -/
theorem readTable_of_field {a : α} (h : field get t ds = some a)
    (hrest : readTable ds rows (set a (receive t s)) = .ok s') :
    readTable ds (⟨t, storing get set, unique⟩ :: rows) s = .ok s' :=
  (readTable_field (mem_of_field (Option.isSome_iff_exists.mpr ⟨a, h⟩))).mpr ⟨a, h, hrest⟩

/-- An optional field. -/
theorem readTable_optional :
    readTable ds (⟨t, storing get set, unique⟩ :: rows) s = .ok s' ↔
      ∃ o, OptionalField get t ds o ∧
        readTable ds rows (o.elim s fun a => set a (receive t s)) = .ok s' := by
  by_cases ht : t ∈ ds.map TlvData.tag
  · rw [readTable_field ht]
    constructor
    · rintro ⟨a, ha, hrest⟩
      exact ⟨some a, .inr ⟨a, ha, rfl⟩, hrest⟩
    · rintro ⟨o, ⟨hno, -⟩ | ⟨a, ha, rfl⟩, hrest⟩
      · exact absurd ht hno
      · exact ⟨a, ha, hrest⟩
  · have hnone := element_eq_none.mpr ht
    simp only [readTable, hnone]
    constructor
    · intro hrest
      exact ⟨none, .inl ⟨ht, rfl⟩, hrest⟩
    · rintro ⟨o, ⟨-, rfl⟩ | ⟨a, ha, -⟩, hrest⟩
      · exact hrest
      · exact absurd (mem_of_field (Option.isSome_iff_exists.mpr ⟨a, ha⟩)) ht

end

/-! ## 3. What a parser of a record accepts -/

namespace TlvParser

open TlvContext LawfulTlvContext

variable {σ : Type} [TlvContext σ] [LawfulTlvContext σ] {p : TlvParser σ}
  {before : Nat → Nat → Prop} {ds : List TlvData}

/-- A table of unique tags, in which each tag comes after those that must come first. -/
structure RecordTable (p : TlvParser σ) (before : Nat → Nat → Prop) : Prop where
  orderFree : p.OrderFree noRepeats before
  nodup : (p.tags.map TagHandler.tag).Nodup
  inOrder : (p.tags.map TagHandler.tag).Pairwise fun t u => ¬ before u t

namespace RecordTable

/-- A table whose tags may come in any order. -/
theorem of_noFirst (h : p.OrderFree noRepeats noFirst)
    (hnodup : (p.tags.map TagHandler.tag).Nodup) : p.RecordTable noFirst where
  orderFree := h
  nodup := hnodup
  inOrder := List.pairwise_of_forall fun _ _ h => h

/-- The elements in the order of the table are read as the table says. -/
theorem parseElements_inTableOrder (hp : p.RecordTable before) (rows : List (TagHandler σ))
    (hrows : rows.Sublist p.tags) (s : σ) (hs : ∀ row ∈ rows, row.tag ∉ receivedTags s) :
    p.parseElements (inTableOrder (rows.map TagHandler.tag) ds) s = readTable ds rows s := by
  induction rows generalizing s with
  | nil => rfl
  | cons row rows ih =>
    have hmem : row ∈ p.tags := hrows.mem List.mem_cons_self
    have hrest : rows.Sublist p.tags := (List.sublist_cons_self row rows).trans hrows
    have hnodup : ((row :: rows).map TagHandler.tag).Nodup :=
      hp.nodup.sublist (hrows.map TagHandler.tag)
    rw [List.map_cons, List.nodup_cons] at hnodup
    cases he : element row.tag ds with
    | none =>
      have hskip : inTableOrder ((row :: rows).map TagHandler.tag) ds =
          inTableOrder (rows.map TagHandler.tag) ds := List.filterMap_cons_none he
      rw [hskip, ih hrest s fun r hr => hs r (List.mem_cons_of_mem _ hr)]
      simp only [readTable, he]
    | some d =>
      have htake : inTableOrder ((row :: rows).map TagHandler.tag) ds =
          d :: inTableOrder (rows.map TagHandler.tag) ds := List.filterMap_cons_some he
      obtain ⟨-, htag⟩ := element_some he
      have hfind : p.tags.find? (fun r => r.tag == d.tag) = some row := by
        rw [List.find?_eq_some_iff_append]
        obtain ⟨l, r, hsplit⟩ := List.append_of_mem hmem
        refine ⟨by simp [htag], l, r, hsplit, ?_⟩
        intro x hx
        have hdisjoint := hp.nodup
        rw [hsplit, List.map_append, List.map_cons, List.nodup_append] at hdisjoint
        have hne := hdisjoint.2.2 x.tag (List.mem_map_of_mem hx) row.tag List.mem_cons_self
        simpa [htag] using hne
      have hstep : p.step s d = row.handler d (receive d.tag s) := by
        unfold step
        rw [hfind, hp.orderFree.common]
        have hnew : d.tag ∉ receivedTags s := htag ▸ hs row List.mem_cons_self
        simp [hnew, noCommon]
        rfl
      rw [htake]
      simp only [readTable, he, parseElements, hstep]
      cases hh : row.handler d (receive d.tag s) with
      | error e => rfl
      | ok s₁ =>
        refine ih hrest s₁ ?_
        intro r hr
        have hreceived := hp.orderFree.receivedTags_step (hstep.trans hh)
        rw [hreceived, List.mem_cons, not_or, htag]
        refine ⟨?_, hs r (List.mem_cons_of_mem _ hr)⟩
        rintro heq
        exact hnodup.1 (heq ▸ List.mem_map_of_mem hr)

/-- A tag is received when it has an element. -/
theorem mem_receivedTags (hp : p.RecordTable before) {s s' : σ}
    (h : p.parseElements ds s = .ok s') {t : Nat} :
    t ∈ receivedTags s' ↔ t ∈ ds.map TlvData.tag ∨ t ∈ receivedTags s := by
  induction ds generalizing s with
  | nil =>
    cases h
    simp
  | cons d ds ih =>
    obtain ⟨s₁, hstep, hrest⟩ := bind_ok_iff.mp h
    rw [ih hrest, hp.orderFree.receivedTags_step hstep, List.map_cons, List.mem_cons,
      List.mem_cons]
    tauto

/-- No tag of an accepted sequence comes twice. -/
theorem once (hp : p.RecordTable before) {s s' : σ} (h : p.parseElements ds s = .ok s') :
    (ds.map TlvData.tag).Nodup := by
  induction ds generalizing s with
  | nil => exact .nil
  | cons d ds ih =>
    obtain ⟨s₁, hstep, hrest⟩ := bind_ok_iff.mp h
    have hreceived : d.tag ∈ receivedTags s₁ := by
      rw [hp.orderFree.receivedTags_step hstep]
      exact List.mem_cons_self
    refine List.nodup_cons.mpr ⟨?_, ih hrest⟩
    intro hmem
    obtain ⟨x, hx, htag⟩ := List.mem_map.mp hmem
    exact hp.orderFree.not_mem_of_received rfl hrest hreceived x hx htag

/-- What may be accepted ends as the table reads it. -/
theorem parseElements_readTable (hp : p.RecordTable before)
    (hknown : ∀ d ∈ ds, d.tag ∈ p.tags.map TagHandler.tag) (honce : (ds.map TlvData.tag).Nodup)
    (hfirst : InOrder before ds) {s : σ} (hs : receivedTags s = []) :
    AlikeOutcome (p.parseElements ds s).toOption (readTable ds p.tags s).toOption := by
  have hordered : Rearranged (fun d => noRepeats d.tag) (fun d e => before d.tag e.tag) ds
      (inTableOrder (p.tags.map TagHandler.tag) ds) := by
    refine ⟨perm_inTableOrder hknown honce hp.nodup, ?_, hfirst,
      pairwise_inTableOrder hp.inOrder⟩
    simp [noRepeats]
  have halike := hp.orderFree.parseElements hordered s
  rwa [hp.parseElements_inTableOrder p.tags (List.Sublist.refl _) s (by simp [hs])] at halike

variable {α : Type} {view : σ → α} {a : α} {s : σ}

/-- A sequence is accepted when it is one that the table may read, and the table reads it. -/
theorem parseElements_iff (hp : p.RecordTable before)
    (hview : ∀ l s, view (withTags l s) = view s) (hs : receivedTags s = []) :
    (∃ s', p.parseElements ds s = .ok s' ∧ view s' = a) ↔
      ((∀ d ∈ ds, d.tag ∈ p.tags.map TagHandler.tag) ∧ (ds.map TlvData.tag).Nodup ∧
        InOrder before ds) ∧ ∃ s', readTable ds p.tags s = .ok s' ∧ view s' = a := by
  constructor
  · rintro ⟨s', h, hview'⟩
    have hknown : ∀ d ∈ ds, d.tag ∈ p.tags.map TagHandler.tag := by
      intro d hd
      obtain ⟨row, hrow, -⟩ := parseElements_handled h d hd
      have htag : row.tag = d.tag := by simpa using List.find?_some hrow
      exact List.mem_map.mpr ⟨row, List.mem_of_find?_eq_some hrow, htag⟩
    have hfirst := hp.orderFree.inOrder h
    refine ⟨⟨hknown, hp.once h, hfirst⟩, ?_⟩
    have halike := hp.parseElements_readTable hknown (hp.once h) hfirst hs
    rw [h] at halike
    generalize hr : readTable ds p.tags s = r at halike ⊢
    cases r with
    | error e => cases halike
    | ok t =>
      cases halike with
      | some hst => exact ⟨t, rfl, (hst.eq hview).symm.trans hview'⟩
  · rintro ⟨⟨hknown, honce, hfirst⟩, t, ht, hview'⟩
    have halike := hp.parseElements_readTable hknown honce hfirst hs
    rw [ht] at halike
    generalize hr : p.parseElements ds s = r at halike ⊢
    cases r with
    | error e => cases halike
    | ok s' =>
      cases halike with
      | some hst => exact ⟨s', rfl, (hst.eq hview).trans hview'⟩

/-- The acceptance rule: a payload is accepted when its elements are a record, what must come
first does, and the table reads what passes the check. -/
theorem parseVerified_iff (hp : p.RecordTable before) (view : σ → α) (required optional : List Nat)
    (check : α → Prop) {decode : Bytes → Option (List TlvData)} {verify : σ → Except Failure Unit}
    {payload : Bytes} (hview : ∀ l s, view (withTags l s) = view s) (hs : receivedTags s = [])
    (htags : p.tags.map TagHandler.tag = required ++ optional)
    (hverify : ∀ s, verify s = .ok () ↔
      (∀ t ∈ required, t ∈ receivedTags s) ∧ check (view s)) :
    (∃ s', p.parseVerified decode verify payload s = .ok s' ∧ view s' = a) ↔
      ∃ ds, decode payload = some ds ∧ IsRecord required optional ds ∧ InOrder before ds ∧
        check a ∧ ∃ s', readTable ds p.tags s = .ok s' ∧ view s' = a := by
  cases hds : decode payload with
  | none => simp [parseVerified_ok, parse, hds]
  | some ds =>
    have hreceived : ∀ {s'}, p.parseElements ds s = .ok s' → ∀ t,
        t ∈ receivedTags s' ↔ t ∈ ds.map TlvData.tag := by
      intro s' h t
      rw [hp.mem_receivedTags h, hs]
      simp
    simp only [parseVerified_elements hds, hverify, Option.some.injEq, exists_eq_left']
    constructor
    · rintro ⟨s', ⟨h, hrequired, hcheck⟩, rfl⟩
      obtain ⟨⟨hknown, honce, hfirst⟩, hread⟩ := (hp.parseElements_iff hview hs).mp ⟨s', h, rfl⟩
      refine ⟨⟨?_, honce, ?_⟩, hfirst, hcheck, hread⟩
      · intro d hd
        exact htags ▸ hknown d hd
      · intro t ht
        exact (hreceived h t).mp (hrequired t ht)
    · rintro ⟨hrecord, hfirst, hcheck, hread⟩
      have hknown : ∀ d ∈ ds, d.tag ∈ p.tags.map TagHandler.tag := fun d hd =>
        htags ▸ hrecord.known d hd
      obtain ⟨s', h, rfl⟩ := (hp.parseElements_iff hview hs).mpr
        ⟨⟨hknown, hrecord.once, hfirst⟩, hread⟩
      refine ⟨s', ⟨h, ?_, hcheck⟩, rfl⟩
      intro t ht
      exact (hreceived h t).mpr (hrecord.complete t ht)

end RecordTable

end TlvParser

/-! ## 4. Arrays -/

section

variable {α : Type} {n t : Nat} {get : Bytes → Except Failure α} {ds : List TlvData}

/-- Each element reads as one value. -/
theorem ReadAs.unique {b b' : Bounded α n} (h : ReadAs get t ds b) (h' : ReadAs get t ds b') :
    b = b' := by
  refine Bounded.ext ?_
  unfold ReadAs at h h'
  generalize b.elems = as at h
  generalize b'.elems = as' at h'
  generalize occurrences t ds = es at h h'
  induction h generalizing as' with
  | nil =>
    cases h'
    rfl
  | cons ha _ ih =>
    cases h' with
    | cons ha' hrest => rw [Except.ok.inj (ha.symm.trans ha'), ih _ hrest]

open TlvContext TlvParser.ParsesArray in
/-- A payload is accepted as an array when all its elements are of the array's tag, there is one,
and each reads as the array says. -/
theorem TlvParser.ParsesArray.accepts_iff {σ : Type} [TlvContext σ] {p : TlvParser σ}
    {arr : σ → Bounded α n} {set : Bounded α n → σ → σ} (hp : p.ParsesArray t get arr set)
    {decode : Bytes → Option (List TlvData)} {payload : Bytes} {s : σ}
    (hs : HasRead get arr t [] s) {b : Bounded α n} :
    (∃ s', p.parseVerified decode (fun s => requireTags (receivedTags s) [t]) payload s =
        .ok s' ∧ arr s' = b) ↔
      ∃ ds, decode payload = some ds ∧ (∀ d ∈ ds, d.tag = t) ∧ b.elems ≠ [] ∧
        List.Forall₂ (fun d a => get d.value = .ok a) ds b.elems := by
  cases hds : decode payload with
  | none => simp [TlvParser.parseVerified_ok, TlvParser.parse, hds]
  | some ds =>
    obtain ⟨hiff, hread⟩ := hp.parseVerified_iff hds hs
    simp only [Option.some.injEq, exists_eq_left']
    constructor
    · rintro ⟨s', h, rfl⟩
      have harray := hiff.mp ⟨s', h⟩
      have hreadAs := hread s' h
      refine ⟨harray.known, ?_, ?_⟩
      · have hpos := harray.count_pos
        rw [← hreadAs.count] at hpos
        exact List.ne_nil_of_length_pos hpos
      · unfold ReadAs at hreadAs
        rwa [occurrences_eq_self harray.known] at hreadAs
    · rintro ⟨hknown, hne, hforall⟩
      have hreadAs : ReadAs get t ds b := by
        unfold ReadAs
        rwa [occurrences_eq_self hknown]
      have harray : ArrayOf t n (fun v => ∃ a, get v = .ok a) ds :=
        ⟨hreadAs.count ▸ List.length_pos_of_ne_nil hne, hreadAs.count ▸ b.bound,
          hreadAs.readable, hknown⟩
      obtain ⟨s', h⟩ := hiff.mpr harray
      exact ⟨s', h, (hread s' h).unique hreadAs⟩

end

end Lib

/-
# The elements of a payload

A parser reads each field from the element with the field's tag.  `field get tag ds` is that
reading: the first element with the tag, read by `get`.  The rule `parse_elements` is the parser
rule with the elements so far in view, so that a context can be described as a function of the
elements that were read; an element whose tag is handled by `storing get` was readable
(`field_isSome`).

A parser on elements that are known is followed one step at a time (`TlvParser.Reads`).

A decoder that splits a payload one element after the other (`Splits`) leaves no choice in how
bytes are cut into elements, if each element carries the bytes of its tag, its length and its
value: elements with the same bytes, in a row, are the same elements (`raws_inj`).
-/
import Hyperliquid.Lib.Tlv

namespace Lib

/-! ## 1. Reading a field -/

section

variable {α : Type} {get : TlvData → Option α} {t : Nat} {ds : List TlvData} {d : TlvData}

/-- The value of the first element with the tag. -/
def field (get : TlvData → Option α) (t : Nat) (ds : List TlvData) : Option α :=
  (ds.find? fun d => d.tag == t).bind get

/-- One element more, with the tag. -/
theorem field_concat_same (hnew : t ∉ ds.map TlvData.tag) (hd : d.tag = t) :
    field get t (ds ++ [d]) = get d := by
  have hnone : ds.find? (fun d => d.tag == t) = none := by
    rw [List.find?_eq_none]
    intro x hx hxt
    exact hnew (List.mem_map.mpr ⟨x, hx, by simpa using hxt⟩)
  simp [field, List.find?_append, hnone, hd]

/-- One element more, with another tag. -/
theorem field_concat_other (hd : d.tag ≠ t) : field get t (ds ++ [d]) = field get t ds := by
  have hlast : [d].find? (fun d => d.tag == t) = none := by
    simp [hd]
  rw [field, List.find?_append, hlast, Option.or_none]
  rfl

/-- Elements with other tags do not matter. -/
theorem field_filter (get : TlvData → Option α) (ds : List TlvData) {p : TlvData → Bool}
    (h : ∀ d, d.tag = t → p d = true) :
    field get t (ds.filter p) = field get t ds := by
  have hfind : (ds.filter p).find? (fun d => d.tag == t) = ds.find? (fun d => d.tag == t) := by
    rw [List.find?_filter]
    congr 1
    funext d
    by_cases hd : d.tag = t
    · simp [h d hd, hd]
    · simp [hd]
  rw [field, hfind]
  rfl

/-- A field that was read has an element. -/
theorem mem_of_field (h : (field get t ds).isSome) : t ∈ ds.map TlvData.tag := by
  obtain ⟨a, ha⟩ := Option.isSome_iff_exists.mp h
  obtain ⟨d, hd, -⟩ := Option.bind_eq_some_iff.mp ha
  exact List.mem_map.mpr ⟨d, List.mem_of_find?_eq_some hd, by simpa using List.find?_some hd⟩

/-- Where no two elements have a tag in common, each is the one that is read for its tag. -/
theorem field_of_mem (hnodup : (ds.map TlvData.tag).Nodup) (hd : d ∈ ds) (htag : d.tag = t) :
    field get t ds = get d := by
  have hfind : ds.find? (fun d => d.tag == t) = some d := by
    induction ds with
    | nil => cases hd
    | cons e es ih =>
      rw [List.map_cons, List.nodup_cons] at hnodup
      rcases List.mem_cons.mp hd with rfl | hd
      · simp [htag]
      · have hne : e.tag ≠ t := by
          rintro he
          exact hnodup.1 (List.mem_map.mpr ⟨d, hd, htag.trans he.symm⟩)
        rw [List.find?_cons_of_neg (by simpa using hne)]
        exact ih hnodup.2 hd
  rw [field, hfind, Option.bind_some]

/-- A field that may have one value only. -/
theorem field_eq_of_filter [DecidableEq α] {a : α}
    (h : (field (fun d => (get d).filter (· == a)) t ds).isSome) : field get t ds = some a := by
  obtain ⟨b, hb⟩ := Option.isSome_iff_exists.mp h
  obtain ⟨d, hd, hget⟩ := Option.bind_eq_some_iff.mp hb
  obtain ⟨hget, hba⟩ := Option.filter_eq_some_iff.mp hget
  unfold field
  rw [hd, Option.bind_some, hget, beq_iff_eq.mp hba]

end

/-! ## 2. What a parser has read -/

namespace TlvParser

open TlvContext

variable {σ : Type} [TlvContext σ] {p : TlvParser σ}

/-- The parser rule, with the elements read so far. -/
theorem parseElements_elements {P : List TlvData → σ → Prop}
    (hrow : ∀ row ∈ p.tags, ∀ pre d s s₁ s', d.tag = row.tag → P pre s →
      (row.unique = true → row.tag ∉ receivedTags s) →
      p.common d (receive row.tag s) = .ok s₁ → row.handler d s₁ = .ok s' → P (pre ++ [d]) s')
    (ds pre : List TlvData) (s s' : σ) (hs : P pre s) (h : p.parseElements ds s = .ok s') :
    P (pre ++ ds) s' := by
  induction ds generalizing pre s with
  | nil =>
    cases h
    rw [List.append_nil]
    exact hs
  | cons d ds ih =>
    unfold parseElements at h
    obtain ⟨s₁, hstep, hrest⟩ := bind_ok_iff.mp h
    obtain ⟨row, hmem, htag, huniq, s₂, hc, hh⟩ := step_ok hstep
    rw [← htag] at huniq hc
    have hnext : P (pre ++ [d]) s₁ := hrow row hmem pre d s s₂ s₁ htag.symm hs huniq hc hh
    have hall := ih (pre ++ [d]) s₁ hnext hrest
    rwa [List.append_assoc] at hall

theorem parse_elements {decode : Bytes → Option (List TlvData)} {P : List TlvData → σ → Prop}
    {payload : Bytes} {s s' : σ}
    (hrow : ∀ row ∈ p.tags, ∀ pre d s s₁ s', d.tag = row.tag → P pre s →
      (row.unique = true → row.tag ∉ receivedTags s) →
      p.common d (receive row.tag s) = .ok s₁ → row.handler d s₁ = .ok s' → P (pre ++ [d]) s')
    (hs : P [] s) (h : p.parse decode payload s = .ok s') :
    ∃ ds, decode payload = some ds ∧ p.parseElements ds s = .ok s' ∧ P ds s' := by
  unfold parse at h
  split at h
  · cases h
  · rename_i ds hds
    exact ⟨ds, hds, h, parseElements_elements hrow ds [] s s' hs h⟩

/-- The handler of each element's tag succeeded. -/
theorem parseElements_handled {ds : List TlvData} {s s' : σ}
    (h : p.parseElements ds s = .ok s') :
    ∀ d ∈ ds, ∃ row, p.tags.find? (fun row => row.tag == d.tag) = some row ∧
      ∃ s₁ s₂, row.handler d s₁ = .ok s₂ := by
  induction ds generalizing s with
  | nil =>
    intro d hd
    cases hd
  | cons d ds ih =>
    unfold parseElements at h
    obtain ⟨s₁, hstep, hrest⟩ := bind_ok_iff.mp h
    intro x hx
    rcases List.mem_cons.mp hx with rfl | hx
    · unfold step at hstep
      split at hstep
      · cases hstep
      · rename_i row hfind
        split at hstep
        · cases hstep
        · obtain ⟨s₂, -, hh⟩ := bind_ok_iff.mp hstep
          exact ⟨row, hfind, s₂, s₁, hh⟩
    · exact ih hrest x hx

/-- A field that a handler stores was readable, if its element is there. -/
theorem field_isSome {α : Type} {get : TlvData → Option α} {set : α → σ → σ} {t : Nat}
    {unique : Bool} {ds : List TlvData} {s s' : σ} (h : p.parseElements ds s = .ok s')
    (hfind : p.tags.find? (fun row => row.tag == t) = some ⟨t, storing get set, unique⟩)
    (ht : t ∈ ds.map TlvData.tag) : (field get t ds).isSome := by
  obtain ⟨d₀, hd₀, rfl⟩ := List.mem_map.mp ht
  have hsome : (ds.find? fun d => d.tag == d₀.tag).isSome := by
    rw [List.find?_isSome]
    exact ⟨d₀, hd₀, by simp⟩
  obtain ⟨d, hd⟩ := Option.isSome_iff_exists.mp hsome
  have htag : d.tag = d₀.tag := by
    simpa using List.find?_some hd
  obtain ⟨row, hrow, s₁, s₂, hh⟩ := parseElements_handled h d (List.mem_of_find?_eq_some hd)
  rw [htag, hfind] at hrow
  cases hrow
  obtain ⟨a, ha, -⟩ := storing_ok.mp hh
  unfold field
  rw [hd, Option.bind_some, ha]
  rfl

end TlvParser

/-! ## 3. Parsing elements that are known -/

namespace TlvParser

open TlvContext

variable {σ α : Type} [TlvContext σ] {p : TlvParser σ} {s s₁ s₂ : σ} {d : TlvData}
  {ds es : List TlvData} {t : Nat} {unique : Bool}

/-- Known elements, one after the other. -/
def Reads (p : TlvParser σ) (s : σ) (ds : List TlvData) (s' : σ) : Prop :=
  p.parseElements ds s = .ok s'

theorem Reads.nil : Reads p s [] s := rfl

theorem Reads.cons (h : p.step s d = .ok s₁) (hds : Reads p s₁ ds s₂) :
    Reads p s (d :: ds) s₂ := by
  unfold Reads parseElements
  rw [h]
  exact hds

theorem Reads.append (hds : Reads p s ds s₁) (hes : Reads p s₁ es s₂) :
    Reads p s (ds ++ es) s₂ := by
  induction ds generalizing s with
  | nil =>
    cases hds
    exact hes
  | cons d ds ih =>
    obtain ⟨s', hd, hds⟩ := bind_ok_iff.mp hds
    exact .cons hd (ih hds)

/-- A parser that gets over each element, in the state in which the elements before have left it,
gets to the end. -/
theorem Reads.of_step {P : List TlvData → σ → Prop} (pre : List TlvData) (hs : P pre s)
    (hstep : ∀ done d todo s, done ++ d :: todo = pre ++ ds → P done s →
      ∃ s₁, p.step s d = .ok s₁ ∧ P (done ++ [d]) s₁) :
    ∃ s', Reads p s ds s' ∧ P (pre ++ ds) s' := by
  induction ds generalizing pre s with
  | nil => exact ⟨s, .nil, by rwa [List.append_nil]⟩
  | cons d ds ih =>
    obtain ⟨s₁, hd, hs₁⟩ := hstep pre d ds s rfl hs
    have happend : pre ++ [d] ++ ds = pre ++ d :: ds := by
      rw [List.append_assoc, List.singleton_append]
    obtain ⟨s', hds, hs'⟩ := ih (pre ++ [d]) hs₁ (by rwa [happend])
    exact ⟨s', .cons hd hds, by rwa [happend] at hs'⟩

/-- An element that the common handler and its own accept. -/
theorem step_of_handled {row : TagHandler σ}
    (hfind : p.tags.find? (fun row => row.tag == d.tag) = some row)
    (hnew : (row.unique && (receivedTags s).contains d.tag) = false)
    (hc : p.common d (receive d.tag s) = .ok s₁) (hh : row.handler d s₁ = .ok s₂) :
    p.step s d = .ok s₂ := by
  unfold step
  rw [hfind]
  dsimp only
  rw [hnew, hc]
  exact hh

/-- An element whose handler accepts it. -/
theorem step_eq {handler : TlvData → σ → Except Failure σ} (hcommon : p.common = noCommon)
    (hfind : p.tags.find? (fun row => row.tag == d.tag) = some ⟨t, handler, unique⟩)
    (hnew : (unique && (receivedTags s).contains d.tag) = false)
    (hh : handler d (receive d.tag s) = .ok s₁) : p.step s d = .ok s₁ :=
  step_of_handled hfind hnew (by rw [hcommon]; rfl) hh

/-- An element whose value is stored. -/
theorem step_storing {get : TlvData → Option α} {set : α → σ → σ} {a : α}
    (hcommon : p.common = noCommon)
    (hfind : p.tags.find? (fun row => row.tag == d.tag) = some ⟨t, storing get set, unique⟩)
    (hnew : (unique && (receivedTags s).contains d.tag) = false) (ha : get d = some a) :
    p.step s d = .ok (set a (receive d.tag s)) :=
  step_eq hcommon hfind hnew (storing_ok.mpr ⟨a, ha, rfl⟩)

omit [TlvContext σ] in
/-- An element that is pushed, while a slot is free. -/
theorem pushing_eq {n : Nat} {get : Bytes → Except Failure α} {arr : σ → Bounded α n}
    {set : Bounded α n → σ → σ} {a : α} {b : Bounded α n} (ha : get d.value = .ok a)
    (hb : arr s = b) (hlt : b.count < n) :
    pushing get arr set d s = .ok (set (b.push a hlt) s) := by
  subst hb
  unfold pushing
  rw [dif_neg (Nat.not_le_of_lt hlt), ha]
  rfl

/-- The elements of an array, pushed one after the other: `ctx` is the context with an array of
values, each of which stands for the value it is read as. -/
theorem reads_array {β : Type} {n : Nat} {get : Bytes → Except Failure α}
    {set : Bounded α n → σ → σ} {element : β → TlvData} (arr : σ → Bounded α n) (f : β → α)
    (ctx : Bounded β n → σ) (hcommon : p.common = noCommon) (htag : ∀ x, (element x).tag = t)
    (hfind : p.tags.find? (fun row => row.tag == t) = some ⟨t, pushing get arr set, false⟩)
    (hctx : ∀ pre, arr (receive t (ctx pre)) = pre.map f)
    (hset : ∀ pre x hlt, set ((pre.map f).push (f x) hlt) (receive t (ctx pre)) =
      ctx (pre.push x (by simpa [Bounded.count] using hlt)))
    (xs : Bounded β n) (hget : ∀ x ∈ xs.elems, get (element x).value = .ok (f x)) :
    Reads p (ctx .empty) (xs.elems.map element) (ctx xs) := by
  have hpushed : ∀ (post : List β) (pre : Bounded β n), pre.elems ++ post = xs.elems →
      Reads p (ctx pre) (post.map element) (ctx xs) := by
    intro post
    induction post with
    | nil =>
      intro pre hpre
      rw [List.append_nil] at hpre
      rw [Bounded.ext hpre]
      exact .nil
    | cons x post ih =>
      intro pre hpre
      have hlt : pre.count < n := by
        have hbound := xs.bound
        rw [← hpre, List.length_append, List.length_cons] at hbound
        simp only [Bounded.count]
        omega
      have hlt' : (pre.map f).count < n := by
        simpa [Bounded.count] using hlt
      have hstep : p.step (ctx pre) (element x) = .ok (ctx (pre.push x hlt)) := by
        refine step_eq hcommon (htag x ▸ hfind) rfl ?_
        rw [htag, pushing_eq (hget x (by simp [← hpre])) (hctx pre) hlt', hset pre x hlt']
      exact .cons hstep (ih (pre.push x hlt) (by simpa using hpre))
  exact hpushed xs.elems .empty rfl

/-- A payload whose elements are known. -/
theorem parseVerified_reads {decode : Bytes → Option (List TlvData)}
    {verify : σ → Except Failure Unit} {payload : Bytes} (hdecode : decode payload = some ds)
    (hreads : Reads p s ds s₁) (hverify : verify s₁ = .ok ()) :
    p.parseVerified decode verify payload s = .ok s₁ :=
  (parseVerified_elements hdecode).mpr ⟨hreads, hverify⟩

end TlvParser

/-! ## 4. Splitting a payload -/

/-- The decoder takes one element after the other off the payload.  An element is found by its
own bytes, which are those of the whole element, whatever follows. -/
structure Splits (decode : Bytes → Option (List TlvData))
    (next : Bytes → Option (TlvData × Bytes)) : Prop where
  nil : decode [] = some []
  cons : ∀ bytes, bytes ≠ [] → decode bytes =
    (next bytes).bind fun p => (decode p.2).map fun ds => p.1 :: ds
  raw : ∀ bytes d rest, next bytes = some (d, rest) → bytes = d.raw ++ rest ∧ d.raw ≠ []
  alone : ∀ bytes d rest, next bytes = some (d, rest) →
    ∀ rest', next (d.raw ++ rest') = some (d, rest')

/-- An element that its own bytes determine. -/
def Delimited (next : Bytes → Option (TlvData × Bytes)) (d : TlvData) : Prop :=
  d.raw ≠ [] ∧ ∀ rest, next (d.raw ++ rest) = some (d, rest)

namespace Splits

variable {decode : Bytes → Option (List TlvData)} {next : Bytes → Option (TlvData × Bytes)}

/-- The elements of a payload are its bytes, cut in pieces. -/
theorem elements (h : Splits decode next) (payload : Bytes) (ds : List TlvData)
    (hds : decode payload = some ds) :
    payload = ds.flatMap TlvData.raw ∧ ∀ d ∈ ds, Delimited next d := by
  induction hn : payload.length using Nat.strongRecOn generalizing payload ds with
  | ind n ih =>
    by_cases hnil : payload = []
    · rw [hnil, h.nil] at hds
      cases hds
      refine ⟨hnil, fun d hd => ?_⟩
      cases hd
    · rw [h.cons payload hnil] at hds
      obtain ⟨⟨d, rest⟩, hnext, hds⟩ := Option.bind_eq_some_iff.mp hds
      obtain ⟨ds', hds', rfl⟩ := Option.map_eq_some_iff.mp hds
      obtain ⟨hbytes, hraw⟩ := h.raw payload d rest hnext
      have hlt : rest.length < n := by
        have hpos := List.length_pos_of_ne_nil hraw
        rw [← hn, hbytes, List.length_append]
        omega
      obtain ⟨hrest, hmem⟩ := ih rest.length hlt rest ds' hds' rfl
      refine ⟨?_, ?_⟩
      · rw [hbytes, hrest]
        rfl
      · intro x hx
        rcases List.mem_cons.mp hx with rfl | hx
        · exact ⟨hraw, h.alone payload x rest hnext⟩
        · exact hmem x hx

end Splits

/-- Elements with the same bytes are the same elements. -/
theorem raws_inj {next : Bytes → Option (TlvData × Bytes)} {ds es : List TlvData}
    (hds : ∀ d ∈ ds, Delimited next d) (hes : ∀ e ∈ es, Delimited next e)
    (h : ds.flatMap TlvData.raw = es.flatMap TlvData.raw) : ds = es := by
  induction ds generalizing es with
  | nil =>
    cases es with
    | nil => rfl
    | cons e es =>
      have hnil : e.raw = [] := (List.append_eq_nil_iff.mp h.symm).1
      exact absurd hnil (hes e (by simp)).1
  | cons d ds ih =>
    cases es with
    | nil =>
      have hnil : d.raw = [] := (List.append_eq_nil_iff.mp h).1
      exact absurd hnil (hds d (by simp)).1
    | cons e es =>
      have hd := (hds d (by simp)).2 (ds.flatMap TlvData.raw)
      have he := (hes e (by simp)).2 (es.flatMap TlvData.raw)
      have hbytes : d.raw ++ ds.flatMap TlvData.raw = e.raw ++ es.flatMap TlvData.raw := h
      rw [hbytes, he] at hd
      obtain ⟨rfl, hrest⟩ := Prod.mk.inj (Option.some.inj hd)
      rw [ih (fun x hx => hds x (by simp [hx])) (fun x hx => hes x (by simp [hx])) hrest.symm]

end Lib

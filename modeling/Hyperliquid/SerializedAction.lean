/-
# A serialized action determines the action

Serialization writes a stream of items, and the items of a stream can be read back from its
bytes.  What is shown here is that the items of an action determine it: the items of an order,
of a modify request and of a cancel request are self-delimiting, optional parts included, so
the items of an array of them are too, after the element count that precedes them.

The third item of a serialized action is the name of its type, so that no two kinds of action
are serialized alike (`Action.items_inj`).
-/
import Hyperliquid.Action

namespace Hyperliquid

open Lib Lib.Msgpack

/-! ## 1. Pieces -/

/-- What a sequence of writes says. -/
abbrev items (ts : List Token) : List Item := ts.map Token.item

theorem uint32_item_inj {v w : UInt32}
    (h : (Token.uinteger v.toUInt64).item = (Token.uinteger w.toUInt64).item) : v = w := by
  have hn : v.toUInt64.toNat = w.toUInt64.toNat := Int.ofNat_inj.mp (Item.int.inj h)
  rw [UInt32.toNat_toUInt64, UInt32.toNat_toUInt64] at hn
  exact UInt32.toNat_inj.mp hn

theorem uint64_item_inj {v w : UInt64}
    (h : (Token.uinteger v).item = (Token.uinteger w).item) : v = w :=
  UInt64.toNat_inj.mp (Int.ofNat_inj.mp (Item.int.inj h))

theorem int64_item_inj {v w : Int64}
    (h : (Token.integer v).item = (Token.integer w).item) : v = w :=
  Int64.toInt_inj.mp (Item.int.inj h)

theorem str_item_inj {cap : Nat} {s t : CString cap}
    (h : (Token.str s.chars).item = (Token.str t.chars).item) : s = t :=
  CString.ext (Item.str.inj h)

/-! ## 2. Orders -/

namespace OrderRequest

theorem tifText_inj {t u : Tif} (h : tifText t = tifText u) : t = u := by
  revert h
  cases t <;> cases u <;> decide

theorem tpslText_inj {t u : TriggerType} (h : tpslText t = tpslText u) : t = u := by
  revert h
  cases t <;> cases u <;> decide

/-- The arm that was written, and the order type that says so. -/
theorem armMatches_cases {o : OrderRequest} (h : o.ArmMatches) :
    (∃ l, o.orderType = .limit ∧ o.union = .limit l) ∨
    ∃ t, o.orderType = .trigger ∧ o.union = .trigger t := by
  unfold ArmMatches at h
  split at h
  · exact .inl ⟨_, ‹_›, ‹_›⟩
  · exact .inr ⟨_, ‹_›, ‹_›⟩
  · exact h.elim

theorem limitItems_inj {l m : Limit} {r s : List Item}
    (h : items (limitTokens l) ++ r = items (limitTokens m) ++ s) : l = m ∧ r = s := by
  simp only [limitTokens, items, List.map_cons, List.map_nil, List.cons_append, List.nil_append,
    List.cons.injEq, true_and] at h
  obtain ⟨htif, hr⟩ := h
  cases l
  cases m
  cases tifText_inj (Item.str.inj htif)
  exact ⟨rfl, hr⟩

theorem triggerItems_inj {t u : Trigger} {r s : List Item}
    (h : items (triggerTokens t) ++ r = items (triggerTokens u) ++ s) : t = u ∧ r = s := by
  simp only [triggerTokens, items, List.map_cons, List.map_nil, List.cons_append,
    List.nil_append, List.cons.injEq, true_and] at h
  obtain ⟨hmarket, hpx, htpsl, hr⟩ := h
  cases t
  cases u
  cases Item.bool.inj hmarket
  cases str_item_inj hpx
  cases tpslText_inj (Item.str.inj htpsl)
  exact ⟨rfl, hr⟩

/-- The arm is delimited: the name of the order type comes first. -/
theorem armItems_inj {o p : OrderRequest} {r s : List Item} (ho : o.ArmMatches)
    (hp : p.ArmMatches) (h : items o.armTokens ++ r = items p.armTokens ++ s) :
    o.orderType = p.orderType ∧ o.union = p.union ∧ r = s := by
  have hnames : text "limit" ≠ text "trigger" := by decide
  rcases armMatches_cases ho with ⟨l, hot, hou⟩ | ⟨t, hot, hou⟩ <;>
  rcases armMatches_cases hp with ⟨m, hpt, hpu⟩ | ⟨u, hpt, hpu⟩ <;>
  simp only [armTokens, hot, hpt, limit, trigger, hou, hpu] at h
  · obtain ⟨rfl, hr⟩ := limitItems_inj h
    exact ⟨hot.trans hpt.symm, hou.trans hpu.symm, hr⟩
  · exact absurd (Item.str.inj (List.cons.inj h).1) hnames
  · exact absurd (Item.str.inj (List.cons.inj h).1).symm hnames
  · obtain ⟨rfl, hr⟩ := triggerItems_inj h
    exact ⟨hot.trans hpt.symm, hou.trans hpu.symm, hr⟩

/-- The client order id is delimited, if it is known whether there is one. -/
theorem cloidItems_inj {c d : Option (CString (cloidHexStringLength - 1))} {r s : List Item}
    (hsome : c.isSome = d.isSome) (h : items (cloidTokens c) ++ r = items (cloidTokens d) ++ s) :
    c = d ∧ r = s := by
  cases c with
  | none =>
    cases d with
    | none => exact ⟨rfl, h⟩
    | some d => cases hsome
  | some c =>
    cases d with
    | none => cases hsome
    | some d =>
      obtain ⟨hc, hr⟩ : c.chars = d.chars ∧ r = s := by
        simpa [cloidTokens, Token.item] using h
      exact ⟨congrArg some (CString.ext hc), hr⟩

/-- The items of an order are self-delimiting. -/
theorem items_selfDelimiting : SelfDelimiting ArmMatches fun o => items o.tokens := by
  intro o p r s ho hp h
  simp only [tokens, items, List.map_append, List.map_cons, List.cons_append, List.nil_append,
    List.append_assoc, List.cons.injEq, true_and] at h
  obtain ⟨hmap, hasset, hbuy, hpx, hsz, hro, hrest⟩ := h
  obtain ⟨hty, hun, hrest⟩ := armItems_inj ho hp hrest
  have hsome : o.cloid.isSome = p.cloid.isSome := by
    revert hmap
    cases o.cloid.isSome <;> cases p.cloid.isSome <;> decide
  obtain ⟨hcloid, hr⟩ := cloidItems_inj hsome hrest
  refine ⟨?_, hr⟩
  obtain ⟨asset, isBuy, limitPx, sz, reduceOnly, orderType, union, cloid⟩ := o
  obtain ⟨asset', isBuy', limitPx', sz', reduceOnly', orderType', union', cloid'⟩ := p
  cases uint32_item_inj hasset
  cases Item.bool.inj hbuy
  cases str_item_inj hpx
  cases str_item_inj hsz
  cases Item.bool.inj hro
  cases hty
  cases hun
  cases hcloid
  rfl

end OrderRequest

/-! ## 3. Arrays -/

/-- The items of an array are delimited, if those of its elements are: the count comes first. -/
theorem arrayItems_inj {α : Type} {n : Nat} {P : α → Prop} {f : α → List Token} {key : Bytes}
    {xs ys : Bounded α n} {r s : List Item} (hn : n < 2 ^ 32)
    (hf : SelfDelimiting P fun x => items (f x)) (hx : ∀ x ∈ xs.elems, P x)
    (hy : ∀ y ∈ ys.elems, P y)
    (h : items (arrayTokens key f xs) ++ r = items (arrayTokens key f ys) ++ s) :
    xs = ys ∧ r = s := by
  simp only [arrayTokens, items, List.map_cons, List.cons_append, List.nil_append,
    List.cons.injEq, true_and, List.map_flatMap] at h
  obtain ⟨hcount, hrest⟩ := h
  have hlength : xs.elems.length = ys.elems.length := by
    have hc : (UInt32.ofNat xs.count).toNat = (UInt32.ofNat ys.count).toNat :=
      Item.array.inj hcount
    have hxs := Nat.mod_eq_of_lt (xs.bound.trans_lt hn)
    have hys := Nat.mod_eq_of_lt (ys.bound.trans_lt hn)
    rwa [UInt32.toNat_ofNat', UInt32.toNat_ofNat', Bounded.count, Bounded.count, hxs, hys] at hc
  obtain ⟨helems, hr⟩ := hf.flatMap _ _ _ _ hlength hx hy hrest
  exact ⟨Bounded.ext helems, hr⟩

theorem ModifyRequest.items_selfDelimiting :
    SelfDelimiting (fun m : ModifyRequest => m.order.ArmMatches) fun m => items m.tokens := by
  intro m n r s hm hn h
  simp only [tokens, items, List.map_cons, List.cons_append, List.nil_append, List.cons.injEq,
    true_and] at h
  obtain ⟨hoid, hrest⟩ := h
  obtain ⟨horder, hr⟩ := OrderRequest.items_selfDelimiting _ _ _ _ hm hn hrest
  cases m
  cases n
  cases uint64_item_inj hoid
  cases horder
  exact ⟨rfl, hr⟩

theorem CancelRequest.items_selfDelimiting :
    SelfDelimiting (fun _ : CancelRequest => True) fun c => items c.tokens := by
  intro c d r s _ _ h
  simp only [tokens, items, List.map_cons, List.map_nil, List.cons_append, List.nil_append,
    List.cons.injEq, true_and] at h
  obtain ⟨hasset, hoid, hr⟩ := h
  cases c
  cases d
  cases uint32_item_inj hasset
  cases uint64_item_inj hoid
  exact ⟨rfl, hr⟩

/-! ## 4. The kinds of action -/

namespace BulkOrder

theorem groupingText_inj {g k : Grouping} (h : groupingText g = groupingText k) : g = k := by
  revert h
  cases g <;> cases k <;> decide

theorem builderAddrStr_eq (a : Address) :
    builderAddrStr a = text "0x" ++ lowercaseHex a.toList := by
  unfold builderAddrStr bytesToLowercaseHex
  rw [dif_neg (by rw [Vector.length_toList]; decide)]

/-- The text of an address determines it. -/
theorem builderAddrStr_inj {a b : Address} (h : builderAddrStr a = builderAddrStr b) : a = b := by
  rw [builderAddrStr_eq, builderAddrStr_eq] at h
  exact Vector.toList_inj.mp (lowercaseHex_inj (List.append_cancel_left h))

/-- The builder, if it is known whether there is one. -/
theorem builderItems_inj {b c : Option BuilderInfo} (hsome : b.isSome = c.isSome)
    (h : items (builderTokens b) = items (builderTokens c)) : b = c := by
  cases b with
  | none =>
    cases c with
    | none => rfl
    | some c => cases hsome
  | some b =>
    cases c with
    | none => cases hsome
    | some c =>
      simp only [builderTokens, BuilderInfo.tokens, items, List.map_cons, List.map_nil,
        List.cons.injEq, true_and, and_true] at h
      obtain ⟨haddr, hfee⟩ := h
      cases b
      cases c
      cases builderAddrStr_inj (Item.str.inj haddr)
      cases uint64_item_inj hfee
      rfl

theorem items_inj {b c : BulkOrder} (hb : ∀ o ∈ b.orders.elems, o.ArmMatches)
    (hc : ∀ o ∈ c.orders.elems, o.ArmMatches) (h : items b.tokens = items c.tokens) : b = c := by
  simp only [tokens, items, List.map_append, List.map_cons, List.cons_append, List.nil_append,
    List.cons.injEq, true_and] at h
  obtain ⟨hmap, hrest⟩ := h
  obtain ⟨horders, hrest⟩ :=
    arrayItems_inj (by decide) OrderRequest.items_selfDelimiting hb hc hrest
  simp only [List.cons.injEq, true_and] at hrest
  obtain ⟨hgrouping, hbuilder⟩ := hrest
  have hsome : b.builder.isSome = c.builder.isSome := by
    revert hmap
    cases b.builder.isSome <;> cases c.builder.isSome <;> decide
  have hbuilders := builderItems_inj hsome hbuilder
  cases b
  cases c
  cases horders
  cases groupingText_inj (Item.str.inj hgrouping)
  cases hbuilders
  rfl

end BulkOrder

theorem BulkModify.items_inj {b c : BulkModify} (hb : ∀ m ∈ b.modifies.elems, m.order.ArmMatches)
    (hc : ∀ m ∈ c.modifies.elems, m.order.ArmMatches) (h : items b.tokens = items c.tokens) :
    b = c := by
  simp only [tokens, items, List.map_cons, List.cons_append, List.nil_append, List.cons.injEq,
    true_and] at h
  obtain ⟨hmodifies, -⟩ := arrayItems_inj (r := []) (s := []) (by decide)
    ModifyRequest.items_selfDelimiting hb hc (congrArg (· ++ []) h)
  cases b
  cases c
  cases hmodifies
  rfl

theorem BulkCancel.items_inj {b c : BulkCancel} (h : items b.tokens = items c.tokens) :
    b = c := by
  simp only [tokens, items, List.map_cons, List.cons_append, List.nil_append, List.cons.injEq,
    true_and] at h
  obtain ⟨hcancels, -⟩ := arrayItems_inj (r := []) (s := []) (by decide)
    CancelRequest.items_selfDelimiting (fun _ _ => trivial) (fun _ _ => trivial)
    (congrArg (· ++ []) h)
  cases b
  cases c
  cases hcancels
  rfl

theorem UpdateLeverage.items_inj {u v : UpdateLeverage} (h : items u.tokens = items v.tokens) :
    u = v := by
  simp only [tokens, items, List.map_cons, List.map_nil, List.cons.injEq, true_and, and_true] at h
  obtain ⟨hasset, hcross, hleverage⟩ := h
  cases u
  cases v
  cases uint32_item_inj hasset
  cases Item.bool.inj hcross
  cases uint32_item_inj hleverage
  rfl

theorem UpdateIsolatedMargin.items_inj {u v : UpdateIsolatedMargin}
    (h : items u.tokens = items v.tokens) : u = v := by
  simp only [tokens, items, List.map_cons, List.map_nil, List.cons.injEq, true_and, and_true] at h
  obtain ⟨hasset, hbuy, hntli⟩ := h
  cases u
  cases v
  cases uint32_item_inj hasset
  cases Item.bool.inj hbuy
  cases int64_item_inj hntli
  rfl

/-! ## 5. Actions -/

theorem ActionType.serializedName_inj {t u : ActionType} (ht : t.serializedName ≠ none)
    (h : t.serializedName = u.serializedName) : t = u := by
  revert ht h
  cases t <;> cases u <;> decide

/-- The third item is the name of the type. -/
theorem Action.items_name (a : Action) :
    (items a.tokens)[2]? = a.type.serializedName.map Item.str := by
  unfold Action.tokens ActionType.serializedName
  cases a.type <;> rfl

/-- The items of a serialized action determine its type and its contents. -/
theorem Action.items_inj {a b : Action} (ha : a.WellFormed) (hb : b.WellFormed)
    (hs : a.type.serializedName ≠ none) (h : items a.tokens = items b.tokens) :
    a.type = b.type ∧ a.union = b.union := by
  have hty : a.type = b.type := by
    refine ActionType.serializedName_inj hs (Option.map_injective (fun _ _ => Item.str.inj) ?_)
    rw [← Action.items_name, ← Action.items_name, h]
  refine ⟨hty, ?_⟩
  obtain ⟨type, nonce, union⟩ := a
  obtain ⟨type', nonce', union'⟩ := b
  obtain rfl : union.type = type := ha.arm
  obtain rfl : union'.type = type' := hb.arm
  cases union with
  | bulkOrder x =>
    cases union' with
    | bulkOrder y =>
      exact congrArg ActionUnion.bulkOrder (BulkOrder.items_inj ha.orderArms hb.orderArms h)
    | _ => cases hty
  | bulkModify x =>
    cases union' with
    | bulkModify y =>
      exact congrArg ActionUnion.bulkModify (BulkModify.items_inj
        (List.forall_mem_map.mp ha.orderArms) (List.forall_mem_map.mp hb.orderArms) h)
    | _ => cases hty
  | bulkCancel x =>
    cases union' with
    | bulkCancel y => exact congrArg ActionUnion.bulkCancel (BulkCancel.items_inj h)
    | _ => cases hty
  | updateLeverage x =>
    cases union' with
    | updateLeverage y => exact congrArg ActionUnion.updateLeverage (UpdateLeverage.items_inj h)
    | _ => cases hty
  | updateIsolatedMargin x =>
    cases union' with
    | updateIsolatedMargin y =>
      exact congrArg ActionUnion.updateIsolatedMargin (UpdateIsolatedMargin.items_inj h)
    | _ => cases hty
  | approveBuilderFee x => exact absurd rfl hs
  | userSetAbstraction x => exact absurd rfl hs

/-! ## 6. The format's limits -/

theorem fits_chars {cap : Nat} (s : CString cap) (h : cap < 2 ^ 32) :
    (Token.str s.chars).Fits := s.fits.trans_lt h

theorem fits_array {α : Type} {n : Nat} {f : α → List Token} {key : Bytes} {xs : Bounded α n}
    (hkey : (Token.str key).Fits) (hf : ∀ x, ∀ t ∈ f x, t.Fits) :
    ∀ t ∈ arrayTokens key f xs, t.Fits := by
  unfold arrayTokens
  simp only [List.forall_mem_append, List.forall_mem_cons, List.forall_mem_flatMap]
  exact ⟨⟨hkey, trivial, by simp⟩, fun x _ => hf x⟩

theorem OrderRequest.tokens_fit (o : OrderRequest) : ∀ t ∈ o.tokens, t.Fits := by
  have harm : ∀ t ∈ o.armTokens, t.Fits := by
    unfold armTokens
    cases o.orderType with
    | limit =>
      cases h : o.limit.tif <;> simp only [limitTokens, h, tifText] <;> decide
    | trigger =>
      have hpx := fits_chars o.trigger.triggerPx (by decide)
      cases h : o.trigger.tpsl <;>
      simp only [triggerTokens, h, tpslText, List.forall_mem_cons, hpx] <;>
      and_intros <;> trivial
  have hcloid : ∀ t ∈ cloidTokens o.cloid, t.Fits := by
    cases o.cloid with
    | none => simp [cloidTokens]
    | some c =>
      have hc := fits_chars c (by decide)
      simp only [cloidTokens, List.forall_mem_cons, hc]
      decide
  have hpx := fits_chars o.limitPx (by decide)
  have hsz := fits_chars o.sz (by decide)
  unfold tokens
  simp only [List.forall_mem_append, List.forall_mem_cons, hpx, hsz]
  and_intros <;> trivial

theorem BulkOrder.tokens_fit (b : BulkOrder) : ∀ t ∈ b.tokens, t.Fits := by
  have horders : ∀ t ∈ arrayTokens (text "orders") OrderRequest.tokens b.orders, t.Fits :=
    fits_array (by decide) OrderRequest.tokens_fit
  have hbuilder : ∀ t ∈ builderTokens b.builder, t.Fits := by
    cases b.builder with
    | none => simp [builderTokens]
    | some i =>
      have haddr : (Token.str (builderAddrStr i.builder)).Fits := by
        show (builderAddrStr i.builder).length < 2 ^ 32
        rw [builderAddrStr_eq, List.length_append, length_lowercaseHex, Vector.length_toList]
        decide
      simp only [builderTokens, BuilderInfo.tokens, List.forall_mem_cons, haddr]
      and_intros <;> trivial
  unfold tokens
  simp only [List.forall_mem_append, List.forall_mem_cons]
  cases b.grouping <;> and_intros <;> trivial

/-- The items are within the format's limits: the strings are short. -/
theorem Action.tokens_fit (a : Action) : ∀ t ∈ a.tokens, t.Fits := by
  have harray {α : Type} {n : Nat} {f : α → List Token} {name key : Bytes} {xs : Bounded α n}
      (hname : (Token.str name).Fits) (hkey : (Token.str key).Fits) (hf : ∀ x, ∀ t ∈ f x, t.Fits) :
      ∀ t ∈ [.map 2, .str (text "type"), .str name] ++ arrayTokens key f xs, t.Fits := by
    simp only [List.forall_mem_append, List.forall_mem_cons]
    exact ⟨⟨trivial, by decide, hname, by simp⟩, fits_array hkey hf⟩
  unfold tokens
  cases a.type with
  | bulkOrder => exact a.bulkOrder.tokens_fit
  | bulkModify =>
    refine harray (by decide) (by decide) fun m => ?_
    have horder := m.order.tokens_fit
    unfold ModifyRequest.tokens
    simp only [List.forall_mem_append, List.forall_mem_cons]
    and_intros <;> trivial
  | bulkCancel =>
    refine harray (by decide) (by decide) fun c => ?_
    simp only [CancelRequest.tokens, List.forall_mem_cons]
    and_intros <;> trivial
  | updateLeverage =>
    simp only [UpdateLeverage.tokens, List.forall_mem_cons]
    and_intros <;> trivial
  | updateIsolatedMargin =>
    simp only [UpdateIsolatedMargin.tokens, List.forall_mem_cons]
    and_intros <;> trivial
  | approveBuilderFee => simp
  | userSetAbstraction => simp

/-- Serialized into equal bytes, by a library that writes standard MessagePack, two actions have
the same type and the same contents. -/
theorem Action.encode_inj {w : Writer} (hw : w.Standard) {a b : Action} (ha : a.WellFormed)
    (hb : b.WellFormed) (hs : a.type.serializedName ≠ none)
    (h : w.encode a.tokens = w.encode b.tokens) : a.type = b.type ∧ a.union = b.union :=
  Action.items_inj ha hb hs (hw.items_of_encode a.tokens_fit b.tokens_fit h)

end Hyperliquid

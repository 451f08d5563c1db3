/-
# The canonical spelling of an action

The fields of a payload may stand in many orders, and its numbers and lengths may be written in
more bytes than they take: many payloads spell one action.  The client has one spelling for each
action, and no action that the application stores is out of its reach: where the numeric strings
are printable, a payload that `parse_action` accepts spells the action of exactly one value that
the specification allows, and what the client sends for that value does the same
(`accepted_payload_canonical`).
-/
import Hyperliquid.Grammar

namespace Hyperliquid

open Lib Lib.Msgpack

/-! ## 1. The numeric strings of an action -/

def OrderRequest.numericStrings (o : OrderRequest) : List (CString numericStringLength) :=
  match o.union with
  | .limit _ => [o.limitPx, o.sz]
  | .trigger t => [o.limitPx, o.sz, t.triggerPx]

def Action.numericStrings (a : Action) : List (CString numericStringLength) :=
  match a.union with
  | .bulkOrder b => b.orders.elems.flatMap OrderRequest.numericStrings
  | .bulkModify b => b.modifies.elems.flatMap fun m => m.order.numericStrings
  | .approveBuilderFee f => [f.maxFeeRate]
  | _ => []

namespace Client

open Grammar

/-- The characters of the numeric strings are printable, and no string is empty. -/
def Printable (ss : List (CString numericStringLength)) : Prop := ∀ s ∈ ss, Numeric s

/-! ## 2. One value at most -/

theorem cloidText_injective : Function.Injective cloidText := by
  intro c c' h
  have hchars : text "0x" ++ lowercaseHex c.toList = text "0x" ++ lowercaseHex c'.toList :=
    congrArg CString.chars h
  exact Vector.toList_inj.mp (lowercaseHex_inj (List.append_cancel_left hchars))

theorem Order.sent_injective : Function.Injective Order.sent := by
  intro o o' h
  obtain ⟨type, asset, isBuy, px, sz, reduceOnly, union, cloid⟩ := o
  obtain ⟨type', asset', isBuy', px', sz', reduceOnly', union', cloid'⟩ := o'
  simp only [Order.sent, OrderRequest.mk.injEq] at h
  obtain ⟨rfl, rfl, rfl, rfl, rfl, rfl, rfl, hcloid⟩ := h
  obtain rfl : cloid = cloid' := Option.map_injective cloidText_injective hcloid
  rfl

theorem Modify.sent_injective : Function.Injective Modify.sent := by
  intro m m' h
  obtain ⟨order, oid⟩ := m
  obtain ⟨order', oid'⟩ := m'
  simp only [Modify.sent, ModifyRequest.mk.injEq] at h
  obtain ⟨rfl, horder⟩ := h
  rw [Order.sent_injective horder]

theorem map_injective {α β : Type} {n : Nat} {f : α → β} (hf : Function.Injective f) :
    Function.Injective (Bounded.map f : Bounded α n → Bounded β n) := by
  intro b c h
  exact Bounded.ext (List.map_injective_iff.mpr hf (congrArg Bounded.elems h))

theorem Value.sent_injective : Function.Injective Value.sent := by
  intro v v' h
  cases v with
  | bulkOrder orders grouping builder =>
    cases v' with
    | bulkOrder orders' grouping' builder' =>
      simp only [Value.sent, ActionUnion.bulkOrder.injEq, BulkOrder.mk.injEq] at h
      obtain ⟨horders, rfl, rfl⟩ := h
      rw [map_injective Order.sent_injective horders]
    | _ => cases h
  | bulkModify modifies =>
    cases v' with
    | bulkModify modifies' =>
      simp only [Value.sent, ActionUnion.bulkModify.injEq, BulkModify.mk.injEq] at h
      rw [map_injective Modify.sent_injective h]
    | _ => cases h
  | _ =>
    cases v' <;> cases h
    rfl

theorem SetAction.sent_injective : Function.Injective SetAction.sent := by
  intro s s' h
  obtain ⟨nonce, action⟩ := s
  obtain ⟨nonce', action'⟩ := s'
  simp only [SetAction.sent, Action.mk.injEq] at h
  obtain ⟨-, rfl, haction⟩ := h
  rw [Value.sent_injective haction]

/-! ## 3. One value at least -/

/-- Elements that all come from somewhere come from an array. -/
theorem exists_map {α β γ : Type} {n : Nat} {f : α → β} {P : α → Prop} {R : γ → β → Prop}
    {ds : List γ} (b : Bounded β n) (h : List.Forall₂ R ds b.elems)
    (hR : ∀ d, ∀ y ∈ b.elems, R d y → ∃ x, f x = y ∧ P x) :
    ∃ c : Bounded α n, c.map f = b ∧ ∀ x ∈ c.elems, P x := by
  have hlist : ∀ {ds : List γ} {ys : List β}, List.Forall₂ R ds ys →
      (∀ d, ∀ y ∈ ys, R d y → ∃ x, f x = y ∧ P x) →
      ∃ xs : List α, xs.map f = ys ∧ ∀ x ∈ xs, P x := by
    intro ds ys h
    induction h with
    | nil =>
      intro _
      exact ⟨[], rfl, by simp⟩
    | cons hd _ ih =>
      intro hR
      obtain ⟨x, rfl, hx⟩ := hR _ _ (by simp) hd
      obtain ⟨xs, rfl, hxs⟩ := ih fun d y hy => hR d y (List.mem_cons_of_mem _ hy)
      exact ⟨x :: xs, rfl, List.forall_mem_cons.mpr ⟨hx, hxs⟩⟩
  obtain ⟨xs, hmap, hxs⟩ := hlist h hR
  have hbound : xs.length ≤ n := by
    rw [← List.length_map f, hmap]
    exact b.bound
  exact ⟨⟨xs, hbound⟩, Bounded.ext hmap, hxs⟩

/-- A nonempty image is the image of something. -/
theorem nonempty_of_map {α β : Type} {n : Nat} {f : α → β} {c : Bounded α n} {b : Bounded β n}
    (h : c.map f = b) (hb : b.elems ≠ []) : c.elems ≠ [] := by
  intro hc
  rw [← h, Bounded.elems_map, hc] at hb
  exact hb rfl

section

variable {sdk : Sdk} {asset : UInt32} {ds : List TlvData}

/-- The text of a client order id is that of sixteen bytes. -/
theorem exists_cloid {value : Bytes} {cloid : CString (cloidHexStringLength - 1)}
    (h : OrderRequest.cloidOfBytes value = some cloid) : ∃ c, cloidText c = cloid := by
  have hlength : value.length = cloidBitLength / 8 := by
    by_contra hne
    unfold OrderRequest.cloidOfBytes at h
    rw [if_pos (by simpa using hne)] at h
    cases h
  let c : Vector UInt8 (cloidBitLength / 8) := ⟨value.toArray, by simpa using hlength⟩
  have hc : OrderRequest.cloidOfBytes value = some (cloidText c) := cloidOfBytes_toList c
  exact ⟨c, Option.some.inj (hc.symm.trans h)⟩

/-- The inner order is of the type of the order. -/
theorem armMatches_of_isInner {orderType : OrderType} {union : OrderUnion} {payload : Bytes}
    (h : IsInner sdk orderType union payload) {o : OrderRequest} (htype : o.orderType = orderType)
    (hunion : o.union = union) : o.ArmMatches := by
  unfold OrderRequest.ArmMatches
  rw [htype, hunion]
  cases orderType <;> cases union <;> trivial

theorem exists_order {o : OrderRequest} (h : IsOrder sdk asset o ds)
    (hnum : Printable o.numericStrings) : ∃ c : Order, c.sent = o ∧ c.Allowed asset := by
  have hcloid : ∃ c : Option (Vector UInt8 (cloidBitLength / 8)), c.map cloidText = o.cloid := by
    rcases h.cloid with ⟨-, hnone⟩ | ⟨text, htext, hsome⟩
    · exact ⟨none, hnone.symm⟩
    · obtain ⟨d, -, hd⟩ := Option.bind_eq_some_iff.mp htext
      obtain ⟨c, hc⟩ := exists_cloid hd
      exact ⟨some c, by rw [hsome, Option.map_some, hc]⟩
  obtain ⟨cloid, hcloid⟩ := hcloid
  obtain ⟨d, -, hinner⟩ := h.order
  have harm := armMatches_of_isInner hinner rfl rfl
  have hpx : Numeric o.limitPx := hnum _ (by unfold OrderRequest.numericStrings; split <;> simp)
  have hsz : Numeric o.sz := hnum _ (by unfold OrderRequest.numericStrings; split <;> simp)
  have htrigger : ∀ t, o.union = .trigger t → Numeric t.triggerPx := by
    intro t ht
    refine hnum _ ?_
    unfold OrderRequest.numericStrings
    rw [ht]
    simp
  let c : Order := ⟨o.orderType, o.asset, o.isBuy, o.limitPx, o.sz, o.reduceOnly, o.union, cloid⟩
  have hsent : c.sent = o := by
    show OrderRequest.mk _ _ _ _ _ _ _ (cloid.map cloidText) = o
    rw [hcloid]
  exact ⟨c, hsent, h.sameAsset, by rw [hsent]; exact harm, hpx, hsz, htrigger⟩

theorem exists_modify {m : ModifyRequest} (h : IsModify sdk asset m ds)
    (hnum : Printable m.order.numericStrings) :
    ∃ c : Modify, c.sent = m ∧ c.order.Allowed asset := by
  obtain ⟨d, -, ds', -, horder⟩ := h.order
  obtain ⟨c, hsent, hc⟩ := exists_order horder hnum
  exact ⟨⟨c, m.oid⟩, by rw [Modify.sent, hsent], hc⟩

/-- The orders of an array are the orders of values. -/
theorem exists_orders {b : Bounded OrderRequest bulkMaxSize} (hne : b.elems ≠ [])
    (h : List.Forall₂ (fun d o => Elements sdk (IsOrder sdk asset o) d.value) ds b.elems)
    (hnum : Printable (b.elems.flatMap OrderRequest.numericStrings)) :
    ∃ c : Bounded Order bulkMaxSize, c.map Order.sent = b ∧ c.elems ≠ [] ∧
      ∀ o ∈ c.elems, o.Allowed asset := by
  obtain ⟨c, hmap, hc⟩ := exists_map (f := Order.sent) b h <| by
    rintro d o ho ⟨ds', -, horder⟩
    exact exists_order horder fun s hs => hnum s (List.mem_flatMap.mpr ⟨o, ho, hs⟩)
  exact ⟨c, hmap, nonempty_of_map hmap hne, hc⟩

/-- The same for modify requests. -/
theorem exists_modifies {b : Bounded ModifyRequest bulkMaxSize} (hne : b.elems ≠ [])
    (h : List.Forall₂ (fun d m => Elements sdk (IsModify sdk asset m) d.value) ds b.elems)
    (hnum : Printable (b.elems.flatMap fun m => m.order.numericStrings)) :
    ∃ c : Bounded Modify bulkMaxSize, c.map Modify.sent = b ∧ c.elems ≠ [] ∧
      ∀ m ∈ c.elems, m.order.Allowed asset := by
  obtain ⟨c, hmap, hc⟩ := exists_map (f := Modify.sent) b h <| by
    rintro d m hm ⟨ds', -, hmodify⟩
    exact exists_modify hmodify fun s hs => hnum s (List.mem_flatMap.mpr ⟨m, hm, hs⟩)
  exact ⟨c, hmap, nonempty_of_map hmap hne, hc⟩

/-- What a payload spells is what some value becomes, if its numeric strings are printable. -/
theorem exists_value {a : Action} {payload : Bytes}
    (h : IsUnion sdk asset a.type a.union payload) (hnum : Printable a.numericStrings) :
    ∃ v : Value, v.type = a.type ∧ v.sent = a.union ∧ v.Allowed asset := by
  obtain ⟨type, nonce, union⟩ := a
  obtain ⟨htype, h⟩ := h
  dsimp only at htype
  subst htype
  cases union with
  | bulkOrder b =>
    obtain ⟨ds, -, hbulk⟩ := h
    obtain ⟨orders, hmap, horders⟩ := exists_orders hbulk.nonempty hbulk.orders hnum
    exact ⟨.bulkOrder orders b.grouping b.builder, rfl, by rw [Value.sent, hmap], horders⟩
  | bulkModify b =>
    obtain ⟨ds, -, hbulk⟩ := h
    obtain ⟨modifies, hmap, hmodifies⟩ := exists_modifies hbulk.nonempty hbulk.modifies hnum
    exact ⟨.bulkModify modifies, rfl, by rw [Value.sent, hmap], hmodifies⟩
  | bulkCancel b =>
    obtain ⟨ds, -, hbulk⟩ := h
    obtain ⟨cancels, hmap, hcancels⟩ := exists_map (f := id) (P := fun c => c.asset = asset)
      b.cancels hbulk.cancels <| by
        rintro d c - ⟨ds', -, hcancel⟩
        exact ⟨c, rfl, hcancel.sameAsset⟩
    obtain rfl : cancels = b.cancels := by
      rw [← hmap]
      exact Bounded.ext (List.map_id _).symm
    exact ⟨.bulkCancel b.cancels, rfl, rfl, hbulk.nonempty, hcancels⟩
  | updateLeverage u =>
    obtain ⟨ds, -, hu⟩ := h
    exact ⟨.updateLeverage u, rfl, rfl, hu.sameAsset⟩
  | approveBuilderFee f =>
    have hrate : Numeric f.maxFeeRate := hnum _ (by simp [Action.numericStrings])
    exact ⟨.approveBuilderFee f, rfl, rfl, hrate⟩
  | updateIsolatedMargin u =>
    obtain ⟨ds, -, hu⟩ := h
    exact ⟨.updateIsolatedMargin u, rfl, rfl, hu.sameAsset⟩
  | userSetAbstraction u =>
    obtain ⟨ds, -, hu⟩ := h
    exact ⟨.userSetAbstraction u, rfl, rfl, hu.known⟩

end

/-! ## 4. Only printable strings -/

theorem Order.Allowed.printable {asset : UInt32} {o : Order} (h : o.Allowed asset) :
    Printable o.sent.numericStrings := by
  intro s hs
  cases hunion : o.order with
  | limit l =>
    simp only [OrderRequest.numericStrings, Order.sent, hunion, List.mem_cons, List.not_mem_nil,
      or_false] at hs
    rcases hs with rfl | rfl
    · exact h.limitPx
    · exact h.sz
  | trigger t =>
    simp only [OrderRequest.numericStrings, Order.sent, hunion, List.mem_cons, List.not_mem_nil,
      or_false] at hs
    rcases hs with rfl | rfl | rfl
    · exact h.limitPx
    · exact h.sz
    · exact h.triggerPx t hunion

/-- The numeric strings of a value that the specification allows are printable. -/
theorem printable_of_allowed {asset : UInt32} {s : SetAction} (h : s.action.Allowed asset) :
    Printable s.sent.numericStrings := by
  obtain ⟨nonce, v⟩ := s
  intro t ht
  cases v with
  | bulkOrder orders grouping builder =>
    obtain ⟨o, ho, ht⟩ := List.mem_flatMap.mp ht
    obtain ⟨c, hc, rfl⟩ := List.mem_map.mp ho
    exact (h.2 c hc).printable t ht
  | bulkModify modifies =>
    obtain ⟨m, hm, ht⟩ := List.mem_flatMap.mp ht
    obtain ⟨c, hc, rfl⟩ := List.mem_map.mp hm
    exact (h.2 c hc).printable t ht
  | approveBuilderFee f =>
    obtain rfl := List.mem_singleton.mp ht
    exact h
  | _ => cases ht

/-! ## 5. The canonical payload -/

section

variable {sdk : Sdk} {ctx ctx' ctx'' : HlContext} {m : ActionMetadata} {a : Action}

/-- What a value is stored as, a context that takes it stores. -/
theorem parseAction_of_sent (h : Understands sdk) (hm : ctx.metadata = some m)
    (htakes : Takes ctx m a) {s : SetAction} (hs : s.action.Allowed m.assetId)
    (hsent : s.sent = a) :
    ∃ ctx', parseAction sdk s.serialize ctx = .ok (true, ctx') ∧ ActionAppended ctx a ctx' := by
  obtain ⟨hcompat, hidx, hnew, hroom⟩ := htakes
  subst hsent
  exact parseAction_sent h hm hs hcompat hnew hidx hroom

/-- An action is appended in one way. -/
theorem actionAppended_unique (h : ActionAppended ctx a ctx') (h' : ActionAppended ctx a ctx'') :
    ctx' = ctx'' := by
  obtain ⟨hmd, helems, hidx⟩ := h
  obtain ⟨hmd', helems', hidx'⟩ := h'
  have hactions := Bounded.ext (helems.trans helems'.symm)
  obtain ⟨metadata, actions, index⟩ := ctx'
  obtain ⟨metadata', actions', index'⟩ := ctx''
  obtain rfl : metadata = metadata' := hmd.trans hmd'.symm
  obtain rfl : actions = actions' := hactions
  obtain rfl : index = index' := hidx.trans hidx'.symm
  rfl

/-- What is stored determines the value. -/
theorem sent_of_appended (h : ActionAppended ctx a ctx') {s : SetAction}
    (hs : ActionAppended ctx s.sent ctx') : s.sent = a := by
  have helems := hs.elems.symm.trans h.elems
  exact List.singleton_inj.mp (List.append_cancel_left helems)

/-- What a context took from a value, it appended. -/
theorem appended_of_sent (h : Understands sdk) (hm : ctx.metadata = some m) {s : SetAction}
    (hs : s.action.Allowed m.assetId)
    (hparse : parseAction sdk s.serialize ctx = .ok (true, ctx')) :
    ActionAppended ctx s.sent ctx' := by
  obtain ⟨m', a, ⟨hm', hspells, -⟩, happended⟩ := acceptable_of_accepted hparse
  obtain rfl := Option.some.inj (hm.symm.trans hm')
  obtain ⟨out, hout, hsent⟩ := parse_serialize h hm hs
  obtain ⟨out', hout', rfl⟩ := (parseAction_iff hm).mpr hspells
  rw [← hsent, Except.ok.inj (hout.symm.trans hout')]
  exact happended

end

/-- A payload that `parse_action` accepts, spelled in whatever way, has the effect of what the
client sends for one value that the specification allows, and for no other value.  Only where a
numeric string is empty or not printable, no value has this effect. -/
theorem accepted_payload_canonical (sdk : Sdk) (h : Understands sdk) (payload : Bytes)
    (ctx ctx' : HlContext) (haccept : parseAction sdk payload ctx = .ok (true, ctx')) :
    ∃ m a, ctx.metadata = some m ∧ ActionAppended ctx a ctx' ∧
      (Printable a.numericStrings → ∃! s : SetAction, s.action.Allowed m.assetId ∧
        parseAction sdk s.serialize ctx = .ok (true, ctx')) ∧
      (¬ Printable a.numericStrings → ∀ s : SetAction, s.action.Allowed m.assetId →
        parseAction sdk s.serialize ctx ≠ .ok (true, ctx')) := by
  obtain ⟨m, a, ⟨hm, ⟨ds, -, hspells⟩, htakes⟩, happended⟩ := acceptable_of_accepted haccept
  have hsent : ∀ s : SetAction, s.action.Allowed m.assetId →
      parseAction sdk s.serialize ctx = .ok (true, ctx') → s.sent = a :=
    fun s hs hparse => sent_of_appended happended (appended_of_sent h hm hs hparse)
  refine ⟨m, a, hm, happended, ?_, ?_⟩
  · intro hprintable
    obtain ⟨d, -, hunion⟩ := hspells.union
    obtain ⟨v, htype, hv, hallowed⟩ := exists_value hunion hprintable
    have hs : (SetAction.mk a.nonce v).sent = a := by
      rw [SetAction.sent, htype, hv]
    obtain ⟨ctx'', hparse, happended'⟩ := parseAction_of_sent h hm htakes hallowed hs
    obtain rfl := actionAppended_unique happended happended'
    refine ⟨⟨a.nonce, v⟩, ⟨hallowed, hparse⟩, ?_⟩
    rintro s ⟨hs', hparse'⟩
    exact SetAction.sent_injective ((hsent s hs' hparse').trans hs.symm)
  · intro hprintable s hs hparse
    exact hprintable (hsent s hs hparse ▸ printable_of_allowed hs)

/-- A leverage update with its fields in another order, and numbers and a length that are not the
shortest. -/
def leveragePayload : Bytes :=
  serializeField 0xda (beBytes 8 1772544778963) ++ serializeField 0xd0 [3] ++
    serializeField 0x02 [1] ++ [0x81, 0xdb, 0x82, 0x00, 0x0d] ++
    serializeField 0xed (beBytes 2 5) ++ serializeField 0xd1 [1] ++ serializeField 0xde [0] ++
    serializeField 0x01 [0x2c]

/-- With metadata for an order, and these actions. -/
def leverageContext (actions : Bounded Action maxActionCount) : HlContext :=
  { metadata := some (ethMetadata .order), actions := actions }

theorem accepted_payload_canonical_leverage :
    ∃ m a, (leverageContext .empty).metadata = some m ∧
      ActionAppended (leverageContext .empty) a
        (leverageContext ⟨[updateLeverageAction], by decide⟩) ∧
      (Printable a.numericStrings → ∃! s : SetAction, s.action.Allowed m.assetId ∧
        parseAction sdk s.serialize (leverageContext .empty) =
          .ok (true, leverageContext ⟨[updateLeverageAction], by decide⟩)) ∧
      (¬ Printable a.numericStrings → ∀ s : SetAction, s.action.Allowed m.assetId →
        parseAction sdk s.serialize (leverageContext .empty) ≠
          .ok (true, leverageContext ⟨[updateLeverageAction], by decide⟩)) :=
  accepted_payload_canonical sdk sdk_understands leveragePayload (leverageContext .empty)
    (leverageContext ⟨[updateLeverageAction], by decide⟩) (by decide +kernel)

end Client

end Hyperliquid

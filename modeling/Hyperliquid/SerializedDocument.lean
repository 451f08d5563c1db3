/-
# The document that an action is serialized as

The exchange reads a serialized action as a MessagePack document.  `Action.document` is that
document, field by field: the maps with their keys, the arrays in stored order, and the texts of
the enumerations.  What `action_serialize` writes is that document, whole and with nothing after
it (`serialized_document`).

The headers are written before the loops and the optional fields that they announce, and
apart from them; the rules of `Spells` ask at each header for the number of the pairs, or
elements, that are then written.
-/
import Hyperliquid.SerializedAction
import Hyperliquid.Client
import Hyperliquid.Lib.MsgpackDocument

namespace Hyperliquid

open Lib Lib.Msgpack

/-! ## 1. The documents -/

/-- A key of a map, or a name. -/
def key (s : String) : Value := .str (text s)

namespace OrderRequest

def limitPairs (limit : Limit) : List (Value × Value) :=
  [(key "limit", .map [(key "tif", .str (tifText limit.tif))])]

def triggerPairs (trigger : Trigger) : List (Value × Value) :=
  [(key "trigger", .map
    [(key "isMarket", .bool trigger.isMarket),
     (key "triggerPx", .str trigger.triggerPx.chars),
     (key "tpsl", .str (tpslText trigger.tpsl))])]

def armPairs (o : OrderRequest) : List (Value × Value) :=
  match o.orderType with
  | .limit => limitPairs o.limit
  | .trigger => triggerPairs o.trigger

def cloidPairs (cloid : Option (CString (cloidHexStringLength - 1))) : List (Value × Value) :=
  match cloid with
  | some c => [(key "c", .str c.chars)]
  | none => []

def pairs (o : OrderRequest) : List (Value × Value) :=
  [(key "a", .int o.asset.toNat),
   (key "b", .bool o.isBuy),
   (key "p", .str o.limitPx.chars),
   (key "s", .str o.sz.chars),
   (key "r", .bool o.reduceOnly),
   (key "t", .map o.armPairs)] ++ cloidPairs o.cloid

def document (o : OrderRequest) : Value := .map o.pairs

theorem length_pairs (o : OrderRequest) : o.pairs.length = if o.cloid.isSome then 7 else 6 := by
  unfold pairs cloidPairs
  cases o.cloid <;> rfl

end OrderRequest

namespace BulkOrder

def builderPairs (builder : Option BuilderInfo) : List (Value × Value) :=
  match builder with
  | some b =>
    [(key "builder", .map
      [(key "b", .str (text "0x" ++ lowercaseHex b.builder.toList)),
       (key "f", .int b.fee.toNat)])]
  | none => []

def pairs (b : BulkOrder) : List (Value × Value) :=
  [(key "type", key "order"),
   (key "orders", .array (b.orders.elems.map OrderRequest.document)),
   (key "grouping", .str (groupingText b.grouping))] ++ builderPairs b.builder

theorem length_pairs (b : BulkOrder) : b.pairs.length = if b.builder.isSome then 4 else 3 := by
  unfold pairs builderPairs
  cases b.builder <;> rfl

end BulkOrder

def ModifyRequest.document (m : ModifyRequest) : Value :=
  .map [(key "oid", .int m.oid.toNat), (key "order", m.order.document)]

def CancelRequest.document (c : CancelRequest) : Value :=
  .map [(key "a", .int c.asset.toNat), (key "o", .int c.oid.toNat)]

/-- Two kinds are signed as structures of their own, and are not serialized. -/
def Action.document (a : Action) : Option Value :=
  match a.type with
  | .bulkOrder => some (.map a.bulkOrder.pairs)
  | .bulkModify =>
    some (.map
      [(key "type", key "batchModify"),
       (key "modifies", .array (a.bulkModify.modifies.elems.map ModifyRequest.document))])
  | .bulkCancel =>
    some (.map
      [(key "type", key "cancel"),
       (key "cancels", .array (a.bulkCancel.cancels.elems.map CancelRequest.document))])
  | .updateLeverage =>
    some (.map
      [(key "type", key "updateLeverage"),
       (key "asset", .int a.updateLeverage.asset.toNat),
       (key "isCross", .bool a.updateLeverage.isCross),
       (key "leverage", .int a.updateLeverage.leverage.toNat)])
  | .updateIsolatedMargin =>
    some (.map
      [(key "type", key "updateIsolatedMargin"),
       (key "asset", .int a.updateIsolatedMargin.asset.toNat),
       (key "isBuy", .bool a.updateIsolatedMargin.isBuy),
       (key "ntli", .int a.updateIsolatedMargin.ntli.toInt)])
  | .approveBuilderFee => none
  | .userSetAbstraction => none

/-! ## 2. The writes spell them -/

namespace OrderRequest

theorem limitTokens_spells (limit : Limit) : SpellsPairs 1 (limitTokens limit) (limitPairs limit) :=
  .last (.map rfl (.scalar rfl .nil))

theorem triggerTokens_spells (trigger : Trigger) :
    SpellsPairs 1 (triggerTokens trigger) (triggerPairs trigger) :=
  .last (.map rfl (.scalar rfl (.scalar rfl (.scalar rfl .nil))))

/-- The arm, in a map of one pair. -/
theorem armTokens_spells (o : OrderRequest) :
    Spells 2 (.map 1 :: o.armTokens) (.map o.armPairs) := by
  unfold armTokens armPairs
  cases o.orderType with
  | limit => exact .map rfl (limitTokens_spells o.limit)
  | trigger => exact .map rfl (triggerTokens_spells o.trigger)

theorem cloidTokens_spells (cloid : Option (CString (cloidHexStringLength - 1))) :
    SpellsPairs 2 (cloidTokens cloid) (cloidPairs cloid) := by
  cases cloid with
  | none => exact .nil
  | some c => exact .scalar rfl .nil

/-- The header counts the client order id. -/
theorem tokens_spells (o : OrderRequest) : Spells 3 o.tokens o.document := by
  have hcount : (if o.cloid.isSome then 7 else 6 : UInt32).toNat = o.pairs.length := by
    rw [length_pairs]
    split <;> rfl
  refine .map hcount ?_
  refine .scalar rfl (.scalar rfl (.scalar rfl (.scalar rfl (.scalar rfl ?_))))
  have hlast : SpellsPairs 2 (.str (text "t") :: (.map 1 :: o.armTokens ++ cloidTokens o.cloid))
      ((key "t", .map o.armPairs) :: cloidPairs o.cloid) :=
    .entry (armTokens_spells o) (cloidTokens_spells o.cloid)
  exact hlast

end OrderRequest

/-- An array of at most `bulkMaxSize` elements, after its key. -/
theorem arrayTokens_spells {α : Type} {d : Nat} {f : α → List Token} {g : α → Value}
    (h : ∀ x, Spells d (f x) (g x)) (arr : Bounded α bulkMaxSize) :
    Spells (d + 1) (.array (UInt32.ofNat arr.count) :: arr.elems.flatMap f)
      (.array (arr.elems.map g)) := by
  have hcount : (UInt32.ofNat arr.count).toNat = (arr.elems.map g).length := by
    have hbound : arr.elems.length ≤ 5 := arr.bound
    rw [List.length_map, UInt32.toNat_ofNat']
    exact Nat.mod_eq_of_lt (show arr.elems.length < 2 ^ 32 by omega)
  exact .array hcount (.flatMap h arr.elems)

namespace BulkOrder

theorem builderTokens_spells (builder : Option BuilderInfo) :
    SpellsPairs 4 (builderTokens builder) (builderPairs builder) := by
  cases builder with
  | none => exact .nil
  | some b =>
    have haddr : (Token.str (builderAddrStr b.builder)).item.scalar =
        some (.str (text "0x" ++ lowercaseHex b.builder.toList)) := by
      rw [builderAddrStr_eq]
      rfl
    have hfee : (Token.uinteger b.fee).item.scalar = some (.int b.fee.toNat) := rfl
    have hmap : Spells 1 [.map 2, .str (text "b"), .str (builderAddrStr b.builder),
        .str (text "f"), .uinteger b.fee]
        (.map [(key "b", .str (text "0x" ++ lowercaseHex b.builder.toList)),
          (key "f", .int b.fee.toNat)]) :=
      .map rfl (.scalar haddr (.scalar hfee .nil))
    exact .last (hmap.mono (by decide))

/-- The header counts the builder. -/
theorem tokens_spells (b : BulkOrder) : Spells 5 b.tokens (.map b.pairs) := by
  have hcount : (if b.builder.isSome then 4 else 3 : UInt32).toNat = b.pairs.length := by
    rw [length_pairs]
    split <;> rfl
  refine .map hcount (.scalar rfl ?_)
  refine .entry (arrayTokens_spells OrderRequest.tokens_spells b.orders) (.scalar rfl ?_)
  exact builderTokens_spells b.builder

end BulkOrder

theorem ModifyRequest.tokens_spells (m : ModifyRequest) : Spells 4 m.tokens m.document :=
  .map rfl (.scalar rfl (.last m.order.tokens_spells))

theorem CancelRequest.tokens_spells (c : CancelRequest) : Spells 1 c.tokens c.document :=
  .map rfl (.scalar rfl (.scalar rfl .nil))

theorem BulkModify.tokens_spells (b : BulkModify) :
    Spells 6 b.tokens (.map [(key "type", key "batchModify"),
      (key "modifies", .array (b.modifies.elems.map ModifyRequest.document))]) :=
  .map rfl (.scalar rfl (.last (arrayTokens_spells ModifyRequest.tokens_spells b.modifies)))

theorem BulkCancel.tokens_spells (b : BulkCancel) :
    Spells 3 b.tokens (.map [(key "type", key "cancel"),
      (key "cancels", .array (b.cancels.elems.map CancelRequest.document))]) :=
  .map rfl (.scalar rfl (.last (arrayTokens_spells CancelRequest.tokens_spells b.cancels)))

/-- The items of an action that is serialized spell its document. -/
theorem Action.tokens_spells {a : Action} (h : a.type.serializedName ≠ none) :
    ∃ d v, a.document = some v ∧ Spells d a.tokens v := by
  unfold document tokens
  cases hty : a.type with
  | bulkOrder => exact ⟨_, _, rfl, a.bulkOrder.tokens_spells⟩
  | bulkModify => exact ⟨_, _, rfl, a.bulkModify.tokens_spells⟩
  | bulkCancel => exact ⟨_, _, rfl, a.bulkCancel.tokens_spells⟩
  | updateLeverage =>
    exact ⟨1, _, rfl, .map rfl (.scalar rfl (.scalar rfl (.scalar rfl (.scalar rfl .nil))))⟩
  | updateIsolatedMargin =>
    exact ⟨1, _, rfl, .map rfl (.scalar rfl (.scalar rfl (.scalar rfl (.scalar rfl .nil))))⟩
  | approveBuilderFee =>
    rw [hty] at h
    exact absurd rfl h
  | userSetAbstraction =>
    rw [hty] at h
    exact absurd rfl h

/-! ## 3. What action_serialize writes -/

/-- No two values of an enumeration have the same text. -/
def TextsInjective : Prop :=
  Function.Injective OrderRequest.tifText ∧ Function.Injective OrderRequest.tpslText ∧
    Function.Injective BulkOrder.groupingText ∧
    ∀ t u : ActionType, t.serializedName ≠ none → t.serializedName = u.serializedName → t = u

theorem textsInjective : TextsInjective := by
  refine ⟨?_, ?_, ?_, ?_⟩
  · intro t u h
    exact OrderRequest.tifText_inj h
  · intro t u h
    exact OrderRequest.tpslText_inj h
  · intro g k h
    exact BulkOrder.groupingText_inj h
  · intro t u ht h
    exact ActionType.serializedName_inj ht h

/-- How many pairs the two maps with an optional field have. -/
structure PairCounts (a : Action) : Prop where
  order : ∀ o ∈ a.orders, o.pairs.length = if o.cloid.isSome then 7 else 6
  bulkOrder : a.bulkOrder.pairs.length = if a.bulkOrder.builder.isSome then 4 else 3

theorem pairCounts (a : Action) : PairCounts a :=
  ⟨fun o _ => o.length_pairs, a.bulkOrder.length_pairs⟩

/-- A stored action of a serialized kind, into any buffer: the serializer succeeds exactly when
the writes fit, and then the bytes it has written are one MessagePack value with nothing left
over, the document of the action.  The unions are read through the arms that were stored, and
the texts tell the enumerations apart. -/
theorem serialized_document (sdk : Sdk) {a : Action} (hcmp : sdk.cmp.Standard)
    (ha : Storable sdk a) (hagent : a.type.serializedName ≠ none) (ptr : Bytes) (size : Nat) :
    ∃ v, a.document = some v ∧
      (((actionSerialize sdk a).exec { ptr := ptr, size := size, offset := 0 }).1.isSome ↔
        (sdk.cmp.encode a.tokens).length ≤ size) ∧
      (∀ buf, (actionSerialize sdk a).exec { ptr := ptr, size := size, offset := 0 } =
          (some (), buf) → decode (buf.ptr.take buf.offset) = some v) ∧
      PairCounts a ∧ (a.ArmMatches ∧ ∀ o ∈ a.orders, o.ArmMatches) ∧ TextsInjective := by
  obtain ⟨d, v, hv, hspells⟩ := Action.tokens_spells hagent
  refine ⟨v, hv, ?_, ?_, pairCounts a, ⟨ha.wellFormed.arm, ha.wellFormed.orderArms⟩,
    textsInjective⟩
  · exact (actionSerialize_emits sdk hagent).isSome ptr size
  · intro buf hbuf
    rw [(actionSerialize_writes sdk a).take_offset hbuf]
    exact hcmp.decode_encode a.tokens_fit hspells

/-- A limit order of the tests, and room for it. -/
theorem serialized_document_bulkOrder :
    ∃ a v buf, a = Client.bulkOrderAction [Client.limitRequest true false .gtc "2000" "0.5"] ∧
      a.document = some v ∧
      (actionSerialize Client.sdk a).exec
        { ptr := [], size := maxSerializedActionSize, offset := 0 } = (some (), buf) ∧
      decode (buf.ptr.take buf.offset) = some v := by
  generalize ha : Client.bulkOrderAction [Client.limitRequest true false .gtc "2000" "0.5"] = a
  have hstored : Storable Client.sdk a := by
    refine Storable.of_stores (Client.action a) (Client.ethMetadata .order) ?_
    rw [← ha]
    decide +kernel
  have hagent : a.type.serializedName ≠ none := by
    rw [← ha]
    decide
  have hroom : (Client.sdk.cmp.encode a.tokens).length ≤ maxSerializedActionSize := by
    rw [← ha]
    decide +kernel
  obtain ⟨v, hv, hfits, hdecode, -⟩ :=
    serialized_document Client.sdk shortest_standard hstored hagent [] maxSerializedActionSize
  generalize hrun : (actionSerialize Client.sdk a).exec _ = run at hfits
  obtain ⟨o, buf⟩ := run
  obtain ⟨⟨⟩, rfl⟩ := Option.isSome_iff_exists.mp (hfits.mpr hroom)
  exact ⟨a, v, buf, rfl, hv, hrun, hdecode buf hrun⟩

end Hyperliquid

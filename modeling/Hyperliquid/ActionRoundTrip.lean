/-
# What a client sends, the application reads

For any SDK that reads DER tags and lengths and big-endian numbers (`Understands`), each parser of
the application reads back the value that the client serialized, structure by structure: the
elements are known (`fields`), so the parser is followed from one to the next.
-/
import Hyperliquid.ClientAction

namespace Hyperliquid.Client

open Lib Lib.Msgpack TlvParser

/-! ## 1. The SDK -/

/-- The bytes of these fields. -/
def fields (fs : List (Nat × Bytes)) : Bytes := fs.flatMap fun f => serializeField f.1 f.2

/-- The elements that they are. -/
def elements (fs : List (Nat × Bytes)) : List TlvData :=
  fs.map fun f => ⟨f.1, f.2, serializeField f.1 f.2⟩

/-- What the client relies on: tags and lengths in DER, big-endian numbers of one byte up to the
size of their type, flags of one byte, and printable strings and buffers within their bounds. -/
structure Understands (sdk : Sdk) : Prop where
  tlvDecode : ∀ fs : List (Nat × Bytes), (∀ f ∈ fs, f.1 < 2 ^ 32 ∧ f.2.length < 2 ^ 32) →
    sdk.tlvDecode (fields fs) = some (elements fs)
  uint8 : ∀ d b, d.value = [b] → sdk.getUint8TFromTlvData d = some b
  uint32 : ∀ d, 1 ≤ d.value.length → d.value.length ≤ 4 →
    sdk.getUint32TFromTlvData d = some (UInt32.ofNat (beNat d.value))
  uint64 : ∀ d, 1 ≤ d.value.length → d.value.length ≤ 8 →
    sdk.getUint64TFromTlvData d = some (UInt64.ofNat (beNat d.value))
  bool : ∀ d b, d.value = flag b → sdk.getBoolFromTlvData d = some b
  string : ∀ d minLength cap, minLength ≤ d.value.length → (hcap : d.value.length ≤ cap) →
    (∀ c ∈ d.value, 0x20 ≤ c ∧ c ≤ 0x7e) →
    sdk.getStringFromTlvData d minLength cap = some ⟨d.value, hcap⟩
  buffer : ∀ d minLength maxLength,
    (h : minLength ≤ d.value.length ∧ d.value.length ≤ maxLength) →
    sdk.getBufferFromTlvData d minLength maxLength = some ⟨d.value, h⟩

theorem lt_num_succ (n : Nat) : n < 256 ^ (n.log2 / 8 + 1) := by
  have hpow : 256 ^ (n.log2 / 8 + 1) = 2 ^ (8 * (n.log2 / 8 + 1)) := by rw [Nat.pow_mul]
  by_cases hn : n = 0
  · rw [hn]
    decide
  · rw [hpow, ← Nat.log2_lt hn]
    omega

theorem beNat_num (n : Nat) : beNat (num n) = n := beNat_beBytes (lt_num_succ n)

namespace Understands

variable {sdk : Sdk} (h : Understands sdk) {d : TlvData}

include h

/-- A byte that stands for a value. -/
theorem byte {α : Type} {f : UInt8 → Option α} {b : UInt8} {a : α} (hd : d.value = [b])
    (hb : f b = some a) : (sdk.getUint8TFromTlvData d >>= f) = some a := by
  rw [h.uint8 d b hd]
  exact hb

theorem num32 {a : UInt32} (hd : d.value = num a.toNat) :
    sdk.getUint32TFromTlvData d = some a := by
  have hlow := length_num_pos a.toNat
  have hhigh := length_num_uint32 a
  rw [h.uint32 d (hd ▸ hlow) (hd ▸ hhigh), hd, beNat_num, UInt32.ofNat_toNat]

theorem num64 {a : UInt64} (hd : d.value = num a.toNat) :
    sdk.getUint64TFromTlvData d = some a := by
  have hlow := length_num_pos a.toNat
  have hhigh := length_num_uint64 a
  rw [h.uint64 d (hd ▸ hlow) (hd ▸ hhigh), hd, beNat_num, UInt64.ofNat_toNat]

/-- A number in all of its eight bytes. -/
theorem raw64 {a : UInt64} (hd : d.value = beBytes 8 a.toNat) :
    sdk.getUint64TFromTlvData d = some a := by
  have hlength : d.value.length = 8 := by rw [hd, length_beBytes]
  rw [h.uint64 d (by omega) (by omega), hd, beNat_beBytes a.toNat_lt, UInt64.ofNat_toNat]

theorem numeric {s : CString numericStringLength} (hs : Numeric s) (hd : d.value = s.chars) :
    sdk.getStringFromTlvData d 1 numericStringLength = some s := by
  have hpos := List.length_pos_of_ne_nil hs.nonempty
  obtain ⟨tag, value, raw⟩ := d
  obtain rfl : value = s.chars := hd
  exact h.string ⟨tag, s.chars, raw⟩ 1 numericStringLength hpos s.fits hs.printable

theorem address {a : Address} (hd : d.value = a.toList) :
    (sdk.getBufferFromTlvData d addressLength addressLength).map addressOfBuffer = some a := by
  obtain ⟨tag, value, raw⟩ := d
  obtain rfl : value = a.toList := hd
  have hlength : addressLength ≤ a.toList.length ∧ a.toList.length ≤ addressLength := by
    rw [Vector.length_toList]
    decide
  rw [h.buffer _ _ _ hlength, Option.map_some]
  rfl

/-- A payload of fields, to a parser that reads them. -/
theorem parse {σ : Type} [TlvContext σ] {p : TlvParser σ} {verify : σ → Except Failure Unit}
    {payload : Bytes} {s s' : σ} (fs : List (Nat × Bytes)) (hpayload : payload = fields fs)
    (htags : ∀ f ∈ fs, f.1 < 0x100) (hlength : payload.length ≤ 1020)
    (hreads : Reads p s (elements fs) s') (hverify : verify s' = .ok ()) :
    p.parseVerified sdk.tlvDecode verify payload s = .ok s' := by
  refine parseVerified_reads ?_ hreads hverify
  rw [hpayload]
  refine h.tlvDecode fs fun f hf => ⟨(htags f hf).trans (by decide), ?_⟩
  have hle : f.2.length ≤ (fields fs).length := by
    have hfield : f.2.length ≤ (serializeField f.1 f.2).length := by
      rw [length_serializeField]
      omega
    have hsub : List.Sublist (serializeField f.1 f.2) (fields fs) :=
      List.sublist_flatten_of_mem (List.mem_map.mpr ⟨f, hf, rfl⟩)
    exact hfield.trans hsub.length_le
  rw [← hpayload] at hle
  omega

end Understands

/-! ## 2. Orders -/

/-- The byte of a `Tif`. -/
def tifByte : Tif → UInt8
  | .alo => 0
  | .ioc => 1
  | .gtc => 2

/-- The byte of a `TriggerType`. -/
def triggerTypeByte : TriggerType → UInt8
  | .tp => 0
  | .sl => 1

/-- The byte of an `OrderType`. -/
def orderTypeByte : OrderType → UInt8
  | .limit => 0
  | .trigger => 1

theorem tifOfByte_tifByte (t : Tif) : OrderRequest.tifOfByte (tifByte t) = some t := by
  cases t <;> rfl

theorem triggerTypeOfByte_triggerTypeByte (t : TriggerType) :
    OrderRequest.triggerTypeOfByte (triggerTypeByte t) = some t := by
  cases t <;> rfl

theorem orderTypeOfByte_orderTypeByte (t : OrderType) :
    OrderRequest.orderTypeOfByte (orderTypeByte t) = some t := by
  cases t <;> rfl

def limitFields (l : Limit) : List (Nat × Bytes) := [(0xe6, [tifByte l.tif])]

theorem limit_eq (l : Limit) : limit l = fields (limitFields l) := by
  obtain ⟨tif⟩ := l
  cases tif <;> simp [limit, fields, limitFields, tifByte]

def triggerFields (t : Trigger) : List (Nat × Bytes) :=
  [(0xe7, flag t.isMarket), (0xe8, t.triggerPx.chars), (0xe9, [triggerTypeByte t.tpsl])]

theorem trigger_eq (t : Trigger) : trigger t = fields (triggerFields t) := by
  obtain ⟨isMarket, triggerPx, tpsl⟩ := t
  cases tpsl <;> simp [trigger, fields, triggerFields, triggerTypeByte]

/-- The fields of an order before the inner one. -/
def headFields (o : Order) : List (Nat × Bytes) :=
  [(0xe0, [orderTypeByte o.orderType]), (0xd1, num o.asset.toNat), (0xe2, flag o.isBuy),
   (0xe3, o.limitPx.chars), (0xe4, o.sz.chars), (0xe5, flag o.reduceOnly)]

def cloidFields : Option (Vector UInt8 (cloidBitLength / 8)) → List (Nat × Bytes)
  | none => []
  | some cloid => [(0xee, cloid.toList)]

def orderFields (o : Order) : List (Nat × Bytes) :=
  headFields o ++ (0xd7, innerBytes o.order) :: cloidFields o.cloid

theorem Order.serialize_eq (o : Order) : o.serialize = fields (orderFields o) := by
  obtain ⟨orderType, asset, isBuy, limitPx, sz, reduceOnly, order, cloid⟩ := o
  cases orderType <;> cases order <;> cases cloid <;>
    simp [Order.serialize, orderRequest, Order.sent, fields, orderFields, headFields, cloidFields,
      innerBytes, orderTypeByte]

theorem cloidOfBytes_toList (cloid : Vector UInt8 (cloidBitLength / 8)) :
    OrderRequest.cloidOfBytes cloid.toList = some (cloidText cloid) := by
  have hlength : cloid.toList.length = cloidBitLength / 8 := Vector.length_toList
  have hne : ¬ (cloid.toList.length != cloidBitLength / 8) = true := by simp
  have hfits : ¬ cloidHexStringLength - 2 < 2 * cloid.toList.length + 1 := by
    rw [hlength]
    decide
  unfold OrderRequest.cloidOfBytes bytesToLowercaseHex
  rw [if_neg hne, dif_neg hfits]
  rfl

section

variable {sdk : Sdk} (h : Understands sdk)

include h

theorem parseLimitOrder_limit (l : Limit) :
    OrderRequest.parseLimitOrder sdk (limit l) {} =
      .ok { receivedTags := [OrderRequest.tagTif], limit := l } := by
  refine h.parse (limitFields l) (limit_eq l) (by simp [limitFields])
    ((length_limit_le l).trans (by decide)) ?_ rfl
  exact .cons (step_storing rfl rfl rfl (h.byte rfl (tifOfByte_tifByte l.tif))) .nil

theorem parseTriggerOrder_trigger (t : Trigger) (ht : Numeric t.triggerPx) :
    OrderRequest.parseTriggerOrder sdk (trigger t) {} =
      .ok {
        receivedTags := [OrderRequest.tagTriggerType, OrderRequest.tagTriggerPx,
          OrderRequest.tagIsMarket]
        trigger := t } := by
  refine h.parse (triggerFields t) (trigger_eq t) (by simp [triggerFields])
    ((length_trigger_le t).trans (by decide)) ?_ rfl
  exact .cons (step_storing rfl rfl rfl (h.bool _ _ rfl))
    (.cons (step_storing rfl rfl rfl (h.numeric ht rfl))
    (.cons (step_storing rfl rfl rfl (h.byte rfl (triggerTypeOfByte_triggerTypeByte t.tpsl)))
    .nil))

/-- The order while its inner order is still to come. -/
def headCtx (o : Order) : OrderRequest.OrderRequestCtx where
  receivedTags := [OrderRequest.tagReduceOnly, OrderRequest.tagSz, OrderRequest.tagLimitPx,
    OrderRequest.tagIsBuy, OrderRequest.tagAsset, OrderRequest.tagOrderType]
  orderRequest := { o.sent with union := .limit {}, cloid := none }

theorem reads_head {asset : UInt32} {o : Order} (ho : o.Allowed asset) :
    Reads (OrderRequest.orderRequestTlvParser sdk) {} (elements (headFields o)) (headCtx o) :=
  .cons (step_storing rfl rfl rfl (h.byte rfl (orderTypeOfByte_orderTypeByte o.orderType)))
    (.cons (step_storing rfl rfl rfl (h.num32 rfl))
    (.cons (step_storing rfl rfl rfl (h.bool _ _ rfl))
    (.cons (step_storing rfl rfl rfl (h.numeric ho.limitPx rfl))
    (.cons (step_storing rfl rfl rfl (h.numeric ho.sz rfl))
    (.cons (step_storing rfl rfl rfl (h.bool _ _ rfl))
    .nil)))))

/-- The order with its inner order. -/
def innerCtx (o : Order) : OrderRequest.OrderRequestCtx where
  receivedTags := OrderRequest.tagOrder :: (headCtx o).receivedTags
  orderRequest := { o.sent with cloid := none }
  limitCtx :=
    match o.order with
    | .limit l => { receivedTags := [OrderRequest.tagTif], limit := l }
    | .trigger _ => {}
  triggerCtx :=
    match o.order with
    | .limit _ => {}
    | .trigger t =>
      { receivedTags := [OrderRequest.tagTriggerType, OrderRequest.tagTriggerPx,
          OrderRequest.tagIsMarket]
        trigger := t }

/-- The inner order goes into the arm of its type. -/
theorem handleOrder_inner {asset : UInt32} {o : Order} (ho : o.Allowed asset) (raw : Bytes) :
    OrderRequest.handleOrder sdk ⟨0xd7, innerBytes o.order, raw⟩
      (TlvContext.receive 0xd7 (headCtx o)) = .ok (innerCtx o) := by
  have harm := ho.arm
  have htrigger := ho.triggerPx
  obtain ⟨orderType, asset, isBuy, limitPx, sz, reduceOnly, order, cloid⟩ := o
  cases orderType with
  | limit =>
    cases order with
    | limit l =>
      exact bind_ok_iff.mpr ⟨_, parseLimitOrder_limit h l, rfl⟩
    | trigger t => exact harm.elim
  | trigger =>
    cases order with
    | limit l => exact harm.elim
    | trigger t =>
      exact bind_ok_iff.mpr ⟨_, parseTriggerOrder_trigger h t (htrigger t rfl), rfl⟩

/-- An order is read back. -/
theorem parseOrderRequest_serialize {hl : HlContext} {metadata : ActionMetadata}
    (hmd : hl.metadata = some metadata) {o : Order} (ho : o.Allowed metadata.assetId) :
    ∃ out, parseOrderRequest sdk hl o.serialize {} = .ok out ∧ out.orderRequest = o.sent := by
  have hasset : checkAsset hl o.asset = .ok () := checkAsset_ok.mpr ⟨metadata, hmd, ho.asset⟩
  have hinner : Reads (OrderRequest.orderRequestTlvParser sdk) (headCtx o)
      (elements [(0xd7, innerBytes o.order)]) (innerCtx o) :=
    .cons (step_eq rfl rfl rfl (handleOrder_inner h ho _)) .nil
  have hlength := o.length_serialize_le.trans (by decide : 121 ≤ 1020)
  cases hcloid : o.cloid with
  | none =>
    refine ⟨innerCtx o,
      h.parse (headFields o ++ [(0xd7, innerBytes o.order)]) ?_ ?_ hlength ?_ ?_, ?_⟩
    · rw [o.serialize_eq, orderFields, hcloid, cloidFields]
    · simp [headFields]
    · exact (reads_head h ho).append hinner
    · exact hasset
    · show ({ o.sent with cloid := none } : OrderRequest) = o.sent
      simp [Order.sent, hcloid]
  | some cloid =>
    let out : OrderRequest.OrderRequestCtx :=
      { innerCtx o with
        receivedTags := OrderRequest.tagCloid :: (innerCtx o).receivedTags
        orderRequest := { o.sent with cloid := some (cloidText cloid) } }
    have hread : Reads (OrderRequest.orderRequestTlvParser sdk) (innerCtx o)
        (elements [(0xee, cloid.toList)]) out :=
      .cons (step_storing rfl rfl rfl (cloidOfBytes_toList cloid)) .nil
    refine ⟨out,
      h.parse (headFields o ++ [(0xd7, innerBytes o.order), (0xee, cloid.toList)])
        ?_ ?_ hlength ?_ hasset, ?_⟩
    · rw [o.serialize_eq, orderFields, hcloid, cloidFields]
    · simp [headFields]
    · exact (reads_head h ho).append (hinner.append hread)
    · show ({ o.sent with cloid := some (cloidText cloid) } : OrderRequest) = o.sent
      simp [Order.sent, hcloid]

end

/-! ## 3. The seven kinds -/

/-- The byte of a `Grouping`. -/
def groupingByte : Grouping → UInt8
  | .na => 0
  | .normalTpsl => 1
  | .positionTpsl => 2

theorem groupingOfByte_groupingByte (g : Grouping) :
    BulkOrder.groupingOfByte (groupingByte g) = some g := by
  cases g <;> rfl

def builderFields : Option BuilderInfo → List (Nat × Bytes)
  | none => []
  | some i => [(0xeb, builderInfo i)]

theorem array_tags {β : Type} {tag : Nat} (htag : tag < 0x100) (value : β → Bytes) (xs : List β)
    {fs : List (Nat × Bytes)} (hfs : ∀ f ∈ fs, f.1 < 0x100) :
    ∀ f ∈ (xs.map fun x => (tag, value x)) ++ fs, f.1 < 0x100 := by
  intro f hf
  rcases List.mem_append.mp hf with hf | hf
  · obtain ⟨x, -, rfl⟩ := List.mem_map.mp hf
    exact htag
  · exact hfs f hf

theorem bulkOrder_eq (orders : Bounded Order bulkMaxSize) (grouping : Grouping)
    (builder : Option BuilderInfo) :
    (Value.bulkOrder orders grouping builder).serialize =
      fields ((orders.elems.map fun o => (0xdd, o.serialize)) ++
        (0xea, [groupingByte grouping]) :: builderFields builder) := by
  cases grouping <;> cases builder <;>
    simp [Value.serialize, fields, builderFields, groupingByte, List.flatMap_map]

section

variable {sdk : Sdk} (h : Understands sdk)

include h

theorem parseBuilderInfo_builderInfo (b : BuilderInfo) :
    BulkOrder.parseBuilderInfo sdk (builderInfo b) {} =
      .ok {
        receivedTags := [BulkOrder.tagBuilderFee, BulkOrder.tagBuilderAddress]
        builderInfo := b } := by
  refine h.parse [(0xd3, b.builder.toList), (0xec, num b.fee.toNat)] (by simp [builderInfo, fields])
    (by simp) ((length_builderInfo_le b).trans (by decide)) ?_ rfl
  exact .cons (step_storing rfl rfl rfl (h.address rfl))
    (.cons (step_storing rfl rfl rfl (h.num64 rfl)) .nil)

/-- The orders read so far. -/
def ordersCtx (orders : Bounded Order bulkMaxSize) : BulkOrder.BulkOrderCtx where
  receivedTags := List.replicate orders.count BulkOrder.tagOrder
  bulkOrder := { orders := orders.map Order.sent }

variable {hl : HlContext} {metadata : ActionMetadata} (hmd : hl.metadata = some metadata)

include hmd

theorem reads_orders (orders : Bounded Order bulkMaxSize)
    (horders : ∀ o ∈ orders.elems, o.Allowed metadata.assetId) :
    Reads (BulkOrder.bulkOrderTlvParser sdk hl) {}
      (elements (orders.elems.map fun o => (0xdd, o.serialize))) (ordersCtx orders) := by
  rw [elements, List.map_map]
  refine reads_array (fun out => out.bulkOrder.orders) Order.sent ordersCtx (t := 0xdd) rfl
    (fun _ => rfl) rfl (fun _ => rfl) ?_ orders ?_
  · intro pre o hlt
    unfold ordersCtx
    rw [Bounded.map_push, Bounded.count_push, List.replicate_succ]
    rfl
  · intro o ho
    obtain ⟨out, hparse, hout⟩ := parseOrderRequest_serialize h hmd (horders o ho)
    exact bind_ok_iff.mpr ⟨out, hparse, by rw [← hout]⟩

theorem parseBulkOrder_serialize {orders : Bounded Order bulkMaxSize} (grouping : Grouping)
    (builder : Option BuilderInfo) (hne : orders.elems ≠ [])
    (horders : ∀ o ∈ orders.elems, o.Allowed metadata.assetId) :
    ∃ out, parseBulkOrder sdk hl (Value.bulkOrder orders grouping builder).serialize {} = .ok out ∧
      out.bulkOrder = ⟨orders.map Order.sent, grouping, builder⟩ := by
  have hlength := (Value.bulkOrder orders grouping builder).length_serialize_le
  have hpos : orders.count ≠ 0 := fun h0 => hne (List.length_eq_zero_iff.mp h0)
  let grouped : BulkOrder.BulkOrderCtx :=
    { receivedTags := BulkOrder.tagGrouping :: (ordersCtx orders).receivedTags
      bulkOrder := { orders := orders.map Order.sent, grouping := grouping } }
  have hgrouping : Reads (BulkOrder.bulkOrderTlvParser sdk hl) (ordersCtx orders)
      (elements [(0xea, [groupingByte grouping])]) grouped := by
    refine .cons (step_storing rfl rfl ?_ (h.byte rfl (groupingOfByte_groupingByte grouping))) .nil
    simp [ordersCtx, TlvContext.receivedTags]
  have hread := (reads_orders h hmd orders horders).append hgrouping
  cases builder with
  | none =>
    refine ⟨grouped, h.parse _ (bulkOrder_eq orders grouping none)
      (array_tags (by decide) _ _ (by simp [builderFields])) (hlength.trans (by decide)) ?_ ?_, rfl⟩
    · rw [elements, List.map_append]
      exact hread
    · exact requireTags_ok.mpr (by simp [grouped, ordersCtx, hpos])
  | some i =>
    let built : BulkOrder.BulkOrderCtx :=
      { receivedTags := BulkOrder.tagBuilder :: grouped.receivedTags
        bulkOrder := { orders := orders.map Order.sent, grouping := grouping, builder := some i }
        builderInfoCtx :=
          { receivedTags := [BulkOrder.tagBuilderFee, BulkOrder.tagBuilderAddress]
            builderInfo := i } }
    have hbuilder : Reads (BulkOrder.bulkOrderTlvParser sdk hl) grouped
        (elements [(0xeb, builderInfo i)]) built := by
      refine .cons (step_eq rfl rfl ?_ ?_) .nil
      · simp [grouped, ordersCtx, TlvContext.receivedTags]
      · exact bind_ok_iff.mpr ⟨_, parseBuilderInfo_builderInfo h i, rfl⟩
    refine ⟨built, h.parse _ (bulkOrder_eq orders grouping (some i))
      (array_tags (by decide) _ _ (by simp [builderFields])) (hlength.trans (by decide)) ?_ ?_, rfl⟩
    · rw [elements, List.map_append]
      have hall := hread.append hbuilder
      rwa [List.append_assoc] at hall
    · exact requireTags_ok.mpr (by simp [built, grouped, ordersCtx, hpos])

theorem parseModifyRequest_serialize {m : Modify} (hm : m.order.Allowed metadata.assetId) :
    ∃ out, BulkModify.parseModifyRequest sdk hl m.serialize {} = .ok out ∧
      out.modifyRequest = m.sent := by
  obtain ⟨orderCtx, hparse, horder⟩ := parseOrderRequest_serialize h hmd hm
  let ordered : BulkModify.ModifyRequestCtx :=
    { receivedTags := [BulkModify.tagOrder]
      modifyRequest := { order := m.order.sent }
      orderCtx := orderCtx }
  have hread : ∀ raw, (BulkModify.modifyRequestTlvParser sdk hl).step {}
      ⟨0xdd, m.order.serialize, raw⟩ = .ok ordered := by
    intro raw
    refine step_eq rfl rfl rfl (bind_ok_iff.mpr ⟨orderCtx, hparse, ?_⟩)
    simp only [ordered, ← horder]
    rfl
  refine ⟨{ ordered with
      receivedTags := [BulkModify.tagOid, BulkModify.tagOrder], modifyRequest := m.sent },
    h.parse [(0xdd, m.order.serialize), (0xdc, num m.oid.toNat)]
      (by simp [Modify.serialize, fields])
      (by simp) (m.length_serialize_le.trans (by decide)) ?_ rfl, rfl⟩
  exact .cons (hread _) (.cons (step_storing rfl rfl rfl (h.num64 rfl)) .nil)

/-- The modify requests read so far. -/
def modifiesCtx (modifies : Bounded Modify bulkMaxSize) : BulkModify.BulkModifyCtx where
  receivedTags := List.replicate modifies.count BulkModify.tagModifyRequest
  bulkModify := ⟨modifies.map Modify.sent⟩

theorem parseBulkModify_serialize {modifies : Bounded Modify bulkMaxSize}
    (hne : modifies.elems ≠ [])
    (hmodifies : ∀ m ∈ modifies.elems, m.order.Allowed metadata.assetId) :
    parseBulkModify sdk hl (Value.bulkModify modifies).serialize {} =
      .ok (modifiesCtx modifies) := by
  have hlength := (Value.bulkModify modifies).length_serialize_le
  have hpos : modifies.count ≠ 0 := fun h0 => hne (List.length_eq_zero_iff.mp h0)
  refine h.parse ((modifies.elems.map fun m => (0xd8, m.serialize)) ++ [])
    (by simp [Value.serialize, fields, List.flatMap_map])
    (array_tags (by decide) _ _ (by simp)) (hlength.trans (by decide)) ?_
    (requireTags_ok.mpr (by simp [modifiesCtx, hpos]))
  rw [List.append_nil, elements, List.map_map]
  refine reads_array (fun out => out.bulkModify.modifies) Modify.sent modifiesCtx (t := 0xd8) rfl
    (fun _ => rfl) rfl (fun _ => rfl) ?_ modifies ?_
  · intro pre m hlt
    unfold modifiesCtx
    rw [Bounded.map_push, Bounded.count_push, List.replicate_succ]
    rfl
  · intro m hm
    obtain ⟨out, hparse, hout⟩ := parseModifyRequest_serialize h hmd (hmodifies m hm)
    exact bind_ok_iff.mpr ⟨out, hparse, by rw [← hout]⟩

theorem parseCancelRequest_cancelRequest {c : CancelRequest} (hc : c.asset = metadata.assetId) :
    BulkCancel.parseCancelRequest sdk hl (cancelRequest c) {} =
      .ok { receivedTags := [BulkCancel.tagOid, BulkCancel.tagAsset], cancelRequest := c } := by
  refine h.parse [(0xd1, num c.asset.toNat), (0xdc, num c.oid.toNat)]
    (by simp [cancelRequest, fields]) (by simp) ((length_cancelRequest_le c).trans (by decide)) ?_
    (checkAsset_ok.mpr ⟨metadata, hmd, hc⟩ : checkAsset hl c.asset = .ok ())
  exact .cons (step_storing rfl rfl rfl (h.num32 rfl))
    (.cons (step_storing rfl rfl rfl (h.num64 rfl)) .nil)

/-- The cancel requests read so far. -/
def cancelsCtx (cancels : Bounded CancelRequest bulkMaxSize) : BulkCancel.BulkCancelCtx where
  receivedTags := List.replicate cancels.count BulkCancel.tagCancelRequest
  bulkCancel := ⟨cancels.map id⟩

theorem parseBulkCancel_serialize {cancels : Bounded CancelRequest bulkMaxSize}
    (hne : cancels.elems ≠ []) (hcancels : ∀ c ∈ cancels.elems, c.asset = metadata.assetId) :
    parseBulkCancel sdk hl (Value.bulkCancel cancels).serialize {} = .ok (cancelsCtx cancels) := by
  have hlength := (Value.bulkCancel cancels).length_serialize_le
  have hpos : cancels.count ≠ 0 := fun h0 => hne (List.length_eq_zero_iff.mp h0)
  refine h.parse ((cancels.elems.map fun c => (0xd9, cancelRequest c)) ++ [])
    (by simp [Value.serialize, bulkCancel, fields, List.flatMap_map])
    (array_tags (by decide) _ _ (by simp)) (hlength.trans (by decide)) ?_
    (requireTags_ok.mpr (by simp [cancelsCtx, hpos]))
  rw [List.append_nil, elements, List.map_map]
  refine reads_array (fun out => out.bulkCancel.cancels) id cancelsCtx (t := 0xd9) rfl
    (fun _ => rfl) rfl (fun _ => rfl) ?_ cancels ?_
  · intro pre c hlt
    unfold cancelsCtx
    rw [Bounded.map_push, Bounded.count_push, List.replicate_succ]
    rfl
  · intro c hc
    exact bind_ok_iff.mpr ⟨_, parseCancelRequest_cancelRequest h hmd (hcancels c hc), rfl⟩

theorem parseUpdateLeverage_updateLeverage {u : UpdateLeverage}
    (hu : u.asset = metadata.assetId) :
    parseUpdateLeverage sdk hl (updateLeverage u) {} =
      .ok {
        receivedTags := [UpdateLeverage.tagLeverage, UpdateLeverage.tagIsCross,
          UpdateLeverage.tagAsset]
        updateLeverage := u } := by
  refine h.parse [(0xd1, num u.asset.toNat), (0xde, flag u.isCross), (0xed, num u.leverage.toNat)]
    (by simp [updateLeverage, fields]) (by simp)
    ((Value.updateLeverage u).length_serialize_le.trans (by decide)) ?_
    (checkAsset_ok.mpr ⟨metadata, hmd, hu⟩ : checkAsset hl u.asset = .ok ())
  exact .cons (step_storing rfl rfl rfl (h.num32 rfl))
    (.cons (step_storing rfl rfl rfl (h.bool _ _ rfl))
    (.cons (step_storing rfl rfl rfl (h.num32 rfl)) .nil))

/-- The signed amount is sent as its eight bytes. -/
theorem parseUpdateIsolatedMargin_updateIsolatedMargin {u : UpdateIsolatedMargin}
    (hu : u.asset = metadata.assetId) :
    parseUpdateIsolatedMargin sdk hl (updateIsolatedMargin u) {} =
      .ok {
        receivedTags := [UpdateIsolatedMargin.tagNtli, UpdateIsolatedMargin.tagIsBuy,
          UpdateIsolatedMargin.tagAsset]
        updateIsolatedMargin := u } := by
  refine h.parse [(0xd1, num u.asset.toNat), (0xe2, flag u.isBuy),
      (0xd6, beBytes 8 u.ntli.toUInt64.toNat)]
    (by simp [updateIsolatedMargin, fields]) (by simp)
    ((Value.updateIsolatedMargin u).length_serialize_le.trans (by decide)) ?_
    (checkAsset_ok.mpr ⟨metadata, hmd, hu⟩ : checkAsset hl u.asset = .ok ())
  exact .cons (step_storing rfl rfl rfl (h.num32 rfl))
    (.cons (step_storing rfl rfl rfl (h.bool _ _ rfl))
    (.cons (step_storing rfl rfl rfl (h.raw64 rfl)) .nil))

omit hmd

theorem parseApproveBuilderFee_approveBuilderFee {f : ApproveBuilderFee}
    (hf : Numeric f.maxFeeRate) :
    parseApproveBuilderFee sdk (approveBuilderFee f) {} =
      .ok {
        receivedTags := [ApproveBuilderFee.tagBuilderAddr, ApproveBuilderFee.tagMaxFeeRate,
          ApproveBuilderFee.tagSignatureChainId]
        approveBuilderFee := f } := by
  refine h.parse [(0x23, num f.signatureChainId.toNat), (0xb0, f.maxFeeRate.chars),
      (0xd3, f.builder.toList)]
    (by simp [approveBuilderFee, fields]) (by simp)
    ((Value.approveBuilderFee f).length_serialize_le.trans (by decide)) ?_ rfl
  exact .cons (step_storing rfl rfl rfl (h.num64 rfl))
    (.cons (step_storing rfl rfl rfl (h.numeric hf rfl))
    (.cons (step_storing rfl rfl rfl (h.address rfl)) .nil))

theorem parseUserSetAbstraction_userSetAbstraction {u : UserSetAbstraction}
    (hu : u.abstraction = 0 ∨ u.abstraction = 1 ∨ u.abstraction = 2) :
    parseUserSetAbstraction sdk (userSetAbstraction u) {} =
      .ok {
        receivedTags := [UserSetAbstraction.tagAbstraction,
          UserSetAbstraction.tagSignatureChainId]
        userSetAbstraction := u } := by
  refine h.parse [(0x23, num u.signatureChainId.toNat), (0xdf, [u.abstraction])]
    (by simp [userSetAbstraction, fields]) (by simp)
    ((Value.userSetAbstraction u).length_serialize_le.trans (by decide)) ?_ ?_
  · exact .cons (step_storing rfl rfl rfl (h.num64 rfl))
      (.cons (step_storing rfl rfl rfl (h.uint8 _ _ rfl)) .nil)
  · obtain ⟨signatureChainId, abstraction⟩ := u
    rcases hu with hu | hu | hu <;> cases hu <;> rfl

include hmd

/-- The structure of an action is read into the arm of its type. -/
theorem parseArm_serialize {v : Value} (hv : v.Allowed metadata.assetId) (nonce : UInt64) :
    Action.parseArm sdk hl { type := v.type, nonce := nonce } v.serialize = .ok v.sent := by
  cases v with
  | bulkOrder orders grouping builder =>
    obtain ⟨out, hparse, hout⟩ := parseBulkOrder_serialize h hmd grouping builder hv.1 hv.2
    exact bind_ok_iff.mpr
      ⟨out, hparse, congrArg (fun b => Except.ok (ActionUnion.bulkOrder b)) hout⟩
  | bulkModify modifies =>
    exact bind_ok_iff.mpr ⟨_, parseBulkModify_serialize h hmd hv.1 hv.2, rfl⟩
  | bulkCancel cancels =>
    have hcancels : (cancelsCtx cancels).bulkCancel = ⟨cancels⟩ :=
      congrArg BulkCancel.mk (Bounded.ext (by simp))
    exact bind_ok_iff.mpr ⟨_, parseBulkCancel_serialize h hmd hv.1 hv.2,
      congrArg (fun c => Except.ok (ActionUnion.bulkCancel c)) hcancels⟩
  | updateLeverage u =>
    exact bind_ok_iff.mpr ⟨_, parseUpdateLeverage_updateLeverage h hmd hv, rfl⟩
  | approveBuilderFee f =>
    exact bind_ok_iff.mpr ⟨_, parseApproveBuilderFee_approveBuilderFee h hv, rfl⟩
  | updateIsolatedMargin u =>
    exact bind_ok_iff.mpr ⟨_, parseUpdateIsolatedMargin_updateIsolatedMargin h hmd hv, rfl⟩
  | userSetAbstraction u =>
    exact bind_ok_iff.mpr ⟨_, parseUserSetAbstraction_userSetAbstraction h hv, rfl⟩

/-! ## 4. The whole action -/

omit h hmd in
theorem actionTypeOfByte_typeByte (v : Value) :
    Action.actionTypeOfByte v.typeByte = some v.type := by
  cases v <;> rfl

/-- `parse_action` reads back what the client serialized. -/
theorem parse_serialize {s : SetAction} (hs : s.action.Allowed metadata.assetId) :
    ∃ out, (Action.actionTlvParser sdk hl).parseVerified sdk.tlvDecode Action.verifyAction
      s.serialize {} = .ok out ∧ out.action = s.sent := by
  have hstructType : (sdk.getUint8TFromTlvData ⟨0x01, [0x2c], serializeField 0x01 [0x2c]⟩).filter
      (· == Action.structType) = some 0x2c := by
    rw [h.uint8 _ _ rfl]
    rfl
  have hstructVersion : (sdk.getUint8TFromTlvData ⟨0x02, [1], serializeField 0x02 [1]⟩).filter
      (· == 1) = some 1 := by
    rw [h.uint8 _ _ rfl]
    rfl
  have harm := parseArm_serialize h hmd hs s.nonce
  have haction : Action.handleAction sdk hl
      ⟨0xdb, s.action.serialize, serializeField 0xdb s.action.serialize⟩
      { receivedTags := [0xdb, 0xda, 0xd0, 0x02, 0x01],
        action := { type := s.action.type, nonce := s.nonce } } =
      .ok { receivedTags := [0xdb, 0xda, 0xd0, 0x02, 0x01], action := s.sent } :=
    bind_ok_iff.mpr ⟨_, harm, rfl⟩
  refine ⟨{ receivedTags := [0xdb, 0xda, 0xd0, 0x02, 0x01], action := s.sent },
    h.parse [(0x01, [0x2c]), (0x02, [1]), (0xd0, [s.action.typeByte]), (0xda, num s.nonce.toNat),
      (0xdb, s.action.serialize)] (by simp [SetAction.serialize, fields]) (by simp)
      s.length_serialize_le ?_ rfl, rfl⟩
  exact .cons (step_storing rfl rfl rfl hstructType)
    (.cons (step_storing rfl rfl rfl hstructVersion)
    (.cons (step_storing rfl rfl rfl (h.byte rfl (actionTypeOfByte_typeByte s.action)))
    (.cons (step_storing rfl rfl rfl (h.num64 rfl))
    (.cons (step_eq rfl rfl rfl haction)
    .nil))))

end

end Hyperliquid.Client

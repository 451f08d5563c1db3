/-
# The actions a client sends (`tests/application_client/`)

The client's own values of the seven kinds of action.  They are the application's, but for one
field: a client order id is sixteen bytes, and becomes a text in the application (`Order.sent`).
`SetAction.serialize` is what the client sends for a value, and `SetAction.sent` is what the
application is to store for it.

A payload has at most 1020 bytes (`SetAction.length_serialize_le`); the longest are bulk modifies
with all their fields at their longest.  `Value.Allowed` is what the specification asks of a
value beyond the types.
-/
import Hyperliquid.Client

namespace Hyperliquid.Client

open Lib Lib.Msgpack

/-! ## 1. The values -/

/-- `OrderRequest`. -/
structure Order where
  orderType : OrderType
  asset : UInt32
  isBuy : Bool
  limitPx : CString numericStringLength
  sz : CString numericStringLength
  reduceOnly : Bool
  order : OrderUnion
  cloid : Option (Vector UInt8 (cloidBitLength / 8)) := none
deriving DecidableEq

/-- `ModifyRequest`. -/
structure Modify where
  order : Order
  oid : UInt64
deriving DecidableEq

/-- The `action` of a `SetAction`. -/
inductive Value where
  | bulkOrder (orders : Bounded Order bulkMaxSize) (grouping : Grouping)
      (builder : Option BuilderInfo)
  | bulkModify (modifies : Bounded Modify bulkMaxSize)
  | bulkCancel (cancels : Bounded CancelRequest bulkMaxSize)
  | updateLeverage (u : UpdateLeverage)
  | approveBuilderFee (f : ApproveBuilderFee)
  | updateIsolatedMargin (u : UpdateIsolatedMargin)
  | userSetAbstraction (u : UserSetAbstraction)
deriving DecidableEq

/-- `SetAction`, with the action type of its action. -/
structure SetAction where
  nonce : UInt64
  action : Value
deriving DecidableEq

/-! ## 2. What they become in the application -/

/-- `0x` and the digits of the bytes. -/
def cloidText (cloid : Vector UInt8 (cloidBitLength / 8)) : CString (cloidHexStringLength - 1) :=
  ⟨text "0x" ++ lowercaseHex cloid.toList, by
    rw [List.length_append, length_lowercaseHex, Vector.length_toList]
    decide⟩

def Order.sent (o : Order) : OrderRequest where
  asset := o.asset
  isBuy := o.isBuy
  limitPx := o.limitPx
  sz := o.sz
  reduceOnly := o.reduceOnly
  orderType := o.orderType
  union := o.order
  cloid := o.cloid.map cloidText

def Modify.sent (m : Modify) : ModifyRequest := ⟨m.oid, m.order.sent⟩

namespace Value

def type : Value → ActionType
  | .bulkOrder .. => .bulkOrder
  | .bulkModify _ => .bulkModify
  | .bulkCancel _ => .bulkCancel
  | .updateLeverage _ => .updateLeverage
  | .approveBuilderFee _ => .approveBuilderFee
  | .updateIsolatedMargin _ => .updateIsolatedMargin
  | .userSetAbstraction _ => .userSetAbstraction

def sent : Value → ActionUnion
  | .bulkOrder orders grouping builder => .bulkOrder ⟨orders.map Order.sent, grouping, builder⟩
  | .bulkModify modifies => .bulkModify ⟨modifies.map Modify.sent⟩
  | .bulkCancel cancels => .bulkCancel ⟨cancels⟩
  | .updateLeverage u => .updateLeverage u
  | .approveBuilderFee f => .approveBuilderFee f
  | .updateIsolatedMargin u => .updateIsolatedMargin u
  | .userSetAbstraction u => .userSetAbstraction u

end Value

def SetAction.sent (s : SetAction) : Action := ⟨s.action.type, s.nonce, s.action.sent⟩

/-! ## 3. What is sent for them -/

def Order.serialize (o : Order) : Bytes :=
  orderRequest o.sent ++
    match o.cloid with
    | none => []
    | some cloid => serializeField 0xee cloid.toList

def Modify.serialize (m : Modify) : Bytes :=
  serializeField 0xdd m.order.serialize ++ serializeField 0xdc (num m.oid.toNat)

namespace Value

/-- The byte of an `ActionType`. -/
def typeByte : Value → UInt8
  | .bulkOrder .. => 0
  | .bulkModify _ => 1
  | .bulkCancel _ => 2
  | .updateLeverage _ => 3
  | .approveBuilderFee _ => 4
  | .updateIsolatedMargin _ => 5
  | .userSetAbstraction _ => 6

def serialize : Value → Bytes
  | .bulkOrder orders grouping builder =>
    orders.elems.flatMap (fun o => serializeField 0xdd o.serialize) ++
      serializeField 0xea
        (match grouping with | .na => [0] | .normalTpsl => [1] | .positionTpsl => [2]) ++
      match builder with
      | none => []
      | some i => serializeField 0xeb (builderInfo i)
  | .bulkModify modifies => modifies.elems.flatMap fun m => serializeField 0xd8 m.serialize
  | .bulkCancel cancels => Client.bulkCancel ⟨cancels⟩
  | .updateLeverage u => Client.updateLeverage u
  | .approveBuilderFee f => Client.approveBuilderFee f
  | .updateIsolatedMargin u => Client.updateIsolatedMargin u
  | .userSetAbstraction u => Client.userSetAbstraction u

end Value

def SetAction.serialize (s : SetAction) : Bytes :=
  serializeField 0x01 [0x2c] ++ serializeField 0x02 [1] ++
    serializeField 0xd0 [s.action.typeByte] ++ serializeField 0xda (num s.nonce.toNat) ++
    serializeField 0xdb s.action.serialize

/-! ## 4. What the specification allows -/

/-- A numeric string: printable characters, at least one. -/
structure Numeric (s : CString numericStringLength) : Prop where
  nonempty : s.chars ≠ []
  printable : ∀ c ∈ s.chars, 0x20 ≤ c ∧ c ≤ 0x7e

/-- An order for the asset, whose type is that of its inner order. -/
structure Order.Allowed (asset : UInt32) (o : Order) : Prop where
  asset : o.asset = asset
  arm : o.sent.ArmMatches
  limitPx : Numeric o.limitPx
  sz : Numeric o.sz
  triggerPx : ∀ t, o.order = .trigger t → Numeric t.triggerPx

/-- One to five elements, for the asset. -/
def Value.Allowed (asset : UInt32) : Value → Prop
  | .bulkOrder orders _ _ => orders.elems ≠ [] ∧ ∀ o ∈ orders.elems, o.Allowed asset
  | .bulkModify modifies => modifies.elems ≠ [] ∧ ∀ m ∈ modifies.elems, m.order.Allowed asset
  | .bulkCancel cancels => cancels.elems ≠ [] ∧ ∀ c ∈ cancels.elems, c.asset = asset
  | .updateLeverage u => u.asset = asset
  | .approveBuilderFee f => Numeric f.maxFeeRate
  | .updateIsolatedMargin u => u.asset = asset
  | .userSetAbstraction u => u.abstraction = 0 ∨ u.abstraction = 1 ∨ u.abstraction = 2

/-! ## 5. How long the payloads are -/

theorem length_num_le {n k : Nat} (hk : 0 < k) (h : n < 256 ^ k) : (num n).length ≤ k := by
  have hpow : 256 ^ k = 2 ^ (8 * k) := by rw [Nat.pow_mul]
  rw [num, length_beBytes]
  have hlog : n.log2 < 8 * k := by
    by_cases hn : n = 0
    · rw [hn, Nat.log2_zero]
      omega
    · rw [Nat.log2_lt hn, ← hpow]
      exact h
  omega

theorem length_num_pos (n : Nat) : 0 < (num n).length := by
  rw [num, length_beBytes]
  exact Nat.succ_pos _

theorem length_num_uint32 (a : UInt32) : (num a.toNat).length ≤ 4 :=
  length_num_le (by decide) a.toNat_lt

theorem length_num_uint64 (a : UInt64) : (num a.toNat).length ≤ 8 :=
  length_num_le (by decide) a.toNat_lt

theorem length_flag (b : Bool) : (flag b).length = 1 := by
  cases b <;> rfl

theorem length_derEncode_le {n k : Nat} (hk : 0 < k) (h : n < 256 ^ k) :
    (derEncode n).length ≤ k + 1 := by
  have hnum := length_num_le hk h
  unfold derEncode
  split
  · rw [List.length_singleton]
    omega
  · rw [List.length_cons]
    omega

theorem length_derEncode_short {n : Nat} (h : n < 0x80) : (derEncode n).length = 1 := by
  rw [derEncode, if_pos h, List.length_singleton]

theorem length_serializeField (tag : Nat) (value : Bytes) :
    (serializeField tag value).length =
      (derEncode tag).length + (derEncode value.length).length + value.length := by
  rw [serializeField, List.length_append, List.length_append]

/-- A field of a short value. -/
theorem length_field_short {tag n : Nat} {value : Bytes} (htag : tag < 0x100)
    (h : value.length ≤ n) (hn : n < 0x80) : (serializeField tag value).length ≤ n + 3 := by
  have htag' := length_derEncode_le (k := 1) (by decide) htag
  have hlength := length_derEncode_short (Nat.lt_of_le_of_lt h hn)
  rw [length_serializeField]
  omega

/-- A field of any value that a chunked payload can hold. -/
theorem length_field_long {tag n : Nat} {value : Bytes} (htag : tag < 0x100)
    (h : value.length ≤ n) (hn : n < 0x10000) : (serializeField tag value).length ≤ n + 5 := by
  have htag' := length_derEncode_le (k := 1) (by decide) htag
  have hlength := length_derEncode_le (k := 2) (by decide) (Nat.lt_of_le_of_lt h hn)
  rw [length_serializeField]
  omega

theorem length_flatMap_le {α : Type} {f : α → Bytes} {n : Nat} (h : ∀ a, (f a).length ≤ n)
    (as : List α) : (as.flatMap f).length ≤ as.length * n := by
  induction as with
  | nil => exact Nat.zero_le _
  | cons a as ih =>
    have ha := h a
    rw [List.flatMap_cons, List.length_append, List.length_cons, Nat.succ_mul]
    omega

/-- At most five elements of a bounded length. -/
theorem length_bulk_le {α : Type} {f : α → Bytes} {n : Nat} (h : ∀ a, (f a).length ≤ n)
    (b : Bounded α bulkMaxSize) : (b.elems.flatMap f).length ≤ 5 * n :=
  (length_flatMap_le h b.elems).trans (Nat.mul_le_mul_right n b.bound)

/-- A field of one byte. -/
theorem length_field_byte {tag : Nat} {value : Bytes} (htag : tag < 0x100)
    (h : value.length = 1) : (serializeField tag value).length ≤ 4 :=
  length_field_short htag h.le (by decide)

theorem length_limit_le (l : Limit) : (limit l).length ≤ 4 :=
  length_field_byte (by decide) (by cases l.tif <;> rfl)

theorem length_trigger_le (t : Trigger) : (trigger t).length ≤ 32 := by
  simp only [trigger, List.length_append]
  exact Nat.add_le_add (Nat.add_le_add
    (length_field_byte (by decide) (length_flag _))
    (length_field_short (by decide) t.triggerPx.fits (by decide)))
    (length_field_byte (by decide) (by cases t.tpsl <;> rfl))

/-- The bytes of the inner order. -/
def innerBytes : OrderUnion → Bytes
  | .limit l => limit l
  | .trigger t => trigger t

theorem length_innerBytes_le (u : OrderUnion) : (innerBytes u).length ≤ 32 := by
  cases u with
  | limit l => exact (length_limit_le l).trans (by decide)
  | trigger t => exact length_trigger_le t

theorem length_orderRequest_le (o : OrderRequest) : (orderRequest o).length ≤ 102 := by
  simp only [orderRequest, List.length_append]
  exact Nat.add_le_add (Nat.add_le_add (Nat.add_le_add (Nat.add_le_add (Nat.add_le_add
    (Nat.add_le_add
      (length_field_byte (by decide) (by cases o.orderType <;> rfl))
      (length_field_short (by decide) (length_num_uint32 _) (by decide)))
      (length_field_byte (by decide) (length_flag _)))
      (length_field_short (by decide) o.limitPx.fits (by decide)))
      (length_field_short (by decide) o.sz.fits (by decide)))
      (length_field_byte (by decide) (length_flag _)))
      (length_field_short (by decide) (length_innerBytes_le o.union) (by decide))

theorem Order.length_serialize_le (o : Order) : o.serialize.length ≤ 121 := by
  have horder := length_orderRequest_le o.sent
  have hcloid : (match o.cloid with
      | none => []
      | some cloid => serializeField 0xee cloid.toList).length ≤ 19 := by
    cases o.cloid with
    | none => exact Nat.zero_le _
    | some cloid => exact length_field_short (by decide) (Vector.length_toList).le (by decide)
  rw [Order.serialize, List.length_append]
  exact Nat.add_le_add horder hcloid

theorem Modify.length_serialize_le (m : Modify) : m.serialize.length ≤ 135 := by
  rw [Modify.serialize, List.length_append]
  exact Nat.add_le_add
    (length_field_short (by decide) m.order.length_serialize_le (by decide))
    (length_field_short (by decide) (length_num_uint64 _) (by decide))

theorem length_builderInfo_le (b : BuilderInfo) : (builderInfo b).length ≤ 34 := by
  rw [builderInfo, List.length_append]
  exact Nat.add_le_add
    (length_field_short (by decide) (Vector.length_toList).le (by decide))
    (length_field_short (by decide) (length_num_uint64 _) (by decide))

theorem length_cancelRequest_le (c : CancelRequest) : (cancelRequest c).length ≤ 18 := by
  rw [cancelRequest, List.length_append]
  exact Nat.add_le_add
    (length_field_short (by decide) (length_num_uint32 _) (by decide))
    (length_field_short (by decide) (length_num_uint64 _) (by decide))

/-- The longest are five modify requests with triggers and client order ids. -/
theorem Value.length_serialize_le (v : Value) : v.serialize.length ≤ 700 := by
  cases v with
  | bulkOrder orders grouping builder =>
    have horders : (orders.elems.flatMap fun o => serializeField 0xdd o.serialize).length ≤
        5 * 124 :=
      length_bulk_le (fun o => length_field_short (by decide) o.length_serialize_le (by decide)) _
    have hbuilder : (match builder with
        | none => []
        | some i => serializeField 0xeb (builderInfo i)).length ≤ 37 := by
      cases builder with
      | none => exact Nat.zero_le _
      | some i => exact length_field_short (by decide) (length_builderInfo_le i) (by decide)
    simp only [Value.serialize, List.length_append]
    exact (Nat.add_le_add (Nat.add_le_add horders
      (length_field_byte (by decide) (by cases grouping <;> rfl))) hbuilder).trans (by decide)
  | bulkModify modifies =>
    have hmodify : ∀ m : Modify, (serializeField 0xd8 m.serialize).length ≤ 140 :=
      fun m => length_field_long (by decide) m.length_serialize_le (by decide)
    exact length_bulk_le hmodify modifies
  | bulkCancel cancels =>
    have hcancel : ∀ c : CancelRequest, (serializeField 0xd9 (cancelRequest c)).length ≤ 21 :=
      fun c => length_field_short (by decide) (length_cancelRequest_le c) (by decide)
    exact (length_bulk_le hcancel cancels).trans (by decide)
  | updateLeverage u =>
    simp only [Value.serialize, Client.updateLeverage, List.length_append]
    exact (Nat.add_le_add (Nat.add_le_add
      (length_field_short (by decide) (length_num_uint32 _) (by decide))
      (length_field_byte (by decide) (length_flag _)))
      (length_field_short (by decide) (length_num_uint32 _) (by decide))).trans (by decide)
  | approveBuilderFee f =>
    simp only [Value.serialize, Client.approveBuilderFee, List.length_append]
    exact (Nat.add_le_add (Nat.add_le_add
      (length_field_short (by decide) (length_num_uint64 _) (by decide))
      (length_field_short (by decide) f.maxFeeRate.fits (by decide)))
      (length_field_short (by decide) (Vector.length_toList).le (by decide))).trans (by decide)
  | updateIsolatedMargin u =>
    simp only [Value.serialize, Client.updateIsolatedMargin, List.length_append]
    exact (Nat.add_le_add (Nat.add_le_add
      (length_field_short (by decide) (length_num_uint32 _) (by decide))
      (length_field_byte (by decide) (length_flag _)))
      (length_field_short (by decide) (length_beBytes 8 _).le (by decide))).trans (by decide)
  | userSetAbstraction u =>
    simp only [Value.serialize, Client.userSetAbstraction, List.length_append]
    exact (Nat.add_le_add
      (length_field_short (by decide) (length_num_uint64 _) (by decide))
      (length_field_byte (by decide) rfl)).trans (by decide)

theorem SetAction.length_serialize_le (s : SetAction) : s.serialize.length ≤ 1020 := by
  simp only [SetAction.serialize, List.length_append]
  exact (Nat.add_le_add (Nat.add_le_add (Nat.add_le_add (Nat.add_le_add
    (length_field_byte (by decide) rfl)
    (length_field_byte (by decide) rfl))
    (length_field_byte (by decide) rfl))
    (length_field_short (by decide) (length_num_uint64 _) (by decide)))
    (length_field_long (by decide) s.action.length_serialize_le (by decide))).trans (by decide)

theorem SetAction.length_serialize_pos (s : SetAction) : 0 < s.serialize.length := by
  simp only [SetAction.serialize, serializeField, List.length_append, List.length_singleton]
  omega

end Hyperliquid.Client

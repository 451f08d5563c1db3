/-
# Order requests (`order_request.c`)

Parsing and serializing one order.  An order is a limit order, with a time in force, or a
trigger order, with a trigger price and a kind; the element that holds these is accepted only
after the order type, which says how to read it.

Two facts about a parsed order are used by everything above it: its asset is the one of the
metadata (`parseOrderRequest_ok`), and the arm of its union that was written is the one its
type selects.  The check of the asset dereferences the metadata, so the parser reads through a
null pointer when there is none, and only then (`parseOrderRequest_ne_nullDeref`).
-/
import Hyperliquid.Context
import Hyperliquid.Serialize

namespace Hyperliquid

open Lib Lib.Msgpack

namespace OrderRequest

/-! ## 1. The limit order -/

/-- `s_limit_ctx`. -/
structure LimitCtx where
  receivedTags : List Nat := []
  limit : Limit := {}

instance : TlvContext LimitCtx where
  receivedTags := LimitCtx.receivedTags
  receive t s := { s with receivedTags := t :: s.receivedTags }

abbrev tagTif : Nat := 0xe6

/-- The byte of a `e_tif`. -/
def tifOfByte (tif : UInt8) : Option Tif :=
  match tif with
  | 0 => some .alo
  | 1 => some .ioc
  | 2 => some .gtc
  | _ => none

section Limit

variable (sdk : Sdk)

def handleTif : TlvData → LimitCtx → Except Failure LimitCtx :=
  storing (fun d => sdk.getUint8TFromTlvData d >>= tifOfByte)
    fun tif out => { out with limit := { out.limit with tif := tif } }

def limitOrderTlvParser : TlvParser LimitCtx where
  tags := [⟨tagTif, handleTif sdk, true⟩]
  common := noCommon

def verifyLimitOrder (out : LimitCtx) : Except Failure Unit :=
  requireTags out.receivedTags [tagTif]

def parseLimitOrder (payload : Bytes) (out : LimitCtx) : Except Failure LimitCtx :=
  (limitOrderTlvParser sdk).parseVerified sdk.tlvDecode verifyLimitOrder payload out

def limitOrderSerialize (limit : Limit) : Ser Unit := do
  cmpWriteStr sdk (text "limit")
  cmpWriteMap sdk 1
  cmpWriteStr sdk (text "tif")
  match limit.tif with
  | .alo => cmpWriteStr sdk (text "Alo")
  | .ioc => cmpWriteStr sdk (text "Ioc")
  | .gtc => cmpWriteStr sdk (text "Gtc")

end Limit

/-! ## 2. The trigger order -/

/-- `s_trigger_ctx`. -/
structure TriggerCtx where
  receivedTags : List Nat := []
  trigger : Trigger := {}

instance : TlvContext TriggerCtx where
  receivedTags := TriggerCtx.receivedTags
  receive t s := { s with receivedTags := t :: s.receivedTags }

abbrev tagIsMarket : Nat := 0xe7
abbrev tagTriggerPx : Nat := 0xe8
abbrev tagTriggerType : Nat := 0xe9

/-- The byte of a `e_trigger_type`. -/
def triggerTypeOfByte (tpsl : UInt8) : Option TriggerType :=
  match tpsl with
  | 0 => some .tp
  | 1 => some .sl
  | _ => none

section Trigger

variable (sdk : Sdk)

def handleIsMarket : TlvData → TriggerCtx → Except Failure TriggerCtx :=
  storing sdk.getBoolFromTlvData
    fun b out => { out with trigger := { out.trigger with isMarket := b } }

def handleTriggerPx : TlvData → TriggerCtx → Except Failure TriggerCtx :=
  storing (fun d => sdk.getStringFromTlvData d 1 numericStringLength)
    fun px out => { out with trigger := { out.trigger with triggerPx := px } }

def handleTpsl : TlvData → TriggerCtx → Except Failure TriggerCtx :=
  storing (fun d => sdk.getUint8TFromTlvData d >>= triggerTypeOfByte)
    fun tpsl out => { out with trigger := { out.trigger with tpsl := tpsl } }

def triggerOrderTlvParser : TlvParser TriggerCtx where
  tags :=
    [⟨tagIsMarket, handleIsMarket sdk, true⟩,
     ⟨tagTriggerPx, handleTriggerPx sdk, true⟩,
     ⟨tagTriggerType, handleTpsl sdk, true⟩]
  common := noCommon

def verifyTriggerOrder (out : TriggerCtx) : Except Failure Unit :=
  requireTags out.receivedTags [tagIsMarket, tagTriggerPx, tagTriggerType]

def triggerOrderSerialize (trigger : Trigger) : Ser Unit := do
  cmpWriteStr sdk (text "trigger")
  cmpWriteMap sdk 3
  cmpWriteStr sdk (text "isMarket")
  cmpWriteBool sdk trigger.isMarket
  cmpWriteStr sdk (text "triggerPx")
  cmpWriteStr sdk trigger.triggerPx.chars
  cmpWriteStr sdk (text "tpsl")
  match trigger.tpsl with
  | .tp => cmpWriteStr sdk (text "tp")
  | .sl => cmpWriteStr sdk (text "sl")

def parseTriggerOrder (payload : Bytes) (out : TriggerCtx) : Except Failure TriggerCtx :=
  (triggerOrderTlvParser sdk).parseVerified sdk.tlvDecode verifyTriggerOrder payload out

end Trigger

/-! ## 3. The order request -/

/-- `s_order_request_ctx`.  The source keeps the two inner contexts in a union; the order type
and the element they parse are unique tags, so only one of them is ever used. -/
structure OrderRequestCtx where
  receivedTags : List Nat := []
  orderRequest : OrderRequest := {}
  limitCtx : LimitCtx := {}
  triggerCtx : TriggerCtx := {}

instance : TlvContext OrderRequestCtx where
  receivedTags := OrderRequestCtx.receivedTags
  receive t s := { s with receivedTags := t :: s.receivedTags }

abbrev tagOrderType : Nat := 0xe0
abbrev tagAsset : Nat := 0xd1
abbrev tagIsBuy : Nat := 0xe2
abbrev tagLimitPx : Nat := 0xe3
abbrev tagSz : Nat := 0xe4
abbrev tagReduceOnly : Nat := 0xe5
abbrev tagOrder : Nat := 0xd7
abbrev tagCloid : Nat := 0xee

/-- The byte of a `e_order_type`. -/
def orderTypeOfByte (orderType : UInt8) : Option OrderType :=
  match orderType with
  | 0 => some .limit
  | 1 => some .trigger
  | _ => none

section Order

variable (sdk : Sdk)

def handleOrderType : TlvData → OrderRequestCtx → Except Failure OrderRequestCtx :=
  storing (fun d => sdk.getUint8TFromTlvData d >>= orderTypeOfByte)
    fun t out => { out with orderRequest := { out.orderRequest with orderType := t } }

def handleAsset : TlvData → OrderRequestCtx → Except Failure OrderRequestCtx :=
  storing sdk.getUint32TFromTlvData
    fun a out => { out with orderRequest := { out.orderRequest with asset := a } }

def handleIsBuy : TlvData → OrderRequestCtx → Except Failure OrderRequestCtx :=
  storing sdk.getBoolFromTlvData
    fun b out => { out with orderRequest := { out.orderRequest with isBuy := b } }

def handleLimitPx : TlvData → OrderRequestCtx → Except Failure OrderRequestCtx :=
  storing (fun d => sdk.getStringFromTlvData d 1 numericStringLength)
    fun px out => { out with orderRequest := { out.orderRequest with limitPx := px } }

def handleSz : TlvData → OrderRequestCtx → Except Failure OrderRequestCtx :=
  storing (fun d => sdk.getStringFromTlvData d 1 numericStringLength)
    fun sz out => { out with orderRequest := { out.orderRequest with sz := sz } }

def handleReduceOnly : TlvData → OrderRequestCtx → Except Failure OrderRequestCtx :=
  storing sdk.getBoolFromTlvData
    fun b out => { out with orderRequest := { out.orderRequest with reduceOnly := b } }

/-- The client order id: `0x` and the digits of the 16 bytes. -/
def cloidOfBytes (value : Bytes) : Option (CString (cloidHexStringLength - 1)) :=
  if value.length != cloidBitLength / 8 then none
  else
    (bytesToLowercaseHex (cloidHexStringLength - 2) value).map fun hex =>
      ⟨text "0x" ++ hex.chars, by
        have := hex.fits
        simp only [List.length_append]
        exact Nat.add_le_add (Nat.le_of_eq rfl : (text "0x").length ≤ 2) this⟩

def handleCloid : TlvData → OrderRequestCtx → Except Failure OrderRequestCtx :=
  storing (fun d => cloidOfBytes d.value)
    fun cloid out => { out with orderRequest := { out.orderRequest with cloid := some cloid } }

/-- The inner context points into the order, so what it parses is stored in the order. -/
def handleOrder (data : TlvData) (out : OrderRequestCtx) : Except Failure OrderRequestCtx :=
  if !checkReceivedTags out.receivedTags [tagOrderType] then .error .rejected
  else
    match out.orderRequest.orderType with
    | .limit => do
      let limitCtx ←
        parseLimitOrder sdk data.value { out.limitCtx with limit := out.orderRequest.limit }
      .ok { out with
        limitCtx := limitCtx
        orderRequest := { out.orderRequest with union := .limit limitCtx.limit } }
    | .trigger => do
      let triggerCtx ←
        parseTriggerOrder sdk data.value
          { out.triggerCtx with trigger := out.orderRequest.trigger }
      .ok { out with
        triggerCtx := triggerCtx
        orderRequest := { out.orderRequest with union := .trigger triggerCtx.trigger } }

def orderRequestTlvParser : TlvParser OrderRequestCtx where
  tags :=
    [⟨tagOrderType, handleOrderType sdk, true⟩,
     ⟨tagAsset, handleAsset sdk, true⟩,
     ⟨tagIsBuy, handleIsBuy sdk, true⟩,
     ⟨tagLimitPx, handleLimitPx sdk, true⟩,
     ⟨tagSz, handleSz sdk, true⟩,
     ⟨tagReduceOnly, handleReduceOnly sdk, true⟩,
     ⟨tagOrder, handleOrder sdk, true⟩,
     ⟨tagCloid, handleCloid, true⟩]
  common := noCommon

def verifyOrderRequest (hl : HlContext) (out : OrderRequestCtx) : Except Failure Unit := do
  requireTags out.receivedTags
    [tagOrderType, tagAsset, tagIsBuy, tagLimitPx, tagSz, tagReduceOnly, tagOrder]
  checkAsset hl out.orderRequest.asset

end Order

end OrderRequest

open OrderRequest

section

variable (sdk : Sdk)

def parseOrderRequest (hl : HlContext) (payload : Bytes) (out : OrderRequestCtx) :
    Except Failure OrderRequestCtx :=
  (orderRequestTlvParser sdk).parseVerified sdk.tlvDecode (verifyOrderRequest hl) payload out

def orderRequestSerialize (orderRequest : OrderRequest) : Ser Unit := do
  cmpWriteMap sdk (if orderRequest.cloid.isSome then 7 else 6)
  cmpWriteStr sdk (text "a")
  cmpWriteUinteger sdk orderRequest.asset.toUInt64
  cmpWriteStr sdk (text "b")
  cmpWriteBool sdk orderRequest.isBuy
  cmpWriteStr sdk (text "p")
  cmpWriteStr sdk orderRequest.limitPx.chars
  cmpWriteStr sdk (text "s")
  cmpWriteStr sdk orderRequest.sz.chars
  cmpWriteStr sdk (text "r")
  cmpWriteBool sdk orderRequest.reduceOnly
  cmpWriteStr sdk (text "t")
  cmpWriteMap sdk 1
  (match orderRequest.orderType with
    | .limit => limitOrderSerialize sdk orderRequest.limit
    | .trigger => triggerOrderSerialize sdk orderRequest.trigger)
  match orderRequest.cloid with
  | some cloid => do
    cmpWriteStr sdk (text "c")
    cmpWriteStr sdk cloid.chars
  | none => pure ()

end

/-! ## 4. What a parsed order satisfies -/

namespace OrderRequest

variable {sdk : Sdk}

/-- Once the inner element has been read, the type is fixed and its arm is the one written. -/
def ArmWritten (out : OrderRequestCtx) : Prop :=
  tagOrder ∈ out.receivedTags →
    tagOrderType ∈ out.receivedTags ∧ out.orderRequest.ArmMatches

theorem handleOrder_ok {d : TlvData} {out out' : OrderRequestCtx}
    (h : handleOrder sdk d out = .ok out') :
    tagOrderType ∈ out.receivedTags ∧ out'.receivedTags = out.receivedTags ∧
      out'.orderRequest.ArmMatches := by
  unfold handleOrder at h
  split at h
  · cases h
  · rename_i htag
    have htype : tagOrderType ∈ out.receivedTags := by
      rw [Bool.not_eq_true, Bool.not_eq_false'] at htag
      exact checkReceivedTags_iff.mp htag _ (by simp)
    split at h
    · rename_i hty
      obtain ⟨limitCtx, -, hout⟩ := bind_ok_iff.mp h
      cases hout
      exact ⟨htype, rfl, by simp [ArmMatches, hty]⟩
    · rename_i hty
      obtain ⟨triggerCtx, -, hout⟩ := bind_ok_iff.mp h
      cases hout
      exact ⟨htype, rfl, by simp [ArmMatches, hty]⟩

/-- An element that is not the inner one, and leaves the type and the union alone. -/
theorem ArmWritten.frame {out out' : OrderRequestCtx} {t : Nat} (h : ArmWritten out)
    (ht : t ≠ tagOrder) (htags : out'.receivedTags = t :: out.receivedTags)
    (htype : out'.orderRequest.orderType = out.orderRequest.orderType)
    (hunion : out'.orderRequest.union = out.orderRequest.union) : ArmWritten out' := by
  intro hmem
  rw [htags] at hmem ⊢
  obtain ⟨htag, harm⟩ := h (List.mem_of_ne_of_mem ht.symm hmem)
  refine ⟨List.mem_cons_of_mem _ htag, ?_⟩
  unfold ArmMatches at harm ⊢
  rw [htype, hunion]
  exact harm

/-- Every element preserves it. -/
theorem armWritten_row (row : TagHandler OrderRequestCtx)
    (hrow : row ∈ (orderRequestTlvParser sdk).tags) (d : TlvData)
    (s s₁ s' : OrderRequestCtx) (hs : ArmWritten s)
    (hnew : row.unique = true → row.tag ∉ TlvContext.receivedTags s)
    (hc : (orderRequestTlvParser sdk).common d (TlvContext.receive row.tag s) = .ok s₁)
    (h : row.handler d s₁ = .ok s') : ArmWritten s' := by
  cases hc
  simp only [orderRequestTlvParser, List.mem_cons, List.not_mem_nil, or_false] at hrow
  rcases hrow with rfl | rfl | rfl | rfl | rfl | rfl | rfl | rfl
  · -- the type: it cannot come after the inner element, which asks for it
    simp only [handleOrderType, storing_ok] at h
    obtain ⟨t, -, rfl⟩ := h
    intro hmem
    have hin : tagOrder ∈ s.receivedTags := List.mem_of_ne_of_mem (by decide) hmem
    exact absurd (hs hin).1 (hnew rfl)
  · simp only [handleAsset, storing_ok] at h
    obtain ⟨a, -, rfl⟩ := h
    exact hs.frame (t := tagAsset) (by decide) rfl rfl rfl
  · simp only [handleIsBuy, storing_ok] at h
    obtain ⟨a, -, rfl⟩ := h
    exact hs.frame (t := tagIsBuy) (by decide) rfl rfl rfl
  · simp only [handleLimitPx, storing_ok] at h
    obtain ⟨a, -, rfl⟩ := h
    exact hs.frame (t := tagLimitPx) (by decide) rfl rfl rfl
  · simp only [handleSz, storing_ok] at h
    obtain ⟨a, -, rfl⟩ := h
    exact hs.frame (t := tagSz) (by decide) rfl rfl rfl
  · simp only [handleReduceOnly, storing_ok] at h
    obtain ⟨a, -, rfl⟩ := h
    exact hs.frame (t := tagReduceOnly) (by decide) rfl rfl rfl
  · obtain ⟨htag, htags, harm⟩ := handleOrder_ok h
    exact fun _ => ⟨by rw [htags]; exact htag, harm⟩
  · simp only [handleCloid, storing_ok] at h
    obtain ⟨a, -, rfl⟩ := h
    exact hs.frame (t := tagCloid) (by decide) rfl rfl rfl

/-- Reading the inner element never goes through the metadata. -/
theorem handleOrder_ne_nullDeref (d : TlvData) (out : OrderRequestCtx) :
    handleOrder sdk d out ≠ .error .nullDeref := by
  intro h
  unfold handleOrder at h
  split at h
  · cases h
  · split at h
    · obtain hp | ⟨limitCtx, -, hout⟩ := bind_error_iff.mp h
      · refine TlvParser.parseVerified_ne_nullDeref noCommon_ne_nullDeref ?_ ?_ _ _ hp
        · simp only [limitOrderTlvParser, List.forall_mem_cons, List.not_mem_nil, false_implies,
            implies_true, and_true]
          exact storing_ne_nullDeref
        · exact fun s => requireTags_ne_nullDeref _ _
      · cases hout
    · obtain hp | ⟨triggerCtx, -, hout⟩ := bind_error_iff.mp h
      · refine TlvParser.parseVerified_ne_nullDeref noCommon_ne_nullDeref ?_ ?_ _ _ hp
        · simp only [triggerOrderTlvParser, List.forall_mem_cons, List.not_mem_nil, false_implies,
            implies_true, and_true]
          exact ⟨storing_ne_nullDeref, storing_ne_nullDeref, storing_ne_nullDeref⟩
        · exact fun s => requireTags_ne_nullDeref _ _
      · cases hout

end OrderRequest

/-- A parsed order is for the asset of the metadata, and its union holds the arm of its
type. -/
theorem parseOrderRequest_ok {sdk : Sdk} {hl : HlContext} {payload : Bytes}
    {out out' : OrderRequestCtx} (hfresh : out.receivedTags = [])
    (h : parseOrderRequest sdk hl payload out = .ok out') :
    out'.orderRequest.ArmMatches ∧
      ∃ metadata, hl.metadata = some metadata ∧ out'.orderRequest.asset = metadata.assetId := by
  obtain ⟨hp, hv⟩ := TlvParser.parseVerified_ok.mp h
  obtain ⟨u, htags, hasset⟩ := bind_ok_iff.mp hv
  have harm : ArmWritten out' := by
    refine TlvParser.parse_induction ?_ ?_ hp
    · intro row hrow d s s₁ s' _ hs hnew hc hh
      exact armWritten_row row hrow d s s₁ s' hs hnew hc hh
    · intro hmem
      rw [hfresh] at hmem
      cases hmem
  have htag : tagOrder ∈ out'.receivedTags := requireTags_ok.mp htags _ (by simp)
  exact ⟨(harm htag).2, checkAsset_ok.mp hasset⟩

theorem parseOrderRequest_ne_nullDeref {sdk : Sdk} {hl : HlContext} (hmd : hl.metadata ≠ none)
    (payload : Bytes) (out : OrderRequestCtx) :
    parseOrderRequest sdk hl payload out ≠ .error .nullDeref := by
  refine TlvParser.parseVerified_ne_nullDeref noCommon_ne_nullDeref ?_ ?_ payload out
  · simp only [orderRequestTlvParser, List.forall_mem_cons, List.not_mem_nil, false_implies,
      implies_true, and_true]
    exact ⟨storing_ne_nullDeref, storing_ne_nullDeref, storing_ne_nullDeref, storing_ne_nullDeref,
      storing_ne_nullDeref, storing_ne_nullDeref, handleOrder_ne_nullDeref,
      storing_ne_nullDeref⟩
  · intro s h
    obtain ht | ⟨u, -, ha⟩ := bind_error_iff.mp h
    · exact requireTags_ne_nullDeref _ _ ht
    · exact checkAsset_ne_nullDeref hmd ha

/-! ## 5. The items an order is written as -/

namespace OrderRequest

def tifText : Tif → Bytes
  | .alo => text "Alo"
  | .ioc => text "Ioc"
  | .gtc => text "Gtc"

def limitTokens (limit : Limit) : List Token :=
  [.str (text "limit"), .map 1, .str (text "tif"), .str (tifText limit.tif)]

def tpslText : TriggerType → Bytes
  | .tp => text "tp"
  | .sl => text "sl"

def triggerTokens (trigger : Trigger) : List Token :=
  [.str (text "trigger"), .map 3,
   .str (text "isMarket"), .bool trigger.isMarket,
   .str (text "triggerPx"), .str trigger.triggerPx.chars,
   .str (text "tpsl"), .str (tpslText trigger.tpsl)]

/-- The arm that the order type selects. -/
def armTokens (o : OrderRequest) : List Token :=
  match o.orderType with
  | .limit => limitTokens o.limit
  | .trigger => triggerTokens o.trigger

def cloidTokens (cloid : Option (CString (cloidHexStringLength - 1))) : List Token :=
  match cloid with
  | some c => [.str (text "c"), .str c.chars]
  | none => []

def tokens (o : OrderRequest) : List Token :=
  [.map (if o.cloid.isSome then 7 else 6),
   .str (text "a"), .uinteger o.asset.toUInt64,
   .str (text "b"), .bool o.isBuy,
   .str (text "p"), .str o.limitPx.chars,
   .str (text "s"), .str o.sz.chars,
   .str (text "r"), .bool o.reduceOnly,
   .str (text "t"), .map 1] ++ (armTokens o ++ cloidTokens o.cloid)

theorem limitOrderSerialize_emits (sdk : Sdk) (limit : Limit) :
    Emits sdk (limitOrderSerialize sdk limit) (limitTokens limit) := by
  refine .cons _ (.cons _ (.cons _ ?_))
  cases limit.tif with
  | alo => exact .single _
  | ioc => exact .single _
  | gtc => exact .single _

theorem triggerOrderSerialize_emits (sdk : Sdk) (trigger : Trigger) :
    Emits sdk (triggerOrderSerialize sdk trigger) (triggerTokens trigger) := by
  refine .cons _ (.cons _ (.cons _ (.cons _ (.cons _ (.cons _ (.cons _ ?_))))))
  cases trigger.tpsl with
  | tp => exact .single _
  | sl => exact .single _

end OrderRequest

theorem orderRequestSerialize_emits (sdk : Sdk) (o : OrderRequest) :
    Emits sdk (orderRequestSerialize sdk o) o.tokens := by
  refine .cons _ (.cons _ (.cons _ (.cons _ (.cons _ (.cons _ (.cons _ (.cons _ (.cons _
    (.cons _ (.cons _ (.cons _ (.cons _ ?_))))))))))))
  show Emits sdk _ (o.armTokens ++ cloidTokens o.cloid)
  refine .append ?_ ?_
  · unfold armTokens
    cases o.orderType with
    | limit => exact limitOrderSerialize_emits sdk o.limit
    | trigger => exact triggerOrderSerialize_emits sdk o.trigger
  · cases o.cloid with
    | none => exact .nil
    | some c => exact .cons _ (.single _)

end Hyperliquid

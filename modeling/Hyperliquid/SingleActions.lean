/-
# The actions that are one structure

`update_leverage.c`, `update_isolated_margin.c`, `approve_builder_fee.c` and
`user_set_abstraction.c`.  The first two are bound to the asset of the metadata and are
serialized; the other two carry a chain id instead and are signed as EIP-712 structures of
their own, so they have no serializer.

`approve_builder_fee.c` checks that its three elements are present and nothing else: the
builder is the one the payload names.
-/
import Hyperliquid.Context
import Hyperliquid.Serialize

namespace Hyperliquid

open Lib Lib.Msgpack

/-! ## 1. update_leverage.c -/

namespace UpdateLeverage

/-- `s_update_leverage_ctx`. -/
structure UpdateLeverageCtx where
  receivedTags : List Nat := []
  updateLeverage : UpdateLeverage := {}

instance : TlvContext UpdateLeverageCtx where
  receivedTags := UpdateLeverageCtx.receivedTags
  receive t s := { s with receivedTags := t :: s.receivedTags }

abbrev tagAsset : Nat := 0xd1
abbrev tagIsCross : Nat := 0xde
abbrev tagLeverage : Nat := 0xed

section

variable (sdk : Sdk) (hl : HlContext)

def handleAsset : TlvData → UpdateLeverageCtx → Except Failure UpdateLeverageCtx :=
  storing sdk.getUint32TFromTlvData
    fun a out => { out with updateLeverage := { out.updateLeverage with asset := a } }

def handleIsCross : TlvData → UpdateLeverageCtx → Except Failure UpdateLeverageCtx :=
  storing sdk.getBoolFromTlvData
    fun b out => { out with updateLeverage := { out.updateLeverage with isCross := b } }

def handleLeverage : TlvData → UpdateLeverageCtx → Except Failure UpdateLeverageCtx :=
  storing sdk.getUint32TFromTlvData
    fun l out => { out with updateLeverage := { out.updateLeverage with leverage := l } }

def updateLeverageTlvParser : TlvParser UpdateLeverageCtx where
  tags :=
    [⟨tagAsset, handleAsset sdk, true⟩,
     ⟨tagIsCross, handleIsCross sdk, true⟩,
     ⟨tagLeverage, handleLeverage sdk, true⟩]
  common := noCommon

def verifyUpdateLeverage (out : UpdateLeverageCtx) : Except Failure Unit := do
  requireTags out.receivedTags [tagAsset, tagIsCross, tagLeverage]
  checkAsset hl out.updateLeverage.asset

end

end UpdateLeverage

open UpdateLeverage in
def parseUpdateLeverage (sdk : Sdk) (hl : HlContext) (payload : Bytes)
    (out : UpdateLeverageCtx) : Except Failure UpdateLeverageCtx :=
  (updateLeverageTlvParser sdk).parseVerified sdk.tlvDecode (verifyUpdateLeverage hl) payload out

def updateLeverageSerialize (sdk : Sdk) (updateLeverage : UpdateLeverage) : Ser Unit := do
  cmpWriteMap sdk 4
  cmpWriteStr sdk (text "type")
  cmpWriteStr sdk (text "updateLeverage")
  cmpWriteStr sdk (text "asset")
  cmpWriteUinteger sdk updateLeverage.asset.toUInt64
  cmpWriteStr sdk (text "isCross")
  cmpWriteBool sdk updateLeverage.isCross
  cmpWriteStr sdk (text "leverage")
  cmpWriteUinteger sdk updateLeverage.leverage.toUInt64

/-! ## 2. update_isolated_margin.c -/

namespace UpdateIsolatedMargin

/-- `s_update_isolated_margin_ctx`. -/
structure UpdateIsolatedMarginCtx where
  receivedTags : List Nat := []
  updateIsolatedMargin : UpdateIsolatedMargin := {}

instance : TlvContext UpdateIsolatedMarginCtx where
  receivedTags := UpdateIsolatedMarginCtx.receivedTags
  receive t s := { s with receivedTags := t :: s.receivedTags }

abbrev tagAsset : Nat := 0xd1
abbrev tagIsBuy : Nat := 0xe2
abbrev tagNtli : Nat := 0xd6

section

variable (sdk : Sdk) (hl : HlContext)

def handleAsset : TlvData → UpdateIsolatedMarginCtx → Except Failure UpdateIsolatedMarginCtx :=
  storing sdk.getUint32TFromTlvData
    fun a out =>
      { out with updateIsolatedMargin := { out.updateIsolatedMargin with asset := a } }

def handleIsBuy : TlvData → UpdateIsolatedMarginCtx → Except Failure UpdateIsolatedMarginCtx :=
  storing sdk.getBoolFromTlvData
    fun b out =>
      { out with updateIsolatedMargin := { out.updateIsolatedMargin with isBuy := b } }

/-- The 64 bits are copied into a signed field. -/
def handleNtli : TlvData → UpdateIsolatedMarginCtx → Except Failure UpdateIsolatedMarginCtx :=
  storing sdk.getUint64TFromTlvData
    fun tmp out =>
      { out with updateIsolatedMargin := { out.updateIsolatedMargin with ntli := tmp.toInt64 } }

def updateIsolatedMarginTlvParser : TlvParser UpdateIsolatedMarginCtx where
  tags :=
    [⟨tagAsset, handleAsset sdk, true⟩,
     ⟨tagIsBuy, handleIsBuy sdk, true⟩,
     ⟨tagNtli, handleNtli sdk, true⟩]
  common := noCommon

def verifyUpdateIsolatedMargin (out : UpdateIsolatedMarginCtx) : Except Failure Unit := do
  requireTags out.receivedTags [tagAsset, tagIsBuy, tagNtli]
  checkAsset hl out.updateIsolatedMargin.asset

end

end UpdateIsolatedMargin

open UpdateIsolatedMargin in
def parseUpdateIsolatedMargin (sdk : Sdk) (hl : HlContext) (payload : Bytes)
    (out : UpdateIsolatedMarginCtx) : Except Failure UpdateIsolatedMarginCtx :=
  (updateIsolatedMarginTlvParser sdk).parseVerified sdk.tlvDecode
    (verifyUpdateIsolatedMargin hl) payload out

def updateIsolatedMarginSerialize (sdk : Sdk) (updateIsolatedMargin : UpdateIsolatedMargin) :
    Ser Unit := do
  cmpWriteMap sdk 4
  cmpWriteStr sdk (text "type")
  cmpWriteStr sdk (text "updateIsolatedMargin")
  cmpWriteStr sdk (text "asset")
  cmpWriteUinteger sdk updateIsolatedMargin.asset.toUInt64
  cmpWriteStr sdk (text "isBuy")
  cmpWriteBool sdk updateIsolatedMargin.isBuy
  cmpWriteStr sdk (text "ntli")
  cmpWriteInteger sdk updateIsolatedMargin.ntli

/-! ## 3. approve_builder_fee.c -/

namespace ApproveBuilderFee

/-- `s_approve_builder_fee_ctx`. -/
structure ApproveBuilderFeeCtx where
  receivedTags : List Nat := []
  approveBuilderFee : ApproveBuilderFee := {}

instance : TlvContext ApproveBuilderFeeCtx where
  receivedTags := ApproveBuilderFeeCtx.receivedTags
  receive t s := { s with receivedTags := t :: s.receivedTags }

abbrev tagSignatureChainId : Nat := 0x23
abbrev tagMaxFeeRate : Nat := 0xb0
abbrev tagBuilderAddr : Nat := 0xd3

section

variable (sdk : Sdk)

def handleSignatureChainId :
    TlvData → ApproveBuilderFeeCtx → Except Failure ApproveBuilderFeeCtx :=
  storing sdk.getUint64TFromTlvData
    fun i out =>
      { out with approveBuilderFee := { out.approveBuilderFee with signatureChainId := i } }

def handleMaxFeeRate : TlvData → ApproveBuilderFeeCtx → Except Failure ApproveBuilderFeeCtx :=
  storing (fun d => sdk.getStringFromTlvData d 1 numericStringLength)
    fun r out => { out with approveBuilderFee := { out.approveBuilderFee with maxFeeRate := r } }

def handleBuilder : TlvData → ApproveBuilderFeeCtx → Except Failure ApproveBuilderFeeCtx :=
  storing (fun d => (sdk.getBufferFromTlvData d addressLength addressLength).map addressOfBuffer)
    fun a out => { out with approveBuilderFee := { out.approveBuilderFee with builder := a } }

def approveBuilderFeeTlvParser : TlvParser ApproveBuilderFeeCtx where
  tags :=
    [⟨tagSignatureChainId, handleSignatureChainId sdk, true⟩,
     ⟨tagMaxFeeRate, handleMaxFeeRate sdk, true⟩,
     ⟨tagBuilderAddr, handleBuilder sdk, true⟩]
  common := noCommon

def verifyApproveBuilderFee (out : ApproveBuilderFeeCtx) : Except Failure Unit :=
  requireTags out.receivedTags [tagSignatureChainId, tagMaxFeeRate, tagBuilderAddr]

end

end ApproveBuilderFee

open ApproveBuilderFee in
def parseApproveBuilderFee (sdk : Sdk) (payload : Bytes) (out : ApproveBuilderFeeCtx) :
    Except Failure ApproveBuilderFeeCtx :=
  (approveBuilderFeeTlvParser sdk).parseVerified sdk.tlvDecode verifyApproveBuilderFee payload out

/-! ## 4. user_set_abstraction.c -/

namespace UserSetAbstraction

/-- `s_user_set_abstraction_ctx`. -/
structure UserSetAbstractionCtx where
  receivedTags : List Nat := []
  userSetAbstraction : UserSetAbstraction := {}

instance : TlvContext UserSetAbstractionCtx where
  receivedTags := UserSetAbstractionCtx.receivedTags
  receive t s := { s with receivedTags := t :: s.receivedTags }

abbrev tagSignatureChainId : Nat := 0x23
abbrev tagAbstraction : Nat := 0xdf

section

variable (sdk : Sdk)

def handleSignatureChainId :
    TlvData → UserSetAbstractionCtx → Except Failure UserSetAbstractionCtx :=
  storing sdk.getUint64TFromTlvData
    fun i out =>
      { out with userSetAbstraction := { out.userSetAbstraction with signatureChainId := i } }

def handleAbstraction : TlvData → UserSetAbstractionCtx → Except Failure UserSetAbstractionCtx :=
  storing sdk.getUint8TFromTlvData
    fun b out =>
      { out with userSetAbstraction := { out.userSetAbstraction with abstraction := b } }

def userSetAbstractionTlvParser : TlvParser UserSetAbstractionCtx where
  tags :=
    [⟨tagSignatureChainId, handleSignatureChainId sdk, true⟩,
     ⟨tagAbstraction, handleAbstraction sdk, true⟩]
  common := noCommon

end

def verifyUserSetAbstraction (out : UserSetAbstractionCtx) : Except Failure Unit := do
  requireTags out.receivedTags [tagSignatureChainId, tagAbstraction]
  match out.userSetAbstraction.abstraction with
  | 0 | 1 | 2 => .ok ()
  | _ => .error .rejected

end UserSetAbstraction

open UserSetAbstraction in
def parseUserSetAbstraction (sdk : Sdk) (payload : Bytes) (out : UserSetAbstractionCtx) :
    Except Failure UserSetAbstractionCtx :=
  (userSetAbstractionTlvParser sdk).parseVerified sdk.tlvDecode verifyUserSetAbstraction
    payload out

/-- A null pointer when the byte is not a `e_abstraction`. -/
def getAbstractionString (userSetAbstraction : UserSetAbstraction) : Option Bytes :=
  match userSetAbstraction.abstraction with
  | 0 => some (text "disabled")
  | 1 => some (text "unifiedAccount")
  | 2 => some (text "portfolioMargin")
  | _ => none

/-! ## 5. What the parsed actions satisfy -/

section

variable {sdk : Sdk} {hl : HlContext} {payload : Bytes}

/-- The asset is the one of the metadata. -/
theorem parseUpdateLeverage_ok {out out' : UpdateLeverage.UpdateLeverageCtx}
    (h : parseUpdateLeverage sdk hl payload out = .ok out') :
    ∃ m, hl.metadata = some m ∧ out'.updateLeverage.asset = m.assetId := by
  obtain ⟨-, hv⟩ := TlvParser.parseVerified_ok.mp h
  obtain ⟨u, -, hasset⟩ := bind_ok_iff.mp hv
  exact checkAsset_ok.mp hasset

theorem parseUpdateLeverage_ne_nullDeref (hmd : hl.metadata ≠ none)
    (out : UpdateLeverage.UpdateLeverageCtx) :
    parseUpdateLeverage sdk hl payload out ≠ .error .nullDeref := by
  refine TlvParser.parseVerified_ne_nullDeref noCommon_ne_nullDeref ?_ ?_ payload out
  · simp only [UpdateLeverage.updateLeverageTlvParser, List.forall_mem_cons, List.not_mem_nil,
      false_implies, implies_true, and_true]
    exact ⟨storing_ne_nullDeref, storing_ne_nullDeref, storing_ne_nullDeref⟩
  · intro s h
    obtain ht | ⟨u, -, ha⟩ := bind_error_iff.mp h
    · exact requireTags_ne_nullDeref _ _ ht
    · exact checkAsset_ne_nullDeref hmd ha

/-- The asset is the one of the metadata. -/
theorem parseUpdateIsolatedMargin_ok {out out' : UpdateIsolatedMargin.UpdateIsolatedMarginCtx}
    (h : parseUpdateIsolatedMargin sdk hl payload out = .ok out') :
    ∃ m, hl.metadata = some m ∧ out'.updateIsolatedMargin.asset = m.assetId := by
  obtain ⟨-, hv⟩ := TlvParser.parseVerified_ok.mp h
  obtain ⟨u, -, hasset⟩ := bind_ok_iff.mp hv
  exact checkAsset_ok.mp hasset

theorem parseUpdateIsolatedMargin_ne_nullDeref (hmd : hl.metadata ≠ none)
    (out : UpdateIsolatedMargin.UpdateIsolatedMarginCtx) :
    parseUpdateIsolatedMargin sdk hl payload out ≠ .error .nullDeref := by
  refine TlvParser.parseVerified_ne_nullDeref noCommon_ne_nullDeref ?_ ?_ payload out
  · simp only [UpdateIsolatedMargin.updateIsolatedMarginTlvParser, List.forall_mem_cons,
      List.not_mem_nil, false_implies, implies_true, and_true]
    exact ⟨storing_ne_nullDeref, storing_ne_nullDeref, storing_ne_nullDeref⟩
  · intro s h
    obtain ht | ⟨u, -, ha⟩ := bind_error_iff.mp h
    · exact requireTags_ne_nullDeref _ _ ht
    · exact checkAsset_ne_nullDeref hmd ha

theorem parseApproveBuilderFee_ne_nullDeref (out : ApproveBuilderFee.ApproveBuilderFeeCtx) :
    parseApproveBuilderFee sdk payload out ≠ .error .nullDeref := by
  refine TlvParser.parseVerified_ne_nullDeref noCommon_ne_nullDeref ?_ ?_ payload out
  · simp only [ApproveBuilderFee.approveBuilderFeeTlvParser, List.forall_mem_cons,
      List.not_mem_nil, false_implies, implies_true, and_true]
    exact ⟨storing_ne_nullDeref, storing_ne_nullDeref, storing_ne_nullDeref⟩
  · exact fun s => requireTags_ne_nullDeref _ _

/-- The byte is one of the enumeration, so the abstraction has a name. -/
theorem parseUserSetAbstraction_ok {out out' : UserSetAbstraction.UserSetAbstractionCtx}
    (h : parseUserSetAbstraction sdk payload out = .ok out') :
    out'.userSetAbstraction.abstraction = 0 ∨ out'.userSetAbstraction.abstraction = 1 ∨
      out'.userSetAbstraction.abstraction = 2 := by
  obtain ⟨-, hv⟩ := TlvParser.parseVerified_ok.mp h
  obtain ⟨u, -, hbyte⟩ := bind_ok_iff.mp hv
  split at hbyte
  · exact .inl ‹_›
  · exact .inr (.inl ‹_›)
  · exact .inr (.inr ‹_›)
  · cases hbyte

theorem parseUserSetAbstraction_ne_nullDeref
    (out : UserSetAbstraction.UserSetAbstractionCtx) :
    parseUserSetAbstraction sdk payload out ≠ .error .nullDeref := by
  refine TlvParser.parseVerified_ne_nullDeref noCommon_ne_nullDeref ?_ ?_ payload out
  · simp only [UserSetAbstraction.userSetAbstractionTlvParser, List.forall_mem_cons,
      List.not_mem_nil, false_implies, implies_true, and_true]
    exact ⟨storing_ne_nullDeref, storing_ne_nullDeref⟩
  · intro s h
    obtain ht | ⟨u, -, hb⟩ := bind_error_iff.mp h
    · exact requireTags_ne_nullDeref _ _ ht
    · split at hb <;> cases hb

end

/-! ## 6. The items they are written as -/

def UpdateLeverage.tokens (u : UpdateLeverage) : List Token :=
  [.map 4, .str (text "type"), .str (text "updateLeverage"),
   .str (text "asset"), .uinteger u.asset.toUInt64,
   .str (text "isCross"), .bool u.isCross,
   .str (text "leverage"), .uinteger u.leverage.toUInt64]

def UpdateIsolatedMargin.tokens (u : UpdateIsolatedMargin) : List Token :=
  [.map 4, .str (text "type"), .str (text "updateIsolatedMargin"),
   .str (text "asset"), .uinteger u.asset.toUInt64,
   .str (text "isBuy"), .bool u.isBuy,
   .str (text "ntli"), .integer u.ntli]

theorem updateLeverageSerialize_emits (sdk : Sdk) (u : UpdateLeverage) :
    Emits sdk (updateLeverageSerialize sdk u) u.tokens :=
  .cons _ (.cons _ (.cons _ (.cons _ (.cons _ (.cons _ (.cons _ (.cons _ (.single _))))))))

theorem updateIsolatedMarginSerialize_emits (sdk : Sdk) (u : UpdateIsolatedMargin) :
    Emits sdk (updateIsolatedMarginSerialize sdk u) u.tokens :=
  .cons _ (.cons _ (.cons _ (.cons _ (.cons _ (.cons _ (.cons _ (.cons _ (.single _))))))))

end Hyperliquid

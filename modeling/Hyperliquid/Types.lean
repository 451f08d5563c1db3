/-
# The data of the application

The structures and enumerations of the headers in `src/`, field by field and under their own
names.  Three conventions carry the representation.

* A `has_x` flag beside a field `x` is an `Option`.
* An array beside its element count is a `Bounded` list, and a `char` array is a `CString`.
* A union is an inductive type with one constructor for each arm.  Which arm C code reads is
  decided by a separate field (`type`, `orderType`), so the structure keeps both, and reading
  an arm that was not written yields that arm zeroed.  No stored value is ever read so:
  `OrderRequest.ArmMatches` and `Action.ArmMatches` hold of everything that parses.

The default value of every field is the zeroed one, which is what `= {0}` and
`explicit_bzero` leave.
-/
import Hyperliquid.Lib.Bounded

namespace Hyperliquid

open Lib

/-! ## 1. constants.h -/

abbrev addressLength : Nat := 20
abbrev assetTickerLength : Nat := 48
abbrev numericStringLength : Nat := 21
abbrev bulkMaxSize : Nat := 5
abbrev marginDecimals : Nat := 6
abbrev shortLongStringLength : Nat := 5
abbrev limitMarketStringLength : Nat := 6
abbrev uint32StringLength : Nat := 10
abbrev cloidBitLength : Nat := 128
abbrev priceStringLength : Nat := numericStringLength + 1 + assetTickerLength
abbrev sizeStringLength : Nat := priceStringLength
abbrev marginStringLength : Nat := priceStringLength
abbrev leverageStringLength : Nat := uint32StringLength + 1
abbrev cloidHexStringLength : Nat := 2 + cloidBitLength / 8 * 2 + 1

/-- `COUNTERVALUE_TICKER`. -/
def countervalueTicker : Bytes := text "USDC"

/-- `APPNAME`, from the Makefile. -/
def appname : Bytes := text "Hyperliquid"

/-- `uint8_t [ADDRESS_LENGTH]`. -/
abbrev Address := Vector UInt8 addressLength

/-- A 32-byte digest. -/
abbrev Hash := Vector UInt8 32

/-! ## 2. action_metadata.h -/

inductive OperationType where
  | order
  | modify
  | cancel
  | updateLeverage
  | close
  | updateMargin
  | cancelSl
  | cancelTp
  | cancelTpSl
deriving DecidableEq, Inhabited

inductive Network where
  | mainnet
  | testnet
deriving DecidableEq, Inhabited

structure ActionMetadata where
  opType : OperationType := .order
  assetId : UInt32 := 0
  assetTicker : CString assetTickerLength := .empty
  network : Network := .mainnet
  builderAddr : Option Address := none
  margin : Option UInt64 := none
  leverage : Option UInt32 := none
deriving DecidableEq, Inhabited

/-! ## 3. order_request.h -/

inductive OrderType where
  | limit
  | trigger
deriving DecidableEq, Inhabited

inductive Tif where
  | alo
  | ioc
  | gtc
deriving DecidableEq, Inhabited

inductive TriggerType where
  | tp
  | sl
deriving DecidableEq, Inhabited

structure Limit where
  tif : Tif := .alo
deriving DecidableEq, Inhabited

structure Trigger where
  isMarket : Bool := false
  triggerPx : CString numericStringLength := .empty
  tpsl : TriggerType := .tp
deriving DecidableEq, Inhabited

/-- The union of `s_order_request`. -/
inductive OrderUnion where
  | limit (l : Limit)
  | trigger (t : Trigger)
deriving DecidableEq, Inhabited

structure OrderRequest where
  asset : UInt32 := 0
  isBuy : Bool := false
  limitPx : CString numericStringLength := .empty
  sz : CString numericStringLength := .empty
  reduceOnly : Bool := false
  orderType : OrderType := .limit
  union : OrderUnion := .limit {}
  cloid : Option (CString (cloidHexStringLength - 1)) := none
deriving DecidableEq, Inhabited

namespace OrderRequest

/-- `order_request.limit`. -/
def limit (o : OrderRequest) : Limit :=
  match o.union with
  | .limit l => l
  | .trigger _ => {}

/-- `order_request.trigger`. -/
def trigger (o : OrderRequest) : Trigger :=
  match o.union with
  | .trigger t => t
  | .limit _ => {}

/-- The arm of the union that was written is the one `order_type` selects. -/
def ArmMatches (o : OrderRequest) : Prop :=
  match o.orderType, o.union with
  | .limit, .limit _ => True
  | .trigger, .trigger _ => True
  | _, _ => False

end OrderRequest

/-! ## 4. The seven kinds of action -/

inductive Grouping where
  | na
  | normalTpsl
  | positionTpsl
deriving DecidableEq, Inhabited

structure BuilderInfo where
  builder : Address := Vector.replicate addressLength 0
  fee : UInt64 := 0
deriving DecidableEq, Inhabited

structure BulkOrder where
  orders : Bounded OrderRequest bulkMaxSize := .empty
  grouping : Grouping := .na
  builder : Option BuilderInfo := none
deriving DecidableEq, Inhabited

structure ModifyRequest where
  oid : UInt64 := 0
  order : OrderRequest := {}
deriving DecidableEq, Inhabited

structure BulkModify where
  modifies : Bounded ModifyRequest bulkMaxSize := .empty
deriving DecidableEq, Inhabited

structure CancelRequest where
  asset : UInt32 := 0
  oid : UInt64 := 0
deriving DecidableEq, Inhabited

structure BulkCancel where
  cancels : Bounded CancelRequest bulkMaxSize := .empty
deriving DecidableEq, Inhabited

structure UpdateLeverage where
  asset : UInt32 := 0
  isCross : Bool := false
  leverage : UInt32 := 0
deriving DecidableEq, Inhabited

structure ApproveBuilderFee where
  signatureChainId : UInt64 := 0
  maxFeeRate : CString numericStringLength := .empty
  builder : Address := Vector.replicate addressLength 0
deriving DecidableEq, Inhabited

structure UpdateIsolatedMargin where
  asset : UInt32 := 0
  isBuy : Bool := false
  ntli : Int64 := 0
deriving DecidableEq, Inhabited

/-- `abstraction` is the byte the payload gave: the parser stores it before it is checked. -/
structure UserSetAbstraction where
  signatureChainId : UInt64 := 0
  abstraction : UInt8 := 0
deriving DecidableEq, Inhabited

/-! ## 5. action.h -/

inductive ActionType where
  | bulkOrder
  | bulkModify
  | bulkCancel
  | updateLeverage
  | approveBuilderFee
  | updateIsolatedMargin
  | userSetAbstraction
deriving DecidableEq, Inhabited

/-- The union of `s_action`. -/
inductive ActionUnion where
  | bulkOrder (b : BulkOrder)
  | bulkModify (b : BulkModify)
  | bulkCancel (b : BulkCancel)
  | updateLeverage (u : UpdateLeverage)
  | approveBuilderFee (a : ApproveBuilderFee)
  | updateIsolatedMargin (u : UpdateIsolatedMargin)
  | userSetAbstraction (u : UserSetAbstraction)
deriving DecidableEq, Inhabited

/-- The action type that selects the arm. -/
def ActionUnion.type : ActionUnion → ActionType
  | .bulkOrder _ => .bulkOrder
  | .bulkModify _ => .bulkModify
  | .bulkCancel _ => .bulkCancel
  | .updateLeverage _ => .updateLeverage
  | .approveBuilderFee _ => .approveBuilderFee
  | .updateIsolatedMargin _ => .updateIsolatedMargin
  | .userSetAbstraction _ => .userSetAbstraction

structure Action where
  type : ActionType := .bulkOrder
  nonce : UInt64 := 0
  union : ActionUnion := .bulkOrder {}
deriving DecidableEq, Inhabited

namespace Action

def bulkOrder (a : Action) : BulkOrder :=
  match a.union with
  | .bulkOrder b => b
  | _ => {}

def bulkModify (a : Action) : BulkModify :=
  match a.union with
  | .bulkModify b => b
  | _ => {}

def bulkCancel (a : Action) : BulkCancel :=
  match a.union with
  | .bulkCancel b => b
  | _ => {}

def updateLeverage (a : Action) : UpdateLeverage :=
  match a.union with
  | .updateLeverage u => u
  | _ => {}

def approveBuilderFee (a : Action) : ApproveBuilderFee :=
  match a.union with
  | .approveBuilderFee f => f
  | _ => {}

def updateIsolatedMargin (a : Action) : UpdateIsolatedMargin :=
  match a.union with
  | .updateIsolatedMargin u => u
  | _ => {}

def userSetAbstraction (a : Action) : UserSetAbstraction :=
  match a.union with
  | .userSetAbstraction u => u
  | _ => {}

/-- The arm of the union that was written is the one `type` selects. -/
def ArmMatches (a : Action) : Prop := a.union.type = a.type

/-- Then the union holds that arm. -/
theorem ArmMatches.union_eq {a : Action} (h : a.ArmMatches) :
    a.union =
      match a.type with
      | .bulkOrder => .bulkOrder a.bulkOrder
      | .bulkModify => .bulkModify a.bulkModify
      | .bulkCancel => .bulkCancel a.bulkCancel
      | .updateLeverage => .updateLeverage a.updateLeverage
      | .approveBuilderFee => .approveBuilderFee a.approveBuilderFee
      | .updateIsolatedMargin => .updateIsolatedMargin a.updateIsolatedMargin
      | .userSetAbstraction => .userSetAbstraction a.userSetAbstraction := by
  obtain ⟨type, nonce, union⟩ := a
  obtain rfl : union.type = type := h
  cases union <;> rfl

theorem ext_union {a b : Action} (htype : a.type = b.type) (hnonce : a.nonce = b.nonce)
    (hunion : a.union = b.union) : a = b := by
  cases a
  cases b
  cases htype
  cases hnonce
  cases hunion
  rfl

end Action

/-! ## 6. The session context and the signing context -/

/-- `MAX_ACTION_COUNT`. -/
abbrev maxActionCount : Nat := 10

/-- `s_hl_context`. -/
structure HlContext where
  metadata : Option ActionMetadata := none
  actions : Bounded Action maxActionCount := .empty
  actionIndex : Nat := 0
deriving DecidableEq, Inhabited

/-- `action_count`. -/
def HlContext.actionCount (ctx : HlContext) : Nat := ctx.actions.count

/-- `MAX_BIP32_PATH` of the SDK. -/
abbrev maxBip32Path : Nat := 10

/-- `s_signing_ctx`. -/
structure SigningCtx where
  bip32Path : Vector UInt32 maxBip32Path := Vector.replicate maxBip32Path 0
  bip32PathLength : UInt8 := 0
  walletAddr : Address := Vector.replicate addressLength 0
deriving DecidableEq, Inhabited

end Hyperliquid

/-
# What a review shows (`ui_context.h`, `ui/common.c`)

A review is a list of pairs, an item and a value, and two messages built from an intent.  In
the source each value is printed into a `char` array of its own, and the pair points to it;
here the pair holds the text that `snprintf` left in the array.

The functions that look for orders by kind are lookups in a list: `get_order_request` finds the
first that matches, `count_order_requests` counts them.
-/
import Hyperliquid.Context
import Hyperliquid.Sdk
import Hyperliquid.Lib.Decimal

namespace Hyperliquid

open Lib

/-! ## 1. ui_context.h -/

abbrev intentStringLength : Nat := 100
abbrev reviewSignStringLength : Nat := 128
abbrev maxUiPairs : Nat := 16

/-- `nbgl_contentTagValue_t`. -/
structure Pair where
  item : String
  value : Bytes
deriving DecidableEq

/-- `s_ui_ctx`. -/
structure UiCtx where
  pairs : List Pair := []
  intent : CString intentStringLength := .empty
  reviewMsg : CString reviewSignStringLength := .empty
  signMsg : CString reviewSignStringLength := .empty
deriving DecidableEq

/-- Fills the next pair and counts it. -/
def UiCtx.addPair (uiCtx : UiCtx) (item : String) (value : Bytes) : UiCtx :=
  { uiCtx with pairs := uiCtx.pairs ++ [⟨item, value⟩] }

/-- A pair that is shown when there is something to show. -/
def UiCtx.addPair? {α : Type} (uiCtx : UiCtx) (item : String) (value : α → Bytes) :
    Option α → UiCtx
  | none => uiCtx
  | some a => uiCtx.addPair item (value a)

@[simp] theorem UiCtx.addPair_pairs (uiCtx : UiCtx) (item : String) (value : Bytes) :
    (uiCtx.addPair item value).pairs = uiCtx.pairs ++ [⟨item, value⟩] := rfl

@[simp] theorem UiCtx.addPair?_pairs {α : Type} (uiCtx : UiCtx) (item : String)
    (value : α → Bytes) (o : Option α) :
    (uiCtx.addPair? item value o).pairs =
      uiCtx.pairs ++ (o.map fun a => (⟨item, value a⟩ : Pair)).toList := by
  cases o <;> simp [addPair?]

/-! ## 2. Texts that several reviews print -/

/-- `"%s %s"` with the countervalue ticker, into a price buffer. -/
def priceText (px : CString numericStringLength) : Bytes :=
  (snprintf priceStringLength (px.chars ++ text " " ++ countervalueTicker)).chars

/-- `"%s %s"` with the asset ticker, into a size buffer. -/
def sizeText (sz : CString numericStringLength) (ticker : CString assetTickerLength) : Bytes :=
  (snprintf sizeStringLength (sz.chars ++ text " " ++ ticker.chars)).chars

/-- `"%ux"`, into a leverage buffer. -/
def leverageText (leverage : UInt32) : Bytes :=
  (snprintf leverageStringLength (decimal leverage.toNat ++ text "x")).chars

/-- An amount with `MARGIN_DECIMALS` decimals and the countervalue ticker. -/
def marginText (sdk : Sdk) (margin : UInt64) : Bytes :=
  let tmp := sdk.formatFpu64Trimmed (numericStringLength + marginDecimals) margin marginDecimals
  (snprintf marginStringLength (tmp.chars ++ text " " ++ countervalueTicker)).chars

/-- A `uint64_t` in a buffer for 20 digits. -/
def oidText (sdk : Sdk) (oid : UInt64) : Bytes := (sdk.formatU64 20 oid).chars

/-- `format_u64` prints the exact decimal, into a buffer that holds it. -/
def Sdk.PrintsU64 (sdk : Sdk) : Prop :=
  ∀ cap value, (decimal value.toNat).length ≤ cap →
    (sdk.formatU64 cap value).chars = decimal value.toNat

/-- `format_fpu64_trimmed` prints the exact decimal without trailing zeros, into a buffer that has
room for all digits of the number, the point, and as many zeros as there are decimals. -/
def Sdk.PrintsFpu64WithRoom (sdk : Sdk) : Prop :=
  ∀ cap value decimals, (decimal value.toNat).length + 1 + decimals ≤ cap →
    (sdk.formatFpu64Trimmed cap value decimals).chars = fixedTrimmed decimals value.toNat

theorem length_decimal_uint64_le (value : UInt64) : (decimal value.toNat).length ≤ 20 := by
  refine length_decimal_le (by omega) ?_
  have := value.toNat_lt
  omega

theorem oidText_eq {sdk : Sdk} (h : sdk.PrintsU64) (oid : UInt64) :
    oidText sdk oid = decimal oid.toNat := h 20 oid (length_decimal_uint64_le oid)

theorem oidText_inj {sdk : Sdk} (h : sdk.PrintsU64) {oid oid' : UInt64}
    (ht : oidText sdk oid = oidText sdk oid') : oid = oid' := by
  rw [oidText_eq h, oidText_eq h] at ht
  exact UInt64.toNat_inj.mp (decimal_inj ht)

/-- An amount is printed whole. -/
theorem marginText_eq {sdk : Sdk} (h : sdk.PrintsFpu64WithRoom) (margin : UInt64) :
    marginText sdk margin = fixedTrimmed 6 margin.toNat ++ text " USDC" := by
  have hdigits := length_decimal_uint64_le margin
  have hlen : (fixedTrimmed 6 margin.toNat).length ≤ 27 := by
    have hle := length_fixedTrimmed_le 6 margin.toNat
    have hwhole := length_decimal_mono (Nat.div_le_self margin.toNat (10 ^ 6))
    omega
  have hroom : (decimal margin.toNat).length + 1 + marginDecimals ≤
      numericStringLength + marginDecimals := by
    simp only [numericStringLength]
    omega
  have hprint := h (numericStringLength + marginDecimals) margin marginDecimals hroom
  unfold marginText
  simp only [hprint]
  rw [snprintf_of_fits]
  · rw [List.append_assoc]
    rfl
  · have hunit : (text " ").length + countervalueTicker.length = 5 := rfl
    simp only [List.length_append, marginStringLength, priceStringLength, numericStringLength,
      assetTickerLength, marginDecimals]
    omega

/-- Nothing is cut: a price buffer is longer than any price. -/
theorem priceText_eq (px : CString numericStringLength) :
    priceText px = px.chars ++ text " USDC" := by
  have hfits := px.fits
  unfold priceText
  rw [snprintf_of_fits]
  · rw [List.append_assoc]
    rfl
  · simp only [List.length_append]
    have h : (text " ").length + countervalueTicker.length = 5 := rfl
    simp only [priceStringLength, numericStringLength, assetTickerLength] at hfits ⊢
    omega

theorem priceText_inj {px px' : CString numericStringLength} (h : priceText px = priceText px') :
    px = px' := by
  rw [priceText_eq, priceText_eq] at h
  exact CString.ext (List.append_cancel_right h)

theorem sizeText_eq (sz : CString numericStringLength) (ticker : CString assetTickerLength) :
    sizeText sz ticker = sz.chars ++ (text " " ++ ticker.chars) := by
  have hsz := sz.fits
  have hticker := ticker.fits
  unfold sizeText
  rw [snprintf_of_fits, List.append_assoc]
  simp only [List.length_append]
  have h : (text " ").length = 1 := rfl
  simp only [sizeStringLength, priceStringLength, numericStringLength, assetTickerLength] at *
  omega

theorem sizeText_inj {sz sz' : CString numericStringLength} {ticker : CString assetTickerLength}
    (h : sizeText sz ticker = sizeText sz' ticker) : sz = sz' := by
  rw [sizeText_eq, sizeText_eq] at h
  exact CString.ext (List.append_cancel_right h)

theorem leverageText_eq (leverage : UInt32) :
    leverageText leverage = decimal leverage.toNat ++ text "x" := by
  unfold leverageText
  rw [snprintf_of_fits]
  have hlen : (decimal leverage.toNat).length ≤ 10 := by
    refine length_decimal_le (by omega) ?_
    have := leverage.toNat_lt
    omega
  have h : (text "x").length = 1 := rfl
  simp only [List.length_append, leverageStringLength, uint32StringLength]
  omega

theorem leverageText_inj {l l' : UInt32} (h : leverageText l = leverageText l') : l = l' := by
  rw [leverageText_eq, leverageText_eq] at h
  exact UInt32.toNat_inj.mp (decimal_inj (List.append_cancel_right h))

/-! ## 3. ui/common.c -/

section

variable (sdk : Sdk)

def showMetadataMargin (uiCtx : UiCtx) (metadata : ActionMetadata) : UiCtx :=
  uiCtx.addPair? "Margin" (marginText sdk) metadata.margin

end

def showMetadataLeverage (uiCtx : UiCtx) (metadata : ActionMetadata) : UiCtx :=
  uiCtx.addPair? "Leverage" leverageText metadata.leverage

def getOrderRequest (list : List OrderRequest) (matchFunc : OrderRequest → Bool) :
    Option OrderRequest := list.find? matchFunc

def countOrderRequests (list : List OrderRequest) (matchFunc : OrderRequest → Bool) : Nat :=
  list.countP matchFunc

def getLimitRequest (req : OrderRequest) : Bool := req.orderType == .limit

def getTriggerTp (req : OrderRequest) : Bool :=
  req.orderType == .trigger && req.trigger.tpsl == .tp

def getTriggerSl (req : OrderRequest) : Bool :=
  req.orderType == .trigger && req.trigger.tpsl == .sl

/-- For a reduce-only order the label is the side of the position it closes. -/
def shortLongString (req : OrderRequest) (shortStr longStr : Bytes) : Bytes :=
  if req.reduceOnly then
    if req.isBuy then shortStr else longStr
  else
    if req.isBuy then longStr else shortStr

def getShortLongString (req : OrderRequest) : Bytes :=
  shortLongString req (text "short") (text "long")

def getShortLongStringCapitalized (req : OrderRequest) : Bytes :=
  shortLongString req (text "Short") (text "Long")

/-- Market triggers carry `limit_px == trigger_px` by convention. -/
def checkTriggerCloseOrder (trigger : OrderRequest) : Bool :=
  trigger.reduceOnly && trigger.trigger.isMarket && trigger.limitPx == trigger.trigger.triggerPx

def checkTriggerMatchesLimit (trigger limit : OrderRequest) : Bool :=
  checkTriggerCloseOrder trigger && trigger.isBuy != limit.isBuy && trigger.sz == limit.sz

/-! ## 4. What they say -/

theorem checkTriggerCloseOrder_iff {t : OrderRequest} :
    checkTriggerCloseOrder t = true ↔
      t.reduceOnly = true ∧ t.trigger.isMarket = true ∧ t.limitPx = t.trigger.triggerPx := by
  simp [checkTriggerCloseOrder, and_assoc]

theorem checkTriggerMatchesLimit_iff {t l : OrderRequest} :
    checkTriggerMatchesLimit t l = true ↔
      checkTriggerCloseOrder t = true ∧ t.isBuy = (!l.isBuy) ∧ t.sz = l.sz := by
  unfold checkTriggerMatchesLimit
  cases t.isBuy <;> cases l.isBuy <;> simp

/-- The side that is shown is `is_buy xor reduce_only`. -/
theorem shortLongString_eq (req : OrderRequest) (shortStr longStr : Bytes) :
    shortLongString req shortStr longStr =
      if req.isBuy != req.reduceOnly then longStr else shortStr := by
  unfold shortLongString
  cases req.reduceOnly <;> cases req.isBuy <;> rfl

theorem getShortLongString_eq (req : OrderRequest) :
    getShortLongString req =
      if req.isBuy != req.reduceOnly then text "long" else text "short" :=
  shortLongString_eq req _ _

theorem getShortLongStringCapitalized_eq (req : OrderRequest) :
    getShortLongStringCapitalized req =
      if req.isBuy != req.reduceOnly then text "Long" else text "Short" :=
  shortLongString_eq req _ _

end Hyperliquid

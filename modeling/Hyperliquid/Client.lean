/-
# A host and an SDK (`tests/application_client/`)

The commands that the client of the tests sends, and an SDK that reads them: elements with DER
tags and lengths, big-endian numbers, the shortest MessagePack forms, exact decimals, and the
two hash functions.  A session of the client is a list of inputs of the application; the
theorems about all SDKs and all runs are instantiated with it.
-/
import Hyperliquid.AppMain
import Hyperliquid.Lib.Hash
import Hyperliquid.Lib.MsgpackShortest
import Hyperliquid.Lib.TlvElements

namespace Hyperliquid.Client

open Lib Lib.Msgpack

/-! ## 1. tlv.py -/

/-- A number in as few bytes as it takes, and at least one. -/
def num (n : Nat) : Bytes := beBytes (n.log2 / 8 + 1) n

def derEncode (value : Nat) : Bytes :=
  if value < 0x80 then [UInt8.ofNat value]
  else UInt8.ofNat (0x80 + (num value).length) :: num value

def serializeField (tag : Nat) (value : Bytes) : Bytes :=
  derEncode tag ++ derEncode value.length ++ value

def flag (b : Bool) : Bytes := if b then [1] else [0]

/-! ## 2. The structures -/

def limit (l : Limit) : Bytes :=
  serializeField 0xe6 (match l.tif with | .alo => [0] | .ioc => [1] | .gtc => [2])

def trigger (t : Trigger) : Bytes :=
  serializeField 0xe7 (flag t.isMarket) ++ serializeField 0xe8 t.triggerPx.chars ++
    serializeField 0xe9 (match t.tpsl with | .tp => [0] | .sl => [1])

/-- An order without a client order id. -/
def orderRequest (o : OrderRequest) : Bytes :=
  serializeField 0xe0 (match o.orderType with | .limit => [0] | .trigger => [1]) ++
    serializeField 0xd1 (num o.asset.toNat) ++ serializeField 0xe2 (flag o.isBuy) ++
    serializeField 0xe3 o.limitPx.chars ++ serializeField 0xe4 o.sz.chars ++
    serializeField 0xe5 (flag o.reduceOnly) ++
    serializeField 0xd7 (match o.union with | .limit l => limit l | .trigger t => trigger t)

def builderInfo (b : BuilderInfo) : Bytes :=
  serializeField 0xd3 b.builder.toList ++ serializeField 0xec (num b.fee.toNat)

def bulkOrder (b : BulkOrder) : Bytes :=
  b.orders.elems.flatMap (fun o => serializeField 0xdd (orderRequest o)) ++
    serializeField 0xea
      (match b.grouping with | .na => [0] | .normalTpsl => [1] | .positionTpsl => [2]) ++
    match b.builder with
    | none => []
    | some i => serializeField 0xeb (builderInfo i)

def modifyRequest (m : ModifyRequest) : Bytes :=
  serializeField 0xdd (orderRequest m.order) ++ serializeField 0xdc (num m.oid.toNat)

def bulkModify (b : BulkModify) : Bytes :=
  b.modifies.elems.flatMap fun m => serializeField 0xd8 (modifyRequest m)

def cancelRequest (c : CancelRequest) : Bytes :=
  serializeField 0xd1 (num c.asset.toNat) ++ serializeField 0xdc (num c.oid.toNat)

def bulkCancel (b : BulkCancel) : Bytes :=
  b.cancels.elems.flatMap fun c => serializeField 0xd9 (cancelRequest c)

def updateLeverage (u : UpdateLeverage) : Bytes :=
  serializeField 0xd1 (num u.asset.toNat) ++ serializeField 0xde (flag u.isCross) ++
    serializeField 0xed (num u.leverage.toNat)

def approveBuilderFee (a : ApproveBuilderFee) : Bytes :=
  serializeField 0x23 (num a.signatureChainId.toNat) ++ serializeField 0xb0 a.maxFeeRate.chars ++
    serializeField 0xd3 a.builder.toList

def updateIsolatedMargin (u : UpdateIsolatedMargin) : Bytes :=
  serializeField 0xd1 (num u.asset.toNat) ++ serializeField 0xe2 (flag u.isBuy) ++
    serializeField 0xd6 (beBytes 8 u.ntli.toUInt64.toNat)

def userSetAbstraction (u : UserSetAbstraction) : Bytes :=
  serializeField 0x23 (num u.signatureChainId.toNat) ++ serializeField 0xdf [u.abstraction]

/-- `SetAction`. -/
def action (a : Action) : Bytes :=
  let (type, payload) : UInt8 × Bytes :=
    match a.union with
    | .bulkOrder b => (0, bulkOrder b)
    | .bulkModify b => (1, bulkModify b)
    | .bulkCancel b => (2, bulkCancel b)
    | .updateLeverage u => (3, updateLeverage u)
    | .approveBuilderFee f => (4, approveBuilderFee f)
    | .updateIsolatedMargin u => (5, updateIsolatedMargin u)
    | .userSetAbstraction u => (6, userSetAbstraction u)
  serializeField 0x01 [0x2c] ++ serializeField 0x02 [1] ++ serializeField 0xd0 [type] ++
    serializeField 0xda (num a.nonce.toNat) ++ serializeField 0xdb payload

def operationType : OperationType → UInt8
  | .order => 0
  | .modify => 1
  | .cancel => 2
  | .updateLeverage => 3
  | .close => 4
  | .updateMargin => 5
  | .cancelSl => 6
  | .cancelTp => 7
  | .cancelTpSl => 8

/-- With the bytes of a signature that the PKI check accepts. -/
def actionMetadata (m : ActionMetadata) : Bytes :=
  serializeField 0x01 [0x2b] ++ serializeField 0x02 [1] ++
    serializeField 0xd0 [operationType m.opType] ++ serializeField 0xd1 (num m.assetId.toNat) ++
    serializeField 0x24 m.assetTicker.chars ++
    serializeField 0xd2 (match m.network with | .mainnet => [0] | .testnet => [1]) ++
    (match m.builderAddr with | none => [] | some a => serializeField 0xd3 a.toList) ++
    (match m.margin with | none => [] | some v => serializeField 0xd4 (num v.toNat)) ++
    (match m.leverage with | none => [] | some l => serializeField 0xd5 (num l.toNat)) ++
    serializeField 0x15 (List.replicate 70 0)

/-! ## 3. command_sender.py -/

/-- `MAX_APDU_LEN`. -/
def maxApduLen : Nat := 255

/-- The primitives succeed, and the PKI check accepts. -/
def env : Env where
  cx := List.replicate 64 true
  pubkey := some (Vector.replicate 65 4)
  ecdsa := some ⟨Vector.replicate 32 1, Vector.replicate 32 2, false, false⟩
  pki _ _ := true

def exchange (ins p1 : UInt8) (data : Bytes) : Input := .apdu (some ⟨cla, ins, p1, 0, data⟩) env

/-- The chunks after the first; the number bounds how many. -/
def following (ins : UInt8) : Nat → Bytes → List Input
  | 0, _ => []
  | _ + 1, [] => []
  | n + 1, data =>
    exchange ins p1Following (data.take maxApduLen) :: following ins n (data.drop maxApduLen)

/-- `_send_chunked`. -/
def sendChunked (ins : UInt8) (payload : Bytes) : List Input :=
  let data := beBytes 2 payload.length ++ payload
  exchange ins p1First (data.take maxApduLen) ::
    following ins payload.length (data.drop maxApduLen)

def provideActionMetadata (m : ActionMetadata) : List Input :=
  sendChunked insProvideActionMetadata (actionMetadata m)

def setAction (a : Action) : List Input := sendChunked insSetAction (action a)

/-- The path `44'/60'/0'/0/0`. -/
def bip32Path : List Nat := [0x8000002c, 0x8000003c, 0x80000000, 0, 0]

def signAction : Input :=
  exchange insSignAction 0
    (UInt8.ofNat bip32Path.length :: bip32Path.flatMap fun level => beBytes 4 level)

/-- A session up to the review: the metadata, and the actions. -/
def session (m : ActionMetadata) (actions : List Action) : List Input :=
  provideActionMetadata m ++ actions.flatMap setAction

/-! ## 4. The SDK -/

/-- A DER tag or length. -/
def derDecode : Bytes → Option (Nat × Bytes)
  | [] => none
  | b :: rest =>
    if b.toNat < 0x80 then some (b.toNat, rest)
    else if b.toNat ≤ 0x84 then takeNat (b.toNat - 0x80) rest
    else none

/-- The elements of a payload; the number bounds how many. -/
def tlvElements : Nat → Bytes → Option (List TlvData)
  | _, [] => some []
  | 0, _ :: _ => none
  | n + 1, bytes => do
    let (tag, rest) ← derDecode bytes
    let (length, rest) ← derDecode rest
    let (value, rest) ← takeBytes length rest
    let ds ← tlvElements n rest
    some (⟨tag, value, bytes.take (bytes.length - rest.length)⟩ :: ds)

/-- A big-endian number of at most `k` bytes. -/
def getUint (k : Nat) (d : TlvData) : Option Nat :=
  if d.value.isEmpty || d.value.length > k then none else some (beNat d.value)

/-- The levels of a path. -/
def pathLevels : Nat → Bytes → Option (List UInt32)
  | 0, _ => some []
  | n + 1, bytes => do
    let (level, rest) ← takeNat 4 bytes
    let levels ← pathLevels n rest
    some (UInt32.ofNat level :: levels)

def sdk : Sdk where
  tlvDecode bytes := tlvElements bytes.length bytes
  getUint8TFromTlvData d := (getUint 1 d).map UInt8.ofNat
  getUint32TFromTlvData d := (getUint 4 d).map UInt32.ofNat
  getUint64TFromTlvData d := (getUint 8 d).map UInt64.ofNat
  getBoolFromTlvData d :=
    match getUint 1 d with
    | some 0 => some false
    | some 1 => some true
    | _ => none
  getStringFromTlvData d minLength cap :=
    if h : minLength ≤ d.value.length ∧ d.value.length ≤ cap then
      some ⟨d.value.takeWhile (· != 0), (List.takeWhile_prefix _).length_le.trans h.2⟩
    else none
  getBufferFromTlvData d minLength maxLength :=
    if h : minLength ≤ d.value.length ∧ d.value.length ≤ maxLength then some ⟨d.value, h⟩ else none
  bip32PathRead bytes length :=
    if length.toNat = 0 ∨ maxBip32Path < length.toNat then none
    else (pathLevels length.toNat bytes).map fun levels =>
      Vector.ofFn fun i => levels.getD i.val 0
  formatU64 cap value := snprintf cap (decimal value.toNat)
  formatFpu64Trimmed cap value decimals := snprintf cap (fixedTrimmed decimals value.toNat)
  keccak256 := Hash.keccak256
  sha256 := Hash.sha256
  cmp := shortest
  screenSizeWallet := true

/-! ## 5. What the sessions of the tests are made of -/

def chars {cap : Nat} (s : String) : CString cap := snprintf cap (text s)

/-- Metadata of ETH on the main network. -/
def ethMetadata (opType : OperationType) : ActionMetadata :=
  { opType := opType, assetId := 1, assetTicker := chars "ETH" }

def limitRequest (isBuy reduceOnly : Bool) (tif : Tif) (limitPx sz : String) : OrderRequest :=
  { asset := 1, isBuy := isBuy, limitPx := chars limitPx, sz := chars sz,
    reduceOnly := reduceOnly, orderType := .limit, union := .limit ⟨tif⟩ }

/-- A market trigger that closes. -/
def triggerRequest (isBuy : Bool) (tpsl : TriggerType) (triggerPx sz : String) : OrderRequest :=
  { asset := 1, isBuy := isBuy, limitPx := chars triggerPx, sz := chars sz, reduceOnly := true,
    orderType := .trigger, union := .trigger ⟨true, chars triggerPx, tpsl⟩ }

/-- At most `bulkMaxSize` elements. -/
def bulk {α : Type} (elems : List α) : Bounded α bulkMaxSize :=
  ⟨elems.take bulkMaxSize, List.length_take_le _ _⟩

def bulkOrderAction (orders : List OrderRequest) : Action :=
  { type := .bulkOrder, nonce := 1772544780138, union := .bulkOrder { orders := bulk orders } }

def builder : Address :=
  #v[0xc0, 0x70, 0x8c, 0xdd, 0x6c, 0xd1, 0x66, 0xd5, 0x1d, 0xa2, 0x64, 0xe3, 0xf4, 0x9a, 0x04,
     0x22, 0xbe, 0x26, 0xe3, 0x5b]

def approveBuilderFeeAction : Action :=
  { type := .approveBuilderFee, nonce := 1772546706895,
    union := .approveBuilderFee ⟨42161, chars "0.1000%", builder⟩ }

def updateLeverageAction : Action :=
  { type := .updateLeverage, nonce := 1772544778963, union := .updateLeverage ⟨1, false, 5⟩ }

def bulkModifyAction (modifies : List ModifyRequest) : Action :=
  { type := .bulkModify, nonce := 1772813706895,
    union := .bulkModify { modifies := bulk modifies } }

def bulkCancelAction (oids : List UInt64) : Action :=
  { type := .bulkCancel, nonce := 1772813983827,
    union := .bulkCancel { cancels := bulk (oids.map fun oid => ⟨1, oid⟩) } }

def updateIsolatedMarginAction (isBuy : Bool) (ntli : Int64) : Action :=
  { type := .updateIsolatedMargin, nonce := 1772815233543,
    union := .updateIsolatedMargin ⟨1, isBuy, ntli⟩ }

/-- The SDK prints exact decimals. -/
theorem sdk_printsU64 : sdk.PrintsU64 := fun _ _ h => snprintf_of_fits h

theorem sdk_printsFpu64WithRoom : sdk.PrintsFpu64WithRoom := by
  intro cap value decimals hroom
  have hlength := length_fixedTrimmed_le decimals value.toNat
  have hdigits := length_decimal_mono (Nat.div_le_self value.toNat (10 ^ decimals))
  exact snprintf_of_fits (by omega)

/-! ## 6. How the SDK cuts a payload -/

/-- The first element of a payload, and the rest. -/
def element (bytes : Bytes) : Option (TlvData × Bytes) := do
  let (tag, rest) ← derDecode bytes
  let (length, rest) ← derDecode rest
  let (value, rest) ← takeBytes length rest
  some (⟨tag, value, bytes.take (bytes.length - rest.length)⟩, rest)

theorem takeBytes_some {k : Nat} {bytes value rest : Bytes}
    (h : takeBytes k bytes = some (value, rest)) : bytes = value ++ rest ∧ value.length = k := by
  unfold takeBytes at h
  split at h
  · cases h
  · rename_i hk
    cases h
    refine ⟨(List.take_append_drop k bytes).symm, ?_⟩
    rw [List.length_take]
    omega

theorem derDecode_short {b : UInt8} (h : b.toNat < 0x80) (rest : Bytes) :
    derDecode (b :: rest) = some (b.toNat, rest) := if_pos h

theorem derDecode_long {b : UInt8} (h : ¬ b.toNat < 0x80) (h' : b.toNat ≤ 0x84) (rest : Bytes) :
    derDecode (b :: rest) = takeNat (b.toNat - 0x80) rest :=
  (if_neg h).trans (if_pos h')

theorem derDecode_none {b : UInt8} (h : ¬ b.toNat < 0x80) (h' : ¬ b.toNat ≤ 0x84)
    (rest : Bytes) : derDecode (b :: rest) = none :=
  (if_neg h).trans (if_neg h')

/-- A tag or a length is read off its own bytes. -/
theorem derDecode_some {bytes rest : Bytes} {n : Nat} (h : derDecode bytes = some (n, rest)) :
    ∃ head, head ≠ [] ∧ bytes = head ++ rest ∧
      ∀ rest', derDecode (head ++ rest') = some (n, rest') := by
  cases bytes with
  | nil => cases h
  | cons b bytes =>
    by_cases hshort : b.toNat < 0x80
    · rw [derDecode_short hshort] at h
      cases h
      exact ⟨[b], by simp, rfl, derDecode_short hshort⟩
    · by_cases hlong : b.toNat ≤ 0x84
      · rw [derDecode_long hshort hlong] at h
        obtain ⟨⟨digits, rest₁⟩, htake, hn⟩ := Option.map_eq_some_iff.mp h
        cases hn
        obtain ⟨rfl, hlength⟩ := takeBytes_some htake
        refine ⟨b :: digits, by simp, rfl, fun rest' => ?_⟩
        have hdigits := takeBytes_append digits rest'
        rw [hlength] at hdigits
        rw [List.cons_append, derDecode_long hshort hlong, takeNat, hdigits]
        rfl
      · rw [derDecode_none hshort hlong] at h
        cases h

/-- The bytes of a tag, of a length and of a value make an element. -/
theorem element_eq {head head' value : Bytes} {tag : Nat}
    (htag : ∀ rest, derDecode (head ++ rest) = some (tag, rest))
    (hlength : ∀ rest, derDecode (head' ++ rest) = some (value.length, rest)) (rest : Bytes) :
    element (head ++ head' ++ value ++ rest) =
      some (⟨tag, value, head ++ head' ++ value⟩, rest) := by
  have hraw : (head ++ head' ++ value ++ rest).take
      ((head ++ head' ++ value ++ rest).length - rest.length) = head ++ head' ++ value := by
    rw [List.length_append, Nat.add_sub_cancel, List.take_left]
  simp only [List.append_assoc] at hraw ⊢
  simp only [element, htag, hlength, takeBytes_append, hraw, Option.bind_eq_bind,
    Option.bind_some]

/-- An element is read off its own bytes. -/
theorem element_some {bytes rest : Bytes} {d : TlvData} (h : element bytes = some (d, rest)) :
    bytes = d.raw ++ rest ∧ d.raw ≠ [] ∧ ∀ rest', element (d.raw ++ rest') = some (d, rest') := by
  obtain ⟨⟨tag, rest₁⟩, htag, h'⟩ := Option.bind_eq_some_iff.mp h
  obtain ⟨⟨length, rest₂⟩, hlength, h'⟩ := Option.bind_eq_some_iff.mp h'
  obtain ⟨⟨value, rest₃⟩, hvalue, -⟩ := Option.bind_eq_some_iff.mp h'
  obtain ⟨head, hne, rfl, htag'⟩ := derDecode_some htag
  obtain ⟨head', -, rfl, hlength'⟩ := derDecode_some hlength
  obtain ⟨rfl, rfl⟩ := takeBytes_some hvalue
  have heq := element_eq htag' hlength' rest₃
  simp only [List.append_assoc] at heq
  rw [h] at heq
  cases heq
  refine ⟨by simp, by simp [hne], fun rest' => ?_⟩
  have hagain := element_eq htag' hlength' rest'
  simp only [List.append_assoc] at hagain ⊢
  exact hagain

theorem tlvElements_cons {n : Nat} {bytes : Bytes} (hne : bytes ≠ []) :
    tlvElements (n + 1) bytes =
      (element bytes).bind fun p => (tlvElements n p.2).map fun ds => p.1 :: ds := by
  cases bytes with
  | nil => exact absurd rfl hne
  | cons b bs =>
    simp only [tlvElements, element, Option.bind_eq_bind, Option.bind_assoc]
    cases derDecode (b :: bs) with
    | none => rfl
    | some p =>
      simp only [Option.bind_some]
      cases derDecode p.2 with
      | none => rfl
      | some q =>
        simp only [Option.bind_some]
        cases takeBytes q.1 q.2 with
        | none => rfl
        | some v =>
          simp only [Option.bind_some]
          cases tlvElements n v.2 <;> rfl

/-- Bounds on the number of elements that are no smaller than the number of bytes are alike. -/
theorem tlvElements_bound {n m : Nat} (bytes : Bytes) (hn : bytes.length ≤ n)
    (hm : bytes.length ≤ m) : tlvElements n bytes = tlvElements m bytes := by
  induction n generalizing m bytes with
  | zero =>
    obtain rfl : bytes = [] := List.length_eq_zero_iff.mp (Nat.le_zero.mp hn)
    cases m <;> rfl
  | succ n ih =>
    by_cases hne : bytes = []
    · rw [hne]
      cases m <;> rfl
    · have hpos := List.length_pos_of_ne_nil hne
      obtain ⟨m, rfl⟩ : ∃ k, m = k + 1 := ⟨m - 1, by omega⟩
      rw [tlvElements_cons hne, tlvElements_cons hne]
      refine Option.bind_congr fun p hp => ?_
      obtain ⟨hbytes, hraw, -⟩ := element_some hp
      have hlt : p.2.length < bytes.length := by
        have hrawpos := List.length_pos_of_ne_nil hraw
        rw [hbytes, List.length_append]
        omega
      have hrest : tlvElements n p.2 = tlvElements m p.2 := ih p.2 (by omega) (by omega)
      rw [hrest]

/-- The elements are cut off one after the other. -/
theorem sdk_splits : Splits sdk.tlvDecode element where
  nil := rfl
  cons bytes hne := by
    show tlvElements bytes.length bytes = _
    rw [tlvElements_bound bytes (Nat.le_refl _) (Nat.le_succ _), tlvElements_cons hne]
    refine Option.bind_congr fun p hp => ?_
    obtain ⟨hbytes, -, -⟩ := element_some hp
    have hle : p.2.length ≤ bytes.length := by
      rw [hbytes, List.length_append]
      omega
    show _ = (tlvElements p.2.length p.2).map _
    rw [tlvElements_bound p.2 hle (Nat.le_refl _)]
  raw _ _ _ h := ⟨(element_some h).1, (element_some h).2.1⟩
  alone _ _ _ h := (element_some h).2.2

end Hyperliquid.Client

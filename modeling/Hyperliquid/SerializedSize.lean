/-
# The serialization fits its buffer

The longest action is a `batchModify` of five trigger orders with every optional part: 938 bytes,
in a buffer of 1024.  The bounds follow the structures: an order, a modify request, the arrays of
up to five of them, and the fixed parts around them.

So no write of a serializer is refused, and computing the connection id fails only where one of
its five hash calls does.
-/
import Hyperliquid.Action
import Hyperliquid.Client
import Hyperliquid.Lib.MsgpackSize

namespace Hyperliquid

open Lib Lib.Msgpack

/-! ## 1. The parts of an action -/

/-- A price or a size. -/
theorem size_numericString (s : CString numericStringLength) : (Token.str s.chars).size ≤ 22 := by
  have hfits : s.chars.length ≤ 21 := s.fits
  rw [size_str_short (by omega)]
  omega

namespace OrderRequest

theorem size_limitTokens (limit : Limit) : size (limitTokens limit) = 15 := by
  unfold limitTokens
  cases limit.tif with
  | alo => decide
  | ioc => decide
  | gtc => decide

theorem size_triggerTokens (trigger : Trigger) : size (triggerTokens trigger) ≤ 59 := by
  have hpx := size_numericString trigger.triggerPx
  have hkeys : size [.str (text "trigger"), .map 3, .str (text "isMarket"),
      .str (text "triggerPx"), .str (text "tpsl")] = 33 := by decide
  have htpsl : (Token.str (tpslText trigger.tpsl)).size = 3 := by
    cases trigger.tpsl with
    | tp => decide
    | sl => decide
  simp only [size_cons, size_nil] at hkeys
  simp only [triggerTokens, size_cons, size_nil, size_bool]
  omega

theorem size_armTokens (o : OrderRequest) : size o.armTokens ≤ 59 := by
  unfold armTokens
  cases o.orderType with
  | limit =>
    have hlimit := size_limitTokens o.limit
    dsimp only
    omega
  | trigger => exact size_triggerTokens o.trigger

theorem size_cloidTokens (cloid : Option (CString (cloidHexStringLength - 1))) :
    size (cloidTokens cloid) ≤ 38 := by
  cases cloid with
  | none => decide
  | some c =>
    have hfits : c.chars.length ≤ 34 := c.fits
    have hkey : (Token.str (text "c")).size = 2 := by decide
    have hvalue := size_str_le (s := c.chars) (by omega)
    simp only [cloidTokens, size_cons, size_nil]
    omega

/-- An order. -/
theorem size_tokens (o : OrderRequest) : size o.tokens ≤ 162 := by
  have hkeys : size [.str (text "a"), .str (text "b"), .str (text "p"), .str (text "s"),
      .str (text "r"), .str (text "t"), .map 1] = 13 := by decide
  have hmap : (Token.map (if o.cloid.isSome then 7 else 6)).size = 1 := by
    split
    · decide
    · decide
  have hasset := size_uinteger_of_uint32 o.asset
  have hpx := size_numericString o.limitPx
  have hsz := size_numericString o.sz
  have harm := size_armTokens o
  have hcloid := size_cloidTokens o.cloid
  simp only [size_cons, size_nil] at hkeys
  simp only [tokens, size_append, size_cons, size_nil, size_bool]
  omega

end OrderRequest

/-- An array of up to five elements, each of which takes at most `k`. -/
theorem size_arrayTokens {α : Type} (key : Bytes) {f : α → List Token} {k : Nat}
    (h : ∀ x, size (f x) ≤ k) (arr : Bounded α bulkMaxSize) :
    size (arrayTokens key f arr) ≤ (Token.str key).size + 1 + 5 * k := by
  have hbound : arr.elems.length ≤ 5 := arr.bound
  have hcount : (UInt32.ofNat arr.count).toNat < 16 := by
    have hlt : arr.elems.length < 2 ^ 32 := by omega
    rw [Bounded.count, UInt32.toNat_ofNat_of_lt' hlt]
    omega
  have helems := size_flatMap_le h arr.elems
  have hmul : arr.elems.length * k ≤ 5 * k := Nat.mul_le_mul_right k hbound
  simp only [arrayTokens, size_append, size_cons, size_nil, size_array hcount]
  omega

/-! ## 2. The actions -/

theorem length_builderAddrStr (builder : Address) :
    (BulkOrder.builderAddrStr builder).length ≤ 42 := by
  have hprefix : (text "0x").length = 2 := by decide
  unfold BulkOrder.builderAddrStr
  rw [List.length_append, hprefix]
  cases bytesToLowercaseHex (2 + addressLength * 2 + 1 - 2) builder.toList with
  | none => exact Nat.le_add_right 2 40
  | some hex => exact Nat.add_le_add_left hex.fits 2

theorem BuilderInfo.size_tokens (b : BuilderInfo) : size b.tokens ≤ 66 := by
  have haddr := length_builderAddrStr b.builder
  have hkeys : size [.str (text "builder"), .map 2, .str (text "b"), .str (text "f")] = 13 := by
    decide
  have hvalue := size_str_le (s := BulkOrder.builderAddrStr b.builder) (by omega)
  have hfee := size_uinteger b.fee
  simp only [size_cons, size_nil] at hkeys
  simp only [tokens, size_cons, size_nil]
  omega

theorem BulkOrder.size_builderTokens (builder : Option BuilderInfo) :
    size (builderTokens builder) ≤ 66 := by
  cases builder with
  | none => decide
  | some b => exact b.size_tokens

theorem BulkOrder.size_tokens (b : BulkOrder) : size b.tokens ≤ 918 := by
  have hkeys : size [.str (text "type"), .str (text "order"), .str (text "orders"),
      .str (text "grouping")] = 27 := by decide
  have hmap : (Token.map (if b.builder.isSome then 4 else 3)).size = 1 := by
    split
    · decide
    · decide
  have hgrouping : (Token.str (groupingText b.grouping)).size ≤ 13 := by
    cases b.grouping with
    | na => decide
    | normalTpsl => decide
    | positionTpsl => decide
  have harray := size_arrayTokens (text "orders") OrderRequest.size_tokens b.orders
  have hbuilder := size_builderTokens b.builder
  simp only [size_cons, size_nil] at hkeys
  simp only [tokens, size_append, size_cons, size_nil]
  omega

theorem ModifyRequest.size_tokens (m : ModifyRequest) : size m.tokens ≤ 182 := by
  have hkeys : size [.map 2, .str (text "oid"), .str (text "order")] = 11 := by decide
  have hoid := size_uinteger m.oid
  have horder := m.order.size_tokens
  simp only [size_cons, size_nil] at hkeys
  simp only [tokens, size_append, size_cons, size_nil]
  omega

theorem BulkModify.size_tokens (b : BulkModify) : size b.tokens ≤ 938 := by
  have hkeys : size [.map 2, .str (text "type"), .str (text "batchModify"),
      .str (text "modifies")] = 27 := by decide
  have harray := size_arrayTokens (text "modifies") ModifyRequest.size_tokens b.modifies
  simp only [size_cons, size_nil] at hkeys
  simp only [tokens, size_append, size_cons, size_nil]
  omega

theorem CancelRequest.size_tokens (c : CancelRequest) : size c.tokens ≤ 19 := by
  have hkeys : size [.map 2, .str (text "a"), .str (text "o")] = 5 := by decide
  have hasset := size_uinteger_of_uint32 c.asset
  have hoid := size_uinteger c.oid
  simp only [size_cons, size_nil] at hkeys
  simp only [tokens, size_cons, size_nil]
  omega

theorem BulkCancel.size_tokens (b : BulkCancel) : size b.tokens ≤ 117 := by
  have hkeys : size [.map 2, .str (text "type"), .str (text "cancel"),
      .str (text "cancels")] = 21 := by decide
  have harray := size_arrayTokens (text "cancels") CancelRequest.size_tokens b.cancels
  simp only [size_cons, size_nil] at hkeys
  simp only [tokens, size_append, size_cons, size_nil]
  omega

theorem UpdateLeverage.size_tokens (u : UpdateLeverage) : size u.tokens ≤ 55 := by
  have hkeys : size [.map 4, .str (text "type"), .str (text "updateLeverage"),
      .str (text "asset"), .str (text "isCross"), .str (text "leverage")] = 44 := by decide
  have hasset := size_uinteger_of_uint32 u.asset
  have hleverage := size_uinteger_of_uint32 u.leverage
  simp only [size_cons, size_nil] at hkeys
  simp only [tokens, size_cons, size_nil, size_bool]
  omega

theorem UpdateIsolatedMargin.size_tokens (u : UpdateIsolatedMargin) : size u.tokens ≤ 59 := by
  have hkeys : size [.map 4, .str (text "type"), .str (text "updateIsolatedMargin"),
      .str (text "asset"), .str (text "isBuy"), .str (text "ntli")] = 44 := by decide
  have hasset := size_uinteger_of_uint32 u.asset
  have hntli := size_integer u.ntli
  simp only [size_cons, size_nil] at hkeys
  simp only [tokens, size_cons, size_nil, size_bool]
  omega

/-- The longest action leaves 86 bytes of the buffer. -/
theorem Action.size_tokens (a : Action) : size a.tokens ≤ 938 := by
  unfold Action.tokens
  cases a.type with
  | bulkOrder => exact a.bulkOrder.size_tokens.trans (by decide)
  | bulkModify => exact a.bulkModify.size_tokens
  | bulkCancel => exact a.bulkCancel.size_tokens.trans (by decide)
  | updateLeverage => exact a.updateLeverage.size_tokens.trans (by decide)
  | updateIsolatedMargin => exact a.updateIsolatedMargin.size_tokens.trans (by decide)
  | approveBuilderFee => exact Nat.zero_le _
  | userSetAbstraction => exact Nat.zero_le _

/-! ## 3. The serializer -/

section

variable {sdk : Sdk} (hcmp : sdk.cmp.Compact) {a : Action} (hname : a.type.serializedName ≠ none)

include hcmp hname

/-- Every write is accepted, and the bytes of the action are in the buffer. -/
theorem actionSerialize_fits (ptr : Bytes) :
    ∃ buf, (actionSerialize sdk a).exec
        { ptr := ptr, size := maxSerializedActionSize, offset := 0 } = (some (), buf) ∧
      buf.offset ≤ maxSerializedActionSize ∧
      buf.ptr.take buf.offset = sdk.cmp.encode a.tokens := by
  have hemits := actionSerialize_emits sdk hname
  have hle : (sdk.cmp.encode a.tokens).length ≤ maxSerializedActionSize :=
    (hcmp.length_encode a.tokens).trans (a.size_tokens.trans (by decide))
  have hsome := (hemits.isSome ptr maxSerializedActionSize).mpr hle
  generalize hrun : (actionSerialize sdk a).exec
    { ptr := ptr, size := maxSerializedActionSize, offset := 0 } = r at hsome
  obtain ⟨o, buf⟩ := r
  cases o with
  | none => cases hsome
  | some u =>
    have htake := hemits.writes.take_offset hrun
    obtain ⟨hinv, -, -⟩ := hemits.writes _ _ _ (Nat.zero_le _) hrun
    have hoffset : buf.offset ≤ buf.ptr.length := hinv
    refine ⟨buf, rfl, ?_, htake⟩
    rw [← htake, List.length_take, Nat.min_eq_left hoffset] at hle
    exact hle

end

/-! ## 4. The hash calls -/

/-- The computation makes `k` hash calls, and fails only where one of them does. -/
def HashCalls {α : Type} (k : Nat) (m : Cx α) : Prop :=
  ∀ s, ((m.exec s).1.isSome ↔ ∀ i < k, s.outcomes[i]? = some true) ∧
    ∀ a s', m.exec s = (some a, s') → s'.outcomes = s.outcomes.drop k

section

variable {α β : Type}

theorem hashCalls_pure (a : α) : HashCalls 0 (pure a : Cx α) := by
  intro s
  refine ⟨⟨fun _ i hi => absurd hi (Nat.not_lt_zero i), fun _ => rfl⟩, ?_⟩
  intro b s' h
  cases h
  rfl

theorem HashCalls.bind {j k : Nat} {m : Cx α} {f : α → Cx β} (hm : HashCalls j m)
    (hf : ∀ a, HashCalls k (f a)) : HashCalls (j + k) (m >>= f) := by
  intro s
  obtain ⟨hiff, hdrop⟩ := hm s
  rw [Fallible.exec_bind]
  generalize hrun : m.exec s = r at hiff hdrop
  obtain ⟨o, s₁⟩ := r
  cases o with
  | none =>
    have hfails : ¬ ∀ i < j + k, s.outcomes[i]? = some true := by
      intro hall
      have hsome := hiff.mpr fun i hi => hall i (by omega)
      cases hsome
    refine ⟨iff_of_false (by simp) hfails, ?_⟩
    intro b s' h
    cases h
  | some a =>
    have hfirst := hiff.mp rfl
    have hrest : s₁.outcomes = s.outcomes.drop j := hdrop a s₁ rfl
    obtain ⟨hiff', hdrop'⟩ := hf a s₁
    rw [hrest] at hiff' hdrop'
    refine ⟨hiff'.trans ⟨?_, ?_⟩, ?_⟩
    · intro hlater i hi
      by_cases hij : i < j
      · exact hfirst i hij
      · have h := hlater (i - j) (by omega)
        rwa [List.getElem?_drop, Nat.add_sub_cancel' (Nat.le_of_not_lt hij)] at h
    · intro hall i hi
      rw [List.getElem?_drop]
      exact hall (j + i) (by omega)
    · intro b s' h
      rw [hdrop' b s' h, List.drop_drop]

theorem hashCalls_cxOk : HashCalls 1 cxOk := by
  intro s
  obtain ⟨outcomes, pubkey, ecdsa, rawBuf, calls⟩ := s
  have hfirst : (∀ i < 1, outcomes[i]? = some true) ↔ outcomes[0]? = some true := by
    simp
  rw [hfirst]
  cases outcomes with
  | nil =>
    refine ⟨iff_of_false (by simp [cxOk, Fallible.exec_get_bind]) (by simp), ?_⟩
    intro _ s' h
    cases h
  | cons b rest =>
    cases b with
    | false =>
      refine ⟨iff_of_false (by simp [cxOk, Fallible.exec_get_bind]) (by simp), ?_⟩
      intro _ s' h
      cases h
    | true =>
      refine ⟨iff_of_true rfl rfl, ?_⟩
      intro _ s' h
      cases h
      rfl

theorem hashCalls_noteCall (c : CxCall) : HashCalls 0 (noteCall c) := by
  intro s
  refine ⟨⟨fun _ i hi => absurd hi (Nat.not_lt_zero i), fun _ => rfl⟩, ?_⟩
  intro _ s' h
  cases h
  rfl

theorem hashCalls_cxKeccakInitNoThrow : HashCalls 1 cxKeccakInitNoThrow :=
  hashCalls_cxOk.bind fun _ => hashCalls_pure _

theorem hashCalls_cxHashUpdate (hashCtx data : Bytes) : HashCalls 1 (cxHashUpdate hashCtx data) :=
  hashCalls_cxOk.bind fun _ => hashCalls_pure _

theorem hashCalls_cxHashFinal (sdk : Sdk) (hashCtx : Bytes) :
    HashCalls 1 (cxHashFinal sdk hashCtx) :=
  hashCalls_cxOk.bind fun _ => (hashCalls_noteCall _).bind fun _ => hashCalls_pure _

theorem hashCalls_cxKeccak256Hash (sdk : Sdk) (data : Bytes) :
    HashCalls 1 (cxKeccak256Hash sdk data) :=
  hashCalls_cxOk.bind fun _ => (hashCalls_noteCall _).bind fun _ => hashCalls_pure _

/-- The calls for one field. -/
def fieldCalls : Field → Nat
  | .dyn _ => 2
  | .val _ => 1

theorem hashCalls_encodeField (sdk : Sdk) (hashCtx : Bytes) {f : Field} (h : f.Fits) :
    HashCalls (fieldCalls f) (encodeField sdk hashCtx f) := by
  cases f with
  | dyn data =>
    exact (hashCalls_cxKeccak256Hash sdk data).bind fun _ => hashCalls_cxHashUpdate hashCtx _
  | val data =>
    have hle : data.length ≤ 32 := h
    show HashCalls 1 (eip712EncodeVal hashCtx data)
    unfold eip712EncodeVal
    rw [if_neg (Nat.not_lt_of_le hle)]
    exact hashCalls_cxHashUpdate _ _

theorem hashCalls_encodeFields (sdk : Sdk) (fs : List Field) (h : ∀ f ∈ fs, f.Fits)
    (hashCtx : Bytes) : HashCalls (fs.map fieldCalls).sum (encodeFields sdk hashCtx fs) := by
  induction fs generalizing hashCtx with
  | nil => exact hashCalls_pure hashCtx
  | cons f fs ih =>
    obtain ⟨hf, hfs⟩ := List.forall_mem_cons.mp h
    rw [List.map_cons, List.sum_cons]
    exact (hashCalls_encodeField sdk hashCtx hf).bind fun _ => ih hfs _

theorem hashCalls_hashFields (sdk : Sdk) {fs : List Field} (h : ∀ f ∈ fs, f.Fits) :
    HashCalls (1 + ((fs.map fieldCalls).sum + 1)) (hashFields sdk fs) :=
  hashCalls_cxKeccakInitNoThrow.bind fun _ =>
    (hashCalls_encodeFields sdk fs h _).bind fun _ => hashCalls_cxHashFinal sdk _

end

/-! ## 5. The connection id -/

section

variable {sdk : Sdk} (hcmp : sdk.cmp.Compact) {a : Action} (hname : a.type.serializedName ≠ none)

include hcmp hname

/-- Serializing makes no hash call, and does not fail. -/
theorem hashCalls_serializeIntoRawBuf : HashCalls 0 (serializeIntoRawBuf sdk a) := by
  intro s
  obtain ⟨buf, hrun, -, -⟩ := actionSerialize_fits hcmp hname s.rawBuf
  have hexec : (serializeIntoRawBuf sdk a).exec s =
      (some (buf.ptr.take buf.offset), { s with rawBuf := buf.ptr }) := by
    unfold serializeIntoRawBuf
    rw [Fallible.exec_get_bind, hrun]
    rfl
  rw [hexec]
  refine ⟨⟨fun _ i hi => absurd hi (Nat.not_lt_zero i), fun _ => rfl⟩, ?_⟩
  intro _ s' h
  cases h
  rfl

theorem hashCalls_computeConnectionId (endByte : UInt8) :
    HashCalls 5 (computeConnectionId sdk a endByte) :=
  (hashCalls_serializeIntoRawBuf hcmp hname).bind fun _ =>
    hashCalls_cxKeccakInitNoThrow.bind fun _ => (hashCalls_cxHashUpdate _ _).bind fun _ =>
      (hashCalls_cxHashUpdate _ _).bind fun _ => (hashCalls_cxHashUpdate _ _).bind fun _ =>
        hashCalls_cxHashFinal sdk _

omit hname in
/-- No write is refused after those before it. -/
theorem serWriter_accepts {ts us : List Token} {t : Token} (hsplit : a.tokens = ts ++ t :: us)
    {ptr : Bytes} {buf : Buffer}
    (hbuf : (emit sdk ts).exec { ptr := ptr, size := maxSerializedActionSize, offset := 0 } =
      (some (), buf)) : ((serWriter (sdk.cmp.bytes t)).exec buf).1 = some () := by
  have hle : (sdk.cmp.encode (ts ++ [t])).length ≤ maxSerializedActionSize := by
    have hall : (sdk.cmp.encode a.tokens).length ≤ maxSerializedActionSize :=
      (hcmp.length_encode a.tokens).trans (a.size_tokens.trans (by decide))
    have hparts : ts ++ t :: us = (ts ++ [t]) ++ us := by simp
    rw [hsplit, hparts, Writer.encode_append, List.length_append] at hall
    exact (Nat.le_add_right _ _).trans hall
  have hsome := (exec_emit_isSome sdk (ts ++ [t])
    { ptr := ptr, size := maxSerializedActionSize, offset := 0 } (Nat.zero_le _)).mpr (by
      rw [Nat.zero_add]
      exact hle)
  rw [emit_append, Fallible.exec_bind, hbuf] at hsome
  have hlast : (emit sdk [t]).exec buf = (cmpWrite sdk t).exec buf := by
    have hsingle : cmpWrite sdk t = emit sdk [t] := Emits.single t
    rw [hsingle]
  dsimp only at hsome
  rw [hlast] at hsome
  obtain ⟨u, hu⟩ := Option.isSome_iff_exists.mp hsome
  exact hu

/-- The two hashes of an `Agent`: 22 hash calls. -/
theorem hashCalls_actionHash (metadata : ActionMetadata) (walletAddr : Address) :
    HashCalls 22 (actionHash sdk a metadata walletAddr) := by
  have hdomain : ∀ f ∈ domainFields (text "Exchange") (text "1") 1337 zeroAddress, f.Fits := by
    simp only [domainFields, List.forall_mem_cons, List.not_mem_nil, false_implies, implies_true,
      and_true]
    refine ⟨trivial, trivial, trivial, ?_, ?_⟩
    · exact (by decide : 8 ≤ 32)
    · exact zeroAddress.length_toList.le.trans (by decide)
  have hcid : ∀ source (cid : Hash), HashCalls 17 (eip712CidHash sdk source cid) := by
    intro source cid
    have hfields : ∀ f ∈ cidFields source cid, f.Fits := by
      simp only [cidFields, List.forall_mem_cons, List.not_mem_nil, false_implies, implies_true,
        and_true]
      exact ⟨trivial, trivial, cid.length_toList.le⟩
    exact (hashCalls_hashFields sdk hdomain).bind fun _ =>
      (hashCalls_hashFields sdk hfields).bind fun _ => hashCalls_pure _
  have hagent : ∀ source, HashCalls 22 (do
      let connectionId ← computeConnectionId sdk a 0
      eip712CidHash sdk source connectionId) := fun source =>
    (hashCalls_computeConnectionId hcmp hname 0).bind fun cid => hcid source cid
  unfold actionHash
  cases hty : a.type with
  | approveBuilderFee =>
    rw [hty] at hname
    exact absurd rfl hname
  | userSetAbstraction =>
    rw [hty] at hname
    exact absurd rfl hname
  | bulkOrder | bulkModify | bulkCancel | updateLeverage | updateIsolatedMargin =>
    exact hagent _

end

/-- The serialization fits: whatever the buffer held, every write is accepted and at most
`MAX_SERIALIZED_ACTION_SIZE` bytes are used, so that the connection id and the hashes of the
action fail only where a hash call does. -/
theorem serialization_fits (sdk : Sdk) (hcmp : sdk.cmp.Compact) (a : Action)
    (hname : a.type.serializedName ≠ none) :
    (∀ ptr, ∃ buf, (actionSerialize sdk a).exec
        { ptr := ptr, size := maxSerializedActionSize, offset := 0 } = (some (), buf) ∧
      buf.offset ≤ maxSerializedActionSize ∧
      buf.ptr.take buf.offset = sdk.cmp.encode a.tokens) ∧
    Emits sdk (actionSerialize sdk a) a.tokens ∧
    (∀ ts t us ptr buf, a.tokens = ts ++ t :: us →
      (emit sdk ts).exec { ptr := ptr, size := maxSerializedActionSize, offset := 0 } =
        (some (), buf) → ((serWriter (sdk.cmp.bytes t)).exec buf).1 = some ()) ∧
    (∀ endByte s, ((computeConnectionId sdk a endByte).exec s).1.isSome ↔
      ∀ i < 5, s.outcomes[i]? = some true) ∧
    ∀ metadata walletAddr s, ((actionHash sdk a metadata walletAddr).exec s).1.isSome ↔
      ∀ i < 22, s.outcomes[i]? = some true := by
  refine ⟨?_, ?_, ?_, ?_, ?_⟩
  · exact fun ptr => actionSerialize_fits hcmp hname ptr
  · exact actionSerialize_emits sdk hname
  · exact fun ts t us ptr buf hsplit hbuf => serWriter_accepts hcmp hsplit hbuf
  · exact fun endByte s => (hashCalls_computeConnectionId hcmp hname endByte s).1
  · exact fun metadata walletAddr s => (hashCalls_actionHash hcmp hname metadata walletAddr s).1

/-- A trigger order with every optional part, and no shorter number in it. -/
def longestOrder : OrderRequest :=
  { Client.triggerRequest true .tp "100000000000000000000" "1000000000000000.0001" with
    asset := 0xffffffff
    cloid := some (Client.chars "0x0123456789abcdef0123456789abcdef") }

/-- The bound is reached. -/
def longestAction : Action :=
  Client.bulkModifyAction (List.replicate 5 ⟨0xffffffffffffffff, longestOrder⟩)

theorem serialization_fits_longestAction :
    ∃ buf, (actionSerialize Client.sdk longestAction).exec
        { ptr := [], size := maxSerializedActionSize, offset := 0 } = (some (), buf) ∧
      buf.offset ≤ maxSerializedActionSize ∧ (buf.ptr.take buf.offset).length = 938 := by
  obtain ⟨hfits, -⟩ :=
    serialization_fits Client.sdk shortest_compact longestAction (by decide +kernel)
  obtain ⟨buf, hrun, hle, hbytes⟩ := hfits []
  have hlength : (Client.sdk.cmp.encode longestAction.tokens).length = 938 := by decide +kernel
  exact ⟨buf, hrun, hle, by rw [hbytes, hlength]⟩

end Hyperliquid

/-
# The metadata a client sends

`parse_action_metadata` accepts exactly the payloads that spell metadata, if every hash call
succeeds and the PKI check accepts the signature (`parseActionMetadata_accepts`); there is no
other way to be accepted, and no other reason to be refused.

A client's backend signs a byte string and appends the signature as one more field.  What the
application hashes is that byte string (`hashInput_signedMetadata`), so the check that it makes is
the check of the backend's signature, and what it stores is what was signed
(`client_metadata_stored`).
-/
import Hyperliquid.Layers
import Hyperliquid.Recovery

namespace Hyperliquid

open Lib Lib.Msgpack

/-! ## 1. What is accepted -/

namespace ActionMetadata

/-- The hash calls succeed: one to start, one for each element, one to finish. -/
def Hashes (env : Env) (ds : List TlvData) : Prop :=
  ∃ outcomes, env.cx = List.replicate ((hashedElements ds).length + 2) true ++ outcomes

/-- The payload spells the metadata, and passes. -/
def Acceptable (sdk : Sdk) (env : Env) (payload : Bytes) (m : ActionMetadata) : Prop :=
  ∃ ds sig, WellFormed sdk payload ds m sig ∧ Hashes env ds ∧
    env.pki (sdk.sha256 (hashInput ds)) sig = true

section

variable {sdk : Sdk} {env : Env} {payload : Bytes} {m m' : ActionMetadata} {ds : List TlvData}

/-- Whether the response can be sent does not matter to the parser. -/
theorem Acceptable.authentic (h : Acceptable sdk env payload m) :
    AuthenticMetadata sdk env payload m := by
  obtain ⟨ds, sig, hpayload, hhashes, hpki⟩ := h
  have hsending : Accepts sdk { env with send := 0 } ds sig := ⟨hhashes, hpki, Int.le_refl 0⟩
  have hauth : AuthenticMetadata sdk { env with send := 0 } payload m :=
    hpayload.authentic hsending
  exact hauth

/-- A payload spells one value. -/
theorem Acceptable.unique (h : Acceptable sdk env payload m)
    (h' : Acceptable sdk env payload m') : m = m' := by
  obtain ⟨ds, sig, hpayload, -⟩ := h
  obtain ⟨ds', sig', hpayload', -⟩ := h'
  obtain rfl := Option.some.inj (hpayload.elements.symm.trans hpayload'.elements)
  rw [← hpayload.decodes.readMetadata_eq, ← hpayload'.decodes.readMetadata_eq]

/-- The common handler takes one outcome for an element that is hashed. -/
theorem handleCommon_outcomes {d : TlvData} {s s' : MetadataCtx} (h : handleCommon d s = .ok s') :
    s.outcomes = List.replicate (hashedElements [d]).length true ++ s'.outcomes := by
  unfold handleCommon at h
  split at h
  · rename_i htag
    have hone : (hashedElements [d]).length = 1 := by
      simp [hashedElements, List.filter, htag]
    rw [hone]
    split at h
    · rename_i outcomes houtcomes
      cases h
      exact houtcomes
    · cases h
  · rename_i htag
    have hzero : (hashedElements [d]).length = 0 := by
      simp [hashedElements, List.filter, htag]
    rw [hzero]
    cases h
    rfl

/-- The outcomes that the elements took. -/
def Took (outcomes : List Bool) (ds : List TlvData) (s : MetadataCtx) : Prop :=
  outcomes = List.replicate (hashedElements ds).length true ++ s.outcomes

/-- One element more. -/
theorem Took.concat {outcomes : List Bool} {d : TlvData} {s s₁ s' : MetadataCtx}
    {row : TagHandler MetadataCtx} (h : Took outcomes ds s)
    (hmem : row ∈ (metadataTlvParser sdk).tags)
    (hc : handleCommon d (TlvContext.receive row.tag s) = .ok s₁)
    (hh : row.handler d s₁ = .ok s') : Took outcomes (ds ++ [d]) s' := by
  have hcommon : (TlvContext.receive row.tag s).outcomes =
      List.replicate (hashedElements [d]).length true ++ s₁.outcomes := handleCommon_outcomes hc
  have hreceive : (TlvContext.receive row.tag s).outcomes = s.outcomes := rfl
  have hds : hashedElements (ds ++ [d]) = hashedElements ds ++ hashedElements [d] :=
    List.filter_append ds [d]
  unfold Took at h ⊢
  rw [h, ← hreceive, hcommon, row_outcomes hmem hh, hds, List.length_append, List.replicate_add,
    List.append_assoc]

/-- What is accepted was acceptable. -/
theorem acceptable_of_authentic (hne : payload ≠ []) (h : AuthenticMetadata sdk env payload m) :
    Acceptable sdk env payload m := by
  obtain ⟨outcomes, out, hcx, hout, rfl⟩ := h
  obtain ⟨ds, hauth⟩ := authentic_of_accepted hcx hout
  obtain ⟨sig, hsig, hpki⟩ := hauth.signed
  obtain ⟨hparse, hverify⟩ := TlvParser.parseVerified_ok.mp hout
  have hstart : Took outcomes [] { outcomes := outcomes } := rfl
  obtain ⟨ds', hds', -, htook⟩ := TlvParser.parse_elements
    (fun row hmem pre d s s₁ s' _ hs _ hc hh => Took.concat hs hmem hc hh) hstart hparse
  obtain rfl := Option.some.inj (hauth.elements.symm.trans hds')
  obtain ⟨rest, hrest⟩ : ∃ rest, out.outcomes = true :: rest := by
    obtain ⟨-, -, hpki⟩ := bind_ok_iff.mp hverify
    split at hpki
    · rename_i rest hrest
      exact ⟨rest, hrest⟩
    · cases hpki
  refine ⟨ds, sig, ⟨hne, hauth.elements, hauth.decodes, hsig⟩, ⟨rest, ?_⟩, hpki⟩
  have htook : outcomes = List.replicate (hashedElements ds).length true ++ true :: rest :=
    hrest ▸ htook
  rw [hcx, htook, List.replicate_succ, List.replicate_succ', List.cons_append, List.append_assoc]
  rfl

end

end ActionMetadata

open ActionMetadata

/-- `parse_action_metadata` accepts a payload exactly when it spells metadata, every hash call
succeeds, and the PKI check accepts the signature over all elements but the signature itself.  It
then stores these metadata, the only ones the payload spells, or ends the session in which signing
has started; otherwise it changes nothing. -/
theorem parseActionMetadata_accepts (sdk : Sdk) (env : Env) (payload : Bytes) (hne : payload ≠ [])
    (ctx : HlContext) :
    (∃ m, Acceptable sdk env payload m ∧ (∀ m', Acceptable sdk env payload m' → m' = m) ∧
      parseActionMetadata sdk env payload ctx =
        .ok (if ctxCurrentActionIsFirst ctx then (true, { metadata := some m }, true)
          else (false, {}, true))) ∨
    ((∀ m, ¬ Acceptable sdk env payload m) ∧
      parseActionMetadata sdk env payload ctx = .ok (false, ctx, false)) := by
  by_cases h : ∃ m, Acceptable sdk env payload m
  · obtain ⟨m, hm⟩ := h
    exact .inl ⟨m, hm, fun m' hm' => hm'.unique hm,
      parseActionMetadata_of_authentic hm.authentic ctx⟩
  · refine .inr ⟨fun m hm => h ⟨m, hm⟩, ?_⟩
    obtain ⟨ret, ctx', reset, hparse, heffect⟩ := parseActionMetadata_effect sdk env payload ctx
    rcases heffect with ⟨m, hm, -⟩ | ⟨m, hm, -⟩ | ⟨-, rfl, rfl, rfl⟩
    · exact absurd ⟨m, acceptable_of_authentic hne hm⟩ h
    · exact absurd ⟨m, acceptable_of_authentic hne hm⟩ h
    · exact hparse

theorem parseActionMetadata_accepts_ethMetadata :
    (∃ m, Acceptable Client.sdk Client.env (Client.actionMetadata (Client.ethMetadata .order)) m ∧
      (∀ m', Acceptable Client.sdk Client.env (Client.actionMetadata (Client.ethMetadata .order))
        m' → m' = m) ∧
      parseActionMetadata Client.sdk Client.env (Client.actionMetadata (Client.ethMetadata .order))
          {} =
        .ok (if ctxCurrentActionIsFirst {} then (true, { metadata := some m }, true)
          else (false, {}, true))) ∨
    ((∀ m, ¬ Acceptable Client.sdk Client.env (Client.actionMetadata (Client.ethMetadata .order))
        m) ∧
      parseActionMetadata Client.sdk Client.env (Client.actionMetadata (Client.ethMetadata .order))
          {} = .ok (false, {}, false)) :=
  parseActionMetadata_accepts Client.sdk Client.env
    (Client.actionMetadata (Client.ethMetadata .order)) (by decide +kernel) {}

/-! ## 2. What the client sends -/

namespace Client

/-- The byte of a `Network`. -/
def networkByte : Network → UInt8
  | .mainnet => 0
  | .testnet => 1

/-- A field that is left out without a value. -/
def serializeOptional {α : Type} (tag : Nat) (value : α → Bytes) : Option α → Bytes
  | none => []
  | some a => serializeField tag (value a)

/-- What the backend signs. -/
def unsignedMetadata (m : ActionMetadata) : Bytes :=
  serializeField 0x01 [0x2b] ++ serializeField 0x02 [1] ++
    serializeField 0xd0 [operationType m.opType] ++ serializeField 0xd1 (num m.assetId.toNat) ++
    serializeField 0x24 m.assetTicker.chars ++ serializeField 0xd2 [networkByte m.network] ++
    serializeOptional 0xd3 Vector.toList m.builderAddr ++
    serializeOptional 0xd4 (fun v => num v.toNat) m.margin ++
    serializeOptional 0xd5 (fun l => num l.toNat) m.leverage

/-- `ActionMetadata.serialize`. -/
def signedMetadata (m : ActionMetadata) (sig : Bytes) : Bytes :=
  unsignedMetadata m ++ serializeField 0x15 sig

/-- An operation that the application has, and a ticker of printable characters. -/
structure MetadataAllowed (m : ActionMetadata) : Prop where
  opType : m.opType ≠ .updateLeverage
  ticker_nonempty : m.assetTicker.chars ≠ []
  ticker_printable : ∀ c ∈ m.assetTicker.chars, 0x20 ≤ c ∧ c ≤ 0x7e

/-- A signature in the sizes of DER. -/
structure SignatureAllowed (sig : Bytes) : Prop where
  low : 70 ≤ sig.length
  high : sig.length ≤ 72

theorem length_serializeOptional_le {α : Type} {tag n : Nat} {value : α → Bytes}
    (htag : tag < 0x100) (h : ∀ a, (value a).length ≤ n) (hn : n < 0x80) (o : Option α) :
    (serializeOptional tag value o).length ≤ n + 3 := by
  cases o with
  | none => exact Nat.zero_le _
  | some a => exact length_field_short htag (h a) hn

/-- All of it fits in one command, beside its length. -/
theorem length_signedMetadata_le (m : ActionMetadata) {sig : Bytes} (hsig : SignatureAllowed sig) :
    (signedMetadata m sig).length + 2 ≤ 255 := by
  have hbyte : ∀ (tag : Nat) (b : UInt8), tag < 0x100 → (serializeField tag [b]).length ≤ 4 :=
    fun tag b htag => length_field_byte htag rfl
  have htype := hbyte 0x01 0x2b (by decide)
  have hversion := hbyte 0x02 1 (by decide)
  have hop := hbyte 0xd0 (operationType m.opType) (by decide)
  have hnetwork := hbyte 0xd2 (networkByte m.network) (by decide)
  have hasset : (serializeField 0xd1 (num m.assetId.toNat)).length ≤ 7 :=
    length_field_short (by decide) (length_num_uint32 _) (by decide)
  have hticker : (serializeField 0x24 m.assetTicker.chars).length ≤ 51 :=
    length_field_short (by decide) m.assetTicker.fits (by decide)
  have hbuilder : (serializeOptional 0xd3 Vector.toList m.builderAddr).length ≤ 23 :=
    length_serializeOptional_le (by decide) (fun _ => (Vector.length_toList).le) (by decide) _
  have hmargin : (serializeOptional 0xd4 (fun v : UInt64 => num v.toNat) m.margin).length ≤ 11 :=
    length_serializeOptional_le (by decide) length_num_uint64 (by decide) _
  have hleverage :
      (serializeOptional 0xd5 (fun l : UInt32 => num l.toNat) m.leverage).length ≤ 7 :=
    length_serializeOptional_le (by decide) length_num_uint32 (by decide) _
  have hsignature : (serializeField 0x15 sig).length ≤ 75 :=
    length_field_short (by decide) hsig.high (by decide)
  simp only [signedMetadata, unsignedMetadata, List.length_append]
  omega

/-! ## 3. What the application reads and hashes -/

def optionalField {α : Type} (tag : Nat) (value : α → Bytes) (o : Option α) : List (Nat × Bytes) :=
  o.toList.map fun a => (tag, value a)

/-- The fields that are signed. -/
def metadataFields (m : ActionMetadata) : List (Nat × Bytes) :=
  [(0x01, [0x2b]), (0x02, [1]), (0xd0, [operationType m.opType]), (0xd1, num m.assetId.toNat),
    (0x24, m.assetTicker.chars), (0xd2, [networkByte m.network])] ++
    optionalField 0xd3 Vector.toList m.builderAddr ++
    optionalField 0xd4 (fun v => num v.toNat) m.margin ++
    optionalField 0xd5 (fun l => num l.toNat) m.leverage

def signedFields (m : ActionMetadata) (sig : Bytes) : List (Nat × Bytes) :=
  metadataFields m ++ [(0x15, sig)]

theorem fields_append (fs gs : List (Nat × Bytes)) : fields (fs ++ gs) = fields fs ++ fields gs :=
  List.flatMap_append

theorem elements_append (fs gs : List (Nat × Bytes)) :
    elements (fs ++ gs) = elements fs ++ elements gs := List.map_append

theorem fields_optionalField {α : Type} (tag : Nat) (value : α → Bytes) (o : Option α) :
    fields (optionalField tag value o) = serializeOptional tag value o := by
  cases o with
  | none => rfl
  | some a => exact List.append_nil _

theorem unsignedMetadata_eq (m : ActionMetadata) :
    unsignedMetadata m = fields (metadataFields m) := by
  simp only [metadataFields, fields_append, fields_optionalField]
  simp [unsignedMetadata, fields]

theorem signedMetadata_eq (m : ActionMetadata) (sig : Bytes) :
    signedMetadata m sig = fields (signedFields m sig) := by
  rw [signedMetadata, unsignedMetadata_eq, signedFields, fields_append]
  simp [fields]

/-- The bytes of the elements are the bytes of the fields. -/
theorem flatMap_raw_elements (fs : List (Nat × Bytes)) :
    (elements fs).flatMap TlvData.raw = fields fs := by
  simp [elements, fields, List.flatMap_map]

/-- The tags of the fields that are signed. -/
theorem tags_metadataFields (m : ActionMetadata) :
    (elements (metadataFields m)).map TlvData.tag = [0x01, 0x02, 0xd0, 0xd1, 0x24, 0xd2] ++
      m.builderAddr.toList.map (fun _ => 0xd3) ++ m.margin.toList.map (fun _ => 0xd4) ++
      m.leverage.toList.map (fun _ => 0xd5) := by
  simp [elements, metadataFields, optionalField, Function.comp_def]

theorem tags_signedFields (m : ActionMetadata) (sig : Bytes) :
    (elements (signedFields m sig)).map TlvData.tag =
      (elements (metadataFields m)).map TlvData.tag ++ [0x15] := by
  rw [signedFields, elements_append, List.map_append]
  rfl

/-- All elements but the signature are hashed. -/
theorem hashedElements_signedFields (m : ActionMetadata) (sig : Bytes) :
    hashedElements (elements (signedFields m sig)) = elements (metadataFields m) := by
  have hall : ∀ d ∈ elements (metadataFields m), (d.tag != tagSignature) = true := by
    intro d hd
    have htag : d.tag ∈ (elements (metadataFields m)).map TlvData.tag := List.mem_map_of_mem hd
    rw [tags_metadataFields] at htag
    simp only [List.mem_append, List.mem_map, List.mem_cons, List.not_mem_nil, or_false] at htag
    rcases htag with (((h | h | h | h | h | h) | ⟨_, _, h⟩) | ⟨_, _, h⟩) | ⟨_, _, h⟩
    all_goals
      first
      | rw [h]
      | rw [← h]
      rfl
  have hlast : (elements [(0x15, sig)]).filter (·.tag != tagSignature) = [] := rfl
  rw [hashedElements, signedFields, elements_append, List.filter_append,
    List.filter_eq_self.mpr hall, hlast, List.append_nil]

/-- The application hashes what the backend signed. -/
theorem hashInput_signedFields (m : ActionMetadata) (sig : Bytes) :
    hashInput (elements (signedFields m sig)) = unsignedMetadata m := by
  rw [hashInput, hashedElements_signedFields, flatMap_raw_elements, unsignedMetadata_eq]

theorem operationTypeOfByte_operationType {t : OperationType} (h : t ≠ .updateLeverage) :
    operationTypeOfByte (operationType t) = some t := by
  cases t with
  | updateLeverage => exact absurd rfl h
  | _ => rfl

theorem networkOfByte_networkByte (n : Network) : networkOfByte (networkByte n) = some n := by
  cases n <;> rfl

/-- An optional field is read if it is there. -/
theorem field_optional {α : Type} {get : TlvData → Option α} {tag : Nat} {value : α → Bytes}
    {o : Option α} {ds : List TlvData} (hunique : (ds.map TlvData.tag).Nodup)
    (hhas : o.isSome ↔ tag ∈ ds.map TlvData.tag)
    (hmem : ∀ d ∈ elements (optionalField tag value o), d ∈ ds)
    (hget : ∀ a d, d.value = value a → get d = some a) : field get tag ds = o := by
  cases o with
  | none =>
    cases hfield : field get tag ds with
    | none => rfl
    | some a =>
      have hin : tag ∈ ds.map TlvData.tag := mem_of_field (by rw [hfield]; rfl)
      exact absurd (hhas.mpr hin) (by simp)
  | some a =>
    have hd := hmem ⟨tag, value a, serializeField tag (value a)⟩ (by simp [elements, optionalField])
    rw [field_of_mem hunique hd rfl]
    exact hget a _ rfl

theorem unique_signedFields (m : ActionMetadata) (sig : Bytes) :
    ((elements (signedFields m sig)).map TlvData.tag).Nodup := by
  rw [tags_signedFields, tags_metadataFields]
  cases m.builderAddr <;> cases m.margin <;> cases m.leverage <;> simp

/-- The optional fields are there exactly with their values. -/
theorem mem_tags_optional (m : ActionMetadata) (sig : Bytes) :
    (m.builderAddr.isSome ↔ tagBuilderAddr ∈ (elements (signedFields m sig)).map TlvData.tag) ∧
    (m.margin.isSome ↔ tagMargin ∈ (elements (signedFields m sig)).map TlvData.tag) ∧
    (m.leverage.isSome ↔ tagLeverage ∈ (elements (signedFields m sig)).map TlvData.tag) := by
  rw [tags_signedFields, tags_metadataFields]
  cases m.builderAddr <;> cases m.margin <;> cases m.leverage <;> simp

theorem elements_subset {fs : List (Nat × Bytes)} {m : ActionMetadata} (sig : Bytes)
    (h : ∀ f ∈ fs, f ∈ metadataFields m) :
    ∀ d ∈ elements fs, d ∈ elements (signedFields m sig) := by
  intro d hd
  obtain ⟨f, hf, rfl⟩ := List.mem_map.mp hd
  exact List.mem_map.mpr ⟨f, List.mem_append_left _ (h f hf), rfl⟩

/-- What the fields of allowed metadata are read as. -/
theorem decodes_signedFields {sdk : Sdk} (h : Understands sdk) {m : ActionMetadata} (sig : Bytes)
    (hm : MetadataAllowed m) : Decodes sdk (elements (signedFields m sig)) m := by
  have hunique := unique_signedFields m sig
  have hfield : ∀ {α : Type} {get : TlvData → Option α} {tag : Nat} {value : Bytes} {a : α},
      (tag, value) ∈ metadataFields m → get ⟨tag, value, serializeField tag value⟩ = some a →
      field get tag (elements (signedFields m sig)) = some a := by
    intro α get tag value a hmem ha
    rw [← ha]
    exact field_of_mem hunique
      (List.mem_map.mpr ⟨(tag, value), List.mem_append_left _ hmem, rfl⟩) rfl
  obtain ⟨hbuilder, hmargin, hleverage⟩ := mem_tags_optional m sig
  exact
    { known := by
        intro d hd
        have htag : d.tag ∈ (elements (signedFields m sig)).map TlvData.tag :=
          List.mem_map_of_mem hd
        rw [tags_signedFields, tags_metadataFields] at htag
        simp only [List.mem_append, List.mem_map, List.mem_cons, List.not_mem_nil,
          or_false] at htag
        show d.tag ∈ [0x01, 0x02, 0xd0, 0xd1, 0x24, 0xd2, 0xd3, 0xd4, 0xd5, 0x15]
        simp only [List.mem_cons, List.not_mem_nil, or_false]
        omega
      unique := hunique
      structType := hfield (.head _) (h.uint8 _ _ rfl)
      structVersion := hfield (.tail _ (.head _)) (h.uint8 _ _ rfl)
      opType := hfield (.tail _ (.tail _ (.head _)))
        (h.byte rfl (operationTypeOfByte_operationType hm.opType))
      assetId := hfield (.tail _ (.tail _ (.tail _ (.head _)))) (h.num32 rfl)
      assetTicker := hfield (.tail _ (.tail _ (.tail _ (.tail _ (.head _)))))
        (h.string _ 1 assetTickerLength (List.length_pos_of_ne_nil hm.ticker_nonempty)
          m.assetTicker.fits hm.ticker_printable)
      network := hfield (.tail _ (.tail _ (.tail _ (.tail _ (.tail _ (.head _))))))
        (h.byte rfl (networkOfByte_networkByte _))
      builderAddr := field_optional hunique hbuilder
        (elements_subset sig fun f hf => List.mem_append_left _ (List.mem_append_left _
          (List.mem_append_right _ hf)))
        fun a d hd => h.address hd
      margin := field_optional hunique hmargin
        (elements_subset sig fun f hf => List.mem_append_left _
          (List.mem_append_right _ hf))
        fun a d hd => h.num64 hd
      leverage := field_optional hunique hleverage
        (elements_subset sig fun f hf => List.mem_append_right _ hf)
        fun a d hd => h.num32 hd
      hasBuilderAddr := hbuilder
      hasMargin := hmargin
      hasLeverage := hleverage }

/-! ## 4. What becomes of it -/

section

variable {sdk : Sdk} (h : Understands sdk) {m : ActionMetadata} {sig : Bytes}
  (hm : MetadataAllowed m) (hsig : SignatureAllowed sig)

include h

/-- Fields that a payload has room for are read as elements. -/
theorem tlvDecode_fields_short {fs : List (Nat × Bytes)} (htags : ∀ f ∈ fs, f.1 < 0x100)
    (hlength : (fields fs).length ≤ 1020) : sdk.tlvDecode (fields fs) = some (elements fs) := by
  refine h.tlvDecode fs fun f hf => ⟨(htags f hf).trans (by decide), ?_⟩
  have hfield : f.2.length ≤ (serializeField f.1 f.2).length := by
    rw [length_serializeField]
    omega
  have hsub : List.Sublist (serializeField f.1 f.2) (fields fs) :=
    List.sublist_flatten_of_mem (List.mem_map.mpr ⟨f, hf, rfl⟩)
  have hle := hfield.trans hsub.length_le
  omega

include hm hsig

theorem wellFormed_signedMetadata :
    WellFormed sdk (signedMetadata m sig) (elements (signedFields m sig)) m sig := by
  have hfits := length_signedMetadata_le m hsig
  have hlast : (⟨0x15, sig, serializeField 0x15 sig⟩ : TlvData) ∈ elements (signedFields m sig) :=
    List.mem_map.mpr ⟨(0x15, sig), by simp [signedFields], rfl⟩
  refine ⟨?_, ?_, decodes_signedFields h sig hm, ?_⟩
  · simp [signedMetadata, unsignedMetadata, serializeField, derEncode]
  · rw [signedMetadata_eq] at hfits ⊢
    refine tlvDecode_fields_short h ?_ (by omega)
    intro f hf
    have htag : f.1 ∈ (elements (signedFields m sig)).map TlvData.tag :=
      List.mem_map.mpr ⟨_, List.mem_map.mpr ⟨f, hf, rfl⟩, rfl⟩
    rw [tags_signedFields, tags_metadataFields] at htag
    simp only [List.mem_append, List.mem_map, List.mem_cons, List.not_mem_nil, or_false] at htag
    omega
  · rw [field_of_mem (unique_signedFields m sig) hlast rfl, signatureOf,
      h.buffer _ 70 72 ⟨hsig.low, hsig.high⟩]
    rfl

/-- What is sent is stored, or refused, by the check of the signature over what was signed. -/
theorem parseActionMetadata_signedMetadata {env : Env} {outcomes : List Bool}
    (hcx : env.cx = List.replicate ((metadataFields m).length + 2) true ++ outcomes)
    (ctx : HlContext) :
    parseActionMetadata sdk env (signedMetadata m sig) ctx =
      .ok (if env.pki (sdk.sha256 (unsignedMetadata m)) sig then
        if ctxCurrentActionIsFirst ctx then (true, { metadata := some m }, true)
        else (false, {}, true)
      else (false, ctx, false)) := by
  have hpayload := wellFormed_signedMetadata h hm hsig
  have hhashes : Hashes env (elements (signedFields m sig)) := by
    refine ⟨outcomes, ?_⟩
    rw [hashedElements_signedFields, elements, List.length_map]
    exact hcx
  have hinput := hashInput_signedFields m sig
  cases hpki : env.pki (sdk.sha256 (unsignedMetadata m)) sig with
  | true =>
    have hacceptable : Acceptable sdk env (signedMetadata m sig) m :=
      ⟨_, sig, hpayload, hhashes, hinput.symm ▸ hpki⟩
    exact parseActionMetadata_of_authentic hacceptable.authentic ctx
  | false =>
    rcases parseActionMetadata_accepts sdk env (signedMetadata m sig) hpayload.nonempty ctx with
      ⟨m', ⟨ds, sig', hpayload', -, hpki'⟩, -⟩ | ⟨-, hparse⟩
    · obtain rfl := Option.some.inj (hpayload.elements.symm.trans hpayload'.elements)
      obtain rfl := Option.some.inj (hpayload.signature.symm.trans hpayload'.signature)
      rw [hinput, hpki] at hpki'
      cases hpki'
    · exact hparse

end

/-- In every reachable state in which commands are received and no transfer is in progress, for
all metadata that the client may send, every signature, and every way to cut the payload, which
fits in one command: the PKI check is made on the hash of exactly the bytes that were signed.
Where it accepts, exactly these metadata are stored, or the session in which signing has started is
ended; where it refuses, nothing changes. -/
theorem client_metadata_stored (sdk : Sdk) (h : Understands sdk) (inputs : List Input)
    (m : ActionMetadata) (sig : Bytes) (hm : MetadataAllowed m) (hsig : SignatureAllowed sig)
    (part : Part) (parts : List Part) (hparts : Sendable part parts)
    (hjoined : joined (part :: parts) = signedMetadata m sig) (outcomes : List Bool)
    (hcx : (lastEnv part.2 parts).cx =
      List.replicate ((metadataFields m).length + 2) true ++ outcomes)
    (hrunning : ((app sdk).state inputs).running = true)
    (hreview : ((app sdk).state inputs).review = none)
    (hidle : ((app sdk).state inputs).payload.handler = none) :
    (signedMetadata m sig).length + 2 ≤ 255 ∧
    (app sdk).runFrom ((app sdk).state inputs) (sendParts .parseActionMetadata part parts) =
      if (lastEnv part.2 parts).pki (sdk.sha256 (unsignedMetadata m)) sig then
        if ((app sdk).state inputs).ctx.actionIndex = 0 then
          handedOver ((app sdk).state inputs) parts.length true { metadata := some m } [.ctxReset]
        else handedOver ((app sdk).state inputs) parts.length false {} [.ctxReset]
      else
        handedOver ((app sdk).state inputs) parts.length false ((app sdk).state inputs).ctx [] := by
  have hfits := length_signedMetadata_le m hsig
  have hne := (wellFormed_signedMetadata h hm hsig).nonempty
  refine ⟨hfits, ?_⟩
  have hon := commEnabled_state sdk hreview
  have hrep := represents_idle_state sdk hidle
  have hpos : 0 < (joined (part :: parts)).length := by
    rw [hjoined]
    exact List.length_pos_of_ne_nil hne
  have hsize : (joined (part :: parts)).length ≤ payloadBufferSize := by
    rw [hjoined, payloadBufferSize]
    omega
  have hparse := parseActionMetadata_signedMetadata h hm hsig hcx ((app sdk).state inputs).ctx
  rw [← hjoined] at hparse
  generalize (app sdk).state inputs = w at *
  have hsent : ∀ {ret : Bool} {ctx' : HlContext} {reset : Bool},
      parseActionMetadata sdk (lastEnv part.2 parts) (joined (part :: parts)) w.ctx =
        .ok (ret, ctx', reset) →
      (app sdk).runFrom w (sendParts .parseActionMetadata part parts) =
        handedOver w parts.length ret ctx' (if reset then [.ctxReset] else []) := by
    intro ret ctx' reset hok
    exact runFrom_sendParts hrunning hon hrep hparts hpos hsize (bind_ok_iff.mpr ⟨_, hok, rfl⟩)
  have hfirst : ctxCurrentActionIsFirst w.ctx = true ↔ w.ctx.actionIndex = 0 := beq_iff_eq
  by_cases hpki : (lastEnv part.2 parts).pki (sdk.sha256 (unsignedMetadata m)) sig = true
  · rw [if_pos hpki] at hparse ⊢
    by_cases hzero : w.ctx.actionIndex = 0
    · rw [if_pos (hfirst.mpr hzero)] at hparse
      rw [if_pos hzero]
      exact hsent hparse
    · rw [if_neg (mt hfirst.mp hzero)] at hparse
      rw [if_neg hzero]
      exact hsent hparse
  · rw [if_neg hpki] at hparse ⊢
    exact hsent hparse

/-- The metadata of a test, in two commands. -/
def ethPart : Part := ((signedMetadata (ethMetadata .order) (List.replicate 71 7)).take 10, env)

def ethParts : List Part :=
  [((signedMetadata (ethMetadata .order) (List.replicate 71 7)).drop 10, env)]

theorem client_metadata_stored_ethMetadata :
    (signedMetadata (ethMetadata .order) (List.replicate 71 7)).length + 2 ≤ 255 ∧
    (app sdk).runFrom ((app sdk).state []) (sendParts .parseActionMetadata ethPart ethParts) =
      if (lastEnv ethPart.2 ethParts).pki
          (sdk.sha256 (unsignedMetadata (ethMetadata .order))) (List.replicate 71 7) then
        if ((app sdk).state []).ctx.actionIndex = 0 then
          handedOver ((app sdk).state []) ethParts.length true
            { metadata := some (ethMetadata .order) } [.ctxReset]
        else handedOver ((app sdk).state []) ethParts.length false {} [.ctxReset]
      else handedOver ((app sdk).state []) ethParts.length false ((app sdk).state []).ctx [] := by
  have hallowed : MetadataAllowed (ethMetadata .order) :=
    ⟨by decide, by decide +kernel, by decide +kernel⟩
  exact client_metadata_stored sdk sdk_understands [] (ethMetadata .order) (List.replicate 71 7)
    hallowed ⟨by decide, by decide⟩ ethPart ethParts
    ⟨by decide +kernel, by decide +kernel⟩ (by decide +kernel) (List.replicate 56 true)
    (by decide +kernel) rfl rfl rfl

end Client

end Hyperliquid

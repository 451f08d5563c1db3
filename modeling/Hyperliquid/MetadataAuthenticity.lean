/-
# Stored metadata is authentic

The metadata parser hashes the elements of a payload while ten handlers read them.  What is
hashed is `hashInput`: the bytes of all elements but the signature, in the order of the payload.
What is read is the `Decodes` relation: each field of the metadata is the value of the one
element with its tag.  The signature is read as a field too, and checked against the hash.

So whatever metadata is stored was received in one payload, and the hash of that payload passed
the PKI check with its signature (`metadata_authentic`, first part).  And if the SDK cuts
payloads into elements one after the other (`Splits`), the hashed bytes leave no choice in what
is read: payloads with the same hashed bytes store the same metadata, wherever their signatures
stand and whatever they are (second part).
-/
import Hyperliquid.Lib.TlvElements
import Hyperliquid.SessionProgress
import Hyperliquid.Client

namespace Hyperliquid

open Lib ActionMetadata

namespace ActionMetadata

/-! ## 1. What is hashed, and what is read -/

/-- All elements but the signature. -/
def hashedElements (ds : List TlvData) : List TlvData := ds.filter (·.tag != tagSignature)

/-- The bytes fed to the hash. -/
def hashInput (ds : List TlvData) : Bytes := (hashedElements ds).flatMap TlvData.raw

theorem hashInput_concat (ds : List TlvData) (d : TlvData) :
    hashInput (ds ++ [d]) =
      if d.tag != tagSignature then hashInput ds ++ d.raw else hashInput ds := by
  unfold hashInput hashedElements
  rw [List.filter_append, List.flatMap_append]
  split
  · rename_i h
    simp [List.filter, h]
  · rename_i h
    simp [List.filter, h]

section

variable (sdk : Sdk)

/-- The value of a signature element. -/
def signatureOf (d : TlvData) : Option Bytes := (sdk.getBufferFromTlvData d 70 72).map Subtype.val

def opTypeOf (d : TlvData) : Option OperationType :=
  sdk.getUint8TFromTlvData d >>= operationTypeOfByte

def assetTickerOf (d : TlvData) : Option (CString assetTickerLength) :=
  sdk.getStringFromTlvData d 1 assetTickerLength

def networkOf (d : TlvData) : Option Network := sdk.getUint8TFromTlvData d >>= networkOfByte

def builderAddrOf (d : TlvData) : Option Address :=
  (sdk.getBufferFromTlvData d addressLength addressLength).map addressOfBuffer

/-- The metadata that the elements spell, with the values of a zeroed structure where an element
is missing. -/
def readMetadata (ds : List TlvData) : ActionMetadata where
  opType := (field (opTypeOf sdk) tagOperationType ds).getD .order
  assetId := (field sdk.getUint32TFromTlvData tagAssetId ds).getD 0
  assetTicker := (field (assetTickerOf sdk) tagAssetTicker ds).getD .empty
  network := (field (networkOf sdk) tagNetwork ds).getD .mainnet
  builderAddr := field (builderAddrOf sdk) tagBuilderAddr ds
  margin := field sdk.getUint64TFromTlvData tagMargin ds
  leverage := field sdk.getUint32TFromTlvData tagLeverage ds

/-- The elements are those of a complete structure, each at most once, and the metadata are what
they say: the optional fields are there exactly when their elements are. -/
structure Decodes (ds : List TlvData) (m : ActionMetadata) : Prop where
  known : ∀ d ∈ ds, d.tag ∈ (metadataTlvParser sdk).tags.map TagHandler.tag
  unique : (ds.map TlvData.tag).Nodup
  structType : field sdk.getUint8TFromTlvData tagStructType ds = some structType
  structVersion : field sdk.getUint8TFromTlvData tagStructVersion ds = some 1
  opType : field (opTypeOf sdk) tagOperationType ds = some m.opType
  assetId : field sdk.getUint32TFromTlvData tagAssetId ds = some m.assetId
  assetTicker : field (assetTickerOf sdk) tagAssetTicker ds = some m.assetTicker
  network : field (networkOf sdk) tagNetwork ds = some m.network
  builderAddr : field (builderAddrOf sdk) tagBuilderAddr ds = m.builderAddr
  margin : field sdk.getUint64TFromTlvData tagMargin ds = m.margin
  leverage : field sdk.getUint32TFromTlvData tagLeverage ds = m.leverage
  hasBuilderAddr : m.builderAddr.isSome ↔ tagBuilderAddr ∈ ds.map TlvData.tag
  hasMargin : m.margin.isSome ↔ tagMargin ∈ ds.map TlvData.tag
  hasLeverage : m.leverage.isSome ↔ tagLeverage ∈ ds.map TlvData.tag

/-- Elements with the same hashed part say the same. -/
theorem Decodes.metadata_eq {ds es : List TlvData} {m m' : ActionMetadata}
    (h : Decodes sdk ds m) (h' : Decodes sdk es m')
    (heq : hashedElements ds = hashedElements es) : m = m' := by
  have hfield : ∀ {α : Type} (get : TlvData → Option α) (t : Nat), t ≠ tagSignature →
      field get t ds = field get t es := by
    intro α get t ht
    have hkeep : ∀ d : TlvData, d.tag = t → (d.tag != tagSignature) = true := by
      intro d hd
      simpa [hd] using ht
    have hds := field_filter get ds hkeep
    have hes := field_filter get es hkeep
    rw [← hds, ← hes]
    exact congrArg _ heq
  have hopType := (h.opType.symm.trans (hfield _ _ (by decide))).trans h'.opType
  have hassetId := (h.assetId.symm.trans (hfield _ _ (by decide))).trans h'.assetId
  have hassetTicker := (h.assetTicker.symm.trans (hfield _ _ (by decide))).trans h'.assetTicker
  have hnetwork := (h.network.symm.trans (hfield _ _ (by decide))).trans h'.network
  have hbuilderAddr := (h.builderAddr.symm.trans (hfield _ _ (by decide))).trans h'.builderAddr
  have hmargin := (h.margin.symm.trans (hfield _ _ (by decide))).trans h'.margin
  have hleverage := (h.leverage.symm.trans (hfield _ _ (by decide))).trans h'.leverage
  cases m
  cases m'
  cases Option.some.inj hopType
  cases Option.some.inj hassetId
  cases Option.some.inj hassetTicker
  cases Option.some.inj hnetwork
  cases hbuilderAddr
  cases hmargin
  cases hleverage
  rfl

end

/-! ## 2. The parser reads and hashes as it goes -/

/-- The context after these elements. -/
structure HasRead (sdk : Sdk) (ds : List TlvData) (s : MetadataCtx) : Prop where
  tags : s.receivedTags = (ds.map TlvData.tag).reverse
  unique : (ds.map TlvData.tag).Nodup
  hashed : s.hashCtx = hashInput ds
  signature : s.signature = (field (signatureOf sdk) tagSignature ds).getD []
  metadata : s.metadata = readMetadata sdk ds

theorem hasRead_nil (sdk : Sdk) (outcomes : List Bool) :
    HasRead sdk [] { outcomes := outcomes } where
  tags := rfl
  unique := List.nodup_nil
  hashed := rfl
  signature := rfl
  metadata := rfl

/-- The common handler hashes the element, unless it is the signature. -/
theorem handleCommon_ok {sdk : Sdk} {ds : List TlvData} {d : TlvData} {s s₁ : MetadataCtx}
    (hs : HasRead sdk ds s) (h : handleCommon d (TlvContext.receive d.tag s) = .ok s₁) :
    s₁.receivedTags = ((ds ++ [d]).map TlvData.tag).reverse ∧ s₁.hashCtx = hashInput (ds ++ [d]) ∧
      s₁.signature = s.signature ∧ s₁.metadata = s.metadata := by
  have htags : d.tag :: s.receivedTags = ((ds ++ [d]).map TlvData.tag).reverse := by
    rw [hs.tags]
    simp
  unfold handleCommon at h
  rw [hashInput_concat, ← hs.hashed]
  split at h
  · rename_i htag
    rw [if_pos htag]
    split at h
    · cases h
      exact ⟨htags, rfl, rfl, rfl⟩
    · cases h
  · rename_i htag
    rw [if_neg htag]
    cases h
    exact ⟨htags, rfl, rfl, rfl⟩

/-- One element more: its own handler stores its value. -/
theorem hasRead_concat {sdk : Sdk} {ds : List TlvData} {d : TlvData} {s s₁ s' : MetadataCtx}
    {row : TagHandler MetadataCtx} (hmem : row ∈ (metadataTlvParser sdk).tags)
    (hd : d.tag = row.tag) (hs : HasRead sdk ds s)
    (huniq : row.unique = true → row.tag ∉ TlvContext.receivedTags s)
    (hc : handleCommon d (TlvContext.receive row.tag s) = .ok s₁)
    (hh : row.handler d s₁ = .ok s') : HasRead sdk (ds ++ [d]) s' := by
  have hreceived : TlvContext.receivedTags s = (ds.map TlvData.tag).reverse := hs.tags
  rw [hreceived, List.mem_reverse, ← hd] at huniq
  rw [← hd] at hc
  obtain ⟨htags, hhashed, hsig, hmd⟩ := handleCommon_ok hs hc
  have hnew : d.tag ∉ ds.map TlvData.tag := by
    refine huniq ?_
    simp only [metadataTlvParser, List.mem_cons, List.not_mem_nil, or_false] at hmem
    rcases hmem with rfl | rfl | rfl | rfl | rfl | rfl | rfl | rfl | rfl | rfl <;> rfl
  have hnodup : ((ds ++ [d]).map TlvData.tag).Nodup := by
    rw [List.map_append]
    exact List.nodup_append.mpr ⟨hs.unique, List.nodup_singleton _, by
      rintro t ht u hu rfl
      exact hnew (List.mem_singleton.mp hu ▸ ht)⟩
  have hsame : ∀ {α : Type} (get : TlvData → Option α) (t : Nat), d.tag = t →
      field get t (ds ++ [d]) = get d :=
    fun get t ht => field_concat_same (ht ▸ hnew) ht
  have hother : ∀ {α : Type} (get : TlvData → Option α) (t : Nat), row.tag ≠ t →
      field get t (ds ++ [d]) = field get t ds :=
    fun get t ht => field_concat_other (hd ▸ ht)
  rw [hs.signature] at hsig
  rw [hs.metadata] at hmd
  simp only [metadataTlvParser, handleStructType, handleStructVersion, handleOperationType,
    handleAssetId, handleAssetTicker, handleNetwork, handleBuilderAddr, handleMargin,
    handleLeverage, handleSignature, List.mem_cons, List.not_mem_nil, or_false] at hmem
  rcases hmem with rfl | rfl | rfl | rfl | rfl | rfl | rfl | rfl | rfl | rfl
  all_goals
    dsimp only at hh hd hother
    obtain ⟨a, ha, rfl⟩ := storing_ok.mp hh
    refine ⟨htags, hnodup, hhashed, ?_, ?_⟩
    · simp [hsig, hsame _ _ hd, ha, hother, signatureOf]
    · simp [hmd, readMetadata, hsame _ _ hd, ha, hother, opTypeOf, assetTickerOf, networkOf,
        builderAddrOf]

/-- The payload is accepted, and these bytes were fed to the hash. -/
def Feeds (sdk : Sdk) (env : Env) (payload bytes : Bytes) : Prop :=
  ∃ outcomes out, env.cx = true :: outcomes ∧
    (metadataTlvParser sdk).parseVerified sdk.tlvDecode (verifyActionMetadata sdk env) payload
      { outcomes := outcomes } = .ok out ∧
    out.hashCtx = bytes

/-- The payload decodes to the metadata, and the hash of all its elements but the signature passed
the PKI check with the value of the signature. -/
structure Authentic (sdk : Sdk) (env : Env) (payload : Bytes) (ds : List TlvData)
    (m : ActionMetadata) : Prop where
  elements : sdk.tlvDecode payload = some ds
  decodes : Decodes sdk ds m
  feeds : Feeds sdk env payload (hashInput ds)
  signed : ∃ sig, field (signatureOf sdk) tagSignature ds = some sig ∧
    env.pki (sdk.sha256 (hashInput ds)) sig = true

/-- What the final check has found. -/
theorem verifyActionMetadata_ok {sdk : Sdk} {env : Env} {out : MetadataCtx}
    (h : verifyActionMetadata sdk env out = .ok ()) :
    (∀ t ∈ [tagStructType, tagStructVersion, tagOperationType, tagAssetId, tagAssetTicker,
      tagNetwork, tagSignature], t ∈ out.receivedTags) ∧
    env.pki (sdk.sha256 out.hashCtx) out.signature = true := by
  obtain ⟨u, htags, hpki⟩ := bind_ok_iff.mp h
  refine ⟨requireTags_ok.mp htags, ?_⟩
  split at hpki
  · split at hpki
    · cases hpki
    · rename_i hsig
      simpa using hsig
  · cases hpki

/-- A payload that is accepted decodes to its metadata, and was signed. -/
theorem authentic_of_accepted {sdk : Sdk} {env : Env} {payload : Bytes} {outcomes : List Bool}
    {out : MetadataCtx} (hcx : env.cx = true :: outcomes)
    (h : (metadataTlvParser sdk).parseVerified sdk.tlvDecode (verifyActionMetadata sdk env) payload
      { outcomes := outcomes } = .ok out) :
    ∃ ds, Authentic sdk env payload ds out.metadata := by
  obtain ⟨hp, hverify⟩ := TlvParser.parseVerified_ok.mp h
  obtain ⟨hreceived, hpki⟩ := verifyActionMetadata_ok hverify
  obtain ⟨ds, hds, hparse, hread⟩ := TlvParser.parse_elements
    (fun row hmem pre d s s₁ s' hd hs huniq hc hh => hasRead_concat hmem hd hs huniq hc hh)
    (hasRead_nil sdk outcomes) hp
  simp only [hread.tags, List.mem_reverse] at hreceived
  have hfield : ∀ {α : Type} {get : TlvData → Option α} {set : α → MetadataCtx → MetadataCtx}
      {t : Nat}, (metadataTlvParser sdk).tags.find? (fun row => row.tag == t) =
        some ⟨t, storing get set, true⟩ → t ∈ ds.map TlvData.tag → (field get t ds).isSome :=
    fun hfind ht => TlvParser.field_isSome hparse hfind ht
  have hvalue : ∀ {α : Type} {get : TlvData → Option α} {t : Nat} (a : α),
      (field get t ds).isSome → field get t ds = some ((field get t ds).getD a) := by
    intro α get t a h
    obtain ⟨b, hb⟩ := Option.isSome_iff_exists.mp h
    rw [hb, Option.getD_some]
  refine ⟨ds, hds, ?_, ⟨outcomes, out, hcx, h, hread.hashed⟩, ?_⟩
  · rw [hread.metadata]
    exact
      { known := fun d hd => by
          obtain ⟨row, hrow, -⟩ := TlvParser.parseElements_handled hparse d hd
          have htag : row.tag = d.tag := by
            simpa using List.find?_some hrow
          exact List.mem_map.mpr ⟨row, List.mem_of_find?_eq_some hrow, htag⟩
        unique := hread.unique
        structType := field_eq_of_filter (hfield rfl (hreceived _ (by simp)))
        structVersion := field_eq_of_filter (hfield rfl (hreceived _ (by simp)))
        opType := hvalue _ (hfield rfl (hreceived _ (by simp)))
        assetId := hvalue _ (hfield rfl (hreceived _ (by simp)))
        assetTicker := hvalue _ (hfield rfl (hreceived _ (by simp)))
        network := hvalue _ (hfield rfl (hreceived _ (by simp)))
        builderAddr := rfl
        margin := rfl
        leverage := rfl
        hasBuilderAddr := ⟨mem_of_field, hfield rfl⟩
        hasMargin := ⟨mem_of_field, hfield rfl⟩
        hasLeverage := ⟨mem_of_field, hfield rfl⟩ }
  · have hsig : (field (signatureOf sdk) tagSignature ds).isSome :=
      hfield rfl (hreceived _ (by simp))
    refine ⟨_, hvalue [] hsig, ?_⟩
    rw [hread.hashed, hread.signature] at hpki
    exact hpki

end ActionMetadata

/-! ## 3. Every run -/

variable {sdk : Sdk} {env : Env} {w : World} {m : ActionMetadata}

/-- The metadata after signing are those before. -/
theorem metadata_of_signed {ctx ctx' : HlContext}
    (h : ctx' = ctx ∨ ctx' = ctxSwitchToNextAction ctx ∨ ctx' = {})
    (hm : ctx'.metadata = some m) : ctx.metadata = some m := by
  rcases h with rfl | rfl | rfl
  · exact hm
  · exact hm
  · cases hm

theorem handlerSignAction_metadata {data : Bytes}
    (h : (handlerSignAction sdk env data w).world.ctx.metadata = some m) :
    w.ctx.metadata = some m := by
  have hcases := handlerSignAction_cases sdk env data w
  generalize handlerSignAction sdk env data w = r at hcases h
  cases hcases with
  | refused sw => exact h
  | unreviewed signing rawBuf events _ _ => exact h
  | reviewed signing rawBuf calls screen _ _ _ => exact h
  | signs _ _ =>
    obtain ⟨rawBuf, ctx', hworld, hctx⟩ := signAction_world sdk env w
    rw [hworld] at h
    exact metadata_of_signed hctx h

/-- A complete payload leaves the metadata, or brings authentic ones. -/
theorem PayloadEffect.metadata {handler : PayloadHandler} {payload : Bytes}
    {ctx ctx' : HlContext} {ret : Bool} {events : List Event}
    (h : PayloadEffect sdk env payload ctx handler ret ctx' events)
    (hm : ctx'.metadata = some m) :
    ctx.metadata = some m ∨
      handler = .parseActionMetadata ∧ AuthenticMetadata sdk env payload m := by
  cases h with
  | unchanged handler => exact .inl hm
  | appended a ctx' _ happ => exact .inl (happ.metadata.symm.trans hm)
  | loaded m' hauth _ =>
    cases hm
    exact .inr ⟨rfl, hauth⟩
  | aborted m' _ _ => cases hm

/-- New metadata come with the command that completes their payload. -/
theorem handlerChunked_metadata {handler : PayloadHandler} {first : Bool} {data : Bytes}
    {r : Outcome} (hw : w.PayloadOk) (h : handlerChunked sdk handler env first data w = .ok r)
    (hm : r.world.ctx.metadata = some m) :
    w.ctx.metadata = some m ∨ handler = .parseActionMetadata ∧ ∃ payload,
      AuthenticMetadata sdk env payload m ∧ w.Completes handler first data payload := by
  obtain ⟨r', hr', heffect⟩ := handlerChunked_effect sdk handler env first data hw
  cases h.symm.trans hr'
  rcases heffect with ⟨sw, payload', -, rfl⟩ | ⟨payload, ret, ctx', events, hcompletes, hrun, rfl⟩
  · exact .inl hm
  · rcases (runPayloadHandler_effect hrun).metadata hm with hold | ⟨hhandler, hauth⟩
    · exact .inl hold
    · exact .inr ⟨hhandler, payload, hauth, hcompletes⟩

/-- One step leaves the metadata, or completes a payload that is authentic. -/
theorem appMainStep_metadata {i : Input} (hw : w.PayloadOk)
    (hm : (appMainStep sdk w i).1.ctx.metadata = some m) :
    w.ctx.metadata = some m ∨ ∃ cmd env payload, i = .apdu (some cmd) env ∧
      w.CompletesMetadata cmd payload ∧ AuthenticMetadata sdk env payload m := by
  have hcases := appMainStep_cases sdk w i
  generalize appMainStep sdk w i = s at hcases hm
  cases hcases with
  | ignored i => exact .inl hm
  | stopped => exact .inl hm
  | answered cmd env sw _ => exact .inl hm
  | faulted cmd env e _ _ => exact .inl hm
  | chosen confirm env screen _ =>
    obtain ⟨rawBuf, ctx', hworld, hctx⟩ := reviewChoice_world sdk env confirm w
    rw [hworld] at hm
    exact .inl (metadata_of_signed hctx hm)
  | dispatched cmd env r running _ hr _ =>
    have hmr : r.world.ctx.metadata = some m := hm
    rcases apduDispatcher_cases sdk env cmd w with
      ⟨sw, hr', -⟩ | hr' | ⟨handler, hprovides, hr'⟩ | ⟨-, hr'⟩
    · cases hr.symm.trans hr'
      exact .inl hmr
    · obtain ⟨rawBuf, events, hget, -⟩ := handlerGetAddr_effect sdk env cmd.data w
      rw [hget] at hr'
      cases hr.symm.trans hr'
      exact .inl hmr
    · rcases handlerChunked_metadata hw (hr'.symm.trans hr) hmr with
        hold | ⟨rfl, payload, hauth, hcompletes⟩
      · exact .inl hold
      · exact .inr ⟨cmd, env, payload, rfl, ⟨hprovides, hcompletes⟩, hauth⟩
    · cases hr.symm.trans hr'
      exact .inl (handlerSignAction_metadata hmr)

/-- Stored metadata were received in a run, in one payload. -/
theorem metadata_received {inputs : List Input}
    (hm : ((app sdk).state inputs).ctx.metadata = some m) :
    ∃ pre cmd env post payload, inputs = pre ++ .apdu (some cmd) env :: post ∧
      ((app sdk).state pre).CompletesMetadata cmd payload ∧
      AuthenticMetadata sdk env payload m := by
  induction inputs using List.reverseRecOn with
  | nil => cases hm
  | append_singleton inputs i ih =>
    rw [Machine.state_snoc] at hm
    rcases appMainStep_metadata (payloadOk_state sdk inputs) hm with
      hold | ⟨cmd, env, payload, rfl, hcompletes, hauth⟩
    · obtain ⟨pre, cmd, env, post, payload, rfl, hcompletes, hauth⟩ := ih hold
      exact ⟨pre, cmd, env, post ++ [i], payload, by simp, hcompletes, hauth⟩
    · exact ⟨inputs, cmd, env, [], payload, rfl, hcompletes, hauth⟩

theorem AuthenticMetadata.authentic {payload : Bytes} (h : AuthenticMetadata sdk env payload m) :
    ∃ ds, Authentic sdk env payload ds m := by
  obtain ⟨outcomes, out, hcx, hp, rfl⟩ := h
  exact authentic_of_accepted hcx hp

/-- What is fed to the hash is the same at every look. -/
theorem ActionMetadata.Feeds.unique {payload bytes bytes' : Bytes} (h : Feeds sdk env payload bytes)
    (h' : Feeds sdk env payload bytes') : bytes = bytes' := by
  obtain ⟨outcomes, out, hcx, hp, rfl⟩ := h
  obtain ⟨outcomes', out', hcx', hp', rfl⟩ := h'
  rw [hcx] at hcx'
  cases hcx'
  rw [hp] at hp'
  cases hp'
  rfl

/-- `parse_action_metadata` accepts: the payload is authentic, and its metadata are stored. -/
theorem parseActionMetadata_authentic {payload : Bytes} {ctx ctx' : HlContext} {reset : Bool}
    (h : parseActionMetadata sdk env payload ctx = .ok (true, ctx', reset)) :
    ∃ ds m, Authentic sdk env payload ds m ∧ ctx'.metadata = some m := by
  obtain ⟨ret, ctx₁, reset₁, hp, heffect⟩ := parseActionMetadata_effect sdk env payload ctx
  rw [h] at hp
  cases hp
  rcases heffect with ⟨m, hauth, -, -, rfl, -⟩ | ⟨m, -, -, hret, -⟩ | ⟨-, hret, -⟩
  · obtain ⟨ds, hds⟩ := hauth.authentic
    exact ⟨ds, m, hds, rfl⟩
  · cases hret
  · cases hret

/-- If elements are cut off one after the other, the hashed bytes determine the metadata. -/
theorem ActionMetadata.Authentic.metadata_eq {next : Bytes → Option (TlvData × Bytes)}
    (hsplits : Splits sdk.tlvDecode next) {env' : Env} {payload payload' : Bytes}
    {ds ds' : List TlvData} {m' : ActionMetadata} (h : Authentic sdk env payload ds m)
    (h' : Authentic sdk env' payload' ds' m') (heq : hashInput ds = hashInput ds') : m = m' := by
  have hds := (hsplits.elements payload ds h.elements).2
  have hds' := (hsplits.elements payload' ds' h'.elements).2
  have hhashed : hashedElements ds = hashedElements ds' :=
    raws_inj (fun d hd => hds d (List.mem_of_mem_filter hd))
      (fun d hd => hds' d (List.mem_of_mem_filter hd)) heq
  exact h.decodes.metadata_eq sdk h'.decodes hhashed

/-! ## 4. Authenticity -/

/-- In every run, stored metadata are the decoding of a payload that one command completed, whose
hash over all elements but the signature passed the PKI check with the signature.  And two
payloads that are accepted with the same bytes fed to the hash store the same metadata, if the SDK
cuts a payload into elements one after the other. -/
theorem metadata_authentic (sdk : Sdk) :
    (∀ inputs m, ((app sdk).state inputs).ctx.metadata = some m →
      ∃ pre cmd env post payload ds, inputs = pre ++ .apdu (some cmd) env :: post ∧
        ((app sdk).state pre).CompletesMetadata cmd payload ∧
        Authentic sdk env payload ds m) ∧
    (∀ next, Splits sdk.tlvDecode next →
      ∀ env env' payload payload' ctx ctx' saved saved' reset reset' bytes,
      parseActionMetadata sdk env payload ctx = .ok (true, saved, reset) →
      parseActionMetadata sdk env' payload' ctx' = .ok (true, saved', reset') →
      Feeds sdk env payload bytes → Feeds sdk env' payload' bytes →
      saved.metadata = saved'.metadata) := by
  refine ⟨?_, ?_⟩
  · intro inputs m hm
    obtain ⟨pre, cmd, env, post, payload, hinputs, hcompletes, hauth⟩ := metadata_received hm
    obtain ⟨ds, hds⟩ := hauth.authentic
    exact ⟨pre, cmd, env, post, payload, ds, hinputs, hcompletes, hds⟩
  · intro next hsplits env env' payload payload' ctx ctx' saved saved' reset reset' bytes h h'
      hf hf'
    obtain ⟨ds, m, hauth, hm⟩ := parseActionMetadata_authentic h
    obtain ⟨ds', m', hauth', hm'⟩ := parseActionMetadata_authentic h'
    have hinput : hashInput ds = hashInput ds' :=
      (hauth.feeds.unique hf).trans (hf'.unique hauth'.feeds)
    rw [hm, hm', hauth.metadata_eq hsplits hauth' hinput]

/-- The client's metadata with another signature, which stands in front and has a length of two
bytes. -/
def signatureFirst (m : ActionMetadata) : Bytes :=
  let payload := Client.actionMetadata m
  [0x15, 0x81, 72] ++ List.replicate 72 1 ++ payload.take (payload.length - 72)

theorem metadata_authentic_ethMetadata :
    (∃ pre cmd env post payload ds,
      Client.provideActionMetadata (Client.ethMetadata .order) =
        pre ++ .apdu (some cmd) env :: post ∧
      ((app Client.sdk).state pre).CompletesMetadata cmd payload ∧
      Authentic Client.sdk env payload ds (Client.ethMetadata .order)) ∧
    ∃ saved saved' reset reset',
      parseActionMetadata Client.sdk Client.env
        (Client.actionMetadata (Client.ethMetadata .order)) {} = .ok (true, saved, reset) ∧
      parseActionMetadata Client.sdk Client.env
        (signatureFirst (Client.ethMetadata .order)) {} = .ok (true, saved', reset') ∧
      saved.metadata = saved'.metadata := by
  have haccepts : ∀ payload : Bytes,
      (parseActionMetadata Client.sdk Client.env payload {}).toOption.map (·.1) = some true →
      ∃ saved reset, parseActionMetadata Client.sdk Client.env payload {} =
        .ok (true, saved, reset) := by
    intro payload h
    cases hparse : parseActionMetadata Client.sdk Client.env payload {} with
    | error e =>
      rw [hparse] at h
      cases h
    | ok r =>
      rw [hparse] at h
      obtain ⟨verdict, saved, reset⟩ := r
      obtain rfl : verdict = true := Option.some.inj h
      exact ⟨saved, reset, rfl⟩
  have hinput : (Client.sdk.tlvDecode (signatureFirst (Client.ethMetadata .order))).map hashInput =
      (Client.sdk.tlvDecode (Client.actionMetadata (Client.ethMetadata .order))).map hashInput := by
    decide +kernel
  refine ⟨(metadata_authentic Client.sdk).1 _ _ (by decide +kernel), ?_⟩
  obtain ⟨saved, reset, h⟩ := haccepts (Client.actionMetadata (Client.ethMetadata .order))
    (by decide +kernel)
  obtain ⟨saved', reset', h'⟩ := haccepts (signatureFirst (Client.ethMetadata .order))
    (by decide +kernel)
  obtain ⟨ds, m, hauth, -⟩ := parseActionMetadata_authentic h
  obtain ⟨ds', m', hauth', -⟩ := parseActionMetadata_authentic h'
  rw [hauth.elements, hauth'.elements] at hinput
  have hbytes : hashInput ds' = hashInput ds := Option.some.inj hinput
  refine ⟨saved, saved', reset, reset', h, h', ?_⟩
  exact (metadata_authentic Client.sdk).2 Client.element Client.sdk_splits _ _ _ _ _ _ _ _ _ _ _
    h h' hauth.feeds (hbytes ▸ hauth'.feeds)

end Hyperliquid

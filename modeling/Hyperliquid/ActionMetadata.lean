/-
# Action metadata (`action_metadata.c`)

The metadata says what the session is about: the operation, the asset and its ticker, the
network.  It is accepted only with a signature over the hash of all its other elements, which
the common handler of the parser feeds to SHA-256 one by one; whether the signature is good is
the answer of the PKI check (`Env.pki`).

Accepting metadata starts a new session.  When signing has started, the metadata is refused and
the session is reset all the same (`parseActionMetadata_cases`).
-/
import Hyperliquid.Context
import Hyperliquid.Sdk

namespace Hyperliquid

open Lib

namespace ActionMetadata

/-- `s_action_metadata_ctx`, with the outcomes of the hash calls still to come. -/
structure MetadataCtx where
  receivedTags : List Nat := []
  outcomes : List Bool := []
  hashCtx : Bytes := []
  signature : Bytes := []
  metadata : ActionMetadata := {}

instance : TlvContext MetadataCtx where
  receivedTags := MetadataCtx.receivedTags
  receive t s := { s with receivedTags := t :: s.receivedTags }

/-- `STRUCT_TYPE`. -/
abbrev structType : UInt8 := 0x2b

abbrev tagStructType : Nat := 0x01
abbrev tagStructVersion : Nat := 0x02
abbrev tagOperationType : Nat := 0xd0
abbrev tagAssetId : Nat := 0xd1
abbrev tagAssetTicker : Nat := 0x24
abbrev tagNetwork : Nat := 0xd2
abbrev tagBuilderAddr : Nat := 0xd3
abbrev tagMargin : Nat := 0xd4
abbrev tagLeverage : Nat := 0xd5
abbrev tagSignature : Nat := 0x15

/-- The byte of a `e_operation_type`; `OP_TYPE_UPDATE_LEVERAGE` is not accepted. -/
def operationTypeOfByte (opType : UInt8) : Option OperationType :=
  match opType with
  | 0 => some .order
  | 1 => some .modify
  | 2 => some .cancel
  | 4 => some .close
  | 5 => some .updateMargin
  | 6 => some .cancelSl
  | 7 => some .cancelTp
  | 8 => some .cancelTpSl
  | _ => none

/-- The byte of a `e_network`. -/
def networkOfByte (network : UInt8) : Option Network :=
  match network with
  | 0 => some .mainnet
  | 1 => some .testnet
  | _ => none

section

variable (sdk : Sdk)

def handleStructType : TlvData → MetadataCtx → Except Failure MetadataCtx :=
  storing (fun d => (sdk.getUint8TFromTlvData d).filter (· == structType)) fun _ out => out

def handleStructVersion : TlvData → MetadataCtx → Except Failure MetadataCtx :=
  storing (fun d => (sdk.getUint8TFromTlvData d).filter (· == 1)) fun _ out => out

def handleOperationType : TlvData → MetadataCtx → Except Failure MetadataCtx :=
  storing (fun d => sdk.getUint8TFromTlvData d >>= operationTypeOfByte)
    fun t out => { out with metadata := { out.metadata with opType := t } }

def handleAssetId : TlvData → MetadataCtx → Except Failure MetadataCtx :=
  storing sdk.getUint32TFromTlvData
    fun a out => { out with metadata := { out.metadata with assetId := a } }

def handleAssetTicker : TlvData → MetadataCtx → Except Failure MetadataCtx :=
  storing (fun d => sdk.getStringFromTlvData d 1 assetTickerLength)
    fun t out => { out with metadata := { out.metadata with assetTicker := t } }

def handleNetwork : TlvData → MetadataCtx → Except Failure MetadataCtx :=
  storing (fun d => sdk.getUint8TFromTlvData d >>= networkOfByte)
    fun n out => { out with metadata := { out.metadata with network := n } }

def handleBuilderAddr : TlvData → MetadataCtx → Except Failure MetadataCtx :=
  storing (fun d => (sdk.getBufferFromTlvData d addressLength addressLength).map addressOfBuffer)
    fun a out => { out with metadata := { out.metadata with builderAddr := some a } }

def handleMargin : TlvData → MetadataCtx → Except Failure MetadataCtx :=
  storing sdk.getUint64TFromTlvData
    fun m out => { out with metadata := { out.metadata with margin := some m } }

def handleLeverage : TlvData → MetadataCtx → Except Failure MetadataCtx :=
  storing sdk.getUint32TFromTlvData
    fun l out => { out with metadata := { out.metadata with leverage := some l } }

def handleSignature : TlvData → MetadataCtx → Except Failure MetadataCtx :=
  storing (fun d => (sdk.getBufferFromTlvData d 70 72).map Subtype.val)
    fun sig out => { out with signature := sig }

/-- Feeds every element but the signature to the hash. -/
def handleCommon (data : TlvData) (out : MetadataCtx) : Except Failure MetadataCtx :=
  if data.tag != tagSignature then
    match out.outcomes with
    | true :: rest => .ok { out with outcomes := rest, hashCtx := out.hashCtx ++ data.raw }
    | _ => .error .rejected
  else .ok out

def metadataTlvParser : TlvParser MetadataCtx where
  tags :=
    [⟨tagStructType, handleStructType sdk, true⟩,
     ⟨tagStructVersion, handleStructVersion sdk, true⟩,
     ⟨tagOperationType, handleOperationType sdk, true⟩,
     ⟨tagAssetId, handleAssetId sdk, true⟩,
     ⟨tagAssetTicker, handleAssetTicker sdk, true⟩,
     ⟨tagNetwork, handleNetwork sdk, true⟩,
     ⟨tagBuilderAddr, handleBuilderAddr sdk, true⟩,
     ⟨tagMargin, handleMargin sdk, true⟩,
     ⟨tagLeverage, handleLeverage sdk, true⟩,
     ⟨tagSignature, handleSignature sdk, true⟩]
  common := handleCommon

def verifyActionMetadata (env : Env) (out : MetadataCtx) : Except Failure Unit := do
  requireTags out.receivedTags
    [tagStructType, tagStructVersion, tagOperationType, tagAssetId, tagAssetTicker, tagNetwork,
     tagSignature]
  match out.outcomes with
  | true :: _ =>
    if !env.pki (sdk.sha256 out.hashCtx) out.signature then .error .rejected else .ok ()
  | _ => .error .rejected

end

end ActionMetadata

open ActionMetadata

/-- The value it returns, the context it leaves, and whether it called `ctx_reset`. -/
def parseActionMetadata (sdk : Sdk) (env : Env) (payload : Bytes) (ctx : HlContext) :
    Except Failure (Bool × HlContext × Bool) :=
  match env.cx with
  | true :: outcomes =>
    match (metadataTlvParser sdk).parseVerified sdk.tlvDecode (verifyActionMetadata sdk env)
        payload { outcomes := outcomes } with
    | .error .rejected => .ok (false, ctx, false)
    | .error .nullDeref => .error .nullDeref
    | .ok out =>
      -- a signature flow was started but not finished: refuse, but reset all the same
      if !ctxCurrentActionIsFirst ctx then .ok (false, ctxReset, true)
      else .ok (true, ctxSaveActionMetadata out.metadata ctxReset, true)
  | _ => .ok (false, ctx, false)

/-- What `parse_action_metadata` can do: refuse and change nothing, reset a session whose
signing has started, or start a new session. -/
theorem parseActionMetadata_cases {sdk : Sdk} {env : Env} {payload : Bytes}
    {ctx ctx' : HlContext} {ret reset : Bool}
    (h : parseActionMetadata sdk env payload ctx = .ok (ret, ctx', reset)) :
    (ret = false ∧ ctx' = ctx ∧ reset = false) ∨
    (ret = false ∧ ctx' = {} ∧ reset = true) ∨
    (ret = true ∧ reset = true ∧ ∃ metadata, ctx' = { metadata := some metadata }) := by
  unfold parseActionMetadata at h
  split at h
  · split at h
    · cases h
      exact .inl ⟨rfl, rfl, rfl⟩
    · cases h
    · rename_i out _
      split at h
      · cases h
        exact .inr (.inl ⟨rfl, rfl, rfl⟩)
      · cases h
        exact .inr (.inr ⟨rfl, rfl, out.metadata, rfl⟩)
  · cases h
    exact .inl ⟨rfl, rfl, rfl⟩

/-- Nothing is dereferenced that may be null: it always returns. -/
theorem parseActionMetadata_returns (sdk : Sdk) (env : Env) (payload : Bytes)
    (ctx : HlContext) : ∃ r, parseActionMetadata sdk env payload ctx = .ok r := by
  have hparse : ∀ out, (metadataTlvParser sdk).parseVerified sdk.tlvDecode
      (verifyActionMetadata sdk env) payload out ≠ .error .nullDeref := by
    intro out
    refine TlvParser.parseVerified_ne_nullDeref ?_ ?_ ?_ payload out
    · intro d s
      simp only [metadataTlvParser, handleCommon]
      split
      · split <;> simp
      · simp
    · simp only [metadataTlvParser, List.forall_mem_cons, List.not_mem_nil, false_implies,
        implies_true, and_true]
      exact ⟨storing_ne_nullDeref, storing_ne_nullDeref, storing_ne_nullDeref,
        storing_ne_nullDeref, storing_ne_nullDeref, storing_ne_nullDeref, storing_ne_nullDeref,
        storing_ne_nullDeref, storing_ne_nullDeref, storing_ne_nullDeref⟩
    · intro s h
      obtain ht | ⟨u, -, hv⟩ := bind_error_iff.mp h
      · exact requireTags_ne_nullDeref _ _ ht
      · split at hv
        · split at hv <;> cases hv
        · cases hv
  unfold parseActionMetadata
  split
  · split
    · exact ⟨_, rfl⟩
    · rename_i hnull
      exact absurd hnull (hparse _)
    · split <;> exact ⟨_, rfl⟩
  · exact ⟨_, rfl⟩

end Hyperliquid

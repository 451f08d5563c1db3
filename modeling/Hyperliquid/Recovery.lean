/-
# The application cannot be wedged

Two things stand in the way of a new session: a transfer in progress, which a new first chunk
ends, and a session whose signing has started, which new metadata reset.  Both are refused, and
both are gone after the refusal.  So a payload of metadata that is refused is submitted again, at
most twice (`metadata_stored_within_three`).

That the payload itself is accepted is not taken for granted.  A payload whose elements spell
metadata (`WellFormed`) is accepted by the parser, if the hash calls and the PKI check let it pass
(`WellFormed.authentic`); this is the converse of what accepted payloads look like.
-/
import Hyperliquid.MetadataAuthenticity
import Hyperliquid.ClientTransfer

namespace Hyperliquid

open Lib Lib.Msgpack ActionMetadata

/-! ## 1. Well-formed payloads are accepted -/

namespace ActionMetadata

variable {sdk : Sdk} {env : Env} {payload sig : Bytes} {ds : List TlvData} {d : TlvData}
  {m : ActionMetadata}

/-- The payload is one complete structure of metadata, with a signature. -/
structure WellFormed (sdk : Sdk) (payload : Bytes) (ds : List TlvData) (m : ActionMetadata)
    (sig : Bytes) : Prop where
  nonempty : payload ≠ []
  elements : sdk.tlvDecode payload = some ds
  decodes : Decodes sdk ds m
  signature : field (signatureOf sdk) tagSignature ds = some sig

/-- The SDK hashes the elements and accepts the signature, and the answer can be sent. -/
structure Accepts (sdk : Sdk) (env : Env) (ds : List TlvData) (sig : Bytes) : Prop where
  hashes : ∃ outcomes, env.cx =
    List.replicate ((hashedElements ds).length + 2) true ++ outcomes
  pki : env.pki (sdk.sha256 (hashInput ds)) sig = true
  send : 0 ≤ env.send

/-- The handler of its tag reads the element. -/
def Readable (sdk : Sdk) (d : TlvData) : Prop :=
  ∃ row, (metadataTlvParser sdk).tags.find? (fun row => row.tag == d.tag) = some row ∧
    ∀ s, ∃ s', row.handler d s = .ok s'

theorem readable_of_storing {α : Type} {get : TlvData → Option α}
    {set : α → MetadataCtx → MetadataCtx} {t : Nat} {a : α} (htag : d.tag = t)
    (hfind : (metadataTlvParser sdk).tags.find? (fun row => row.tag == t) =
      some ⟨t, storing get set, true⟩) (ha : get d = some a) : Readable sdk d := by
  subst htag
  exact ⟨_, hfind, fun s => ⟨set a s, storing_ok.mpr ⟨a, ha, rfl⟩⟩⟩

/-- Each element of a well-formed payload is readable. -/
theorem WellFormed.readable (h : WellFormed sdk payload ds m sig) (hd : d ∈ ds) :
    Readable sdk d := by
  have hget : ∀ {α : Type} {get : TlvData → Option α} {t : Nat}, d.tag = t →
      field get t ds = get d :=
    fun htag => field_of_mem h.decodes.unique hd htag
  have hoptional : ∀ {α : Type} {get : TlvData → Option α} {t : Nat} {o : Option α},
      field get t ds = o → (o.isSome ↔ t ∈ ds.map TlvData.tag) → d.tag = t →
      ∃ a, get d = some a := by
    intro α get t o hfield hhas htag
    have hsome : o.isSome := hhas.mpr (List.mem_map.mpr ⟨d, hd, htag⟩)
    rw [← hfield, hget htag] at hsome
    exact Option.isSome_iff_exists.mp hsome
  have hknown := h.decodes.known d hd
  simp only [metadataTlvParser, List.map_cons, List.map_nil, List.mem_cons, List.not_mem_nil,
    or_false] at hknown
  rcases hknown with htag | htag | htag | htag | htag | htag | htag | htag | htag | htag
  · have hvalue := (hget htag).symm.trans h.decodes.structType
    exact readable_of_storing htag rfl (by rw [hvalue]; rfl)
  · have hvalue := (hget htag).symm.trans h.decodes.structVersion
    exact readable_of_storing htag rfl (by rw [hvalue]; rfl)
  · exact readable_of_storing htag rfl ((hget htag).symm.trans h.decodes.opType)
  · exact readable_of_storing htag rfl ((hget htag).symm.trans h.decodes.assetId)
  · exact readable_of_storing htag rfl ((hget htag).symm.trans h.decodes.assetTicker)
  · exact readable_of_storing htag rfl ((hget htag).symm.trans h.decodes.network)
  · obtain ⟨a, ha⟩ := hoptional h.decodes.builderAddr h.decodes.hasBuilderAddr htag
    exact readable_of_storing htag rfl ha
  · obtain ⟨a, ha⟩ := hoptional h.decodes.margin h.decodes.hasMargin htag
    exact readable_of_storing htag rfl ha
  · obtain ⟨a, ha⟩ := hoptional h.decodes.leverage h.decodes.hasLeverage htag
    exact readable_of_storing htag rfl ha
  · exact readable_of_storing htag rfl ((hget htag).symm.trans h.signature)

/-- No handler of the table makes a hash call. -/
theorem row_outcomes {row : TagHandler MetadataCtx} {s s' : MetadataCtx}
    (hmem : row ∈ (metadataTlvParser sdk).tags) (h : row.handler d s = .ok s') :
    s'.outcomes = s.outcomes := by
  simp only [metadataTlvParser, handleStructType, handleStructVersion, handleOperationType,
    handleAssetId, handleAssetTicker, handleNetwork, handleBuilderAddr, handleMargin,
    handleLeverage, handleSignature, List.mem_cons, List.not_mem_nil, or_false] at hmem
  rcases hmem with rfl | rfl | rfl | rfl | rfl | rfl | rfl | rfl | rfl | rfl
  all_goals
    dsimp only at h
    obtain ⟨a, -, rfl⟩ := storing_ok.mp h
    rfl

/-- The common handler makes one hash call for an element that is hashed. -/
theorem handleCommon_returns {s : MetadataCtx} {n : Nat} {outcomes : List Bool}
    (h : s.outcomes = List.replicate ((hashedElements [d]).length + n) true ++ outcomes) :
    ∃ s', handleCommon d s = .ok s' ∧ s'.outcomes = List.replicate n true ++ outcomes := by
  unfold handleCommon
  by_cases htag : (d.tag != tagSignature) = true
  · have hone : (hashedElements [d]).length + n = n + 1 := by
      simp [hashedElements, List.filter, htag, Nat.add_comm]
    rw [hone, List.replicate_succ, List.cons_append] at h
    rw [if_pos htag, h]
    exact ⟨_, rfl, rfl⟩
  · have hzero : (hashedElements [d]).length + n = n := by
      simp [hashedElements, List.filter, htag]
    rw [hzero] at h
    rw [if_neg htag]
    exact ⟨s, rfl, h⟩

/-- The elements before were read, and the hash calls for those to come will succeed. -/
structure Halfway (sdk : Sdk) (outcomes : List Bool) (ds done : List TlvData) (s : MetadataCtx) :
    Prop where
  read : HasRead sdk done s
  hashes : ∀ todo, done ++ todo = ds →
    s.outcomes = List.replicate ((hashedElements todo).length + 1) true ++ outcomes

/-- One element more. -/
theorem Halfway.step {outcomes : List Bool} {done todo : List TlvData} {s : MetadataCtx}
    (hds : done ++ d :: todo = ds) (hnodup : (ds.map TlvData.tag).Nodup)
    (hreadable : Readable sdk d) (h : Halfway sdk outcomes ds done s) :
    ∃ s', (metadataTlvParser sdk).step s d = .ok s' ∧
      Halfway sdk outcomes ds (done ++ [d]) s' := by
  obtain ⟨row, hfind, hhandler⟩ := hreadable
  have hmem := List.mem_of_find?_eq_some hfind
  have htag : row.tag = d.tag := by
    simpa using List.find?_some hfind
  have hnew : d.tag ∉ TlvContext.receivedTags s := by
    have hreceived : TlvContext.receivedTags s = (done.map TlvData.tag).reverse := h.read.tags
    rw [← hds, List.map_append, List.nodup_append] at hnodup
    intro hin
    rw [hreceived, List.mem_reverse] at hin
    exact hnodup.2.2 d.tag hin d.tag (by simp) rfl
  have hcount : (hashedElements (d :: todo)).length + 1 =
      (hashedElements [d]).length + ((hashedElements todo).length + 1) := by
    have hcons : hashedElements (d :: todo) = hashedElements [d] ++ hashedElements todo :=
      List.filter_append [d] todo
    rw [hcons, List.length_append]
    omega
  have hreceive : (TlvContext.receive d.tag s).outcomes =
      List.replicate ((hashedElements [d]).length + ((hashedElements todo).length + 1)) true ++
        outcomes := by
    rw [← hcount]
    exact h.hashes (d :: todo) hds
  obtain ⟨s₁, hc, houtcomes⟩ := handleCommon_returns hreceive
  obtain ⟨s', hh⟩ := hhandler s₁
  refine ⟨s', TlvParser.step_of_handled hfind ?_ hc hh, ?_, ?_⟩
  · simp [hnew]
  · exact hasRead_concat hmem htag.symm h.read (fun _ => htag ▸ hnew) (htag ▸ hc) hh
  · intro todo' htodo
    have hrest : todo' = todo := by
      rw [← hds, List.append_assoc, List.append_cancel_left_eq] at htodo
      exact (List.cons.inj htodo).2
    rw [hrest, row_outcomes hmem hh, houtcomes]

/-- The metadata that are read are those that the elements spell. -/
theorem Decodes.readMetadata_eq (h : Decodes sdk ds m) : readMetadata sdk ds = m := by
  unfold readMetadata
  rw [h.opType, h.assetId, h.assetTicker, h.network, h.builderAddr, h.margin, h.leverage]
  rfl

/-- A field that was read was received. -/
theorem HasRead.received {α : Type} {get : TlvData → Option α} {t : Nat} {a : α}
    {s : MetadataCtx} (h : HasRead sdk ds s) (ha : field get t ds = some a) :
    t ∈ s.receivedTags := by
  rw [h.tags, List.mem_reverse]
  exact mem_of_field (Option.isSome_iff_exists.mpr ⟨a, ha⟩)

/-- A well-formed payload is authentic where the SDK accepts it. -/
theorem WellFormed.authentic (h : WellFormed sdk payload ds m sig)
    (henv : Accepts sdk env ds sig) : AuthenticMetadata sdk env payload m := by
  obtain ⟨outcomes, hcx⟩ := henv.hashes
  have hstart : Halfway sdk outcomes ds []
      { outcomes := List.replicate ((hashedElements ds).length + 1) true ++ outcomes } := by
    refine ⟨hasRead_nil sdk _, ?_⟩
    rintro todo rfl
    rfl
  have hstep : ∀ done d todo s, done ++ d :: todo = [] ++ ds → Halfway sdk outcomes ds done s →
      ∃ s₁, (metadataTlvParser sdk).step s d = .ok s₁ ∧
        Halfway sdk outcomes ds (done ++ [d]) s₁ := by
    intro done d todo s hds hs
    rw [List.nil_append] at hds
    have hmem : d ∈ ds := by
      rw [← hds]
      simp
    exact hs.step hds h.decodes.unique (h.readable hmem)
  obtain ⟨out, hreads, hend⟩ := TlvParser.Reads.of_step [] hstart hstep
  have hread : HasRead sdk ds out := hend.read
  have hfinal : out.outcomes = true :: outcomes := hend.hashes [] (by simp)
  have htags : ∀ t ∈ [tagStructType, tagStructVersion, tagOperationType, tagAssetId,
      tagAssetTicker, tagNetwork, tagSignature], t ∈ out.receivedTags := by
    simp only [List.forall_mem_cons, List.not_mem_nil, false_implies, implies_true, and_true]
    exact ⟨hread.received h.decodes.structType, hread.received h.decodes.structVersion,
      hread.received h.decodes.opType, hread.received h.decodes.assetId,
      hread.received h.decodes.assetTicker, hread.received h.decodes.network,
      hread.received h.signature⟩
  have hpki : env.pki (sdk.sha256 out.hashCtx) out.signature = true := by
    rw [hread.hashed, hread.signature, h.signature]
    exact henv.pki
  have hverify : verifyActionMetadata sdk env out = .ok () := by
    refine bind_ok_iff.mpr ⟨(), requireTags_ok.mpr htags, ?_⟩
    rw [hfinal, hpki]
    rfl
  refine ⟨_, out, hcx, TlvParser.parseVerified_reads h.elements hreads hverify, ?_⟩
  rw [hread.metadata, h.decodes.readMetadata_eq]

end ActionMetadata

/-! ## 2. One submission -/

variable {sdk : Sdk} {env : Env} {payload sig : Bytes} {ds : List TlvData} {m : ActionMetadata}
  {w : World}

/-- The whole payload in a first chunk. -/
def submission (payload : Bytes) (env : Env) : Input :=
  .apdu (some ⟨cla, insProvideActionMetadata, p1First, 0,
    beBytes 2 payload.length ++ payload⟩) env

/-- The command reaches its handler. -/
theorem appMainStep_submission {r : Outcome} (hrun : w.running = true)
    (hcomm : w.commEnabled = true) (hret : 0 ≤ r.ret)
    (h : handlerChunked sdk .parseActionMetadata env true (beBytes 2 payload.length ++ payload) w =
      .ok r) : appMainStep sdk w (submission payload env) = (r.world, r.events) := by
  refine appMainStep_dispatched hrun hcomm ?_ hret
  exact h

/-- A transfer in progress is ended, and nothing else happens. -/
theorem submission_endsTransfer {handler : PayloadHandler} {n : Nat} {acc : Bytes}
    (hrun : w.running = true) (hcomm : w.commEnabled = true) (hsend : 0 ≤ env.send)
    (hrep : w.payload.Represents (.collecting handler n acc)) :
    appMainStep sdk w (submission payload env) =
      ({ w with payload := {} }, [.response [] .incorrectData]) :=
  appMainStep_submission hrun hcomm hsend (handlerChunked_rejected hrep rfl)

/-- Authentic metadata start a new session, unless signing has started. -/
theorem parseActionMetadata_of_authentic (h : AuthenticMetadata sdk env payload m)
    (ctx : HlContext) : parseActionMetadata sdk env payload ctx =
      .ok (if ctxCurrentActionIsFirst ctx then (true, { metadata := some m }, true)
        else (false, {}, true)) := by
  obtain ⟨outcomes, out, hcx, hout, rfl⟩ := h
  unfold parseActionMetadata
  rw [hcx]
  dsimp only
  rw [hout]
  cases ctxCurrentActionIsFirst ctx <;> rfl

/-- With no transfer in progress, the payload is parsed. -/
theorem submission_parsed {ret : Bool} {ctx' : HlContext} (hrun : w.running = true)
    (hcomm : w.commEnabled = true) (hsend : 0 ≤ env.send) (hidle : w.payload.Represents .idle)
    (hpos : 1 ≤ payload.length) (hfits : payload.length + 2 ≤ 255)
    (hparse : parseActionMetadata sdk env payload w.ctx = .ok (ret, ctx', true)) :
    appMainStep sdk w (submission payload env) =
      ({ w with payload := {}, ctx := ctx' },
        [.ctxReset, .response [] (if ret then .success else .incorrectData)]) := by
  have haccept : (Transfer.idle : Transfer PayloadHandler).accept true
      (some (beBytes 2 payload.length ++ payload)) .parseActionMetadata =
        some (payload.length, payload) :=
    Client.accept_first payload hpos (by simp only [payloadBufferSize]; omega) (Nat.le_refl _)
  have hhandler : runPayloadHandler sdk env .parseActionMetadata payload w.ctx =
      .ok (ret, ctx', [.ctxReset]) :=
    bind_ok_iff.mpr ⟨_, hparse, rfl⟩
  exact appMainStep_submission hrun hcomm hsend
    (handlerChunked_complete hidle haccept rfl hhandler)

/-! ## 3. One after the other -/

/-- The answers to the submissions that are refused: one ends a transfer in progress, one a
session whose signing has started. -/
def World.refusals (w : World) : List (List Event) :=
  (if w.payload.handler.isSome then [[.response [] .incorrectData]] else []) ++
    if ctxCurrentActionIsFirst w.ctx then [] else [[.ctxReset, .response [] .incorrectData]]

/-- The submissions from a state stop with the one that stores the metadata. -/
def World.StoredAfter (sdk : Sdk) (payload : Bytes) (m : ActionMetadata) (w : World)
    (envs : List Env) : Prop :=
  (app sdk).runFrom w ((envs.take (w.refusals.length + 1)).map (submission payload)) =
    ({ w with ctx := { metadata := some m }, payload := {} },
      w.refusals.flatten ++ [.ctxReset, .response [] .success])

section

variable {envs : List Env} (hcomm : w.commEnabled = true) (hrun : w.running = true)
  (hpos : 1 ≤ payload.length) (hfits : payload.length + 2 ≤ 255) (hsend : 0 ≤ env.send)

include hcomm hrun hpos hfits hsend

/-- Nothing stands in the way. -/
theorem storedAfter_first (hauth : AuthenticMetadata sdk env payload m)
    (hidle : w.payload.Represents .idle) (hfirst : ctxCurrentActionIsFirst w.ctx = true) :
    w.StoredAfter sdk payload m (env :: envs) := by
  have hnone : w.refusals = [] := by
    have hbuffer : w.payload = {} := hidle
    simp [World.refusals, hbuffer, hfirst]
  have hparse := parseActionMetadata_of_authentic hauth w.ctx
  rw [hfirst] at hparse
  have hstep : (app sdk).step w (submission payload env) = _ :=
    submission_parsed hrun hcomm hsend hidle hpos hfits hparse
  unfold World.StoredAfter
  rw [hnone, List.length_nil, List.take_succ_cons, List.take_zero, List.map_cons, List.map_nil,
    Machine.runFrom_cons, hstep, Machine.runFrom_nil]
  rfl

/-- Signing has started. -/
theorem storedAfter_signing (hauth : AuthenticMetadata sdk env payload m)
    (hidle : w.payload.Represents .idle) (hfirst : ctxCurrentActionIsFirst w.ctx = false)
    (hrest : ({ w with ctx := {}, payload := {} } : World).StoredAfter sdk payload m envs) :
    w.StoredAfter sdk payload m (env :: envs) := by
  have hone : w.refusals = [[.ctxReset, .response [] .incorrectData]] := by
    have hbuffer : w.payload = {} := hidle
    simp [World.refusals, hbuffer, hfirst]
  have hparse := parseActionMetadata_of_authentic hauth w.ctx
  rw [hfirst] at hparse
  have hstep : (app sdk).step w (submission payload env) = _ :=
    submission_parsed hrun hcomm hsend hidle hpos hfits hparse
  have hstored : (app sdk).runFrom { w with ctx := {}, payload := {} }
      ((envs.take 1).map (submission payload)) =
        ({ w with ctx := { metadata := some m }, payload := {} },
          [.ctxReset, .response [] .success]) := hrest
  unfold World.StoredAfter
  rw [hone, List.length_singleton, List.take_succ_cons, List.map_cons, Machine.runFrom_cons, hstep,
    hstored]
  rfl

omit hpos hfits in
/-- A transfer is in progress. -/
theorem storedAfter_transfer {handler : PayloadHandler} {n : Nat} {acc : Bytes}
    (hrep : w.payload.Represents (.collecting handler n acc))
    (hrest : ({ w with payload := {} } : World).StoredAfter sdk payload m envs) :
    w.StoredAfter sdk payload m (env :: envs) := by
  have hmore : w.refusals =
      [.response [] .incorrectData] :: ({ w with payload := {} } : World).refusals := by
    simp [World.refusals, hrep.1.handler]
  have hstep : (app sdk).step w (submission payload env) = _ :=
    submission_endsTransfer hrun hcomm hsend hrep
  unfold World.StoredAfter at hrest ⊢
  rw [hmore, List.length_cons, List.take_succ_cons, List.map_cons, Machine.runFrom_cons, hstep,
    hrest]
  rfl

end

/-- In every reachable state of the running application with no review on the screen, a
well-formed payload of metadata that fits in one command is submitted until it is stored: at most
twice it is refused, and what is left is a context of these metadata alone, with no transfer in
progress. -/
theorem metadata_stored_within_three (sdk : Sdk) (inputs : List Input) (payload : Bytes)
    (ds : List TlvData) (m : ActionMetadata) (sig : Bytes) (env₁ env₂ env₃ : Env)
    (hrun : ((app sdk).state inputs).running = true)
    (hreview : ((app sdk).state inputs).review = none)
    (hpayload : WellFormed sdk payload ds m sig) (hfits : payload.length + 2 ≤ 255)
    (henvs : ∀ env ∈ [env₁, env₂, env₃], Accepts sdk env ds sig) :
    ((app sdk).state inputs).refusals.length + 1 ≤ 3 ∧
      ((app sdk).state inputs).StoredAfter sdk payload m [env₁, env₂, env₃] := by
  have hcomm : ((app sdk).state inputs).commEnabled = true := by
    have hinv : ((app sdk).state inputs).Comm := (app_refines sdk).inv_state inputs
    rw [hinv, hreview]
    rfl
  have hpos : 1 ≤ payload.length := List.length_pos_of_ne_nil hpayload.nonempty
  have hsend : ∀ env ∈ [env₁, env₂, env₃], 0 ≤ env.send := fun env he => (henvs env he).send
  have hauth : ∀ env ∈ [env₁, env₂, env₃], AuthenticMetadata sdk env payload m :=
    fun env he => hpayload.authentic (henvs env he)
  simp only [List.forall_mem_cons, List.not_mem_nil, false_implies, implies_true, and_true]
    at hsend hauth
  obtain ⟨hsend₁, hsend₂, hsend₃⟩ := hsend
  obtain ⟨hauth₁, hauth₂, hauth₃⟩ := hauth
  obtain ⟨t, hrep⟩ := payloadOk_state sdk inputs
  generalize (app sdk).state inputs = w at *
  constructor
  · unfold World.refusals
    split <;> split <;> simp
  · have hidle : ∀ v : World, v.payload = {} → v.commEnabled = true → v.running = true →
        ∀ {env env' : Env} {envs : List Env}, 0 ≤ env.send → 0 ≤ env'.send →
        AuthenticMetadata sdk env payload m → AuthenticMetadata sdk env' payload m →
        v.StoredAfter sdk payload m (env :: env' :: envs) := by
      intro v hv hvcomm hvrun env env' envs hs hs' ha ha'
      cases hfirst : ctxCurrentActionIsFirst v.ctx with
      | true => exact storedAfter_first hvcomm hvrun hpos hfits hs ha hv hfirst
      | false =>
        refine storedAfter_signing hvcomm hvrun hpos hfits hs ha hv hfirst ?_
        exact storedAfter_first hvcomm hvrun hpos hfits hs' ha' rfl rfl
    cases t with
    | idle => exact hidle w hrep hcomm hrun hsend₁ hsend₂ hauth₁ hauth₂
    | collecting handler n acc =>
      refine storedAfter_transfer hcomm hrun hsend₁ hrep ?_
      exact hidle { w with payload := {} } rfl hcomm hrun hsend₂ hsend₃ hauth₂ hauth₃

/-- The first action of a session is signed, and the first bytes of another have arrived. -/
def wedged : List Input :=
  reviewSession ++ [.choice true Client.env,
    Client.exchange insSetAction p1First (beBytes 2 100 ++ List.replicate 50 0)]

theorem metadata_stored_within_three_wedged :
    let payload := Client.actionMetadata (Client.ethMetadata .cancel)
    let w := (app Client.sdk).state wedged
    w.refusals.length = 2 ∧ w.refusals.length + 1 ≤ 3 ∧
      w.StoredAfter Client.sdk payload (Client.ethMetadata .cancel)
        [Client.env, Client.env, Client.env] := by
  have hparse : (parseActionMetadata Client.sdk Client.env
      (Client.actionMetadata (Client.ethMetadata .cancel)) {}).toOption =
        some (true, { metadata := some (Client.ethMetadata .cancel) }, true) := by
    decide +kernel
  have haccepted : parseActionMetadata Client.sdk Client.env
      (Client.actionMetadata (Client.ethMetadata .cancel)) {} =
        .ok (true, { metadata := some (Client.ethMetadata .cancel) }, true) := by
    cases h : parseActionMetadata Client.sdk Client.env
      (Client.actionMetadata (Client.ethMetadata .cancel)) {} with
    | error e =>
      rw [h] at hparse
      cases hparse
    | ok r =>
      rw [h] at hparse
      exact congrArg Except.ok (Option.some.inj hparse)
  obtain ⟨ds, m, hauth, hm⟩ := parseActionMetadata_authentic haccepted
  obtain rfl : Client.ethMetadata .cancel = m := Option.some.inj hm
  obtain ⟨sig, hsig, -⟩ := hauth.signed
  have hcount : (Client.sdk.tlvDecode (Client.actionMetadata (Client.ethMetadata .cancel))).map
      (fun ds => (hashedElements ds).length) = some 6 := by
    decide +kernel
  rw [hauth.elements] at hcount
  have hlength : (hashedElements ds).length = 6 := Option.some.inj hcount
  have henv : Accepts Client.sdk Client.env ds sig :=
    ⟨⟨List.replicate 56 true, by rw [hlength]; rfl⟩, rfl, Int.le_refl 0⟩
  exact ⟨by decide +kernel, metadata_stored_within_three Client.sdk wedged _ ds _ sig _ _ _
    (by decide +kernel) (by decide +kernel)
    ⟨by decide +kernel, hauth.elements, hauth.decodes, hsig⟩ (by decide +kernel)
    (by
      intro env he
      obtain rfl : env = Client.env := by simpa using he
      exact henv)⟩

end Hyperliquid

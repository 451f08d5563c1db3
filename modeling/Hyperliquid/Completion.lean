/-
# When a client gets its signatures

A batch can fail to be signed for reasons of its own: the application does not take one of its
actions after the others, there is no review for what it holds, the path is not read, or the user
refuses what is shown.  It can also fail because a primitive does.

With primitives that work, only the former remain, and they are known in advance (`Accepted`): then
the client has all its signatures in time, and otherwise it has raised an exception
(`conversation_completes`).  The proof is that no turn of the conversation leads to an exception,
on top of the invariant of all conversations.
-/
import Hyperliquid.Conversation
import Hyperliquid.SignatureCost

namespace Hyperliquid

open Lib

/-! ## 1. The actions of an operation -/

section

variable {opType : OperationType} {types : List ActionType}

/-- An operation allows the types of its lists. -/
theorem ActionList.allowed (h : ActionList opType types) : types ⊆ allowedTypes opType := by
  intro t ht
  cases opType with
  | order =>
    obtain ⟨rest, hperm, hsub⟩ := h
    rcases List.mem_cons.mp (hperm.mem_iff.mp ht) with rfl | hrest
    · exact List.mem_cons_self
    · exact List.mem_cons_of_mem _ (hsub.subset hrest)
  | modify =>
    rcases h with rfl | rfl
    · obtain rfl := List.mem_singleton.mp ht
      decide
    · obtain rfl := List.mem_singleton.mp ht
      decide
  | updateLeverage => exact h.elim
  | _ =>
    have h' : types = _ := h
    rw [h'] at ht
    exact ht

/-- Such a list names no type twice. -/
theorem ActionList.nodup (h : ActionList opType types) : types.Nodup := by
  cases opType with
  | order =>
    obtain ⟨rest, hperm, hsub⟩ := h
    refine hperm.nodup_iff.mpr (List.Nodup.sublist (hsub.cons_cons .bulkOrder) ?_)
    decide
  | modify =>
    rcases h with rfl | rfl
    · exact List.nodup_singleton _
    · exact List.nodup_singleton _
  | updateLeverage => exact h.elim
  | _ =>
    have h' : types = _ := h
    rw [h']
    exact List.nodup_singleton _

theorem ActionList.length_le (h : ActionList opType types) : types.length ≤ 4 :=
  (h.nodup.subperm h.allowed).length_le.trans (length_allowedTypes_le opType)

/-- A session that holds the first actions of such a list takes the next one. -/
theorem ActionList.takes {ctx : HlContext} {m : ActionMetadata} {a : Action}
    {rest : List ActionType}
    (h : ActionList m.opType (ctx.actions.elems.map Action.type ++ a.type :: rest))
    (hzero : ctx.actionIndex = 0) : Grammar.Takes ctx m a := by
  have hmem : a.type ∈ ctx.actions.elems.map Action.type ++ a.type :: rest :=
    List.mem_append_right _ List.mem_cons_self
  have hallowed : Allowed m.opType a.type := allowed_iff.mpr (h.allowed hmem)
  have hlength := h.length_le
  rw [List.length_append, List.length_map, List.length_cons] at hlength
  refine ⟨?_, hzero, ?_, ?_⟩
  · cases hop : m.opType with
    | modify =>
      rw [hop] at h hallowed
      have hnil : ctx.actions.elems = [] := by
        have hone : (ctx.actions.elems.map Action.type ++ a.type :: rest).length = 1 := by
          rcases h with h | h
          · rw [h]
            rfl
          · rw [h]
            rfl
        rw [List.length_append, List.length_map, List.length_cons] at hone
        exact List.length_eq_zero_iff.mp (by omega)
      have hget : ∀ t, ctxGetAction t ctx = none := by
        intro t
        unfold ctxGetAction
        rw [hnil]
        rfl
      unfold Allowed Action.isActionCompatible at hallowed
      unfold Action.isActionCompatible
      dsimp only at hallowed ⊢
      rw [hget, hget]
      exact hallowed
    | _ =>
      rw [hop] at hallowed
      exact hallowed
  · intro b hb heq
    have hdisjoint := (List.nodup_append'.mp h.nodup).2.2
    exact hdisjoint (List.mem_map_of_mem hb) (heq ▸ List.mem_cons_self)
  · show ctx.actions.elems.length < maxActionCount
    simp only [maxActionCount]
    omega

end

namespace Client

open Grammar

/-! ## 2. Primitives that work -/

/-- Whatever is asked of the surroundings in one turn succeeds: the response is sent, the hash calls
and the primitives of the key are successful, and the signature of the metadata is accepted. -/
structure Works (sdk : Sdk) (b : Batch) (env : Env) : Prop where
  send : 0 ≤ env.send
  hashes : ∀ i < 27, env.cx[i]? = some true
  pubkey : env.pubkey.isSome
  ecdsa : env.ecdsa.isSome
  pki : env.pki (sdk.sha256 (unsignedMetadata b.metadata)) b.sig = true

/-- The application, with no session that is being signed, takes the batch and has a review for it
that the user confirms. -/
structure Accepted (sdk : Sdk) (user : UiCtx → Bool) (b : Batch) (w : World) : Prop where
  unstarted : w.ctx.actionIndex = 0
  path : ∃ path length, ReadsPath sdk b.path path length
  actions : ActionList b.metadata.opType (b.actions.map fun s => s.sent.type)
  confirmed : ∃ ctx screen, Stores b ctx ∧ handleUi sdk ctx ctx.metadata = some screen ∧
    user screen = true

section

variable {sdk : Sdk} {user : UiCtx → Bool} {b : Batch} {env : Env}

theorem replicate_true {n : Nat} {outcomes : List Bool} (h : ∀ i < n, outcomes[i]? = some true) :
    ∃ rest, outcomes = List.replicate n true ++ rest := by
  induction n generalizing outcomes with
  | zero => exact ⟨outcomes, rfl⟩
  | succ n ih =>
    cases outcomes with
    | nil => cases h 0 (Nat.succ_pos n)
    | cons ok outcomes =>
      obtain rfl : ok = true := Option.some.inj (h 0 (Nat.succ_pos n))
      obtain ⟨rest, rfl⟩ := ih fun i hi => h (i + 1) (Nat.succ_lt_succ hi)
      exact ⟨rest, rfl⟩

theorem Works.signable (h : Works sdk b env) (t : ActionType) : Signable env t :=
  ⟨fun i hi => h.hashes i (Nat.lt_of_lt_of_le hi (signatureCalls_le t)), h.ecdsa⟩

theorem Works.derivation (h : Works sdk b env) : (derivation sdk env).1.isSome := by
  refine (derivation_isSome_iff sdk env).mpr ⟨h.pubkey, ?_⟩
  rw [List.head?_eq_getElem?]
  exact h.hashes 0 (by decide)

theorem length_metadataFields_le (m : ActionMetadata) : (metadataFields m).length ≤ 9 := by
  have hoption : ∀ {α : Type} (tag : Nat) (value : α → Bytes) (o : Option α),
      (optionalField tag value o).length ≤ 1 := by
    intro α tag value o
    cases o with
    | none => exact Nat.zero_le 1
    | some a => exact Nat.le_refl 1
  have hbuilder := hoption 0xd3 Vector.toList m.builderAddr
  have hmargin := hoption 0xd4 (fun v : UInt64 => num v.toNat) m.margin
  have hleverage := hoption 0xd5 (fun l : UInt32 => num l.toNat) m.leverage
  unfold metadataFields
  simp only [List.length_append, List.length_cons, List.length_nil]
  omega

/-! ## 3. Storing -/

section

variable (h : Understands sdk)

include h

/-- The metadata are stored. -/
theorem storedAfter_metadata {w : World} {sent : List (Command × Env)} (hb : b.Allowed)
    (hsent : sent.map Prod.fst =
      chunkedCommands .parseActionMetadata (signedMetadata b.metadata b.sig))
    (hw : Idle w) (hzero : w.ctx.actionIndex = 0) (hworks : ∀ x ∈ sent, Works sdk b x.2) :
    storedAfter sdk w sent =
      some { w with payload := {}, ctx := { metadata := some b.metadata } } := by
  have hfits := length_signedMetadata_le b.metadata hb.sig
  have hpos : 0 < (signedMetadata b.metadata b.sig).length :=
    List.length_pos_of_ne_nil (wellFormed_signedMetadata h hb.metadata hb.sig).nonempty
  obtain ⟨x, hx, hlast⟩ := exists_lastCommand hsent
  obtain ⟨outcomes, hcx⟩ := replicate_true (n := (metadataFields b.metadata).length + 2)
    fun i hi => (hworks x hx).hashes i (by have := length_metadataFields_le b.metadata; omega)
  have hfirst : ctxCurrentActionIsFirst w.ctx = true := beq_iff_eq.mpr hzero
  refine (storedAfter_payload hsent hw hpos (by rw [payloadBufferSize]; omega)).mpr
    ⟨fun y hy => (hworks y hy).send, x.2, { metadata := some b.metadata }, [.ctxReset], hlast,
      ?_, rfl⟩
  unfold runPayloadHandler
  dsimp only
  rw [parseActionMetadata_signedMetadata h hb.metadata hb.sig hcx, (hworks x hx).pki, if_pos rfl,
    hfirst]
  rfl

/-- The actions are stored, one after the other. -/
theorem storedAfter_actions {m : ActionMetadata} {actions : List SetAction} {w : World}
    {sent : List (Command × Env)} (hactions : ∀ s ∈ actions, s.action.Allowed m.assetId)
    (hsent : sent.map Prod.fst =
      actions.flatMap fun s => chunkedCommands .parseAction s.serialize)
    (hw : Idle w) (hm : w.ctx.metadata = some m) (hzero : w.ctx.actionIndex = 0)
    (hlist : ActionList m.opType
      (w.ctx.actions.elems.map Action.type ++ actions.map fun s => s.sent.type))
    (hsends : ∀ x ∈ sent, 0 ≤ x.2.send) : (storedAfter sdk w sent).isSome := by
  induction actions generalizing w sent with
  | nil =>
    obtain rfl := List.map_eq_nil_iff.mp hsent
    rfl
  | cons s actions ih =>
    obtain ⟨hs, hrest⟩ := List.forall_mem_cons.mp hactions
    rw [List.flatMap_cons] at hsent
    rw [List.map_cons] at hlist
    obtain ⟨first, others, rfl, hfirst, hothers⟩ := List.map_eq_append_iff.mp hsent
    obtain ⟨hsendsFirst, hsendsOthers⟩ := List.forall_mem_append.mp hsends
    obtain ⟨x, -, hlast⟩ := exists_lastCommand hfirst
    obtain ⟨ctx', hparse, hmd, helems, hindex⟩ :=
      parseAction_of_sent h hm (hlist.takes hzero) hs rfl
    have hstored : storedAfter sdk w first = some { w with payload := {}, ctx := ctx' } := by
      refine (storedAfter_payload hfirst hw s.length_serialize_pos
        (s.length_serialize_le.trans (by decide))).mpr ⟨hsendsFirst, x.2, ctx', [], hlast, ?_, rfl⟩
      unfold runPayloadHandler
      dsimp only
      rw [hparse]
      rfl
    have hlist' : ActionList m.opType
        (ctx'.actions.elems.map Action.type ++ actions.map fun s => s.sent.type) := by
      rw [helems, List.map_append, List.append_assoc]
      exact hlist
    obtain ⟨w', hrestStored⟩ := Option.isSome_iff_exists.mp (ih hrest hothers (hw.handed ctx')
      (hmd.trans hm) (hindex.trans hzero) hlist' hsendsOthers)
    exact Option.isSome_iff_exists.mpr ⟨w', storedAfter_append.mpr ⟨_, hstored, hrestStored⟩⟩

/-- A batch that is accepted is stored. -/
theorem storedAfter_batch {w : World} {sent : List (Command × Env)} (hb : b.Allowed)
    (hsent : sent.map Prod.fst = b.commands) (hw : Idle w) (haccepted : Accepted sdk user b w)
    (hworks : ∀ x ∈ sent, Works sdk b x.2) : (storedAfter sdk w sent).isSome := by
  obtain ⟨first, others, rfl, hfirst, hothers⟩ := List.map_eq_append_iff.mp hsent
  obtain ⟨hworksFirst, hworksOthers⟩ := List.forall_mem_append.mp hworks
  have hmetadata := storedAfter_metadata h hb hfirst hw haccepted.unstarted hworksFirst
  have hloaded := hw.handed { metadata := some b.metadata }
  obtain ⟨w', hrest⟩ := Option.isSome_iff_exists.mp (storedAfter_actions h hb.actions hothers
    hloaded rfl rfl haccepted.actions fun x hx => (hworksOthers x hx).send)
  exact Option.isSome_iff_exists.mpr ⟨w', storedAfter_append.mpr ⟨_, hmetadata, hrest⟩⟩

end

/-! ## 4. The review and the signatures -/

variable {w w₀ w₁ : World} {turns : List Env} {tr : List Event}

theorem Stores.unique {ctx ctx' : HlContext} (h : Stores b ctx) (h' : Stores b ctx') :
    ctx = ctx' := by
  obtain ⟨metadata, actions, actionIndex⟩ := ctx
  obtain ⟨metadata', actions', actionIndex'⟩ := ctx'
  have hmetadata : metadata = metadata' := h.metadata.trans h'.metadata.symm
  have hactions : actions = actions' := Bounded.ext (h.elems.trans h'.elems.symm)
  have hindex : actionIndex = actionIndex' := h.unstarted.trans h'.unstarted.symm
  rw [hmetadata, hactions, hindex]

/-- The first request to sign shows the review, if the path is read, an address is derived, and
there is a review. -/
theorem handlerSignAction_review {data : Bytes} {path : Vector UInt32 maxBip32Path}
    {length : UInt8} {addr : Address} {screen : UiCtx} (hzero : w.ctx.actionIndex = 0)
    (hsome : ctxRemainingActions w.ctx ≠ 0) (hpath : ReadsPath sdk data path length)
    (haddr : (Hyperliquid.derivation sdk env).1 = some addr)
    (hshown : handleUi sdk w.ctx w.ctx.metadata = some screen) :
    (handlerSignAction sdk env data w).ret = 0 ∧
      (handlerSignAction sdk env data w).events = derivationEvents sdk env path length ++
        [.useCaseReview ⟨w.ctx.metadata, w.ctx.actions, ⟨path, length, addr⟩⟩ screen] := by
  obtain ⟨rest, rfl, hread⟩ := hpath
  have hfirst : ctxCurrentActionIsFirst w.ctx = true := beq_iff_eq.mpr hzero
  have hremain : (ctxRemainingActions w.ctx == 0) = false := beq_eq_false_iff_ne.mpr hsome
  unfold handlerSignAction
  dsimp only
  rw [hread]
  dsimp only
  rw [if_pos hfirst, hremain, runCx_deriveAddrFromPath, haddr]
  dsimp only [ctxGetActionMetadata]
  rw [hshown, derivationEvents, haddr]
  exact ⟨rfl, rfl⟩

/-- With primitives that work, `sign_action` gives an answer that the client goes on with. -/
theorem collect_works (hcmp : sdk.cmp.Compact) {answers : List Answer}
    (hc : Collecting sdk user b turns tr w₁ answers) (hk : answers.length < b.actions.length)
    (hctx : w.ctx = { w₁.ctx with actionIndex := answers.length })
    (hsigning : w.signing = w₁.signing) (hidle : Idle w) (hworks : Works sdk b env)
    (post : List Event) :
    Host.collect answers (answered env ((Hyperliquid.signAction sdk env w).events ++ post)) ≠
      .raised := by
  rcases collect_signAction hc hk hctx hsigning hidle hworks.send post with
    ⟨s, sig, -, -, -, hcollect⟩ | ⟨herror, -⟩
  · rw [hcollect]
    split
    · exact Host.noConfusion
    · exact Host.noConfusion
  · obtain ⟨s, hs, ha, hm⟩ := hc.current hk hctx
    have hmem : s.sent ∈ w₁.ctx.actions.elems := by
      rw [hc.reviewed.stores.elems]
      exact List.mem_map_of_mem (List.mem_of_getElem? hs)
    have hwell := hc.reviewed.inv.wellFormed _ hmem
    exact absurd (hworks.signable _) ((signAction_iff_signable hcmp hwell ha hm).2.mp herror)

/-- With primitives that work, the first signature follows a choice to confirm. -/
theorem Reviewing.signs (hcmp : sdk.cmp.Compact) {screen : UiCtx}
    (h : Reviewing sdk b turns tr screen w) (hinv : SessionInv w.ctx) (huser : user screen = true)
    (hworks : Works sdk b env) :
    Host.hear (.reviewing screen) env (reviewChoice sdk env true w).2 ≠ .raised := by
  have hcollecting : Collecting sdk user b turns (tr ++ [.choice true]) w [] :=
    h.collecting hinv huser
  obtain ⟨hctx, hidle⟩ := h.afterReview
  rw [reviewChoice_events]
  exact collect_works hcmp hcollecting (reviewing_pos h hinv) hctx rfl hidle hworks _

/-- With primitives that work, the next signature follows a request in the loop. -/
theorem Collecting.signs (hcmp : sdk.cmp.Compact) {answers : List Answer}
    (hc : Collecting sdk user b turns tr w₁ answers) (hto : SignedTo w₁ w answers.length)
    (hpayload : w.payload.Represents .idle) (hcomm : w.Comm) (hworks : Works sdk b env) :
    Host.hear (.signing answers) env ((app sdk).step w (.apdu (some b.signCommand) env)).2 ≠
      .raised := by
  obtain ⟨hidle, hlt, hstep⟩ := hc.step hto hpayload hcomm
  have hcollect := collect_works hcmp hc hlt hto.ctx hto.signing hidle hworks []
  rw [List.append_nil] at hcollect
  rw [hstep]
  exact hcollect

theorem next_ne_raised (queue : List Command) : Host.next queue ≠ .raised := by
  cases queue with
  | nil => exact Host.noConfusion
  | cons cmd queue => exact Host.noConfusion

/-! ## 5. No exception -/

/-- A command of a batch that is accepted is answered with success. -/
theorem answered_storing (h : Understands sdk) (hb : b.Allowed) (hw₀ : Idle w₀)
    (haccepted : Accepted sdk user b w₀) {cmd : Command} {queue : List Command}
    (hsending : Sending sdk b w₀ turns tr (cmd :: queue) w) (hall : ∀ e ∈ turns, Works sdk b e)
    (hworks : Works sdk b env) :
    (answered env ((app sdk).step w (.apdu (some cmd) env)).2).isSome = true := by
  obtain ⟨sent, hsent, rfl, hstored, -⟩ := hsending
  have hall' : ∀ x ∈ sent, Works sdk b x.2 := fun x hx => hall x.2 (List.mem_map_of_mem hx)
  obtain ⟨hrest, hfine⟩ := sent_completed hsent hall' hworks
  obtain ⟨w', hfull⟩ := Option.isSome_iff_exists.mp
    (storedAfter_batch h hb hrest hw₀ haccepted hfine)
  obtain ⟨w₂, hw₂, hnext⟩ := storedAfter_append.mp hfull
  obtain rfl : w = w₂ := Option.some.inj (hstored.symm.trans hw₂)
  unfold storedAfter commandInputs at hnext
  rw [List.map_cons, Machine.attempt] at hnext
  by_contra hno
  have hbad : ¬ goodAnswer (.apdu (some cmd) env)
      ((app sdk).step w (.apdu (some cmd) env)).2 = true := hno
  have hnone : none = some w' := (if_neg hbad).symm.trans hnext
  cases hnone

/-- No turn of a conversation about a batch that is accepted leads to an exception. -/
theorem step_ne_raised (hcmp : sdk.cmp.Compact) (h : Understands sdk) (hb : b.Allowed)
    {inputs : List Input} (hw₀ : Idle ((app sdk).state inputs))
    (haccepted : Accepted sdk user b ((app sdk).state inputs))
    (hall : ∀ e ∈ turns, Works sdk b e) (hworks : Works sdk b env) (c : Host × World)
    (hreach : (app sdk).Reachable c.2)
    (hfollows : Follows sdk user b ((app sdk).state inputs) turns tr c.1 c.2)
    (hne : c.1 ≠ .raised) : ((conversation sdk user b inputs).step c env).1.1 ≠ .raised := by
  obtain ⟨ctx, screen₀, hstores, hshown, huser⟩ := haccepted.confirmed
  obtain ⟨k, w⟩ := c
  obtain ⟨is, rfl⟩ := hreach
  have hcomm : ((app sdk).state is).Comm := (app_refines sdk).inv_state is
  have hinv : SessionInv ((app sdk).state is).ctx := sessionInv_state sdk is
  cases k with
  | storing cmd queue =>
    show (if (answered env _).isSome then Host.next queue else Host.raised) ≠ .raised
    rw [if_pos (answered_storing h hb hw₀ haccepted hfollows hall hworks)]
    exact next_ne_raised queue
  | asking =>
    obtain ⟨sent, hsent, -, hstored, -⟩ := hfollows
    rw [List.append_nil] at hsent
    obtain ⟨hidle, hbatch, -⟩ := stored_batch h hb hsent hw₀ hstored
    obtain ⟨path, length, hpath⟩ := haccepted.path
    obtain ⟨addr, haddr⟩ := Option.isSome_iff_exists.mp hworks.derivation
    rw [hstores.unique hbatch] at hshown
    have hpos : 0 < b.actions.length := by
      have hnil := haccepted.actions.ne_nil
      exact List.length_pos_of_ne_nil fun h => hnil (by rw [h]; rfl)
    have hsome : ctxRemainingActions ((app sdk).state is).ctx ≠ 0 := by
      have hremaining := hinv.remaining
      rw [hbatch.unstarted, hbatch.actionCount] at hremaining
      omega
    obtain ⟨-, hevents⟩ :=
      handlerSignAction_review hbatch.unstarted hsome hpath haddr hshown
    show Host.hear .asking env ((app sdk).step _ (.apdu (some b.signCommand) env)).2 ≠ .raised
    have hstep : (app sdk).step ((app sdk).state is) (.apdu (some b.signCommand) env) = _ :=
      appMainStep_sign hidle.running hidle.on
    rw [hstep]
    dsimp only
    rw [hevents, hear_review]
    exact Host.noConfusion
  | reviewing screen =>
    have hreviewing : Reviewing sdk b turns tr screen ((app sdk).state is) := hfollows
    have hsame : screen₀ = screen := by
      rw [hstores.unique hreviewing.stores, hreviewing.shown] at hshown
      exact (Option.some.inj hshown).symm
    obtain rfl := hsame
    show Host.hear (.reviewing screen₀) env
      ((app sdk).step _ (.choice (user screen₀) env)).2 ≠ .raised
    rw [hreviewing.step, huser]
    exact hreviewing.signs hcmp hinv huser hworks
  | signing answers =>
    obtain ⟨w₁, hc, -, hto, hpayload⟩ := hfollows
    exact hc.signs hcmp hto hpayload hcomm hworks
  | done answers => exact Host.noConfusion
  | raised => exact absurd rfl hne

/-- The client of a batch that is accepted raises no exception. -/
theorem conversation_ne_raised (hcmp : sdk.cmp.Compact) (h : Understands sdk) (hb : b.Allowed)
    {inputs : List Input} (hw₀ : Idle ((app sdk).state inputs))
    (haccepted : Accepted sdk user b ((app sdk).state inputs)) (turns : List Env)
    (hall : ∀ e ∈ turns, Works sdk b e) :
    ((conversation sdk user b inputs).state turns).1 ≠ .raised := by
  induction turns using List.reverseRecOn with
  | nil => exact next_ne_raised b.commands
  | append_singleton turns env ih =>
    obtain ⟨hfirst, hlast⟩ := List.forall_mem_append.mp hall
    obtain ⟨hreach, hfollows⟩ := follows_conversation user h hb hw₀ turns
    rw [Machine.state_snoc]
    exact step_ne_raised hcmp h hb hw₀ haccepted hfirst (hlast env List.mem_cons_self) _ hreach
      hfollows (ih hfirst)

variable (user) in
/-- The client gets past its commands only if no session was being signed. -/
theorem conversation_unstarted (h : Understands sdk) (hb : b.Allowed) {inputs : List Input}
    (hw₀ : Idle ((app sdk).state inputs)) (turns : List Env) :
    ((app sdk).state inputs).ctx.actionIndex = 0 ∨
      ((conversation sdk user b inputs).state turns).1 = .raised ∨
      ∃ cmd queue, ((conversation sdk user b inputs).state turns).1 = .storing cmd queue := by
  induction turns using List.reverseRecOn with
  | nil => exact .inr (.inr ⟨_, _, rfl⟩)
  | append_singleton turns env ih =>
    obtain ⟨-, hnext⟩ := follows_conversation user h hb hw₀ (turns ++ [env])
    rw [Machine.state_snoc] at hnext ⊢
    generalize (conversation sdk user b inputs).state turns = c at ih hnext ⊢
    obtain ⟨k, w⟩ := c
    rcases ih with hzero | hraised | ⟨cmd, queue, hstoring⟩
    · exact .inl hzero
    · obtain rfl : k = .raised := hraised
      exact .inr (.inl rfl)
    · obtain rfl : k = .storing cmd queue := hstoring
      by_cases hgood :
          (answered env ((app sdk).step w (.apdu (some cmd) env)).2).isSome = true
      · have hhost : ((conversation sdk user b inputs).step (.storing cmd queue, w) env).1.1 =
            Host.next queue := if_pos hgood
        rw [hhost] at hnext ⊢
        cases queue with
        | nil =>
          -- the last command: the batch is stored, so its metadata were accepted
          obtain ⟨sent, hsent, -, hstored, -⟩ := hnext
          rw [List.append_nil] at hsent
          exact .inl (stored_batch h hb hsent hw₀ hstored).2.2
        | cons cmd queue => exact .inr (.inr ⟨cmd, queue, rfl⟩)
      · exact .inr (.inl (if_neg hgood))

/-- The client of a batch that was signed had a batch that is accepted. -/
theorem accepted_of_follows {answers : List Answer}
    (hzero : w₀.ctx.actionIndex = 0)
    (hfollows : Follows sdk user b w₀ turns tr (.done answers) w) : Accepted sdk user b w₀ := by
  obtain ⟨w₁, hc, -⟩ := hfollows
  obtain ⟨screen, before, since, hshown, huser, -⟩ := hc.reviewed.confirmed
  obtain ⟨rest, hpath, hread⟩ := hc.reviewed.path
  obtain ⟨m, hm, hr⟩ := handleUi_some hshown
  have hlist := hc.reviewed.inv.actionList hm hr
  obtain rfl : m = b.metadata := Option.some.inj (hm.symm.trans hc.reviewed.stores.metadata)
  rw [hc.reviewed.stores.elems, List.map_map] at hlist
  exact ⟨hzero, ⟨_, _, rest, hpath, hread⟩, hlist, w₁.ctx, screen, hc.reviewed.stores, hshown,
    huser⟩

end

/-- Every conversation with primitives that work, after as many turns as the client can need, from
every state of the application in which a command can be taken: the client has its signatures, each
answer that of its action, if and only if the batch is accepted, and otherwise it has raised an
exception. -/
theorem conversation_completes (sdk : Sdk) (hcmp : sdk.cmp.Compact) (h : Understands sdk)
    (user : UiCtx → Bool) (b : Batch) (hb : b.Allowed) (inputs : List Input)
    (hidle : Idle ((app sdk).state inputs)) (turns : List Env)
    (hturns : b.commands.length + 1 + b.actions.length ≤ turns.length)
    (hworks : ∀ env ∈ turns, Works sdk b env) :
    ((∃ answers, ((conversation sdk user b inputs).state turns).1 = .done answers ∧
        answers.length = b.actions.length) ↔ Accepted sdk user b ((app sdk).state inputs)) ∧
      (∀ answers, ((conversation sdk user b inputs).state turns).1 = .done answers → ∃ w₁,
        Collecting sdk user b turns ((conversation sdk user b inputs).trace turns) w₁ answers) ∧
      (((conversation sdk user b inputs).state turns).1 = .raised ↔
        ¬ Accepted sdk user b ((app sdk).state inputs)) := by
  have hends := conversation_ends sdk h user b hb inputs hidle turns hturns
  have hunstarted := conversation_unstarted user h hb hidle turns
  obtain ⟨-, hfollows⟩ := follows_conversation user h hb hidle turns
  have hcollecting : ∀ answers, ((conversation sdk user b inputs).state turns).1 = .done answers →
      ∃ w₁, Collecting sdk user b turns ((conversation sdk user b inputs).trace turns) w₁
        answers := by
    intro answers hdone
    rw [hdone] at hfollows
    obtain ⟨w₁, hc, -⟩ := hfollows
    exact ⟨w₁, hc⟩
  by_cases haccepted : Accepted sdk user b ((app sdk).state inputs)
  · have hne := conversation_ne_raised hcmp h hb hidle haccepted turns hworks
    refine ⟨iff_of_true ?_ haccepted, hcollecting, iff_of_false hne (not_not_intro haccepted)⟩
    obtain ⟨answers, hdone⟩ := hends.resolve_right hne
    rw [hdone] at hfollows
    obtain ⟨w₁, -, hcount, -⟩ := hfollows
    exact ⟨answers, hdone, hcount⟩
  · have hnot : ∀ answers, ((conversation sdk user b inputs).state turns).1 ≠ .done answers := by
      intro answers hdone
      rw [hdone] at hfollows hunstarted
      rcases hunstarted with hzero | hraised | ⟨cmd, queue, hstoring⟩
      · exact haccepted (accepted_of_follows hzero hfollows)
      · cases hraised
      · cases hstoring
    refine ⟨iff_of_false ?_ haccepted, hcollecting, iff_of_true ?_ haccepted⟩
    · rintro ⟨answers, hdone, -⟩
      exact hnot answers hdone
    · rcases hends with ⟨answers, hdone⟩ | hraised
      · exact absurd hdone (hnot answers)
      · exact hraised

/-- What the application holds when it has taken the batch. -/
def stopLossContext : HlContext where
  metadata := some stopLossBatch.metadata
  actions := ⟨stopLossBatch.actions.map SetAction.sent, by decide⟩

theorem stopLossBatch_accepted :
    Accepted sdk (fun _ => true) stopLossBatch ((app sdk).state []) := by
  have hpath : ∃ path, sdk.bip32PathRead (bip32Path.flatMap fun level => Msgpack.beBytes 4 level)
      (UInt8.ofNat bip32Path.length) = some path :=
    Option.isSome_iff_exists.mp (by decide +kernel)
  have hscreen : ∃ screen, handleUi sdk stopLossContext stopLossContext.metadata = some screen :=
    Option.isSome_iff_exists.mp (by decide +kernel)
  obtain ⟨path, hread⟩ := hpath
  obtain ⟨screen, hshown⟩ := hscreen
  refine ⟨rfl, ⟨path, _, _, rfl, hread⟩, ⟨[.approveBuilderFee], .swap _ _ _, by decide⟩,
    stopLossContext, screen, ⟨rfl, rfl, rfl⟩, hshown, rfl⟩

theorem conversation_completes_stopLoss :
    ∃ answers, ((conversation sdk (fun _ => true) stopLossBatch []).state
        (List.replicate 6 env)).1 = .done answers ∧
      answers.length = stopLossBatch.actions.length := by
  have hworks : ∀ e ∈ List.replicate 6 env, Works sdk stopLossBatch e := by
    intro e he
    rw [List.eq_of_mem_replicate he]
    exact ⟨by decide, by decide, rfl, rfl, rfl⟩
  exact (conversation_completes sdk Msgpack.shortest_compact sdk_understands (fun _ => true)
    stopLossBatch stopLossBatch_allowed [] idle_init (List.replicate 6 env) (by decide +kernel)
    hworks).1.mpr stopLossBatch_accepted

end Client

end Hyperliquid

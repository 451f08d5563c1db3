/-
# When a review is shown

A session can be reviewed if what is stored has the form that its operation asks for
(`Reviewable`): one limit order with its triggers, triggers that close with one size, one cancel
or two, one order that reduces a position, or a margin.  The texts that are printed have no part in
it.

The first `SIGN_ACTION` of a session then shows the review if and only if the path is read, its
address is derived, and the session can be reviewed; otherwise it is answered with an error and
leaves the session as it is (`review_shown_iff`).
-/
import Hyperliquid.Completion
import Hyperliquid.TpSl

namespace Hyperliquid

open Lib

/-! ## 1. What can be reviewed -/

/-- What is stored has the form that the operation of the metadata asks for. -/
inductive Reviewable (ctx : HlContext) (m : ActionMetadata) : Prop
  | order (p : OrderParts) : m.opType = .order → OrderAccepted ctx p → Reviewable ctx m
  | modify (p : ModifyParts) (first : OrderRequest) : m.opType = .modify →
      ModifyAccepted ctx p first → Reviewable ctx m
  | cancel (a : Action) : m.opType ∈ [.cancel, .cancelTp, .cancelSl, .cancelTpSl] →
      ctxGetAction .bulkCancel ctx = some a →
      a.bulkCancel.cancels.elems.length = cancelCount m.opType → Reviewable ctx m
  | close (a : Action) (o : OrderRequest) : m.opType = .close →
      ctxGetAction .bulkOrder ctx = some a → a.bulkOrder.orders.elems = [o] →
      o.orderType = .limit → o.reduceOnly = true → Reviewable ctx m
  | updateMargin (a : Action) : m.opType = .updateMargin →
      ctxGetAction .updateIsolatedMargin ctx = some a → Reviewable ctx m

section

variable {sdk : Sdk} {ctx : HlContext} {uiCtx : UiCtx} {m : ActionMetadata} {a : Action}

/-- What is shown can be reviewed. -/
theorem Rendered.reviewable {screen : UiCtx} (h : Rendered sdk ctx m screen) :
    Reviewable ctx m := by
  cases h with
  | order p hop hr => exact .order p hop hr.accepted
  | modify p first hop hr => exact .modify p first hop hr.accepted
  | cancel a hop hr => exact .cancel a hop hr.fetched hr.count
  | close a o hop hr => exact .close a o hop hr.fetched hr.orders hr.isLimit hr.reduceOnly
  | updateMargin a hop hr => exact .updateMargin a hop hr.fetched

theorem uiCancel_isSome (hop : m.opType = .cancel) (ha : ctxGetAction .bulkCancel ctx = some a)
    (hcount : a.bulkCancel.cancels.elems.length = cancelCount m.opType) :
    (uiCancel sdk ctx uiCtx m).isSome = true := by
  have hone : ¬ (a.bulkCancel.cancels.count != 1) = true := by
    rw [hop] at hcount
    simp [Bounded.count, hcount, cancelCount]
  unfold uiCancel
  rw [ha]
  dsimp only
  rw [if_neg hone]
  rfl

theorem uiCancelTpSl_isSome (ha : ctxGetAction .bulkCancel ctx = some a)
    (hcount : a.bulkCancel.cancels.elems.length = cancelCount m.opType) :
    (uiCancelTpSl sdk ctx uiCtx m).isSome = true := by
  have hneed : (cancelTarget sdk m.opType).1 = cancelCount m.opType := by
    cases m.opType <;> rfl
  have hfine : ¬ (a.bulkCancel.cancels.count != (cancelTarget sdk m.opType).1) = true := by
    rw [hneed]
    simp [Bounded.count, hcount]
  unfold uiCancelTpSl
  rw [ha]
  dsimp only
  rw [if_neg hfine]
  rfl

theorem uiClose_isSome {o : OrderRequest} (ha : ctxGetAction .bulkOrder ctx = some a)
    (horders : a.bulkOrder.orders.elems = [o]) (hlimit : o.orderType = .limit)
    (hreduce : o.reduceOnly = true) : (uiClose sdk ctx uiCtx m).isSome = true := by
  have hone : ¬ (a.bulkOrder.orders.count != 1) = true := by
    simp [Bounded.count, horders]
  have hget : getOrderRequest a.bulkOrder.orders.elems getLimitRequest = some o := by
    rw [horders]
    exact List.find?_cons_of_pos (getLimitRequest_iff.mpr hlimit)
  have hfine : ¬ (!o.reduceOnly) = true := by
    rw [hreduce]
    decide
  unfold uiClose
  rw [ha]
  dsimp only
  rw [if_neg hone, hget]
  dsimp only
  rw [if_neg hfine]
  rfl

theorem uiUpdateMargin_isSome (ha : ctxGetAction .updateIsolatedMargin ctx = some a) :
    (uiUpdateMargin sdk ctx uiCtx m).isSome = true := by
  unfold uiUpdateMargin
  rw [ha]
  rfl

variable (sdk) in
/-- A review is displayed if and only if what is stored can be reviewed. -/
theorem handleUi_isSome_iff : (handleUi sdk ctx (some m)).isSome = true ↔ Reviewable ctx m := by
  constructor
  · intro h
    obtain ⟨screen, hscreen⟩ := Option.isSome_iff_exists.mp h
    obtain ⟨m', hm, hrendered⟩ := handleUi_some hscreen
    obtain rfl := Option.some.inj hm
    exact hrendered.reviewable
  · intro h
    unfold handleUi uiOperation
    rw [Option.isSome_map]
    cases h with
    | order p hop hp =>
      rw [hop]
      exact uiOrder_isSome_iff.mpr ⟨p, hp⟩
    | modify p first hop hp =>
      rw [hop]
      exact uiModify_isSome_iff.mpr ⟨p, first, hp⟩
    | cancel a hop ha hcount =>
      simp only [List.mem_cons, List.not_mem_nil, or_false] at hop
      rcases hop with hop | hop | hop | hop
      · simp only [hop]
        exact uiCancel_isSome hop ha hcount
      all_goals
        simp only [hop]
        exact uiCancelTpSl_isSome ha hcount
    | close a o hop ha horders hlimit hreduce =>
      rw [hop]
      exact uiClose_isSome ha horders hlimit hreduce
    | updateMargin a hop ha =>
      rw [hop]
      exact uiUpdateMargin_isSome ha

end

/-! ## 2. The first request to sign -/

/-- In this state and these surroundings, a request to sign with these data can be reviewed: the
path is read, the public key and its hash are obtained, and so is the form of what is stored. -/
structure CanReview (sdk : Sdk) (env : Env) (data : Bytes) (w : World) : Prop where
  path : ∃ path length, ReadsPath sdk data path length
  pubkey : env.pubkey.isSome
  hashed : env.cx.head? = some true
  stored : ∃ m, w.ctx.metadata = some m ∧ Reviewable w.ctx m

/-- The review is on the screen, and the response is held back. -/
structure Shown (sdk : Sdk) (data : Bytes) (w w' : World) (events : List Event) : Prop where
  world : ∃ signing screen, ReadsPath sdk data signing.bip32Path signing.bip32PathLength ∧
    handleUi sdk w.ctx w.ctx.metadata = some screen ∧
    w' = { w with signing := signing, commEnabled := false, review := some screen } ∧
    .useCaseReview w'.snapshot screen ∈ events
  silent : ∀ data sw, .response data sw ∉ events

/-- An error is answered, no review is on the screen, and the session is as it was. -/
structure Declined (w w' : World) (events : List Event) : Prop where
  answer : ∃ before sw, sw ≠ .success ∧ events = before ++ [.response [] sw]
  ctx : w'.ctx = w.ctx
  review : w'.review = none

section

variable {sdk : Sdk} {env : Env} {w : World} {data : Bytes}

/-- A session that can be reviewed holds an action. -/
theorem Reviewable.remaining {m : ActionMetadata} (h : Reviewable w.ctx m)
    (hm : w.ctx.metadata = some m) (hinv : SessionInv w.ctx) (hzero : w.ctx.actionIndex = 0)
    (sdk : Sdk) : ctxRemainingActions w.ctx ≠ 0 := by
  obtain ⟨screen, hscreen⟩ :=
    Option.isSome_iff_exists.mp ((handleUi_isSome_iff sdk).mpr h)
  obtain ⟨m', hm', hrendered⟩ := handleUi_some hscreen
  obtain rfl := Option.some.inj hm'
  have hne := (hinv.actionList hm hrendered).ne_nil
  have hpos : 0 < w.ctx.actionCount :=
    List.length_pos_of_ne_nil fun hnil => hne (by rw [hnil]; rfl)
  have hremaining := hinv.remaining
  omega

theorem not_response_derivation (path : Vector UInt32 maxBip32Path) (length : UInt8)
    (data : Bytes) (sw : StatusWord) :
    Event.response data sw ∉ derivationEvents sdk env path length := by
  intro hmem
  rcases List.mem_append.mp hmem with hmem | hmem
  · unfold derivation at hmem
    split at hmem
    · cases List.mem_singleton.mp hmem
    · cases hmem
  · cases List.mem_singleton.mp hmem

variable (sdk env data) in
/-- The handler, of a session in which nothing is signed yet. -/
theorem handlerSignAction_shown_iff (hinv : SessionInv w.ctx) (hzero : w.ctx.actionIndex = 0) :
    (∃ signing screen, CanReview sdk env data w ∧
      ReadsPath sdk data signing.bip32Path signing.bip32PathLength ∧
      handleUi sdk w.ctx w.ctx.metadata = some screen ∧
      handlerSignAction sdk env data w =
        ⟨0, { w with signing := signing, commEnabled := false, review := some screen },
          derivationEvents sdk env signing.bip32Path signing.bip32PathLength ++
            [.useCaseReview ⟨w.ctx.metadata, w.ctx.actions, signing⟩ screen]⟩) ∨
    (¬ CanReview sdk env data w ∧ ∃ signing events sw, sw ≠ .success ∧
      handlerSignAction sdk env data w =
        (ioSendSw env sw { w with signing := signing }).after events) := by
  have hanswer := handlerSignAction_answer sdk env data w
  have hreview : CanReview sdk env data w → ∃ path length built screen,
      (handlerSignAction sdk env data w).events =
        derivationEvents sdk env path length ++ [.useCaseReview built screen] := by
    rintro ⟨⟨path, length, hpath⟩, hpubkey, hhashed, m, hm, hstored⟩
    obtain ⟨addr, haddr⟩ :=
      Option.isSome_iff_exists.mp ((derivation_isSome_iff sdk env).mpr ⟨hpubkey, hhashed⟩)
    obtain ⟨screen, hscreen⟩ := Option.isSome_iff_exists.mp ((handleUi_isSome_iff sdk).mpr hstored)
    obtain ⟨-, hevents⟩ := Client.handlerSignAction_review hzero
      (hstored.remaining hm hinv hzero sdk) hpath haddr (hm.symm ▸ hscreen)
    exact ⟨path, length, _, screen, hevents⟩
  generalize handlerSignAction sdk env data w = r at hanswer hreview ⊢
  -- an error is sent where the review would have to be the last event
  have hno : ∀ (events : List Event) (sw : StatusWord),
      r.events = events ++ [.response [] sw] → ¬ CanReview sdk env data w := by
    intro events sw heq hcan
    obtain ⟨path, length, built, screen, hevents⟩ := hreview hcan
    have hlast := congrArg List.getLast? (heq.symm.trans hevents)
    rw [List.getLast?_concat, List.getLast?_concat] at hlast
    cases hlast
  cases hanswer with
  | refused sw hsw => exact .inr ⟨hno [] sw rfl, w.signing, [], sw, hsw, rfl⟩
  | unreviewed signing events _ _ _ =>
    exact .inr ⟨hno events _ rfl, signing, events, _, by decide, rfl⟩
  | reviewed signing screen _ hpath haddr hshown =>
    obtain ⟨m, hm, hrendered⟩ := handleUi_some hshown
    obtain ⟨hpubkey, hhashed⟩ :=
      (derivation_isSome_iff sdk env).mp (Option.isSome_iff_exists.mpr ⟨_, haddr⟩)
    exact .inl ⟨signing, screen, ⟨⟨_, _, hpath⟩, hpubkey, hhashed, m, hm, hrendered.reviewable⟩,
      hpath, hshown, rfl⟩
  | signs hpos => exact absurd hzero (Nat.ne_of_gt hpos)

end

/-- In every reachable state in which a command can be taken and nothing is signed yet, for whatever
data and in whatever surroundings: a `SIGN_ACTION` shows the review if and only if the path is read,
the address is derived, and what is stored has the form that the operation asks for; otherwise it is
answered with an error, no review is shown, and the session is as it was. -/
theorem review_shown_iff (sdk : Sdk) (inputs : List Input) (data : Bytes) (env : Env)
    (hrun : ((app sdk).state inputs).running = true)
    (hon : ((app sdk).state inputs).commEnabled = true)
    (hzero : ((app sdk).state inputs).ctx.actionIndex = 0) :
    let w := (app sdk).state inputs
    let r := (app sdk).step w (.apdu (some ⟨cla, insSignAction, 0, 0, data⟩) env)
    (Shown sdk data w r.1 r.2 ↔ CanReview sdk env data w) ∧
      (Declined w r.1 r.2 ↔ ¬ CanReview sdk env data w) := by
  intro w r
  have hinv : SessionInv w.ctx := sessionInv_state sdk inputs
  have hcomm : w.Comm := (app_refines sdk).inv_state inputs
  have hstep : r = _ := appMainStep_sign hrun hon
  have hclosed : w.review = none := by
    cases hreview : w.review with
    | none => rfl
    | some screen =>
      have hoff : w.commEnabled = _ := hcomm
      rw [hreview, hon] at hoff
      cases hoff
  rcases handlerSignAction_shown_iff sdk env data hinv hzero with
    ⟨signing, screen, hcan, hpath, hshown, heq⟩ | ⟨hcannot, signing, events, sw, hsw, heq⟩
  · rw [heq] at hstep
    have hsh : Shown sdk data w r.1 r.2 := by
      rw [hstep]
      refine ⟨⟨signing, screen, hpath, hshown, rfl, ?_⟩, ?_⟩
      · exact List.mem_append_right _ (List.mem_singleton.mpr rfl)
      · intro data' sw hmem
        rcases List.mem_append.mp hmem with hmem | hmem
        · exact not_response_derivation _ _ data' sw hmem
        · cases List.mem_singleton.mp hmem
    refine ⟨iff_of_true hsh hcan, iff_of_false ?_ (not_not_intro hcan)⟩
    intro hdeclined
    have hreview := hdeclined.review
    rw [hstep] at hreview
    cases hreview
  · rw [heq] at hstep
    have hdeclined : Declined w r.1 r.2 := by
      rw [hstep]
      refine ⟨⟨events, sw, hsw, rfl⟩, ?_, ?_⟩
      · split
        · rfl
        · rfl
      · split
        · exact hclosed
        · exact hclosed
    refine ⟨iff_of_false ?_ hcannot, iff_of_true hdeclined hcannot⟩
    intro hsh
    obtain ⟨before, sw', -, hevents⟩ := hdeclined.answer
    exact hsh.silent [] sw' (hevents ▸ List.mem_append_right _ (List.mem_singleton.mpr rfl))

theorem review_shown_iff_openSession :
    Shown Client.sdk Client.stopLossBatch.path ((app Client.sdk).state openSession)
      ((app Client.sdk).step ((app Client.sdk).state openSession)
        (.apdu (some Client.stopLossBatch.signCommand) Client.env)).1
      ((app Client.sdk).step ((app Client.sdk).state openSession)
        (.apdu (some Client.stopLossBatch.signCommand) Client.env)).2 := by
  have hpath : ∃ path, Client.sdk.bip32PathRead
      (Client.bip32Path.flatMap fun level => Msgpack.beBytes 4 level)
      (UInt8.ofNat Client.bip32Path.length) = some path :=
    Option.isSome_iff_exists.mp (by decide +kernel)
  obtain ⟨path, hread⟩ := hpath
  have hmetadata : ((app Client.sdk).state openSession).ctx.metadata =
      some (Client.ethMetadata .order) := by decide +kernel
  have hstored : Reviewable ((app Client.sdk).state openSession).ctx (Client.ethMetadata .order) :=
    (handleUi_isSome_iff Client.sdk).mp (by decide +kernel)
  have hcan : CanReview Client.sdk Client.env Client.stopLossBatch.path
      ((app Client.sdk).state openSession) :=
    ⟨⟨path, _, _, rfl, hread⟩, rfl, rfl, _, hmetadata, hstored⟩
  exact (review_shown_iff Client.sdk openSession Client.stopLossBatch.path Client.env
    (by decide +kernel) (by decide +kernel) (by decide +kernel)).1.mpr hcan

end Hyperliquid

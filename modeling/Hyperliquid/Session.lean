/-
# The signing session, and what the application does to it

What the application is for, said without its code: a session is loaded with metadata and
filled with actions; a review shows all of it for one path and one address; a confirmed review
allows the actions to be signed one after the other, each once, and nothing changes on the
way; a reset ends it.  `Move` is that system, one small transition at a time, with its events.

The application refines it (`app_refines`): every command and every choice is a path of moves.
Invariants of all runs are then proved move by move.
-/
import Hyperliquid.Commands

namespace Hyperliquid

open Lib

/-! ## 1. The session -/

/-- The session; `confirmed` holds from a confirmation to the first signature. -/
structure Session where
  ctx : HlContext
  signing : SigningCtx
  review : Option UiCtx
  confirmed : Bool

def Session.snapshot (s : Session) : Snapshot := ⟨s.ctx.metadata, s.ctx.actions, s.signing⟩

/-- The state of the session between commands. -/
def World.session (w : World) : Session := ⟨w.ctx, w.signing, w.review, false⟩

/-- One transition of the session. -/
inductive Move (sdk : Sdk) : Session → List Event → Session → Prop where
  | quiet (s : Session) (e : Event) : e.Quiet → Move sdk s [e] s
  | reset (s : Session) : s.review = none → s.confirmed = false →
      Move sdk s [.ctxReset] { s with ctx := {} }
  /-- A fresh session is loaded with metadata. -/
  | load (s : Session) (metadata : ActionMetadata) : s.review = none → s.confirmed = false →
      s.ctx = {} → Move sdk s [] { s with ctx := { metadata := some metadata } }
  /-- A well-formed action that the operation allows is added, before signing has started. -/
  | push (s : Session) (ctx : HlContext) (metadata : ActionMetadata) (a : Action) :
      s.review = none → s.confirmed = false → s.ctx.metadata = some metadata → a.WellFormed →
      a.AssetsMatch s.ctx → Action.isActionCompatible s.ctx a.type metadata.opType = true →
      s.ctx.actionIndex = 0 → (∀ b ∈ s.ctx.actions.elems, b.type ≠ a.type) →
      ctx.metadata = s.ctx.metadata → ctx.actionIndex = 0 →
      ctx.actions.elems = s.ctx.actions.elems ++ [a] → Move sdk s [] { s with ctx := ctx }
  /-- The path changes only while nothing is approved. -/
  | path (s : Session) (signing : SigningCtx) : s.review = none → s.confirmed = false →
      s.ctx.actionIndex = 0 → Move sdk s [] { s with signing := signing }
  /-- The review of all that is stored, for the address just derived from the path. -/
  | review (s : Session) (screen : UiCtx) : s.review = none → s.confirmed = false →
      s.ctx.actionIndex = 0 → handleUi sdk s.ctx s.ctx.metadata = some screen →
      Move sdk s
        [.deriveAddr s.signing.bip32Path s.signing.bip32PathLength (some s.signing.walletAddr),
         .useCaseReview s.snapshot screen]
        { s with review := some screen }
  | confirm (s : Session) (screen : UiCtx) : s.review = some screen →
      Move sdk s [.choice true] { s with review := none, confirmed := true }
  | reject (s : Session) (screen : UiCtx) : s.review = some screen →
      Move sdk s [.choice false] { s with review := none }
  /-- The current action is signed: the first one on a confirmation. -/
  | sign (s : Session) (a : Action) (sig : Signature) : s.review = none →
      0 < s.ctx.actionIndex ∨ s.confirmed = true → ctxGetCurrentAction s.ctx = some a →
      Move sdk s [.signature s.ctx.actionIndex a s.snapshot sig]
        { s with ctx := ctxSwitchToNextAction s.ctx, confirmed := false }
  /-- A confirmation under which nothing was signed lapses. -/
  | lapse (s : Session) : Move sdk s [] { s with confirmed := false }

/-! ## 2. Paths -/

variable {sdk : Sdk}

/-- Quiet events change nothing. -/
theorem path_quiet (s : Session) :
    ∀ {events : List Event}, (∀ e ∈ events, e.Quiet) → Path (Move sdk) s events s
  | [], _ => .refl s
  | e :: events, h =>
    .step (.quiet s e (h e (by simp))) (path_quiet s fun x hx => h x (by simp [hx]))

/-! ## 3. Signing -/

/-- What `sign_action` leaves of the world. -/
structure Signed (w : World) (r : Outcome) : Prop where
  review : r.world.review = w.review
  commEnabled : r.world.commEnabled = w.commEnabled
  faulted : r.world.faulted = w.faulted

/-- Without a signature, the approval lapses and nothing else happens. -/
theorem unsigned_path {w w' : World} {events : List Event} (c : Bool) (hrev : w.review = none)
    (hw : ∃ rawBuf, w' = { w with rawBuf := rawBuf }) (hq : ∀ e ∈ events, e.Quiet) :
    Path (Move sdk) ⟨w.ctx, w.signing, none, c⟩ events w'.session := by
  obtain ⟨rawBuf, rfl⟩ := hw
  have hpath : Path (Move sdk) _ _ _ := (path_quiet ⟨w.ctx, w.signing, none, c⟩ hq).trans
    (Path.single (Move.lapse _))
  rw [List.append_nil] at hpath
  simpa only [World.session, hrev] using hpath

/-- With a signature, the current action is signed. -/
theorem signed_path {w : World} {calls : List Event} {a : Action} (sig : Signature) (c : Bool)
    (data : Bytes) (hok : 0 < w.ctx.actionIndex ∨ c = true)
    (ha : ctxGetCurrentAction w.ctx = some a) (hq : ∀ e ∈ calls, e.Quiet) :
    Path (Move sdk) ⟨w.ctx, w.signing, none, c⟩
      (calls ++ [.signature w.ctx.actionIndex a w.snapshot sig] ++ [.response data .success])
      ⟨ctxSwitchToNextAction w.ctx, w.signing, none, false⟩ := by
  have hsign : Path (Move sdk) _ _ _ :=
    Path.single (Move.sign ⟨w.ctx, w.signing, none, c⟩ a sig rfl hok ha)
  exact ((path_quiet _ hq).trans hsign).trans (path_quiet _ (quiet_response data .success))

/-- `sign_action`, under an approval. -/
theorem signAction_path (env : Env) (w : World) (c : Bool) (hrev : w.review = none)
    (hok : 0 < w.ctx.actionIndex ∨ c = true) :
    Path (Move sdk) ⟨w.ctx, w.signing, none, c⟩ (signAction sdk env w).events
        (signAction sdk env w).world.session ∧
      Signed w (signAction sdk env w) := by
  unfold signAction
  split
  · exact ⟨unsigned_path c hrev ⟨w.rawBuf, rfl⟩ (quiet_response [] .incorrectData),
        rfl, rfl, rfl⟩
  · rename_i a ha
    split
    · exact ⟨unsigned_path c hrev ⟨w.rawBuf, rfl⟩ (quiet_response [] .incorrectData),
        rfl, rfl, rfl⟩
    · split
      rename_i sig w' calls hrun
      obtain ⟨⟨rawBuf, rfl⟩, hq⟩ := runCx_cases hrun
      split
      · exact ⟨unsigned_path c hrev ⟨rawBuf, rfl⟩ (quiet_after hq [] .incorrectData),
          rfl, rfl, rfl⟩
      · rename_i sig
        have hpath : ∀ data, Path (Move sdk) _ _ _ := fun data =>
          signed_path sig c data hok ha hq
        simp only [World.session]
        split
        · refine ⟨?_, rfl, rfl, rfl⟩
          have hreset : Path (Move sdk) _ _ _ := Path.single
            (Move.reset ⟨ctxSwitchToNextAction w.ctx, w.signing, none, false⟩ rfl rfl)
          rw [hrev]
          exact (hpath _).trans hreset
        · refine ⟨?_, rfl, rfl, rfl⟩
          simp only [ioSendResponsePointer, Outcome.after, hrev]
          exact hpath _

/-! ## 4. Commands -/

/-- Communication is disabled exactly while a review is on the screen. -/
def World.Comm (w : World) : Prop := w.commEnabled = w.review.isNone

/-- While communication is enabled, no review is on the screen. -/
theorem World.Comm.review_none {w : World} (h : w.Comm) (hon : w.commEnabled = true) :
    w.review = none := by
  rw [h] at hon
  exact Option.isNone_iff_eq_none.mp hon

/-- A handler's outcome is a path of moves, and the handler returned. -/
structure Handled (sdk : Sdk) (w : World) (r : Outcome) : Prop where
  path : Path (Move sdk) w.session r.events r.world.session
  comm : r.world.Comm
  faulted : r.world.faulted = w.faulted

theorem handled_ioSendSw {w : World} (env : Env) (sw : StatusWord) (hcomm : w.Comm) :
    Handled sdk w (ioSendSw env sw w) :=
  ⟨path_quiet _ (quiet_response [] sw), hcomm, rfl⟩

theorem handlerGetAddr_handled (env : Env) (payload : Bytes) (w : World) (hcomm : w.Comm) :
    Handled sdk w (handlerGetAddr sdk env payload w) := by
  obtain ⟨rawBuf, events, hget, hevents⟩ := handlerGetAddr_effect sdk env payload w
  rw [hget]
  exact ⟨path_quiet _ hevents, hcomm, rfl⟩

/-- What the handlers of chunked payloads do to the session. -/
theorem runPayloadHandler_path {env : Env} {handler : PayloadHandler} {payload : Bytes}
    {ctx ctx' : HlContext} {ret : Bool} {events : List Event} (signing : SigningCtx)
    (h : runPayloadHandler sdk env handler payload ctx = .ok (ret, ctx', events)) :
    Path (Move sdk) ⟨ctx, signing, none, false⟩ events ⟨ctx', signing, none, false⟩ := by
  have hreset : Move sdk ⟨ctx, signing, none, false⟩ [.ctxReset] ⟨{}, signing, none, false⟩ :=
    Move.reset _ rfl rfl
  cases handler with
  | parseActionMetadata =>
    obtain ⟨⟨ret', ctx'', reset⟩, hp, hout⟩ := bind_ok_iff.mp h
    cases hout
    rcases parseActionMetadata_cases hp with
      ⟨-, rfl, rfl⟩ | ⟨-, rfl, rfl⟩ | ⟨-, rfl, metadata, rfl⟩
    · exact .refl _
    · exact .single hreset
    · exact .step hreset (.single (Move.load _ metadata rfl rfl rfl))
  | parseAction =>
    obtain ⟨⟨ret', ctx''⟩, hp, hout⟩ := bind_ok_iff.mp h
    cases hout
    rcases parseAction_cases hp with
      ⟨-, rfl⟩ | ⟨-, metadata, a, hmd, hwf, hassets, hcompat, hidx, hnew, hmd', hidx', helems⟩
    · exact .refl _
    · exact .single (Move.push ⟨ctx, signing, none, false⟩ _ metadata a rfl rfl hmd hwf hassets
        hcompat hidx hnew hmd' hidx' helems)

theorem handlerChunked_handled {handler : PayloadHandler} {env : Env} {first : Bool}
    {payload : Bytes} {w : World} {r : Outcome} (hrev : w.review = none) (hcomm : w.Comm)
    (h : handlerChunked sdk handler env first payload w = .ok r) : Handled sdk w r := by
  obtain ⟨res, hp, hout⟩ := bind_ok_iff.mp h
  cases hout
  refine ⟨?_, hcomm, rfl⟩
  have hquiet := quiet_response [] (if res.ret then .success else .incorrectData)
  have hpath : Path (Move sdk) ⟨w.ctx, w.signing, none, false⟩ res.events
      ⟨res.state, w.signing, none, false⟩ := by
    rcases ChunkedPayload.processChunkedPayload_cases hp with ⟨hs, he⟩ | ⟨bytes, ret, hrun⟩
    · rw [hs, he]
      exact .refl _
    · exact runPayloadHandler_path w.signing hrun
  have hpath' := hpath.trans (path_quiet _ hquiet)
  have hsession : w.session = ⟨w.ctx, w.signing, none, false⟩ := by rw [World.session, hrev]
  rw [hsession, World.session]
  show Path (Move sdk) _ _ ⟨res.state, w.signing, w.review, false⟩
  rw [hrev]
  exact hpath'

theorem handlerSignAction_handled (env : Env) (payload : Bytes) (w : World)
    (hrev : w.review = none) (hcomm : w.Comm) :
    Handled sdk w (handlerSignAction sdk env payload w) := by
  have hpath : w.ctx.actionIndex = 0 → ∀ signing, Path (Move sdk) w.session []
      { w.session with signing := signing } := fun hidx signing =>
    .single (Move.path w.session signing hrev rfl hidx)
  have hcases := handlerSignAction_cases sdk env payload w
  generalize handlerSignAction sdk env payload w = r at hcases ⊢
  cases hcases with
  | refused sw => exact handled_ioSendSw env sw hcomm
  | unreviewed signing rawBuf events hidx hevents =>
    exact ⟨(hpath hidx signing).trans (path_quiet _ (quiet_after hevents [] .incorrectData)),
      hcomm, rfl⟩
  | reviewed signing rawBuf calls screen hidx hcalls hui =>
    refine ⟨?_, rfl, rfl⟩
    have hmove : Move sdk { w.session with signing := signing } _ _ :=
      Move.review _ screen hrev rfl hidx hui
    exact ((hpath hidx signing).trans (path_quiet _ hcalls)).trans (Path.single hmove)
  | signs hidx _ =>
    obtain ⟨hp, hs⟩ : Path (Move sdk) _ _ _ ∧ Signed w (signAction sdk env w) :=
      signAction_path env w false hrev (.inl hidx)
    refine ⟨?_, ?_, hs.faulted⟩
    · simpa only [World.session, hrev] using hp
    · rw [World.Comm, hs.review, hs.commEnabled]
      exact hcomm

/-- Every dispatched command. -/
theorem apduDispatcher_handled {env : Env} {cmd : Command} {w : World} {r : Outcome}
    (hrev : w.review = none) (hcomm : w.Comm) (h : apduDispatcher sdk env cmd w = .ok r) :
    Handled sdk w r := by
  rcases apduDispatcher_cases sdk env cmd w with
    ⟨sw, hr, -⟩ | hr | ⟨handler, -, hr⟩ | ⟨-, hr⟩
  · cases h.symm.trans hr
    exact handled_ioSendSw env sw hcomm
  · cases h.symm.trans hr
    exact handlerGetAddr_handled env cmd.data w hcomm
  · exact handlerChunked_handled hrev hcomm (hr.symm.trans h)
  · cases h.symm.trans hr
    exact handlerSignAction_handled env cmd.data w hrev hcomm

/-! ## 5. Choices, and the refinement -/

/-- The callback of a review. -/
theorem reviewChoice_path (env : Env) (confirm : Bool) (w : World) {screen : UiCtx}
    (hrev : w.review = some screen) :
    Path (Move sdk) w.session (reviewChoice sdk env confirm w).2
        (reviewChoice sdk env confirm w).1.session ∧
      (reviewChoice sdk env confirm w).1.Comm := by
  cases confirm with
  | true =>
    have hconfirm : Move sdk w.session [.choice true] ⟨w.ctx, w.signing, none, true⟩ :=
      Move.confirm w.session screen hrev
    obtain ⟨hp, hs⟩ : Path (Move sdk) _ _ _ ∧
        Signed { w with commEnabled := true, review := none }
          (signAction sdk env { w with commEnabled := true, review := none }) :=
      signAction_path env { w with commEnabled := true, review := none } true rfl (.inr rfl)
    have hsigned := Path.step hconfirm hp
    unfold reviewChoice
    simp only [if_true]
    split
    · refine ⟨hsigned.trans (path_quiet _ (quiet_single (e := .reviewStatus) trivial)), ?_⟩
      show (Outcome.world _).Comm
      simp only [Outcome.after, World.Comm, hs.review, hs.commEnabled, Option.isNone_none]
    · refine ⟨?_, ?_⟩
      · have hreset : Move sdk _ _ _ := Move.reset (World.session _) hs.review rfl
        exact hsigned.trans (.step hreset
          (path_quiet _ (quiet_single (e := .menuMain) trivial)))
      · simp only [Outcome.after, World.Comm, hs.review, hs.commEnabled, Option.isNone_none]
  | false =>
    have hreject : Move sdk w.session [.choice false] ⟨w.ctx, w.signing, none, false⟩ :=
      Move.reject w.session screen hrev
    have hreset : Move sdk ⟨w.ctx, w.signing, none, false⟩ [.ctxReset]
        ⟨{}, w.signing, none, false⟩ := Move.reset _ rfl rfl
    refine ⟨?_, rfl⟩
    exact .step hreject (.step hreset (.step (.quiet _ (.response [] _) trivial)
      (path_quiet _ (quiet_single (e := .menuMain) trivial))))

/-- One step of the application. -/
theorem appMainStep_path (w : World) (i : Input) (hcomm : w.Comm) :
    Path (Move sdk) w.session (appMainStep sdk w i).2 (appMainStep sdk w i).1.session ∧
      (appMainStep sdk w i).1.Comm := by
  have hcases := appMainStep_cases sdk w i
  generalize appMainStep sdk w i = r at hcases ⊢
  cases hcases with
  | ignored i => exact ⟨.refl _, hcomm⟩
  | stopped => exact ⟨.refl _, hcomm⟩
  | answered cmd env sw _ => exact ⟨path_quiet _ (quiet_response _ _), hcomm⟩
  | faulted cmd env e _ _ => exact ⟨.refl _, hcomm⟩
  | dispatched cmd env r running hon hr _ =>
    have hh := apduDispatcher_handled (hcomm.review_none hon) hcomm hr
    exact ⟨hh.path, hh.comm⟩
  | chosen confirm env screen hrev => exact reviewChoice_path env confirm w hrev

/-- The application refines the session. -/
theorem app_refines (sdk : Sdk) :
    (app sdk).Refines World.Comm World.session (Move sdk) where
  init := rfl
  inv := fun w i hcomm => (appMainStep_path w i hcomm).2
  path := fun w i hcomm => (appMainStep_path w i hcomm).1

end Hyperliquid

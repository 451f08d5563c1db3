/-
# No signature without approval of exactly what is signed

A signature is sent in answer to a command, long after the user saw the review, or at once on
the confirmation.  In every run it comes after a confirmed review of the metadata, the actions
and the path it is made from (`Approved`): the review was built from the same metadata and the
same complete list of actions, for the address derived from the same path; the session was not
reset and no other review was shown since; and exactly the indices before this one were signed
since, each once.

The invariant follows a review from the screen to the last signature (`ApprovalInv`), and each
move of a session preserves it.  While a review is on the screen no command is dispatched.
-/
import Hyperliquid.Session

namespace Hyperliquid

open Lib

/-! ## 1. What an approval is -/

/-- What may follow a confirmation: neither a reset nor another review or choice, and no
signature of the index `n` or a later one. -/
def Event.SignsBelow (n : Nat) : Event → Prop
  | .cx _ | .deriveAddr _ _ _ | .response _ _ | .reviewStatus | .menuMain => True
  | .ctxReset | .useCaseReview _ _ | .choice _ => False
  | .signature i _ _ _ => i < n

/-- The indices that were signed, in order. -/
def signedIndices (events : List Event) : List Nat :=
  events.filterMap fun
    | .signature i _ _ _ => some i
    | _ => none

/-- `handle_ui` shows this screen for what is stored, before anything is signed. -/
def Snapshot.Shows (sdk : Sdk) (now : Snapshot) (screen : UiCtx) : Prop :=
  handleUi sdk ⟨now.metadata, now.actions, 0⟩ now.metadata = some screen

/-- The address is derived from the path, and the review is shown. -/
def reviewEvents (now : Snapshot) (screen : UiCtx) : List Event :=
  [.deriveAddr now.signing.bip32Path now.signing.bip32PathLength (some now.signing.walletAddr),
   .useCaseReview now screen]

/-- The review of what is stored now is the last thing that happened. -/
def Pending (sdk : Sdk) (tr : List Event) (now : Snapshot) (screen : UiCtx) : Prop :=
  now.Shows sdk screen ∧
    ∃ before shown, tr = before ++ reviewEvents now screen ++ shown ∧ ∀ e ∈ shown, e.Quiet

/-- The review of what is stored now was confirmed, and since then the indices below `n` were
signed, each once and in their order, and no other. -/
def Confirmed (sdk : Sdk) (tr : List Event) (now : Snapshot) (n : Nat) : Prop :=
  ∃ screen, now.Shows sdk screen ∧ ∃ before shown since,
    tr = before ++ reviewEvents now screen ++ shown ++ .choice true :: since ∧
      (∀ e ∈ shown, e.Quiet) ∧ (∀ e ∈ since, e.SignsBelow n) ∧
      signedIndices since = List.range n

/-- The signature of an action that stands at this index of the list the user approved. -/
structure Approved (sdk : Sdk) (tr : List Event) (i : Nat) (a : Action) (now : Snapshot) :
    Prop where
  stored : now.actions.elems[i]? = some a
  confirmed : Confirmed sdk tr now i

/-- Signatures are approved by the events before them. -/
def SignatureOk (sdk : Sdk) (tr : List Event) : Event → Prop
  | .signature i a now _ => Approved sdk tr i a now
  | _ => True

/-! ## 2. Events that keep an approval -/

theorem Event.Quiet.signsBelow {e : Event} (h : e.Quiet) (n : Nat) : e.SignsBelow n := by
  cases e <;> trivial

theorem Event.Quiet.signatureOk {e : Event} (h : e.Quiet) (sdk : Sdk) (tr : List Event) :
    SignatureOk sdk tr e := by
  cases e <;> trivial

theorem Event.SignsBelow.mono {e : Event} {m n : Nat} (h : e.SignsBelow m) (hmn : m ≤ n) :
    e.SignsBelow n := by
  cases e with
  | signature i a now sig => exact Nat.lt_of_lt_of_le h hmn
  | _ => exact h

theorem signedIndices_append (xs ys : List Event) :
    signedIndices (xs ++ ys) = signedIndices xs ++ signedIndices ys := List.filterMap_append

theorem Event.Quiet.signedIndices {e : Event} (h : e.Quiet) :
    Hyperliquid.signedIndices [e] = [] := by
  cases e <;> trivial

/-- A quiet event on the screen of a review. -/
theorem Pending.snoc {sdk : Sdk} {tr : List Event} {now : Snapshot} {screen : UiCtx} {e : Event}
    (h : Pending sdk tr now screen) (he : e.Quiet) : Pending sdk (tr ++ [e]) now screen := by
  obtain ⟨hui, before, shown, rfl, hshown⟩ := h
  refine ⟨hui, before, shown ++ [e], by rw [List.append_assoc], ?_⟩
  exact List.forall_mem_append.mpr ⟨hshown, quiet_single he⟩

/-- The user confirms. -/
theorem Pending.confirm {sdk : Sdk} {tr : List Event} {now : Snapshot} {screen : UiCtx}
    (h : Pending sdk tr now screen) : Confirmed sdk (tr ++ [.choice true]) now 0 := by
  obtain ⟨hui, before, shown, rfl, hshown⟩ := h
  exact ⟨screen, hui, before, shown, [], rfl, hshown, by simp, rfl⟩

/-- One more event after the confirmation, with the indices that it signs. -/
theorem Confirmed.snoc {sdk : Sdk} {tr : List Event} {now : Snapshot} {m n : Nat} {e : Event}
    (h : Confirmed sdk tr now m) (hmn : m ≤ n) (he : e.SignsBelow n)
    (hsigns : List.range m ++ signedIndices [e] = List.range n) :
    Confirmed sdk (tr ++ [e]) now n := by
  obtain ⟨screen, hui, before, shown, since, rfl, hshown, hsince, hsigned⟩ := h
  refine ⟨screen, hui, before, shown, since ++ [e], by simp, hshown, ?_, ?_⟩
  · refine List.forall_mem_append.mpr ⟨fun x hx => (hsince x hx).mono hmn, ?_⟩
    intro x hx
    rw [List.mem_singleton] at hx
    exact hx ▸ he
  · rw [signedIndices_append, hsigned, hsigns]

theorem Confirmed.quiet {sdk : Sdk} {tr : List Event} {now : Snapshot} {n : Nat} {e : Event}
    (h : Confirmed sdk tr now n) (he : e.Quiet) : Confirmed sdk (tr ++ [e]) now n :=
  h.snoc (Nat.le_refl n) (he.signsBelow n) (by rw [he.signedIndices, List.append_nil])

/-- The index that is next is signed. -/
theorem Confirmed.signed {sdk : Sdk} {tr : List Event} {now : Snapshot} {n : Nat}
    (h : Confirmed sdk tr now n) (a : Action) (sig : Signature) :
    Confirmed sdk (tr ++ [.signature n a now sig]) now (n + 1) :=
  h.snoc (Nat.le_succ n) (Nat.lt_succ_self n) List.range_succ.symm

/-! ## 3. The invariant -/

/-- A review on the screen is pending and nothing was signed under it; when signing may go on,
what is stored was confirmed, and only the indices before the current one were signed. -/
structure ApprovalInv (sdk : Sdk) (tr : List Event) (s : Session) : Prop where
  signatures : EventsOk (SignatureOk sdk) tr
  pending : ∀ screen, s.review = some screen →
    s.confirmed = false ∧ s.ctx.actionIndex = 0 ∧ Pending sdk tr s.snapshot screen
  confirmed : s.review = none → 0 < s.ctx.actionIndex ∨ s.confirmed = true →
    Confirmed sdk tr s.snapshot s.ctx.actionIndex

namespace ApprovalInv

variable {sdk : Sdk} {tr : List Event} {s : Session}

/-- Nothing is approved: no review is shown, and signing has not started. -/
theorem fresh (h : EventsOk (SignatureOk sdk) tr) (hrev : s.review = none)
    (hidx : s.ctx.actionIndex = 0) (hc : s.confirmed = false) : ApprovalInv sdk tr s where
  signatures := h
  pending := by simp [hrev]
  confirmed := by simp [hidx, hc]

theorem quiet {e : Event} (h : ApprovalInv sdk tr s) (he : e.Quiet) :
    ApprovalInv sdk (tr ++ [e]) s where
  signatures := eventsOk_snoc h.signatures (he.signatureOk sdk tr)
  pending := by
    intro screen hrev
    obtain ⟨hc, hidx, hp⟩ := h.pending screen hrev
    exact ⟨hc, hidx, hp.snoc he⟩
  confirmed := fun hrev hok => (h.confirmed hrev hok).quiet he

/-- The review is shown, right after the address was derived. -/
theorem review {screen : UiCtx} (h : ApprovalInv sdk tr s) (hc : s.confirmed = false)
    (hidx : s.ctx.actionIndex = 0) (hui : handleUi sdk s.ctx s.ctx.metadata = some screen) :
    ApprovalInv sdk (tr ++ reviewEvents s.snapshot screen) { s with review := some screen } where
  signatures := by
    have hderive : EventsOk (SignatureOk sdk) (tr ++ [.deriveAddr s.signing.bip32Path
        s.signing.bip32PathLength (some s.signing.walletAddr)]) :=
      eventsOk_snoc h.signatures trivial
    have hreview : EventsOk (SignatureOk sdk) (_ ++ [.useCaseReview s.snapshot screen]) :=
      eventsOk_snoc hderive trivial
    rwa [List.append_assoc] at hreview
  pending := by
    intro screen' hrev
    cases hrev
    refine ⟨hc, hidx, ?_, tr, [], (List.append_nil _).symm, by simp⟩
    have hctx : (⟨s.ctx.metadata, s.ctx.actions, 0⟩ : HlContext) = s.ctx := by rw [← hidx]
    show handleUi sdk ⟨s.ctx.metadata, s.ctx.actions, 0⟩ s.ctx.metadata = some screen
    rw [hctx]
    exact hui
  confirmed := by simp

theorem confirm {screen : UiCtx} (h : ApprovalInv sdk tr s) (hrev : s.review = some screen) :
    ApprovalInv sdk (tr ++ [.choice true]) { s with review := none, confirmed := true } where
  signatures := eventsOk_snoc h.signatures trivial
  pending := by simp
  confirmed := by
    intro _ _
    obtain ⟨-, hidx, hpending⟩ := h.pending screen hrev
    show Confirmed sdk (tr ++ [.choice true]) s.snapshot s.ctx.actionIndex
    rw [hidx]
    exact hpending.confirm

theorem reject {screen : UiCtx} (h : ApprovalInv sdk tr s) (hrev : s.review = some screen) :
    ApprovalInv sdk (tr ++ [.choice false]) { s with review := none } := by
  obtain ⟨hc, hidx, -⟩ := h.pending screen hrev
  exact fresh (eventsOk_snoc h.signatures trivial) rfl hidx hc

/-- The current action is signed, and the next one becomes current. -/
theorem sign {a : Action} (sig : Signature) (h : ApprovalInv sdk tr s) (hrev : s.review = none)
    (hok : 0 < s.ctx.actionIndex ∨ s.confirmed = true)
    (ha : ctxGetCurrentAction s.ctx = some a) :
    ApprovalInv sdk (tr ++ [.signature s.ctx.actionIndex a s.snapshot sig])
      { s with ctx := ctxSwitchToNextAction s.ctx, confirmed := false } := by
  obtain ⟨hlt, hget⟩ := ctxGetCurrentAction_some ha
  have hconf := h.confirmed hrev hok
  have hnext : (s.ctx.actionIndex + 1) % 256 = s.ctx.actionIndex + 1 := by
    have hcount : s.ctx.actionCount ≤ maxActionCount := s.ctx.actions.bound
    simp only [maxActionCount] at hcount
    omega
  refine ⟨eventsOk_snoc h.signatures ⟨hget, hconf⟩, by simp [hrev], fun _ _ => ?_⟩
  show Confirmed sdk _ s.snapshot ((s.ctx.actionIndex + 1) % 256)
  rw [hnext]
  exact hconf.signed a sig

theorem lapse (h : ApprovalInv sdk tr s) :
    ApprovalInv sdk tr { s with confirmed := false } where
  signatures := h.signatures
  pending := fun screen hrev => ⟨rfl, (h.pending screen hrev).2⟩
  confirmed := by
    intro hrev hok
    exact h.confirmed hrev (.inl (by simpa using hok))

end ApprovalInv

/-- Each move preserves the invariant. -/
theorem move_approvalInv {sdk : Sdk} {tr : List Event} {s s' : Session} {events : List Event}
    (hm : Move sdk s events s') (h : ApprovalInv sdk tr s) :
    ApprovalInv sdk (tr ++ events) s' := by
  have hsame : EventsOk (SignatureOk sdk) (tr ++ []) := by
    rw [List.append_nil]
    exact h.signatures
  cases hm with
  | quiet e he => exact h.quiet he
  | reset hrev hc => exact .fresh (eventsOk_snoc h.signatures trivial) hrev rfl hc
  | load metadata hrev hc hctx => exact .fresh hsame hrev rfl hc
  | push ctx metadata a hrev hc hmd hwf hassets hcompat hidx hnew hmd' hidx' helems =>
    exact .fresh hsame hrev hidx' hc
  | path signing hrev hc hidx => exact .fresh hsame hrev hidx hc
  | review screen hrev hc hidx hui => exact h.review hc hidx hui
  | confirm screen hrev => exact h.confirm hrev
  | reject screen hrev => exact h.reject hrev
  | sign a sig hrev hok ha => exact h.sign sig hrev hok ha
  | lapse =>
    rw [List.append_nil]
    exact h.lapse

theorem approvalInv_run (sdk : Sdk) (inputs : List Input) :
    ApprovalInv sdk ((app sdk).trace inputs) ((app sdk).state inputs).session :=
  (app_refines sdk).induction (P := ApprovalInv sdk) (.fresh (eventsOk_nil _) rfl rfl rfl)
    (fun _ _ _ _ hm h => move_approvalInv hm h) inputs

/-! ## 4. Every run -/

/-- While a review is on the screen, a command is answered with an error, and nothing else
happens. -/
theorem appMainStep_pending {sdk : Sdk} {w : World} (hcomm : w.Comm) (hrun : w.running = true)
    (hrev : w.review ≠ none) (cmd : Option Command) (env : Env) :
    appMainStep sdk w (.apdu cmd env) = (w, [.response [] .commandErrorNoInfo]) := by
  have hoff : w.commEnabled = false := by
    rw [hcomm]
    cases hr : w.review with
    | none => exact absurd hr hrev
    | some screen => rfl
  simp [appMainStep, appMainApdu, hrun, hoff]

/-- In every run each signature is approved by the events before it, and no command is
dispatched while a review is pending. -/
theorem signatures_approved (sdk : Sdk) (inputs : List Input) :
    EventsOk (SignatureOk sdk) ((app sdk).trace inputs) ∧
      (((app sdk).state inputs).running = true → ((app sdk).state inputs).review ≠ none →
        ∀ cmd env, appMainStep sdk ((app sdk).state inputs) (.apdu cmd env) =
          ((app sdk).state inputs, [.response [] .commandErrorNoInfo])) :=
  ⟨(approvalInv_run sdk inputs).signatures, fun hrun hrev cmd env =>
    appMainStep_pending ((app_refines sdk).inv_state inputs) hrun hrev cmd env⟩

end Hyperliquid

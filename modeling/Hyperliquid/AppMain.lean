/-
# The application as a machine (`app_main.c`)

`app_main` receives a command, and dispatches it if communication is enabled; while a review is
on the screen it is not, and every command is answered with an error.  The user's choice on the
review comes from outside, and runs its callback.  The loop ends when receiving fails, or when
a handler returns a negative value.

All the nondeterminism is in the inputs: the bytes of the commands, the choices, and how the
primitives answer.
-/
import Hyperliquid.Handlers
import Hyperliquid.Lib.Transition

namespace Hyperliquid

open Lib

inductive Input where
  /-- A command, or bytes that `apdu_parser` refuses. -/
  | apdu (cmd : Option Command) (env : Env)
  | recvFailure
  /-- The user's choice, if a review is on the screen. -/
  | choice (confirm : Bool) (env : Env)

section

variable (sdk : Sdk)

/-- One command. -/
def appMainApdu (cmd : Option Command) (env : Env) (w : World) : World × List Event :=
  if w.commEnabled then
    match cmd with
    | none => (w, [.response [] .wrongDataLength])
    | some cmd =>
      match apduDispatcher sdk env cmd w with
      | .error _ => ({ w with running := false, faulted := true }, [])
      | .ok r => (if r.ret < 0 then { r.world with running := false } else r.world, r.events)
  else (w, [.response [] .commandErrorNoInfo])

def appMainStep (w : World) (i : Input) : World × List Event :=
  if !w.running then (w, [])
  else
    match i with
    | .apdu cmd env => appMainApdu sdk cmd env w
    | .recvFailure => ({ w with running := false }, [])
    | .choice confirm env =>
      match w.review with
      | none => (w, [])
      | some _ => reviewChoice sdk env confirm w

/-- From power-on: zeroed globals, and communication enabled. -/
def app : Machine World Input Event where
  init := {}
  step := appMainStep sdk

/-! ## Two states that look alike -/

section

variable {env : Env} {w w' : World}

/-- A command in two states: if the handlers' outcomes look alike, so do the dispatcher's. -/
theorem apduDispatcher_alike {β : Type} {f : Outcome → β} (cmd : Command)
    (hsend : ∀ sw, f (ioSendSw env sw w) = f (ioSendSw env sw w'))
    (haddr : ∀ p, f (handlerGetAddr sdk env p w) = f (handlerGetAddr sdk env p w'))
    (hchunked : ∀ handler first p, (handlerChunked sdk handler env first p w).map f =
      (handlerChunked sdk handler env first p w').map f)
    (hsign : ∀ p, f (handlerSignAction sdk env p w) = f (handlerSignAction sdk env p w')) :
    (apduDispatcher sdk env cmd w).map f = (apduDispatcher sdk env cmd w').map f := by
  have hok : ∀ {r r' : Outcome}, f r = f r' →
      (Except.ok r : Except Failure Outcome).map f = (Except.ok r').map f :=
    fun h => congrArg Except.ok h
  have hsingle : ∀ handler : Env → Bytes → World → Outcome,
      (∀ p, f (handler env p w) = f (handler env p w')) →
      (dispatchSingle handler env cmd w).map f = (dispatchSingle handler env cmd w').map f := by
    intro handler hhandler
    unfold dispatchSingle
    split
    · exact hok (hsend _)
    · split
      · exact hok (hsend _)
      · exact hok (hhandler _)
  have hchunks : ∀ handler, (dispatchChunked (handlerChunked sdk handler) env cmd w).map f =
      (dispatchChunked (handlerChunked sdk handler) env cmd w').map f := by
    intro handler
    unfold dispatchChunked
    split
    · exact hok (hsend _)
    · split
      · exact hok (hsend _)
      · exact hchunked _ _ _
  unfold apduDispatcher
  split
  · exact hok (hsend _)
  · split
    · exact hsingle _ haddr
    · split
      · exact hchunks _
      · split
        · exact hchunks _
        · split
          · exact hsingle _ hsign
          · exact hok (hsend _)

variable {τ δ : Type} {view : World → τ} {seen : Event → δ}

/-- What is seen of an outcome. -/
def Outcome.through (view : World → τ) (seen : Event → δ) (r : Outcome) : Int × τ × List δ :=
  (r.ret, view r.world, r.events.map seen)

/-- An input in two states that look alike: if the commands and the choices do, so does the
step.  The view may hide what the loop itself does not read. -/
theorem appMainStep_seen (i : Input) (h : view w = view w') (hrunning : w.running = w'.running)
    (hcomm : w.commEnabled = w'.commEnabled) (hreview : w.review = w'.review)
    (hstop : ∀ v v' : World, view v = view v' →
      view { v with running := false } = view { v' with running := false })
    (hfault : ∀ v v' : World, view v = view v' →
      view { v with faulted := true } = view { v' with faulted := true })
    (hcmd : ∀ env cmd, (apduDispatcher sdk env cmd w).map (Outcome.through view seen) =
      (apduDispatcher sdk env cmd w').map (Outcome.through view seen))
    (hchoice : ∀ env confirm, w.review ≠ none →
      Alike view seen (reviewChoice sdk env confirm w) (reviewChoice sdk env confirm w')) :
    Alike view seen (appMainStep sdk w i) (appMainStep sdk w' i) := by
  unfold appMainStep
  rw [← hrunning]
  split
  · exact ⟨h, rfl⟩
  · cases i with
    | recvFailure => exact ⟨hstop _ _ h, rfl⟩
    | choice confirm env =>
      show Alike _ _ (match w.review with | none => _ | some _ => _)
        (match w'.review with | none => _ | some _ => _)
      rw [← hreview]
      cases hr : w.review with
      | none => exact ⟨h, rfl⟩
      | some screen => exact hchoice env confirm (by rw [hr]; exact Option.some_ne_none _)
    | apdu cmd env =>
      show Alike _ _ (appMainApdu sdk cmd env w) (appMainApdu sdk cmd env w')
      unfold appMainApdu
      by_cases hc : w.commEnabled = true
      · rw [if_pos hc, if_pos (hcomm ▸ hc)]
        cases cmd with
        | none => exact ⟨h, rfl⟩
        | some cmd =>
          dsimp only
          rcases map_eq_map_cases (hcmd env cmd) with ⟨e, hr, hr'⟩ | ⟨r, r', hr, hr', hsame⟩
          · rw [hr, hr']
            exact ⟨hstop _ _ (hfault _ _ h), rfl⟩
          · rw [hr, hr']
            obtain ⟨hret, hworld, hevents⟩ : r.ret = r'.ret ∧ view r.world = view r'.world ∧
                r.events.map seen = r'.events.map seen := by
              simpa only [Outcome.through, Prod.mk.injEq] using hsame
            dsimp only
            rw [hret]
            refine ⟨?_, hevents⟩
            dsimp only
            split
            · exact hstop _ _ hworld
            · exact hworld
      · rw [if_neg hc, if_neg (hcomm ▸ hc)]
        exact ⟨h, rfl⟩

end

end

end Hyperliquid

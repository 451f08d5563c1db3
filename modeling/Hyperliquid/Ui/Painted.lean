/-
# What is printed is what is shown

The `ui_*` functions print into about twenty arrays, several of them sized to the byte, and the
pairs point to what was printed.  Three things have to be right: each array is large enough for
every text that can be printed into it, no array is written again (nor one in the same memory)
while a pair points to it, and the array of pairs is long enough.

They are followed together (`Painted`): the memory of the application, the memory of functions
that never cut anything, and the review of `Ui.Operations`, which all other results are about.  At
each point the two memories are the same and read as the pairs of the review.  This module has
the relation and a rule for each part of a review.
-/
import Hyperliquid.Ui.Printing

namespace Hyperliquid.Printing

open Lib

/-! ## 1. The relation -/

/-- Both memories are the same, and read as the pairs of the review, at most `n` of them; the
values are in these arrays of the union. -/
structure Painted (n : Nat) (used : List Buffer) (u : UiCtx) (s s' : UiMemory) : Prop where
  whole : s = s'
  shows : s.Shows used (u.pairs.map fun p => (p.item, p.value))
  members : ∀ b ∈ used, b.member.isSome = true
  intent : s.memory .intent = u.intent.chars
  count : u.pairs.length ≤ n

/-- A function has returned with both memories alike; it has accepted exactly when there is a
review. -/
def Returned (n : Nat) (r r' : Bool × UiMemory) (o : Option UiCtx) : Prop :=
  ∃ used u, Painted n used u r.2 r'.2 ∧ r.1 = r'.1 ∧ o = if r.1 then some u else none

section

variable {sdk : Sdk} {n m : Nat} {used : List Buffer} {u : UiCtx} {s s' : UiMemory}
  {b : Buffer} {output : Bytes} {metadata : ActionMetadata}

theorem Painted.length_pairs_le (h : Painted n used u s s') : s.pairs.length ≤ n := by
  have hlength := h.shows.length_pairs
  rw [List.length_map] at hlength
  exact hlength.le.trans h.count

theorem Painted.mono (h : Painted n used u s s') (hle : n ≤ m) : Painted m used u s s' :=
  ⟨h.whole, h.shows, h.members, h.intent, h.count.trans hle⟩

theorem Painted.rejects (h : Painted n used u s s') (hle : n ≤ m) :
    Returned m (false, s) (false, s') none :=
  ⟨used, u, h.mono hle, rfl, rfl⟩

theorem Painted.accepts (h : Painted n used u s s') (hle : n ≤ m) :
    Returned m (true, s) (true, s') (some u) :=
  ⟨used, u, h.mono hle, rfl, rfl⟩

theorem Returned.mono {r r' : Bool × UiMemory} {o : Option UiCtx} (h : Returned n r r' o)
    (hle : n ≤ m) : Returned m r r' o := by
  obtain ⟨used, u, hpainted, hret, ho⟩ := h
  exact ⟨used, u, hpainted.mono hle, hret, ho⟩

/-- The arrays outside the union are apart from those in it. -/
theorem apart_of_member {c : Buffer} (hb : b.member = none) (hc : c.member.isSome = true) :
    Apart b c := by
  refine ⟨?_, ?_⟩
  · rintro rfl
    rw [hb] at hc
    cases hc
  · rw [overlaps_eq, hb]
    rfl

theorem apart_intent (hb : b ≠ .intent) : Apart b .intent := by
  refine ⟨fun h => hb h.symm, ?_⟩
  have hintent : Buffer.intent.member = none := rfl
  rw [overlaps_eq, hintent, Option.isSome_none, Bool.and_false, Bool.false_and]

/-! ## 2. The parts of a review -/

/-- A text for later use. -/
theorem Painted.print (h : Painted n used u s s') (hfits : output.length ≤ b.capacity)
    (hb : b.member = none) (hne : b ≠ .intent) :
    Painted n used u (s.print b output output) (s'.print b output output) := by
  obtain ⟨rfl, hshows, hmembers, hintent, hcount⟩ := h
  refine ⟨rfl, hshows.print hfits fun c hc => apart_of_member hb (hmembers c hc), hmembers, ?_,
    hcount⟩
  rw [s.print_other (apart_intent hne), hintent]

/-- A value that was printed into an array of its own. -/
theorem Painted.add {output' : Bytes} (h : Painted n used u s s')
    (hfits : output.length ≤ b.capacity) (hb : b.member.isSome = true)
    (hfree : ∀ c ∈ used, Apart b c) (item : String) (hvalue : output' = output) :
    Painted (n + 1) (b :: used) (u.addPair item output')
      ((s.print b output output).addPair item (.buffer b))
      ((s'.print b output output).addPair item (.buffer b)) := by
  obtain ⟨rfl, hshows, hmembers, hintent, hcount⟩ := h
  subst hvalue
  have hne : b ≠ .intent := by
    rintro rfl
    cases hb
  refine ⟨rfl, ?_, ?_, ?_, ?_⟩
  · have hprinted : ⟨b, output'⟩ ∈ (s.print b output' output').prints :=
      List.mem_append_right _ List.mem_cons_self
    have hadd := (hshows.print hfits hfree).add item (s.print_memory b output' output') hprinted
    simpa using hadd
  · intro c hc
    rcases List.mem_cons.mp hc with rfl | hc
    · exact hb
    · exact hmembers c hc
  · exact (s.print_other (apart_intent hne) output' output').trans hintent
  · simpa using hcount

variable (sdk b) in
theorem Painted.showText (h : Painted n used u s s') (hfits : output.length ≤ b.capacity)
    (hb : b.member.isSome = true) (hfree : ∀ c ∈ used, Apart b c) (item : String) :
    Painted (n + 1) (b :: used) (u.addPair item (Lib.snprintf b.capacity output).chars)
      (showText (Printer.ofSdk sdk) s item output b) (showText Printer.whole s' item output b) := by
  have hadd := h.add hfits hb hfree item (snprintf_of_fits hfits)
  unfold Printing.showText
  rw [Printer.snprintf_ofSdk hfits]
  exact hadd

/-- An array that was not needed. -/
theorem Painted.skip (h : Painted n used u s s') (hb : b.member.isSome = true) :
    Painted (n + 1) (b :: used) u s s' := by
  refine ⟨h.whole, h.shows.mono fun c hc => List.mem_cons_of_mem b hc, ?_, h.intent,
    h.count.trans (Nat.le_succ n)⟩
  intro c hc
  rcases List.mem_cons.mp hc with rfl | hc
  · exact hb
  · exact h.members c hc

variable (sdk b) in
theorem Painted.showPrice (h : Painted n used u s s') (hcap : b.capacity = priceStringLength)
    (hb : b.member.isSome = true) (hfree : ∀ c ∈ used, Apart b c) (item : String)
    (px : CString numericStringLength) :
    Painted (n + 1) (b :: used) (u.addPair item (priceText px))
      (showPrice (Printer.ofSdk sdk) s item px b) (showPrice Printer.whole s' item px b) := by
  have hfits : (px.chars ++ text " " ++ countervalueTicker).length ≤ b.capacity := by
    have hpx : px.chars.length ≤ 21 := px.fits
    have hunit : (text " ").length + countervalueTicker.length = 5 := rfl
    rw [hcap, List.length_append, List.length_append]
    simp only [priceStringLength, numericStringLength, assetTickerLength]
    omega
  have hshow := h.showText sdk b hfits hb hfree item
  rw [hcap] at hshow
  exact hshow

variable (sdk b) in
theorem Painted.showTrigger (h : Painted n used u s s') (hcap : b.capacity = priceStringLength)
    (hb : b.member.isSome = true) (hfree : ∀ c ∈ used, Apart b c) (item : String)
    (order : Option OrderRequest) :
    Painted (n + 1) (b :: used)
      (u.addPair? item (fun o => priceText o.trigger.triggerPx) order)
      (showTrigger (Printer.ofSdk sdk) s item order b)
      (showTrigger Printer.whole s' item order b) := by
  cases order with
  | none => exact h.skip hb
  | some order => exact h.showPrice sdk b hcap hb hfree item order.trigger.triggerPx

variable (sdk b) in
theorem Painted.showSize (h : Painted n used u s s') (hcap : b.capacity = sizeStringLength)
    (hb : b.member.isSome = true) (hfree : ∀ c ∈ used, Apart b c)
    (sz : CString numericStringLength) (metadata : ActionMetadata) :
    Painted (n + 1) (b :: used) (u.addPair "Size" (sizeText sz metadata.assetTicker))
      (showSize (Printer.ofSdk sdk) s sz metadata b) (showSize Printer.whole s' sz metadata b) := by
  have hfits : (sz.chars ++ text " " ++ metadata.assetTicker.chars).length ≤ b.capacity := by
    have hsz : sz.chars.length ≤ 21 := sz.fits
    have hticker : metadata.assetTicker.chars.length ≤ 48 := metadata.assetTicker.fits
    have hsep : (text " ").length = 1 := rfl
    rw [hcap, List.length_append, List.length_append]
    simp only [sizeStringLength, priceStringLength, numericStringLength, assetTickerLength]
    omega
  have hshow := h.showText sdk b hfits hb hfree "Size"
  rw [hcap] at hshow
  exact hshow

variable (sdk b) in
theorem Painted.showLeverage (h : Painted n used u s s')
    (hcap : b.capacity = leverageStringLength) (hb : b.member.isSome = true)
    (hfree : ∀ c ∈ used, Apart b c) (leverage : UInt32) :
    Painted (n + 1) (b :: used) (u.addPair "Leverage" (leverageText leverage))
      (showLeverage (Printer.ofSdk sdk) s leverage b)
      (showLeverage Printer.whole s' leverage b) := by
  have hfits : (decimal leverage.toNat ++ text "x").length ≤ b.capacity := by
    have hdigits : (decimal leverage.toNat).length ≤ 10 := by
      refine length_decimal_le (by omega) ?_
      have hlt := leverage.toNat_lt
      omega
    have hunit : (text "x").length = 1 := rfl
    rw [hcap, List.length_append]
    simp only [leverageStringLength, uint32StringLength]
    omega
  have hshow := h.showText sdk b hfits hb hfree "Leverage"
  rw [hcap] at hshow
  exact hshow

variable (sdk b) in
theorem Painted.showMetadataLeverage (h : Painted n used u s s')
    (hcap : b.capacity = leverageStringLength) (hb : b.member.isSome = true)
    (hfree : ∀ c ∈ used, Apart b c) (metadata : ActionMetadata) :
    Painted (n + 1) (b :: used) (Hyperliquid.showMetadataLeverage u metadata)
      (showMetadataLeverage (Printer.ofSdk sdk) s metadata b)
      (showMetadataLeverage Printer.whole s' metadata b) := by
  unfold Hyperliquid.showMetadataLeverage Printing.showMetadataLeverage
  cases metadata.leverage with
  | none => exact h.skip hb
  | some leverage => exact h.showLeverage sdk b hcap hb hfree leverage

variable (sdk b) in
theorem Painted.showUpdateLeverage (h : Painted n used u s s')
    (hcap : b.capacity = leverageStringLength) (hb : b.member.isSome = true)
    (hfree : ∀ c ∈ used, Apart b c) (updateLeverage : Option UpdateLeverage) :
    Painted (n + 1) (b :: used)
      (u.addPair? "Leverage" (fun a => leverageText a.leverage) updateLeverage)
      (showUpdateLeverage (Printer.ofSdk sdk) s updateLeverage b)
      (showUpdateLeverage Printer.whole s' updateLeverage b) := by
  cases updateLeverage with
  | none => exact h.skip hb
  | some updateLeverage => exact h.showLeverage sdk b hcap hb hfree updateLeverage.leverage

/-- Whichever wording the screen takes, there is room. -/
theorem length_wording_le {walletText nanoText : Bytes} (hwallet : walletText.length ≤ n)
    (hnano : nanoText.length ≤ n) :
    (if sdk.screenSizeWallet then walletText else nanoText).length ≤ n := by
  split
  · exact hwallet
  · exact hnano

variable (sdk) in
/-- The intent, in both wordings. -/
theorem Painted.printIntent {walletText nanoText : Bytes} (h : Painted n used u s s')
    (hwallet : walletText.length ≤ 100) (hnano : nanoText.length ≤ 100) :
    Painted n used { u with intent := sdk.intent walletText nanoText }
      (printIntent sdk (Printer.ofSdk sdk) s walletText nanoText)
      (printIntent sdk Printer.whole s' walletText nanoText) := by
  obtain ⟨rfl, hshows, hmembers, -, hcount⟩ := h
  have hfits : (if sdk.screenSizeWallet then walletText else nanoText).length ≤
      Buffer.intent.capacity := length_wording_le hwallet hnano
  unfold Printing.printIntent
  rw [Printer.snprintf_ofSdk hfits]
  refine ⟨rfl, hshows.print hfits fun c hc => apart_of_member rfl (hmembers c hc), hmembers, ?_,
    hcount⟩
  exact (s.print_memory _ _ _).trans (snprintf_of_fits hfits).symm

/-- The intent, with the target that was printed before. -/
theorem Painted.printTarget {target : Bytes} (walletText nanoText : Bytes → Bytes)
    (h : Painted n used u s s') (htarget : s.memory .targetTmp = target)
    (hwallet : (walletText target).length ≤ 100) (hnano : (nanoText target).length ≤ 100) :
    Painted n used { u with intent := sdk.intent (walletText target) (nanoText target) }
      (Printing.printIntent sdk (Printer.ofSdk sdk) s (walletText (s.memory .targetTmp))
        (nanoText (s.memory .targetTmp)))
      (Printing.printIntent sdk Printer.whole s' (walletText (s'.memory .targetTmp))
        (nanoText (s'.memory .targetTmp))) := by
  have hprinted := h.printIntent sdk hwallet hnano
  rw [← h.whole] at hprinted ⊢
  rw [htarget]
  exact hprinted

section

variable (hu64 : sdk.PrintsU64) (hfpu : sdk.PrintsFpu64WithRoom)

variable (b) in
include hu64 in
theorem Painted.showOid (h : Painted n used u s s') (hcap : b.capacity = 20)
    (hb : b.member.isSome = true) (hfree : ∀ c ∈ used, Apart b c) (item : String)
    (oid : UInt64) :
    Painted (n + 1) (b :: used) (u.addPair item (oidText sdk oid))
      (showOid (Printer.ofSdk sdk) s item oid b) (showOid Printer.whole s' item oid b) := by
  have hfits : (decimal oid.toNat).length ≤ b.capacity := by
    rw [hcap]
    exact length_decimal_uint64_le oid
  have hkept : (sdk.formatU64 b.capacity oid).chars = decimal oid.toNat :=
    hu64 b.capacity oid hfits
  have hadd := h.add hfits hb hfree item (oidText_eq hu64 oid)
  unfold Printing.showOid
  rw [Printer.formatU64_ofSdk hkept]
  exact hadd

variable (b) in
include hfpu in
/-- An amount, through the temporary array. -/
theorem Painted.showMargin (h : Painted n used u s s') (hcap : b.capacity = marginStringLength)
    (hb : b.member.isSome = true) (hfree : ∀ c ∈ used, Apart b c) (item : String)
    (margin : UInt64) :
    Painted (n + 1) (b :: used) (u.addPair item (marginText sdk margin))
      (showMargin (Printer.ofSdk sdk) s item margin b)
      (showMargin Printer.whole s' item margin b) := by
  have hdigits := length_decimal_uint64_le margin
  have hkept : (sdk.formatFpu64Trimmed (numericStringLength + marginDecimals) margin
      marginDecimals).chars = fixedTrimmed marginDecimals margin.toNat := by
    refine hfpu _ margin marginDecimals ?_
    simp only [numericStringLength, marginDecimals]
    omega
  have hlength : (fixedTrimmed marginDecimals margin.toNat).length ≤ 27 := by
    rw [← hkept]
    exact CString.fits _
  have hprint : (Printer.ofSdk sdk).formatFpu64Trimmed s .tmp margin marginDecimals =
      s.print .tmp (fixedTrimmed marginDecimals margin.toNat)
        (fixedTrimmed marginDecimals margin.toNat) := Printer.formatFpu64Trimmed_ofSdk hkept
  have hfits : (fixedTrimmed marginDecimals margin.toNat ++ text " " ++
      countervalueTicker).length ≤ b.capacity := by
    have hunit : (text " ").length + countervalueTicker.length = 5 := rfl
    rw [hcap, List.length_append, List.length_append]
    simp only [marginStringLength, priceStringLength, numericStringLength, assetTickerLength]
    omega
  have htmp : Painted n used u (s.print .tmp (fixedTrimmed marginDecimals margin.toNat) _)
      (s'.print .tmp (fixedTrimmed marginDecimals margin.toNat) _) :=
    h.print hlength rfl (by decide)
  have hshow := htmp.showText sdk b hfits hb hfree item
  have hvalue : marginText sdk margin = (Lib.snprintf b.capacity
      (fixedTrimmed marginDecimals margin.toNat ++ text " " ++ countervalueTicker)).chars := by
    unfold marginText
    dsimp only
    rw [hkept, hcap]
  unfold Printing.showMargin
  rw [hprint, hvalue]
  dsimp only
  rw [s.print_memory]
  have hwhole : Printer.whole.formatFpu64Trimmed s' .tmp margin marginDecimals =
      s'.print .tmp (fixedTrimmed marginDecimals margin.toNat)
        (fixedTrimmed marginDecimals margin.toNat) := rfl
  rw [hwhole, s'.print_memory]
  exact hshow

variable (b) in
include hfpu in
theorem Painted.showMetadataMargin (h : Painted n used u s s')
    (hcap : b.capacity = marginStringLength) (hb : b.member.isSome = true)
    (hfree : ∀ c ∈ used, Apart b c) (metadata : ActionMetadata) :
    Painted (n + 1) (b :: used) (Hyperliquid.showMetadataMargin sdk u metadata)
      (showMetadataMargin (Printer.ofSdk sdk) s metadata b)
      (showMetadataMargin Printer.whole s' metadata b) := by
  unfold Hyperliquid.showMetadataMargin Printing.showMetadataMargin
  cases metadata.margin with
  | none => exact h.skip hb
  | some margin => exact h.showMargin b hfpu hcap hb hfree "Margin" margin

end

end

end Hyperliquid.Printing

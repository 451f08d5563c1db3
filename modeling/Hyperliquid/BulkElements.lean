/-
# Bulk parsing is element-wise

A bulk parser accepts a payload exactly when each of its elements would be accepted alone, from a
zeroed context, and what it stores for an element is what the element alone reads as: nothing that
an element leaves behind is seen by a later one.  The other tags of a bulk order, and the tags of
a modify request, occur as often as they may and read as they must; nothing else is asked.

The parsers are the ones in memory (`InPlace`), which share one sub-context between all elements.
-/
import Hyperliquid.BulkInPlace
import Hyperliquid.Client
import Hyperliquid.Lib.TlvOccurrences

namespace Hyperliquid

open Lib

/-! ## 1. bulk_order.c -/

namespace BulkOrder

section

variable (sdk : Sdk) (hl : HlContext)

/-- The value of a grouping element. -/
def groupingOf (d : TlvData) : Option Grouping := sdk.getUint8TFromTlvData d >>= groupingOfByte

/-- An order alone. -/
def orderOf (value : Bytes) : Except Failure OrderRequest := do
  let orderCtx ← parseOrderRequest sdk hl value {}
  .ok orderCtx.orderRequest

/-- The context after these elements. -/
structure HasRead (ds : List TlvData) (s : BulkOrderCtx) : Prop where
  received : s.receivedTags = (ds.map TlvData.tag).reverse
  known : ∀ d ∈ ds, d.tag ∈ [tagOrder, tagGrouping, tagBuilder]
  orders : ReadAs (orderOf sdk hl) tagOrder ds s.bulkOrder.orders
  grouping : Once tagGrouping (fun d => groupingOf sdk d = some s.bulkOrder.grouping) True ds
  builder : Once tagBuilder
    (fun d => ∃ c, parseBuilderInfo sdk d.value {} = .ok c ∧
      s.bulkOrder.builder = some c.builderInfo)
    (s.bulkOrder.builder = none ∧ s.builderInfoCtx = {}) ds

/-- What may come after these elements. -/
inductive Next (ds : List TlvData) (d : TlvData) : Prop where
  | order (orderRequest : OrderRequest) : d.tag = tagOrder →
      (occurrences tagOrder ds).length < bulkMaxSize →
      orderOf sdk hl d.value = .ok orderRequest → Next ds d
  | grouping (g : Grouping) : d.tag = tagGrouping → tagGrouping ∉ ds.map TlvData.tag →
      groupingOf sdk d = some g → Next ds d
  | builder (c : BuilderInfoCtx) : d.tag = tagBuilder → tagBuilder ∉ ds.map TlvData.tag →
      parseBuilderInfo sdk d.value {} = .ok c → Next ds d

variable {sdk hl}

theorem hasRead_nil : HasRead sdk hl [] {} where
  received := rfl
  known := by simp
  orders := readAs_nil
  grouping := .inl ⟨rfl, trivial⟩
  builder := .inl ⟨rfl, rfl, rfl⟩

variable {ds : List TlvData} {d : TlvData} {s s' : BulkOrderCtx}

/-- A tag that was not received has no element yet. -/
theorem HasRead.new (hs : HasRead sdk hl ds s) {t : Nat} :
    t ∉ TlvContext.receivedTags s ↔ t ∉ ds.map TlvData.tag := by
  have hreceived : TlvContext.receivedTags s = (ds.map TlvData.tag).reverse := hs.received
  rw [hreceived, List.mem_reverse]

/-- The builder's own context is the wiped one until its element is read. -/
theorem HasRead.builder_fresh (hs : HasRead sdk hl ds s) (hnew : tagBuilder ∉ ds.map TlvData.tag) :
    ({ s.builderInfoCtx with builderInfo := s.bulkOrder.builder.getD {} } : BuilderInfoCtx) =
      {} := by
  obtain ⟨hnone, hctx⟩ := hs.builder.absent hnew
  rw [hnone, hctx]
  rfl

/-- An element that was accepted was one that may come, and it was read. -/
theorem hasRead_step (hs : HasRead sdk hl ds s)
    (h : (bulkOrderTlvParser sdk hl).step s d = .ok s') :
    Next sdk hl ds d ∧ HasRead sdk hl (ds ++ [d]) s' := by
  obtain ⟨row, hrow, htag, huniq, s₁, hc, hh⟩ := TlvParser.step_ok h
  cases hc
  have hreceived : d.tag :: s.receivedTags = ((ds ++ [d]).map TlvData.tag).reverse := by
    rw [hs.received]
    simp
  have hknown : d.tag ∈ [tagOrder, tagGrouping, tagBuilder] →
      ∀ x ∈ ds ++ [d], x.tag ∈ [tagOrder, tagGrouping, tagBuilder] := fun hd =>
    List.forall_mem_append.mpr ⟨hs.known, by simpa using hd⟩
  simp only [bulkOrderTlvParser, List.mem_cons, List.not_mem_nil, or_false] at hrow
  rcases hrow with rfl | rfl | rfl
  · dsimp only at htag hh
    obtain ⟨o, hlt, hget, rfl⟩ := pushing_ok hh
    have hcount : s.bulkOrder.orders.count < bulkMaxSize := hlt
    have hread : orderOf sdk hl d.value = .ok o := hget
    refine ⟨.order o htag.symm (hs.orders.count ▸ hcount) hread, hreceived, ?_, ?_, ?_, ?_⟩
    · exact hknown (by simp [← htag])
    · exact hs.orders.concat_same htag.symm hlt hread
    · exact hs.grouping.concat_other (by rw [← htag]; decide)
    · exact hs.builder.concat_other (by rw [← htag]; decide)
  · dsimp only at htag huniq hh
    have hnew : tagGrouping ∉ ds.map TlvData.tag := htag ▸ hs.new.mp (huniq rfl)
    simp only [handleGrouping, storing_ok] at hh
    obtain ⟨g, hg, rfl⟩ := hh
    refine ⟨.grouping g htag.symm hnew hg, hreceived, ?_, ?_, ?_, ?_⟩
    · exact hknown (by simp [← htag])
    · exact hs.orders.concat_other (by rw [← htag]; decide)
    · exact Once.concat_same hnew htag.symm hg
    · exact hs.builder.concat_other (by rw [← htag]; decide)
  · dsimp only at htag huniq hh
    have hnew : tagBuilder ∉ ds.map TlvData.tag := htag ▸ hs.new.mp (huniq rfl)
    obtain ⟨c, hc, hout⟩ := bind_ok_iff.mp hh
    have hparse : parseBuilderInfo sdk d.value {} = .ok c := hs.builder_fresh hnew ▸ hc
    cases hout
    refine ⟨.builder c htag.symm hnew hparse, hreceived, ?_, ?_, ?_, ?_⟩
    · exact hknown (by simp [← htag])
    · exact hs.orders.concat_other (by rw [← htag]; decide)
    · exact hs.grouping.concat_other (by rw [← htag]; decide)
    · exact Once.concat_same hnew htag.symm ⟨c, hparse, rfl⟩

/-- What may come is accepted. -/
theorem step_of_next (hs : HasRead sdk hl ds s) (h : Next sdk hl ds d) :
    ∃ s', (bulkOrderTlvParser sdk hl).step s d = .ok s' := by
  cases h with
  | order o htag hcount hread =>
    have hlt : s.bulkOrder.orders.count < bulkMaxSize := hs.orders.count ▸ hcount
    exact ⟨_, (TlvParser.step_ok_iff rfl (by rw [htag]; rfl)).mpr
      ⟨by simp, pushing_ok_iff.mpr ⟨o, hlt, hread, rfl⟩⟩⟩
  | grouping g htag hnew hg =>
    exact ⟨_, (TlvParser.step_ok_iff rfl (by rw [htag]; rfl)).mpr
      ⟨fun _ => htag ▸ hs.new.mpr hnew, storing_ok.mpr ⟨g, hg, rfl⟩⟩⟩
  | builder c htag hnew hparse =>
    rw [← hs.builder_fresh hnew] at hparse
    have hhandle : ∃ s', handleBuilder sdk d (TlvContext.receive d.tag s) = .ok s' :=
      ⟨_, bind_ok_iff.mpr ⟨c, hparse, rfl⟩⟩
    obtain ⟨s', hs'⟩ := hhandle
    exact ⟨s', (TlvParser.step_ok_iff rfl (by rw [htag]; rfl)).mpr
      ⟨fun _ => htag ▸ hs.new.mpr hnew, hs'⟩⟩

/-- An element is accepted exactly when it may come. -/
theorem step_iff (hs : HasRead sdk hl ds s) :
    (∃ s', (bulkOrderTlvParser sdk hl).step s d = .ok s') ↔ Next sdk hl ds d := by
  constructor
  · rintro ⟨s', h⟩
    exact (hasRead_step hs h).1
  · intro h
    exact step_of_next hs h

variable (sdk hl ds) in
/-- The sequences of elements that are a bulk order. -/
structure Accepts : Prop where
  count_pos : 1 ≤ (occurrences tagOrder ds).length
  count_le : (occurrences tagOrder ds).length ≤ bulkMaxSize
  orders : ∀ d ∈ occurrences tagOrder ds, ∃ c, parseOrderRequest sdk hl d.value {} = .ok c
  grouping : ∃ d g, occurrences tagGrouping ds = [d] ∧ groupingOf sdk d = some g
  builder : occurrences tagBuilder ds = [] ∨
    ∃ d c, occurrences tagBuilder ds = [d] ∧ parseBuilderInfo sdk d.value {} = .ok c
  known : ∀ d ∈ ds, d.tag ∈ [tagOrder, tagGrouping, tagBuilder]

/-- The final check on what was read. -/
theorem HasRead.verify_iff (hs : HasRead sdk hl ds s) :
    verifyBulkOrder s = .ok () ↔
      tagOrder ∈ ds.map TlvData.tag ∧ tagGrouping ∈ ds.map TlvData.tag := by
  unfold verifyBulkOrder
  rw [requireTags_ok, hs.received]
  simp

/-- After a complete payload. -/
theorem HasRead.accepts (hs : HasRead sdk hl ds s) (hverify : verifyBulkOrder s = .ok ()) :
    Accepts sdk hl ds := by
  obtain ⟨horder, hgrouping⟩ := hs.verify_iff.mp hverify
  refine ⟨List.length_pos_iff.mpr (mem_tags_iff.mp horder), ?_, ?_, ?_, ?_, hs.known⟩
  · rw [← hs.orders.count]
    exact s.bulkOrder.orders.bound
  · intro d hd
    obtain ⟨o, ho⟩ := hs.orders.readable d hd
    obtain ⟨c, hc, -⟩ := bind_return_ok_iff.mp ho
    exact ⟨c, hc⟩
  · obtain ⟨d, hd, hg⟩ := hs.grouping.present hgrouping
    exact ⟨d, _, hd, hg⟩
  · rcases hs.builder with ⟨hnil, -⟩ | ⟨d, hd, c, hc, -⟩
    · exact .inl hnil
    · exact .inr ⟨d, c, hd, hc⟩

/-- In an accepted sequence each element may come after those before it. -/
theorem Accepts.next (h : Accepts sdk hl ds) {l r : List TlvData} (hsplit : ds = l ++ d :: r) :
    Next sdk hl l d := by
  have hmem : d ∈ ds := by
    rw [hsplit]
    simp
  have htag := h.known d hmem
  simp only [List.mem_cons, List.not_mem_nil, or_false] at htag
  rcases htag with htag | htag | htag
  · obtain ⟨c, hc⟩ := h.orders d (mem_occurrences.mpr ⟨hmem, htag⟩)
    refine .order c.orderRequest htag ?_ (bind_return_ok_iff.mpr ⟨c, hc, rfl⟩)
    have hle := h.count_le
    rw [hsplit, occurrences_split htag, List.length_append, List.length_cons] at hle
    omega
  · obtain ⟨x, g, hx, hg⟩ := h.grouping
    rw [hsplit] at hx
    obtain ⟨hnew, rfl⟩ := not_mem_tags_of_single htag hx
    exact .grouping g htag hnew hg
  · rcases h.builder with hnil | ⟨x, c, hx, hc⟩
    · rw [hsplit, occurrences_split htag] at hnil
      simp at hnil
    · rw [hsplit] at hx
      obtain ⟨hnew, rfl⟩ := not_mem_tags_of_single htag hx
      exact .builder c htag hnew hc

variable (hl) in
/-- `parse_bulk_order` on a payload that splits into these elements. -/
theorem parse_iff {payload : Bytes} (hds : sdk.tlvDecode payload = some ds) :
    ((∃ out, parseBulkOrder sdk hl payload {} = .ok out) ↔ Accepts sdk hl ds) ∧
      ∀ out, parseBulkOrder sdk hl payload {} = .ok out → HasRead sdk hl ds out := by
  have hread : ∀ out, (bulkOrderTlvParser sdk hl).parseElements ds {} = .ok out →
      HasRead sdk hl ds out := fun out hout =>
    TlvParser.parseElements_inv (P := HasRead sdk hl)
      (fun pre d s s' hs h => (hasRead_step hs h).2) ds [] {} out hasRead_nil hout
  have helements : ∀ out, parseBulkOrder sdk hl payload {} = .ok out ↔
      (bulkOrderTlvParser sdk hl).parseElements ds {} = .ok out ∧
        verifyBulkOrder out = .ok () := by
    intro out
    unfold parseBulkOrder
    rw [TlvParser.parseVerified_elements hds]
  refine ⟨⟨?_, ?_⟩, fun out hout => hread out ((helements out).mp hout).1⟩
  · rintro ⟨out, hout⟩
    obtain ⟨hp, hverify⟩ := (helements out).mp hout
    exact (hread out hp).accepts hverify
  · intro h
    obtain ⟨out, hout⟩ := (TlvParser.parseElements_iff (P := HasRead sdk hl) (Q := Next sdk hl)
      (fun pre d s hs => step_iff hs)
      (fun pre d s s' hs hd => (hasRead_step hs hd).2) ds [] {} hasRead_nil).mpr
      (fun l d r hsplit => by rw [List.nil_append]; exact h.next hsplit)
    refine ⟨out, (helements out).mpr ⟨hout, (hread out hout).verify_iff.mpr ⟨?_, ?_⟩⟩⟩
    · exact mem_tags_iff.mpr (List.ne_nil_of_length_pos h.count_pos)
    · obtain ⟨d, g, hd, -⟩ := h.grouping
      rw [mem_tags_iff, hd]
      simp

end

end BulkOrder

/-! ## 2. bulk_modify.c -/

namespace BulkModify

section

variable (sdk : Sdk) (hl : HlContext)

/-- The context after these elements of a modify request. -/
structure HasRead (ds : List TlvData) (s : ModifyRequestCtx) : Prop where
  received : s.receivedTags = (ds.map TlvData.tag).reverse
  known : ∀ d ∈ ds, d.tag ∈ [tagOrder, tagOid]
  order : Once tagOrder
    (fun d => ∃ c, parseOrderRequest sdk hl d.value {} = .ok c ∧
      s.modifyRequest.order = c.orderRequest)
    (s.modifyRequest.order = {} ∧ s.orderCtx = {}) ds
  oid : Once tagOid (fun d => sdk.getUint64TFromTlvData d = some s.modifyRequest.oid) True ds

/-- What may come after these elements. -/
inductive Next (ds : List TlvData) (d : TlvData) : Prop where
  | order (c : OrderRequest.OrderRequestCtx) : d.tag = tagOrder → tagOrder ∉ ds.map TlvData.tag →
      parseOrderRequest sdk hl d.value {} = .ok c → Next ds d
  | oid (oid : UInt64) : d.tag = tagOid → tagOid ∉ ds.map TlvData.tag →
      sdk.getUint64TFromTlvData d = some oid → Next ds d

variable {sdk hl}

theorem hasRead_nil : HasRead sdk hl [] {} where
  received := rfl
  known := by simp
  order := .inl ⟨rfl, rfl, rfl⟩
  oid := .inl ⟨rfl, trivial⟩

variable {ds : List TlvData} {d : TlvData} {s s' : ModifyRequestCtx}

theorem HasRead.new (hs : HasRead sdk hl ds s) {t : Nat} :
    t ∉ TlvContext.receivedTags s ↔ t ∉ ds.map TlvData.tag := by
  have hreceived : TlvContext.receivedTags s = (ds.map TlvData.tag).reverse := hs.received
  rw [hreceived, List.mem_reverse]

/-- The order's own context is the wiped one until its element is read. -/
theorem HasRead.order_fresh (hs : HasRead sdk hl ds s) (hnew : tagOrder ∉ ds.map TlvData.tag) :
    ({ s.orderCtx with orderRequest := s.modifyRequest.order } :
      OrderRequest.OrderRequestCtx) = {} := by
  obtain ⟨hzero, hctx⟩ := hs.order.absent hnew
  rw [hzero, hctx]

/-- An element that was accepted was one that may come, and it was read. -/
theorem hasRead_step (hs : HasRead sdk hl ds s)
    (h : (modifyRequestTlvParser sdk hl).step s d = .ok s') :
    Next sdk hl ds d ∧ HasRead sdk hl (ds ++ [d]) s' := by
  obtain ⟨row, hrow, htag, huniq, s₁, hc, hh⟩ := TlvParser.step_ok h
  cases hc
  have hreceived : d.tag :: s.receivedTags = ((ds ++ [d]).map TlvData.tag).reverse := by
    rw [hs.received]
    simp
  have hknown : d.tag ∈ [tagOrder, tagOid] → ∀ x ∈ ds ++ [d], x.tag ∈ [tagOrder, tagOid] :=
    fun hd => List.forall_mem_append.mpr ⟨hs.known, by simpa using hd⟩
  simp only [modifyRequestTlvParser, List.mem_cons, List.not_mem_nil, or_false] at hrow
  rcases hrow with rfl | rfl
  · dsimp only at htag huniq hh
    have hnew : tagOrder ∉ ds.map TlvData.tag := htag ▸ hs.new.mp (huniq rfl)
    obtain ⟨c, hc, hout⟩ := bind_ok_iff.mp hh
    have hparse : parseOrderRequest sdk hl d.value {} = .ok c := hs.order_fresh hnew ▸ hc
    cases hout
    refine ⟨.order c htag.symm hnew hparse, hreceived, ?_, ?_, ?_⟩
    · exact hknown (by simp [← htag])
    · exact Once.concat_same hnew htag.symm ⟨c, hparse, rfl⟩
    · exact hs.oid.concat_other (by rw [← htag]; decide)
  · dsimp only at htag huniq hh
    have hnew : tagOid ∉ ds.map TlvData.tag := htag ▸ hs.new.mp (huniq rfl)
    simp only [handleOid, storing_ok] at hh
    obtain ⟨oid, hoid, rfl⟩ := hh
    refine ⟨.oid oid htag.symm hnew hoid, hreceived, ?_, ?_, ?_⟩
    · exact hknown (by simp [← htag])
    · exact hs.order.concat_other (by rw [← htag]; decide)
    · exact Once.concat_same hnew htag.symm hoid

/-- What may come is accepted. -/
theorem step_of_next (hs : HasRead sdk hl ds s) (h : Next sdk hl ds d) :
    ∃ s', (modifyRequestTlvParser sdk hl).step s d = .ok s' := by
  cases h with
  | order c htag hnew hparse =>
    rw [← hs.order_fresh hnew] at hparse
    have hhandle : ∃ s', handleOrder sdk hl d (TlvContext.receive d.tag s) = .ok s' :=
      ⟨_, bind_ok_iff.mpr ⟨c, hparse, rfl⟩⟩
    obtain ⟨s', hs'⟩ := hhandle
    exact ⟨s', (TlvParser.step_ok_iff rfl (by rw [htag]; rfl)).mpr
      ⟨fun _ => htag ▸ hs.new.mpr hnew, hs'⟩⟩
  | oid oid htag hnew hoid =>
    exact ⟨_, (TlvParser.step_ok_iff rfl (by rw [htag]; rfl)).mpr
      ⟨fun _ => htag ▸ hs.new.mpr hnew, storing_ok.mpr ⟨oid, hoid, rfl⟩⟩⟩

/-- An element is accepted exactly when it may come. -/
theorem step_iff (hs : HasRead sdk hl ds s) :
    (∃ s', (modifyRequestTlvParser sdk hl).step s d = .ok s') ↔ Next sdk hl ds d := by
  constructor
  · rintro ⟨s', h⟩
    exact (hasRead_step hs h).1
  · intro h
    exact step_of_next hs h

variable (sdk hl ds) in
/-- The elements are one order, with what it reads as alone, and one order id. -/
structure IsRequest (m : ModifyRequest) : Prop where
  order : ∃ d c, occurrences tagOrder ds = [d] ∧ parseOrderRequest sdk hl d.value {} = .ok c ∧
    m.order = c.orderRequest
  oid : ∃ d, occurrences tagOid ds = [d] ∧ sdk.getUint64TFromTlvData d = some m.oid
  known : ∀ d ∈ ds, d.tag ∈ [tagOrder, tagOid]

/-- After a complete payload. -/
theorem HasRead.isRequest (hs : HasRead sdk hl ds s) (hverify : verifyModifyRequest s = .ok ()) :
    IsRequest sdk hl ds s.modifyRequest := by
  unfold verifyModifyRequest at hverify
  rw [requireTags_ok, hs.received] at hverify
  simp only [List.mem_reverse] at hverify
  refine ⟨?_, ?_, hs.known⟩
  · obtain ⟨d, hd, c, hc, ho⟩ := hs.order.present (hverify _ (by simp))
    exact ⟨d, c, hd, hc, ho⟩
  · exact hs.oid.present (hverify _ (by simp))

/-- In a complete request each element may come after those before it. -/
theorem IsRequest.next {m : ModifyRequest} (h : IsRequest sdk hl ds m) {l r : List TlvData}
    (hsplit : ds = l ++ d :: r) : Next sdk hl l d := by
  have htag := h.known d (by rw [hsplit]; simp)
  simp only [List.mem_cons, List.not_mem_nil, or_false] at htag
  rcases htag with htag | htag
  · obtain ⟨x, c, hx, hc, -⟩ := h.order
    rw [hsplit] at hx
    obtain ⟨hnew, rfl⟩ := not_mem_tags_of_single htag hx
    exact .order c htag hnew hc
  · obtain ⟨x, hx, hoid⟩ := h.oid
    rw [hsplit] at hx
    obtain ⟨hnew, rfl⟩ := not_mem_tags_of_single htag hx
    exact .oid m.oid htag hnew hoid

/-- There is one request that the elements can be. -/
theorem IsRequest.unique {m m' : ModifyRequest} (h : IsRequest sdk hl ds m)
    (h' : IsRequest sdk hl ds m') : m = m' := by
  obtain ⟨d, c, hd, hc, ho⟩ := h.order
  obtain ⟨d', c', hd', hc', ho'⟩ := h'.order
  obtain ⟨e, he, hoid⟩ := h.oid
  obtain ⟨e', he', hoid'⟩ := h'.oid
  rw [hd] at hd'
  rw [he] at he'
  cases hd'
  cases he'
  cases hc.symm.trans hc'
  cases m
  cases m'
  cases hoid.symm.trans hoid'
  dsimp only at ho ho'
  rw [ho, ho']

variable (hl) in
/-- `parse_modify_request` on a payload that splits into these elements. -/
theorem parseModifyRequest_iff {payload : Bytes} (hds : sdk.tlvDecode payload = some ds)
    (m : ModifyRequest) :
    (∃ c, parseModifyRequest sdk hl payload {} = .ok c ∧ c.modifyRequest = m) ↔
      IsRequest sdk hl ds m := by
  have helements : ∀ out, parseModifyRequest sdk hl payload {} = .ok out ↔
      (modifyRequestTlvParser sdk hl).parseElements ds {} = .ok out ∧
        verifyModifyRequest out = .ok () := by
    intro out
    unfold parseModifyRequest
    rw [TlvParser.parseVerified_elements hds]
  have hread : ∀ out, (modifyRequestTlvParser sdk hl).parseElements ds {} = .ok out →
      HasRead sdk hl ds out := fun out hout =>
    TlvParser.parseElements_inv (P := HasRead sdk hl)
      (fun pre d s s' hs h => (hasRead_step hs h).2) ds [] {} out hasRead_nil hout
  constructor
  · rintro ⟨c, hc, rfl⟩
    obtain ⟨hp, hverify⟩ := (helements c).mp hc
    exact (hread c hp).isRequest hverify
  · intro h
    obtain ⟨c, hc⟩ := (TlvParser.parseElements_iff (P := HasRead sdk hl) (Q := Next sdk hl)
      (fun pre d s hs => step_iff hs)
      (fun pre d s s' hs hd => (hasRead_step hs hd).2) ds [] {} hasRead_nil).mpr
      (fun l d r hsplit => by rw [List.nil_append]; exact h.next hsplit)
    have hverify : verifyModifyRequest c = .ok () := by
      obtain ⟨d, c', hd, -⟩ := h.order
      obtain ⟨e, he, -⟩ := h.oid
      have horder : tagOrder ∈ ds.map TlvData.tag := by
        rw [mem_tags_iff, hd]
        simp
      have hoid : tagOid ∈ ds.map TlvData.tag := by
        rw [mem_tags_iff, he]
        simp
      unfold verifyModifyRequest
      rw [requireTags_ok, (hread c hc).received]
      simpa using ⟨List.mem_map.mp horder, List.mem_map.mp hoid⟩
    exact ⟨c, (helements c).mpr ⟨hc, hverify⟩, ((hread c hc).isRequest hverify).unique h⟩

end

section

variable (sdk : Sdk) (hl : HlContext)

/-- A modify request alone. -/
def modifyRequestOf (value : Bytes) : Except Failure ModifyRequest := do
  let modifyRequestCtx ← parseModifyRequest sdk hl value {}
  .ok modifyRequestCtx.modifyRequest

theorem bulkModifyTlvParser_parsesArray :
    (bulkModifyTlvParser sdk hl).ParsesArray tagModifyRequest (modifyRequestOf sdk hl)
      (fun out => out.bulkModify.modifies)
      fun modifies out =>
        { out with bulkModify := { out.bulkModify with modifies := modifies } } where
  tags := rfl
  common := rfl
  arr_set _ _ := rfl
  arr_receive _ _ := rfl
  received_set _ _ := rfl
  received_receive _ _ := rfl

/-- `parse_bulk_modify` on a payload that splits into these elements. -/
theorem parse_iff {payload : Bytes} {ds : List TlvData} (hds : sdk.tlvDecode payload = some ds) :
    ((∃ out, parseBulkModify sdk hl payload {} = .ok out) ↔
      ArrayOf tagModifyRequest bulkMaxSize (fun v => ∃ m, modifyRequestOf sdk hl v = .ok m) ds) ∧
      ∀ out, parseBulkModify sdk hl payload {} = .ok out →
        ReadAs (modifyRequestOf sdk hl) tagModifyRequest ds out.bulkModify.modifies :=
  (bulkModifyTlvParser_parsesArray sdk hl).parseVerified_iff hds ⟨rfl, by simp, readAs_nil⟩

end

end BulkModify

/-! ## 3. bulk_cancel.c -/

namespace BulkCancel

section

variable (sdk : Sdk) (hl : HlContext)

/-- A cancel request alone. -/
def cancelRequestOf (value : Bytes) : Except Failure CancelRequest := do
  let cancelRequestCtx ← parseCancelRequest sdk hl value {}
  .ok cancelRequestCtx.cancelRequest

theorem bulkCancelTlvParser_parsesArray :
    (bulkCancelTlvParser sdk hl).ParsesArray tagCancelRequest (cancelRequestOf sdk hl)
      (fun out => out.bulkCancel.cancels)
      fun cancels out =>
        { out with bulkCancel := { out.bulkCancel with cancels := cancels } } where
  tags := rfl
  common := rfl
  arr_set _ _ := rfl
  arr_receive _ _ := rfl
  received_set _ _ := rfl
  received_receive _ _ := rfl

/-- `parse_bulk_cancel` on a payload that splits into these elements. -/
theorem parse_iff {payload : Bytes} {ds : List TlvData} (hds : sdk.tlvDecode payload = some ds) :
    ((∃ out, parseBulkCancel sdk hl payload {} = .ok out) ↔
      ArrayOf tagCancelRequest bulkMaxSize (fun v => ∃ c, cancelRequestOf sdk hl v = .ok c) ds) ∧
      ∀ out, parseBulkCancel sdk hl payload {} = .ok out →
        ReadAs (cancelRequestOf sdk hl) tagCancelRequest ds out.bulkCancel.cancels :=
  (bulkCancelTlvParser_parsesArray sdk hl).parseVerified_iff hds ⟨rfl, by simp, readAs_nil⟩

end

end BulkCancel

/-! ## 4. The parsers in memory -/

section

variable (sdk : Sdk) (hl : HlContext)

/-- What `parse_bulk_order` leaves in its target. -/
structure BulkOrder.Result (ds : List TlvData) (bulkOrder : InPlace.BulkOrder) : Prop where
  orders : ElementWise (fun value => parseOrderRequest sdk hl value {})
    (fun orderCtx => orderCtx.orderRequest) (occurrences tagOrder ds) bulkOrder.orders
  grouping : ∃ d, occurrences tagGrouping ds = [d] ∧ groupingOf sdk d = some bulkOrder.grouping
  builder : (occurrences tagBuilder ds = [] ∧ bulkOrder.builder = none) ∨
    ∃ d c, occurrences tagBuilder ds = [d] ∧ parseBuilderInfo sdk d.value {} = .ok c ∧
      bulkOrder.builder = some c.builderInfo

variable {sdk hl} {ds : List TlvData}

/-- The context in memory, after a complete payload. -/
theorem BulkOrder.HasRead.result {t : BulkOrder.BulkOrderCtx} (ht : HasRead sdk hl ds t)
    (h : Accepts sdk hl ds) {s : InPlace.BulkOrderCtx} (hs : s.Holds t) :
    Result sdk hl ds s.bulkOrder := by
  refine ⟨ht.orders.elementWise hs.orders, ?_, ?_⟩
  · obtain ⟨d, g, hd, -⟩ := h.grouping
    rw [hs.grouping]
    refine ht.grouping.present ?_
    rw [mem_tags_iff, hd]
    simp
  · rw [hs.builder]
    rcases ht.builder with ⟨hnil, hnone, -⟩ | ⟨d, hd, c, hc, hbuilder⟩
    · exact .inl ⟨hnil, hnone⟩
    · exact .inr ⟨d, c, hd, hc, hbuilder⟩

variable (hl) in
theorem InPlace.parseBulkOrder_iff {payload : Bytes} (hds : sdk.tlvDecode payload = some ds) :
    ((∃ out, InPlace.parseBulkOrder sdk hl payload {} = .ok out) ↔
      Hyperliquid.BulkOrder.Accepts sdk hl ds) ∧
      ∀ out, InPlace.parseBulkOrder sdk hl payload {} = .ok out →
        Hyperliquid.BulkOrder.Result sdk hl ds out.bulkOrder := by
  obtain ⟨hiff, hread⟩ := Hyperliquid.BulkOrder.parse_iff hl hds
  have hagree := InPlace.parseBulkOrder_agrees sdk hl payload
  refine ⟨hagree.exists_ok_iff.trans hiff, ?_⟩
  intro out hout
  obtain ⟨t, ht, hholds⟩ := hagree.of_ok hout
  exact (hread t ht).result (hiff.mp ⟨t, ht⟩) hholds

/-- A modify request alone is read from its two elements. -/
theorem BulkModify.modifyRequestOf_iff {value : Bytes} {m : ModifyRequest} :
    modifyRequestOf sdk hl value = .ok m ↔
      ∃ es, sdk.tlvDecode value = some es ∧ IsRequest sdk hl es m := by
  unfold modifyRequestOf
  rw [bind_return_ok_iff]
  cases hes : sdk.tlvDecode value with
  | none =>
    have hfail : ∀ c, parseModifyRequest sdk hl value {} ≠ .ok c := by
      intro c hc
      obtain ⟨hparse, -⟩ := TlvParser.parseVerified_ok.mp hc
      unfold TlvParser.parse at hparse
      rw [hes] at hparse
      cases hparse
    constructor
    · rintro ⟨c, hc, -⟩
      exact absurd hc (hfail c)
    · rintro ⟨es, h, -⟩
      cases h
  | some es =>
    have hiff := parseModifyRequest_iff hl hes m
    constructor
    · rintro ⟨c, hc, rfl⟩
      exact ⟨es, rfl, (parseModifyRequest_iff hl hes _).mp ⟨c, hc, rfl⟩⟩
    · rintro ⟨es', h, hm⟩
      cases h
      obtain ⟨c, hc, hcm⟩ := hiff.mpr hm
      exact ⟨c, hc, hcm.symm⟩

/-- What `parse_bulk_modify` leaves in its target: modify requests, each read alone. -/
structure BulkModify.Result (sdk : Sdk) (hl : HlContext) (ds : List TlvData)
    (bulkModify : InPlace.BulkModify) : Prop where
  modifies : ElementWise (fun value => parseModifyRequest sdk hl value {})
    (fun modifyRequestCtx => modifyRequestCtx.modifyRequest) ds bulkModify.modifies
  requests : ∀ i d, ds[i]? = some d → ∃ es m, sdk.tlvDecode d.value = some es ∧
    IsRequest sdk hl es m ∧ bulkModify.modifies.used? i = some m

variable (hl) in
theorem InPlace.parseBulkModify_iff {payload : Bytes} (hds : sdk.tlvDecode payload = some ds) :
    ((∃ out, InPlace.parseBulkModify sdk hl payload {} = .ok out) ↔
      ArrayOf Hyperliquid.BulkModify.tagModifyRequest bulkMaxSize (fun v => ∃ es m,
        sdk.tlvDecode v = some es ∧ Hyperliquid.BulkModify.IsRequest sdk hl es m) ds) ∧
      ∀ out, InPlace.parseBulkModify sdk hl payload {} = .ok out →
        Hyperliquid.BulkModify.Result sdk hl ds out.bulkModify := by
  obtain ⟨hiff, hread⟩ := Hyperliquid.BulkModify.parse_iff sdk hl hds
  have hagree := InPlace.parseBulkModify_agrees sdk hl payload
  have haccept : ∀ v, (∃ m, Hyperliquid.BulkModify.modifyRequestOf sdk hl v = .ok m) ↔
      ∃ es m, sdk.tlvDecode v = some es ∧ Hyperliquid.BulkModify.IsRequest sdk hl es m := by
    intro v
    simp only [BulkModify.modifyRequestOf_iff]
    exact exists_comm
  simp only [haccept] at hiff
  refine ⟨hagree.exists_ok_iff.trans hiff, ?_⟩
  intro out hout
  obtain ⟨t, ht, hholds⟩ := hagree.of_ok hout
  have hself := occurrences_eq_self (hiff.mp ⟨t, ht⟩).known
  have helems := (hread t ht).elementWise hholds.modifies
  rw [hself] at helems
  refine ⟨helems, ?_⟩
  intro i d hd
  obtain ⟨c, hc, hi⟩ := helems.elems i d hd
  obtain ⟨es, hes, hm⟩ := BulkModify.modifyRequestOf_iff.mp (bind_return_ok_iff.mpr ⟨c, hc, rfl⟩)
  exact ⟨es, _, hes, hm, hi⟩

variable (hl) in
theorem InPlace.parseBulkCancel_iff {payload : Bytes} (hds : sdk.tlvDecode payload = some ds) :
    ((∃ out, InPlace.parseBulkCancel sdk hl payload {} = .ok out) ↔
      ArrayOf Hyperliquid.BulkCancel.tagCancelRequest bulkMaxSize (fun v => ∃ c,
        Hyperliquid.BulkCancel.parseCancelRequest sdk hl v {} = .ok c) ds) ∧
      ∀ out, InPlace.parseBulkCancel sdk hl payload {} = .ok out →
        ElementWise (fun value => Hyperliquid.BulkCancel.parseCancelRequest sdk hl value {})
          (fun cancelRequestCtx => cancelRequestCtx.cancelRequest) ds out.bulkCancel.cancels := by
  obtain ⟨hiff, hread⟩ := Hyperliquid.BulkCancel.parse_iff sdk hl hds
  have hagree := InPlace.parseBulkCancel_agrees sdk hl payload
  have haccept : ∀ v, (∃ m, Hyperliquid.BulkCancel.cancelRequestOf sdk hl v = .ok m) ↔
      ∃ c, Hyperliquid.BulkCancel.parseCancelRequest sdk hl v {} = .ok c :=
    fun v => exists_bind_return_ok_iff
  simp only [haccept] at hiff
  refine ⟨hagree.exists_ok_iff.trans hiff, ?_⟩
  intro out hout
  obtain ⟨t, ht, hholds⟩ := hagree.of_ok hout
  have helems := (hread t ht).elementWise hholds.cancels
  rwa [occurrences_eq_self (hiff.mp ⟨t, ht⟩).known] at helems

end

/-- The three bulk parsers are element-wise: which payloads they accept, and what they leave in
the slots of their target. -/
theorem bulkParsing_elementWise (sdk : Sdk) (hl : HlContext) (payload : Bytes)
    (ds : List TlvData) (hds : sdk.tlvDecode payload = some ds) :
    ((∃ out, InPlace.parseBulkOrder sdk hl payload {} = .ok out) ↔
        BulkOrder.Accepts sdk hl ds) ∧
      (∀ out, InPlace.parseBulkOrder sdk hl payload {} = .ok out →
        BulkOrder.Result sdk hl ds out.bulkOrder) ∧
      ((∃ out, InPlace.parseBulkModify sdk hl payload {} = .ok out) ↔
        ArrayOf BulkModify.tagModifyRequest bulkMaxSize (fun v => ∃ es m,
          sdk.tlvDecode v = some es ∧ BulkModify.IsRequest sdk hl es m) ds) ∧
      (∀ out, InPlace.parseBulkModify sdk hl payload {} = .ok out →
        BulkModify.Result sdk hl ds out.bulkModify) ∧
      ((∃ out, InPlace.parseBulkCancel sdk hl payload {} = .ok out) ↔
        ArrayOf BulkCancel.tagCancelRequest bulkMaxSize (fun v => ∃ c,
          BulkCancel.parseCancelRequest sdk hl v {} = .ok c) ds) ∧
      ∀ out, InPlace.parseBulkCancel sdk hl payload {} = .ok out →
        ElementWise (fun value => BulkCancel.parseCancelRequest sdk hl value {})
          (fun cancelRequestCtx => cancelRequestCtx.cancelRequest) ds out.bulkCancel.cancels := by
  obtain ⟨horderIff, horder⟩ := InPlace.parseBulkOrder_iff hl hds
  obtain ⟨hmodifyIff, hmodify⟩ := InPlace.parseBulkModify_iff hl hds
  obtain ⟨hcancelIff, hcancel⟩ := InPlace.parseBulkCancel_iff hl hds
  exact ⟨horderIff, horder, hmodifyIff, hmodify, hcancelIff, hcancel⟩

/-- A trigger that closes, and then a limit order that opens. -/
def mixedOrders : List OrderRequest :=
  [Client.triggerRequest false .tp "2276.3" "0.0072",
   Client.limitRequest true false .gtc "1973.7" "0.0072"]

theorem bulkParsing_elementWise_mixedOrders :
    ∃ payload ds hl out, Client.sdk.tlvDecode payload = some ds ∧
      InPlace.parseBulkOrder Client.sdk hl payload {} = .ok out ∧
      BulkOrder.Accepts Client.sdk hl ds ∧ BulkOrder.Result Client.sdk hl ds out.bulkOrder ∧
      out.bulkOrder.orders.used? 0 = mixedOrders[0]? ∧
      out.bulkOrder.orders.used? 1 = mixedOrders[1]? := by
  let payload := Client.bulkOrder { orders := Client.bulk mixedOrders }
  let hl : HlContext := { metadata := some (Client.ethMetadata .order) }
  have hrun : ((InPlace.parseBulkOrder Client.sdk hl payload {}).toOption.map fun out =>
      (out.bulkOrder.orders.used? 0, out.bulkOrder.orders.used? 1)) =
      some (mixedOrders[0]?, mixedOrders[1]?) := by decide +kernel
  have hdecode : (Client.sdk.tlvDecode payload).isSome = true := by decide +kernel
  obtain ⟨ds, hds⟩ := Option.isSome_iff_exists.mp hdecode
  obtain ⟨hiff, hresult, -⟩ := bulkParsing_elementWise Client.sdk hl payload ds hds
  generalize hparse : InPlace.parseBulkOrder Client.sdk hl payload {} = r at hrun hiff hresult
  cases r with
  | error e => cases hrun
  | ok out =>
    obtain ⟨hfirst, hsecond⟩ := Prod.mk.inj (Option.some.inj hrun)
    exact ⟨payload, ds, hl, out, hds, hparse, hiff.mp ⟨out, rfl⟩, hresult out rfl, hfirst,
      hsecond⟩

end Hyperliquid

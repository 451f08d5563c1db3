/-
# An action from the client into the session

`_send_chunked` puts the length of the payload in front of it and cuts the whole into chunks of
255 bytes.  Chunk by chunk, the application collects the payload (`runFrom_following`), answers
each with success, and stores the action with the last one.  Together with what the parsers read
back this is the agreement of the two sides (`client_application_agree`): a value that the
specification allows is stored as it was sent, from every state in which it may be stored.

The surroundings of each command are arbitrary, as long as responses can be sent.
-/
import Hyperliquid.ActionRoundTrip
import Hyperliquid.SessionProgress

namespace Hyperliquid.Client

open Lib Lib.Msgpack

/-! ## 1. The client's SDK reads what the client writes -/

theorem derDecode_derEncode {n : Nat} (h : n < 2 ^ 32) (rest : Bytes) :
    derDecode (derEncode n ++ rest) = some (n, rest) := by
  unfold derEncode
  split
  · rename_i hshort
    have hn : (UInt8.ofNat n).toNat = n := by
      rw [UInt8.toNat_ofNat']
      omega
    rw [List.singleton_append, derDecode_short (by omega), hn]
  · have hpos := length_num_pos n
    have hle : (num n).length ≤ 4 := length_num_le (by decide) h
    have hhead : (UInt8.ofNat (0x80 + (num n).length)).toNat = 0x80 + (num n).length := by
      rw [UInt8.toNat_ofNat']
      omega
    rw [List.cons_append, derDecode_long (by omega) (by omega), hhead, Nat.add_sub_cancel_left]
    have htake := takeNat_beBytes (lt_num_succ n) rest
    rwa [num, length_beBytes]

theorem element_serializeField {tag : Nat} {value : Bytes} (htag : tag < 2 ^ 32)
    (hlength : value.length < 2 ^ 32) (rest : Bytes) :
    element (serializeField tag value ++ rest) =
      some (⟨tag, value, serializeField tag value⟩, rest) :=
  element_eq (derDecode_derEncode htag) (derDecode_derEncode hlength) rest

theorem tlvDecode_fields (fs : List (Nat × Bytes))
    (hfs : ∀ f ∈ fs, f.1 < 2 ^ 32 ∧ f.2.length < 2 ^ 32) :
    sdk.tlvDecode (fields fs) = some (elements fs) := by
  induction fs with
  | nil => rfl
  | cons f fs ih =>
    obtain ⟨htag, hlength⟩ := hfs f (by simp)
    have hne : fields (f :: fs) ≠ [] := by
      have hpos : 0 < (derEncode f.1).length := by
        unfold derEncode
        split <;> simp
      intro hnil
      have hzero := congrArg List.length hnil
      simp only [fields, List.flatMap_cons, List.length_append, length_serializeField,
        List.length_nil] at hzero
      omega
    have helement : element (fields (f :: fs)) =
        some (⟨f.1, f.2, serializeField f.1 f.2⟩, fields fs) :=
      element_serializeField htag hlength (fields fs)
    rw [sdk_splits.cons _ hne, helement, Option.bind_some,
      ih fun g hg => hfs g (List.mem_cons_of_mem f hg), Option.map_some]
    rfl

/-- A number within the bounds of the reader. -/
theorem getUint_some {k : Nat} {d : TlvData} (hlow : 1 ≤ d.value.length)
    (hhigh : d.value.length ≤ k) : getUint k d = some (beNat d.value) := by
  have hne : ¬ (d.value.isEmpty || d.value.length > k) = true := by
    rw [Bool.or_eq_true, List.isEmpty_iff, decide_eq_true_eq, not_or]
    exact ⟨fun h => by simp [h] at hlow, Nat.not_lt_of_le hhigh⟩
  rw [getUint, if_neg hne]

theorem sdk_understands : Understands sdk where
  tlvDecode := tlvDecode_fields
  uint8 d b hd := by
    show (getUint 1 d).map UInt8.ofNat = some b
    rw [getUint_some (by simp [hd]) (by simp [hd]), hd]
    simp [beNat]
  uint32 d hlow hhigh := by
    show (getUint 4 d).map UInt32.ofNat = _
    rw [getUint_some hlow hhigh, Option.map_some]
  uint64 d hlow hhigh := by
    show (getUint 8 d).map UInt64.ofNat = _
    rw [getUint_some hlow hhigh, Option.map_some]
  bool d b hd := by
    have hone : getUint 1 d = some (beNat d.value) :=
      getUint_some (by rw [hd, length_flag]) (by rw [hd, length_flag])
    simp only [sdk]
    rw [hone, hd]
    cases b <;> rfl
  string d minLength cap hmin hcap hprintable := by
    have hall : d.value.takeWhile (· != 0) = d.value := by
      rw [List.takeWhile_eq_self_iff]
      intro c hc
      have hlow := (hprintable c hc).1
      have hne : c ≠ 0 := by
        rintro rfl
        exact absurd hlow (by decide)
      simpa using hne
    show (if h : minLength ≤ d.value.length ∧ d.value.length ≤ cap then _ else none) = _
    rw [dif_pos ⟨hmin, hcap⟩]
    exact congrArg some (CString.ext hall)
  buffer d minLength maxLength hbounds := dif_pos hbounds

/-! ## 2. The chunks -/

/-- The same command, in surroundings in which responses can be sent. -/
def Delivers : Input → Input → Prop
  | .apdu cmd _, .apdu cmd' env => cmd' = cmd ∧ 0 ≤ env.send
  | _, _ => False

theorem Delivers.exchange {ins p1 : UInt8} {data : Bytes} {i : Input}
    (h : Delivers (exchange ins p1 data) i) :
    ∃ env, 0 ≤ env.send ∧ i = .apdu (some ⟨cla, ins, p1, 0, data⟩) env := by
  cases i with
  | apdu cmd env =>
    obtain ⟨rfl, hsend⟩ := h
    exact ⟨env, hsend, rfl⟩
  | recvFailure => exact h.elim
  | choice confirm env => exact h.elim

/-- The answer to a chunk that is accepted. -/
def accepted : Event := .response [] .success

section

variable {sdk : Sdk} {w : World} {env : Env} {chunk : Bytes} {acc : Bytes} {n : Nat}
  {t : Transfer PayloadHandler} {ctx' : HlContext}

/-- `SET_ACTION` with a chunk. -/
theorem appMainStep_setAction {p1 : UInt8} {w' : World} (hrun : w.running = true)
    (hcomm : w.commEnabled = true) (hsend : 0 ≤ env.send)
    (hp1 : p1 = p1First ∨ p1 = p1Following) (hne : chunk ≠ [])
    (h : handlerChunked sdk .parseAction env (p1 == p1First) chunk w =
      .ok ⟨env.send, w', [accepted]⟩) :
    appMainStep sdk w (.apdu (some ⟨cla, insSetAction, p1, 0, chunk⟩) env) = (w', [accepted]) := by
  have hempty : ¬ chunk.isEmpty = true := by
    rwa [List.isEmpty_iff]
  have hdispatch : apduDispatcher sdk env ⟨cla, insSetAction, p1, 0, chunk⟩ w =
      .ok ⟨env.send, w', [accepted]⟩ := by
    rw [← h]
    show dispatchChunked (handlerSetAction sdk) env ⟨cla, insSetAction, p1, 0, chunk⟩ w = _
    unfold dispatchChunked
    dsimp only
    rw [if_neg (by rcases hp1 with rfl | rfl <;> decide), if_neg hempty]
    rfl
  exact appMainStep_dispatched hrun hcomm hdispatch hsend

/-- The chunk that completes the payload of an action. -/
theorem setAction_stores {p1 : UInt8} (hrun : w.running = true) (hcomm : w.commEnabled = true)
    (hsend : 0 ≤ env.send) (hp1 : p1 = p1First ∨ p1 = p1Following) (hne : chunk ≠ [])
    (hrep : w.payload.Represents t)
    (haccept : t.accept (p1 == p1First) (some chunk) .parseAction = some (acc.length, acc))
    (hparse : parseAction sdk acc w.ctx = .ok (true, ctx')) :
    appMainStep sdk w (.apdu (some ⟨cla, insSetAction, p1, 0, chunk⟩) env) =
      ({ w with payload := {}, ctx := ctx' }, [accepted]) := by
  have hhandler : runPayloadHandler sdk env .parseAction acc w.ctx = .ok (true, ctx', []) :=
    bind_ok_iff.mpr ⟨_, hparse, rfl⟩
  exact appMainStep_setAction hrun hcomm hsend hp1 hne
    (handlerChunked_complete hrep haccept rfl hhandler)

/-- A chunk that leaves bytes to come. -/
theorem setAction_collects {p1 : UInt8} (hrun : w.running = true) (hcomm : w.commEnabled = true)
    (hsend : 0 ≤ env.send) (hp1 : p1 = p1First ∨ p1 = p1Following) (hne : chunk ≠ [])
    (hrep : w.payload.Represents t)
    (haccept : t.accept (p1 == p1First) (some chunk) .parseAction = some (n, acc))
    (hn : acc.length ≠ n) :
    ∃ payload', payload'.Represents (.collecting .parseAction n acc) ∧
      appMainStep sdk w (.apdu (some ⟨cla, insSetAction, p1, 0, chunk⟩) env) =
        ({ w with payload := payload' }, [accepted]) := by
  obtain ⟨payload', hrep', hcollects⟩ : ∃ payload',
      payload'.Represents (.collecting .parseAction n acc) ∧
      handlerChunked sdk .parseAction env (p1 == p1First) chunk w =
        .ok ⟨env.send, { w with payload := payload' }, [accepted]⟩ :=
    handlerChunked_partial hrep haccept hn
  exact ⟨payload', hrep', appMainStep_setAction hrun hcomm hsend hp1 hne hcollects⟩

/-- A chunk that is accepted, and what follows it: the commands that bring the rest of the
payload, if there is any. -/
theorem runFrom_chunk {p1 : UInt8} {rest : Bytes} {is : List Input} (hrun : w.running = true)
    (hcomm : w.commEnabled = true) (hsend : 0 ≤ env.send)
    (hp1 : p1 = p1First ∨ p1 = p1Following) (hne : chunk ≠ []) (hrep : w.payload.Represents t)
    (haccept : t.accept (p1 == p1First) (some chunk) .parseAction =
      some (acc.length + rest.length, acc))
    (hnone : rest = [] → is = [])
    (hrest : rest ≠ [] → ∀ payload' : ChunkedPayload PayloadHandler,
      payload'.Represents (.collecting .parseAction (acc.length + rest.length) acc) →
      (app sdk).runFrom { w with payload := payload' } is =
        ({ w with payload := {}, ctx := ctx' }, is.map fun _ => accepted))
    (hparse : parseAction sdk (acc ++ rest) w.ctx = .ok (true, ctx')) :
    (app sdk).runFrom w (.apdu (some ⟨cla, insSetAction, p1, 0, chunk⟩) env :: is) =
      ({ w with payload := {}, ctx := ctx' }, accepted :: is.map fun _ => accepted) := by
  rw [Machine.runFrom_cons]
  by_cases hlast : rest = []
  · obtain rfl := hnone hlast
    subst hlast
    rw [List.append_nil] at hparse
    have hstep : (app sdk).step w (.apdu (some ⟨cla, insSetAction, p1, 0, chunk⟩) env) =
        ({ w with payload := {}, ctx := ctx' }, [accepted]) :=
      setAction_stores hrun hcomm hsend hp1 hne hrep haccept hparse
    rw [hstep, Machine.runFrom_nil]
    rfl
  · have hmore : acc.length ≠ acc.length + rest.length := by
      have hpos := List.length_pos_of_ne_nil hlast
      omega
    obtain ⟨payload', hrep', hcollects⟩ :=
      setAction_collects hrun hcomm hsend hp1 hne hrep haccept hmore
    have hstep : (app sdk).step w (.apdu (some ⟨cla, insSetAction, p1, 0, chunk⟩) env) =
        ({ w with payload := payload' }, [accepted]) := hcollects
    rw [hstep, hrest hlast payload' hrep']
    rfl

theorem following_nil (fuel : Nat) : following insSetAction fuel [] = [] := by
  cases fuel <;> rfl

/-- Nothing is left to deliver. -/
theorem delivered_nil {fuel : Nat} {rest : Bytes} {is : List Input}
    (h : List.Forall₂ Delivers (following insSetAction fuel rest) is) (hrest : rest = []) :
    is = [] := by
  rw [hrest, following_nil] at h
  exact List.forall₂_nil_left_iff.mp h

/-- The chunks after the first: the last one stores the action. -/
theorem runFrom_following {fuel : Nat} {data : Bytes} {delivered : List Input}
    (hrun : w.running = true) (hcomm : w.commEnabled = true)
    (hrep : w.payload.Represents (.collecting .parseAction n acc))
    (hn : acc.length + data.length = n) (hne : data ≠ []) (hfuel : data.length ≤ fuel)
    (hdel : List.Forall₂ Delivers (following insSetAction fuel data) delivered)
    (hparse : parseAction sdk (acc ++ data) w.ctx = .ok (true, ctx')) :
    (app sdk).runFrom w delivered =
      ({ w with payload := {}, ctx := ctx' }, delivered.map fun _ => accepted) := by
  induction fuel generalizing w acc data delivered with
  | zero => exact absurd (List.length_eq_zero_iff.mp (Nat.le_zero.mp hfuel)) hne
  | succ fuel ih =>
    have hfollowing : following insSetAction (fuel + 1) data =
        exchange insSetAction p1Following (data.take maxApduLen) ::
          following insSetAction fuel (data.drop maxApduLen) := by
      cases data with
      | nil => exact absurd rfl hne
      | cons b bs => rfl
    rw [hfollowing] at hdel
    obtain ⟨i, is, hi, his, rfl⟩ := List.forall₂_cons_left_iff.mp hdel
    obtain ⟨env, hsend, rfl⟩ := hi.exchange
    have hchunk : data.take maxApduLen ≠ [] := by
      simp [List.take_eq_nil_iff, hne, maxApduLen]
    have hsplit : data.take maxApduLen ++ data.drop maxApduLen = data :=
      List.take_append_drop maxApduLen data
    have hlen : (data.take maxApduLen).length + (data.drop maxApduLen).length = data.length := by
      rw [← List.length_append, hsplit]
    have htake := List.length_pos_of_ne_nil hchunk
    have hacc : (acc ++ data.take maxApduLen).length + (data.drop maxApduLen).length = n := by
      rw [List.length_append]
      omega
    rw [← hsplit, ← List.append_assoc] at hparse
    refine runFrom_chunk hrun hcomm hsend (.inr rfl) hchunk hrep ?_ (delivered_nil his) ?_ hparse
    · rw [hacc]
      exact if_pos ⟨rfl, hchunk, by omega⟩
    · intro hdrop payload' hrep'
      rw [hacc] at hrep'
      exact ih hrun hcomm hrep' hacc hdrop (by omega) his hparse

/-- The length in front of a payload, read back. -/
theorem accept_first {n : Nat} {handler : PayloadHandler} (rest : Bytes) (hpos : 0 < n)
    (hn : n ≤ payloadBufferSize) (hle : rest.length ≤ n) :
    (Transfer.idle : Transfer PayloadHandler).accept true (some (beBytes 2 n ++ rest))
      handler = some (n, rest) := by
  have hbytes : beBytes 2 n = [UInt8.ofNat (n / 256), UInt8.ofNat n] := rfl
  have hsize : announcedSize (UInt8.ofNat (n / 256)) (UInt8.ofNat n) = n := by
    simp only [payloadBufferSize] at hn
    rw [announcedSize, UInt8.toNat_ofNat', UInt8.toNat_ofNat']
    omega
  rw [hbytes]
  show (if 1 ≤ announcedSize (UInt8.ofNat (n / 256)) (UInt8.ofNat n) ∧ _ ∧ _ then _ else _) = _
  rw [hsize, if_pos ⟨hpos, hn, hle⟩]
  rfl

/-- All chunks of a payload that `parse_action` accepts. -/
theorem runFrom_sendChunked {payload : Bytes} {delivered : List Input} (hrun : w.running = true)
    (hcomm : w.commEnabled = true) (hidle : w.payload.Represents .idle) (hpos : 0 < payload.length)
    (hlength : payload.length ≤ payloadBufferSize)
    (hdel : List.Forall₂ Delivers (sendChunked insSetAction payload) delivered)
    (hparse : parseAction sdk payload w.ctx = .ok (true, ctx')) :
    (app sdk).runFrom w delivered =
      ({ w with payload := {}, ctx := ctx' }, delivered.map fun _ => accepted) := by
  have htake : (beBytes 2 payload.length ++ payload).take maxApduLen =
      beBytes 2 payload.length ++ payload.take 253 := by
    rw [List.take_append, length_beBytes, List.take_of_length_le (by rw [length_beBytes]; decide)]
    rfl
  have hdrop : (beBytes 2 payload.length ++ payload).drop maxApduLen = payload.drop 253 := by
    rw [List.drop_append, length_beBytes, List.drop_of_length_le (by rw [length_beBytes]; decide)]
    rfl
  rw [sendChunked, htake, hdrop] at hdel
  obtain ⟨i, is, hi, his, rfl⟩ := List.forall₂_cons_left_iff.mp hdel
  obtain ⟨env, hsend, rfl⟩ := hi.exchange
  have hsplit : payload.take 253 ++ payload.drop 253 = payload := List.take_append_drop 253 payload
  have hlen : (payload.take 253).length + (payload.drop 253).length = payload.length := by
    rw [← List.length_append, hsplit]
  have haccept : (Transfer.idle : Transfer PayloadHandler).accept true
      (some (beBytes 2 payload.length ++ payload.take 253)) .parseAction =
        some (payload.length, payload.take 253) :=
    accept_first (payload.take 253) hpos hlength (List.length_take_le' _ _)
  rw [← hlen] at haccept
  rw [← hsplit] at hparse
  refine runFrom_chunk hrun hcomm hsend (.inl rfl) (List.cons_ne_nil _ _) hidle ?_
    (delivered_nil his) ?_ hparse
  · rw [← hlen]
    exact haccept
  · intro hrest payload' hrep'
    exact runFrom_following hrun hcomm hrep' rfl hrest (by omega) his hparse

end

/-! ## 3. The two sides agree -/

/-- An action of a new type is pushed, while a slot is free and before signing has started. -/
theorem ctxPushAction_appends {ctx : HlContext} {a : Action}
    (hcount : ctx.actionCount < maxActionCount) (hidx : ctx.actionIndex = 0)
    (hnew : ∀ b ∈ ctx.actions.elems, b.type ≠ a.type) :
    ∃ ctx', ctxPushAction a ctx = (true, ctx') ∧ ActionAppended ctx a ctx' := by
  have hany : ¬ (ctx.actions.elems.any fun b => a.type == b.type) = true := by
    intro h
    obtain ⟨b, hb, hty⟩ := List.any_eq_true.mp h
    exact hnew b hb (beq_iff_eq.mp hty).symm
  refine ⟨{ ctx with actions := ctx.actions.push a hcount }, ?_, rfl, rfl, rfl⟩
  unfold ctxPushAction
  rw [dif_neg (Nat.not_le_of_lt hcount), if_neg (by omega), if_neg hany]

/-- `parse_action` stores the value that was sent. -/
theorem parseAction_sent {sdk : Sdk} (h : Understands sdk) {ctx : HlContext}
    {metadata : ActionMetadata} {s : SetAction} (hmd : ctx.metadata = some metadata)
    (hs : s.action.Allowed metadata.assetId)
    (hcompat : Action.isActionCompatible ctx s.sent.type metadata.opType = true)
    (hnew : ∀ b ∈ ctx.actions.elems, b.type ≠ s.sent.type) (hidx : ctx.actionIndex = 0)
    (hcount : ctx.actionCount < maxActionCount) :
    ∃ ctx', parseAction sdk s.serialize ctx = .ok (true, ctx') ∧
      ActionAppended ctx s.sent ctx' := by
  obtain ⟨out, hparse, hout⟩ := parse_serialize h hmd hs
  obtain ⟨ctx', hpush, happended⟩ := ctxPushAction_appends hcount hidx hnew
  refine ⟨ctx', ?_, happended⟩
  unfold parseAction ctxGetActionMetadata
  rw [hmd]
  dsimp only
  rw [hparse]
  dsimp only
  rw [hout, hcompat, hpush]
  rfl

/-- A value that the specification allows, sent to an application that runs, has metadata and may
store an action of its type: its payload has at most 1020 bytes, every command is answered with
success, and the one effect is that the action is appended as it was sent. -/
theorem client_application_agree (sdk : Sdk) (h : Understands sdk) (inputs : List Input)
    (metadata : ActionMetadata) (s : SetAction)
    (hrun : ((app sdk).state inputs).running = true)
    (hmd : ((app sdk).state inputs).ctx.metadata = some metadata)
    (hs : s.action.Allowed metadata.assetId)
    (hcompat : Action.isActionCompatible ((app sdk).state inputs).ctx s.sent.type
      metadata.opType = true)
    (hnew : ∀ b ∈ ((app sdk).state inputs).ctx.actions.elems, b.type ≠ s.sent.type)
    (hidx : ((app sdk).state inputs).ctx.actionIndex = 0)
    (hreview : ((app sdk).state inputs).review = none)
    (hidle : ((app sdk).state inputs).payload.Represents .idle)
    (delivered : List Input)
    (hdel : List.Forall₂ Delivers (sendChunked insSetAction s.serialize) delivered) :
    s.serialize.length ≤ 1020 ∧
    ∃ ctx', (app sdk).runFrom ((app sdk).state inputs) delivered =
        ({ (app sdk).state inputs with payload := {}, ctx := ctx' },
          delivered.map fun _ => .response [] .success) ∧
      ActionAppended ((app sdk).state inputs).ctx s.sent ctx' := by
  have hcomm : ((app sdk).state inputs).commEnabled = true := by
    have hinv : ((app sdk).state inputs).Comm := (app_refines sdk).inv_state inputs
    rw [hinv, hreview]
    rfl
  have hcount : ((app sdk).state inputs).ctx.actionCount < maxActionCount :=
    Nat.lt_of_le_of_lt (sessionInv_state sdk inputs).actionCount_le (by decide)
  obtain ⟨ctx', hparse, happended⟩ := parseAction_sent h hmd hs hcompat hnew hidx hcount
  refine ⟨s.length_serialize_le, ctx', ?_, happended⟩
  exact runFrom_sendChunked hrun hcomm hidle s.length_serialize_pos
    (s.length_serialize_le.trans (by decide)) hdel hparse

/-- What the client itself sends is delivered. -/
theorem delivers_sendChunked (ins : UInt8) (payload : Bytes) :
    List.Forall₂ Delivers (sendChunked ins payload) (sendChunked ins payload) := by
  have hexchange : ∀ p1 data, Delivers (exchange ins p1 data) (exchange ins p1 data) :=
    fun _ _ => ⟨rfl, Int.le_refl 0⟩
  have hfollowing : ∀ (fuel : Nat) (data : Bytes),
      List.Forall₂ Delivers (following ins fuel data) (following ins fuel data) := by
    intro fuel
    induction fuel with
    | zero => exact fun _ => .nil
    | succ fuel ih =>
      intro data
      cases data with
      | nil => exact .nil
      | cons b bs => exact .cons (hexchange _ _) (ih _)
  exact .cons (hexchange _ _) (hfollowing _ _)

/-- A limit order with a client order id and its stop loss, for a builder's fee. -/
def orderWithStopLoss : SetAction where
  nonce := 1772544780138
  action := .bulkOrder
    ⟨[{ orderType := .limit, asset := 1, isBuy := true, limitPx := chars "2000.5",
        sz := chars "0.01", reduceOnly := false, order := .limit ⟨.gtc⟩,
        cloid := some (Vector.replicate 16 0xab) },
      { orderType := .trigger, asset := 1, isBuy := false, limitPx := chars "1800",
        sz := chars "0.01", reduceOnly := true,
        order := .trigger ⟨true, chars "1800", .sl⟩ }], by decide⟩
    .normalTpsl (some ⟨builder, 10⟩)

theorem client_application_agree_orderWithStopLoss :
    orderWithStopLoss.serialize.length ≤ 1020 ∧
    ∃ ctx', (app sdk).runFrom ((app sdk).state (provideActionMetadata (ethMetadata .order)))
        (sendChunked insSetAction orderWithStopLoss.serialize) =
        ({ (app sdk).state (provideActionMetadata (ethMetadata .order)) with
            payload := {}, ctx := ctx' },
          (sendChunked insSetAction orderWithStopLoss.serialize).map
            fun _ => .response [] .success) ∧
      ActionAppended ((app sdk).state (provideActionMetadata (ethMetadata .order))).ctx
        orderWithStopLoss.sent ctx' := by
  have hprice : Numeric (chars "2000.5") := ⟨by decide +kernel, by decide +kernel⟩
  have hsize : Numeric (chars "0.01") := ⟨by decide +kernel, by decide +kernel⟩
  have hstop : Numeric (chars "1800") := ⟨by decide +kernel, by decide +kernel⟩
  have hallowed : orderWithStopLoss.action.Allowed (ethMetadata .order).assetId := by
    refine ⟨by decide, ?_⟩
    intro o ho
    rcases List.mem_cons.mp ho with rfl | ho
    · exact ⟨rfl, trivial, hprice, hsize, fun t ht => by cases ht⟩
    · obtain rfl := List.mem_singleton.mp ho
      exact ⟨rfl, trivial, hstop, hsize, fun t ht => by cases ht; exact hstop⟩
  exact client_application_agree sdk sdk_understands _ (ethMetadata .order) _ (by decide +kernel)
    (by decide +kernel) hallowed (by decide +kernel) (by decide +kernel) (by decide +kernel)
    (by decide +kernel) (by decide +kernel : _ = _) _ (delivers_sendChunked _ _)

end Hyperliquid.Client

import CcPof.OpenFlow.Rejections
import CcPof.OpenFlow.RoundTrip

/-!
# The message sets of the two sides

What the encoder packs and the decoder then refuses to know, and which callbacks of the experimenter
table are called without having been tested.
-/

namespace CcPof.OpenFlow

variable {L : OflLib} {α : Type} {exp : Option (OflExp L)}

/-! ## 1. Refused as unsupported -/

/-- What the decoder returns for an unknown message type, for an unknown multipart type or a missing
multipart callback, and for a missing message callback. -/
def unsupportedErrors : List OflErr :=
  [.ofl .badRequest ofpgmfcBadType, badMultipart, .ofl .badRequest ofpbrcBadExperimenter]

def RejectedAsUnsupported (r : EStateM.Result Fault UnpackState α) : Prop :=
  ∃ e ∈ unsupportedErrors, ∃ s, r = .error (.err e) s

theorem RaisesOnly.not_unsupported {es : List Fault} {x : Unpack α} (h : RaisesOnly es x)
    (hes : ∀ e ∈ unsupportedErrors, .err e ∉ es) (s : UnpackState) :
    ¬ RejectedAsUnsupported (x s) := by
  intro ⟨e, he, s', hrun⟩
  have hends := h.run s
  rw [hrun] at hends
  cases hends.2 with
  | inl hmem => exact hes e he hmem
  | inr hforeign =>
    obtain ⟨n, rfl⟩ := hforeign
    simp [unsupportedErrors] at he

/-! ## 2. Packed multipart messages -/

theorem ret_of_packMultipartHeader {type flags : UInt16} {r : PackResult}
    (h : (packMultipartHeader type flags r).ret = 0) : r.ret = 0 := by
  by_contra hne
  rw [packMultipartHeader, if_pos hne] at h
  exact hne h

/-- A packed multipart body is refused when it is too short for the header, and otherwise taken to
the decoder of its multipart type. -/
theorem unpackMultipart_of_packed (exp : Option (OflExp L)) {type flags : UInt16} {r : PackResult}
    {buf : Mem} (hret : r.ret = 0) (h : AgreeOn 8 r.bufLen buf (packMultipartHeader type flags r).buf)
    (xid : Option UInt32) :
    (r.bufLen < 16 ∧
      oflMsgUnpackMultipartRequest exp buf ⟨r.bufLen, xid, false, false⟩ =
        .error (.err badLen) ⟨r.bufLen, xid, false, false⟩ ∧
      oflMsgUnpackMultipartReply exp buf ⟨r.bufLen, xid, false, false⟩ =
        .error (.err badLen) ⟨r.bufLen, xid, false, false⟩) ∨
    (16 ≤ r.bufLen ∧ multipartType buf = OfpMultipartType.ofUInt16? type) := by
  by_cases hlen : 16 ≤ r.bufLen
  · refine Or.inr ⟨hlen, ?_⟩
    rw [multipartType, OfpMultipartRequest.type, (agreeOn_multipartHeader hret hlen h).1]
  · have hshort : r.bufLen < 16 := Nat.lt_of_not_le hlen
    exact Or.inl ⟨hshort, multipartRequest_short exp buf hshort, multipartReply_short exp buf hshort⟩

/-! ## 3. Round trips -/

/-- For each message callback, the unpack side is registered when the pack side is. -/
structure OflExp.Matched (exp : Option (OflExp L)) : Prop where
  msg : (OflExp.msgPack exp).isSome → (OflExp.msgUnpack exp).isSome
  req : (OflExp.statsReqPack exp).isSome → (OflExp.statsReqUnpack exp).isSome
  reply : (OflExp.statsReplyPack exp).isSome → (OflExp.statsReplyUnpack exp).isSome

/-- What the encoder packs within the length field, the decoder does not refuse as unsupported. -/
def KeepsSupport (exp : Option (OflExp L)) (msg : OflMsg L) (xid : UInt32) (heap : Mem) : Prop :=
  let r := oflMsgPack exp msg xid heap
  r.ret = 0 → r.bufLen ≤ 65535 → ∀ buf, AgreeOn 0 r.bufLen buf r.buf →
    ∀ x, ¬ RejectedAsUnsupported (oflMsgUnpack exp buf r.bufLen x)

/-- METER_FEATURES has no `case` in the decoder. A multipart EXPERIMENTER request that is packed, and
long enough to reach the `switch`, needs the callback that the decoder tests for a reply. -/
def OflMsg.Supported (exp : Option (OflExp L)) (heap : Mem) : OflMsg L → Prop
  | multipartRequest _ .meterFeatures => False
  | multipartReply _ (.meterFeatures _) => False
  | multipartRequest _ (.experimenter r) =>
      ∀ pack, OflExp.statsReqPack exp = some pack → (pack r heap).ret = 0 →
        16 ≤ (pack r heap).bufLen → (pack r heap).bufLen ≤ 65535 →
        (OflExp.statsReplyUnpack exp).isSome
  | _ => True

theorem request_supported (hL : L.ErrorsMarked exp) {buf : Mem} {t : OfpMultipartType}
    (ht : multipartType buf = some t) (hmeter : t ≠ .meterFeatures)
    (hexp : t = .experimenter → (OflExp.statsReplyUnpack exp).isSome) (s : UnpackState) :
    ¬ RejectedAsUnsupported (oflMsgUnpackMultipartRequest exp buf s) := by
  have hbody : RaisesOnly [.err badLen, .nullCall] (unpackRequestBody exp buf (some t)) := by
    by_cases hexper : t = .experimenter
    · subst hexper
      refine (raises_callStats (fun hnone => ?_) (fun _ _ => by simp) hL.reqUnpack).map
      have hsome := hexp rfl
      rw [hnone] at hsome
      cases hsome
    · refine (raises_requestBody hL (some t)).mono ?_
      cases t <;> simp [requestFaults] at hmeter hexper ⊢
  -- In front of the `switch` only the length is checked.
  rw [← ht] at hbody
  have hall : RaisesOnly [.err badLen, .nullCall] (oflMsgUnpackMultipartRequest exp buf) :=
    RaisesOnly.guarded (by simp) fun _ => hbody.bind fun _ => RaisesOnly.pure _
  exact hall.not_unsupported (by decide) s

theorem reply_supported (hL : L.ErrorsMarked exp) {buf : Mem} {t : OfpMultipartType}
    (ht : multipartType buf = some t) (hmeter : t ≠ .meterFeatures)
    (hexp : t = .experimenter → (OflExp.statsReplyUnpack exp).isSome) (s : UnpackState) :
    ¬ RejectedAsUnsupported (oflMsgUnpackMultipartReply exp buf s) := by
  have hbody : RaisesOnly [.err badLen, .segv] (unpackReplyBody exp buf (some t)) := by
    by_cases hexper : t = .experimenter
    · subst hexper
      have hsome := hexp rfl
      refine (raises_callStats (fun hnone => ?_) (fun _ hnone => ?_) hL.replyUnpack).map
      · rw [hnone] at hsome
        cases hsome
      · rw [hnone] at hsome
        cases hsome
    · refine (raises_replyBody hL (some t)).mono ?_
      cases t <;> simp [replyFaults] at hmeter hexper ⊢
  rw [← ht] at hbody
  have hall : RaisesOnly [.err badLen, .segv] (oflMsgUnpackMultipartReply exp buf) :=
    RaisesOnly.guarded (by simp) fun _ => hbody.bind fun _ => RaisesOnly.pure _
  exact hall.not_unsupported (by decide) s

theorem not_unsupported_badLen {s : UnpackState} :
    ¬ RejectedAsUnsupported (.error (.err badLen) s : EStateM.Result Fault UnpackState α) := by
  intro ⟨e, he, s', hrun⟩
  cases hrun
  revert he
  decide

/-- A packed multipart message reaches the decoder of its body, or is too short for it. -/
theorem multipart_supported (hL : L.ErrorsMarked exp) {type flags : UInt16} {r : PackResult}
    {t : OfpMultipartType} {buf : Mem} (ht : OfpMultipartType.ofUInt16? type = some t)
    (hmeter : t ≠ .meterFeatures)
    (hexp : t = .experimenter → 16 ≤ r.bufLen → (OflExp.statsReplyUnpack exp).isSome)
    (hret : (packMultipartHeader type flags r).ret = 0)
    (h : AgreeOn 8 (packMultipartHeader type flags r).bufLen buf
      (packMultipartHeader type flags r).buf) (xid : Option UInt32) :
    ¬ RejectedAsUnsupported (oflMsgUnpackMultipartRequest exp buf
        ⟨(packMultipartHeader type flags r).bufLen, xid, false, false⟩) ∧
      ¬ RejectedAsUnsupported (oflMsgUnpackMultipartReply exp buf
        ⟨(packMultipartHeader type flags r).bufLen, xid, false, false⟩) := by
  have hzero := ret_of_packMultipartHeader hret
  have hbufLen : (packMultipartHeader type flags r).bufLen = r.bufLen := by
    rw [packMultipartHeader_of_ret hzero]
  rw [hbufLen] at h ⊢
  cases unpackMultipart_of_packed exp hzero h xid with
  | inl hshort =>
    rw [hshort.2.1, hshort.2.2]
    exact ⟨not_unsupported_badLen, not_unsupported_badLen⟩
  | inr hlong =>
    have htype := hlong.2.trans ht
    have hcallback := fun hexper => hexp hexper hlong.1
    exact ⟨request_supported hL htype hmeter hcallback _,
      reply_supported hL htype hmeter hcallback _⟩

/-- The body decoder on a message that was packed. -/
theorem body_supported (hL : L.ErrorsMarked exp) (hexp : OflExp.Matched exp) {msg : OflMsg L}
    {heap buf : Mem} (hmsg : msg.Supported exp heap) (hret : (packBody exp msg heap).ret = 0)
    (hhi : (packBody exp msg heap).bufLen ≤ 65535)
    (h : AgreeOn 8 (packBody exp msg heap).bufLen buf (packBody exp msg heap).buf)
    (xid : Option UInt32) :
    ¬ RejectedAsUnsupported (unpackBody exp buf (OfpType.ofUInt8? msg.type)
      ⟨(packBody exp msg heap).bufLen, xid, false, false⟩) := by
  cases msg with
  | unknown type htype => simp [packBody] at hret
  | experimenter m =>
    -- The callback packed the message, so its counterpart is registered.
    have hunpack : (OflExp.msgUnpack exp).isSome := by
      apply hexp.msg
      cases hpack : OflExp.msgPack exp with
      | none => simp [packBody, hpack] at hret
      | some pack => rfl
    obtain ⟨unpack, hunpack⟩ := Option.isSome_iff_exists.mp hunpack
    have hraises : RaisesOnly [] (unpackBody exp buf (some .experimenter)) := by
      simp only [unpackBody, hunpack]
      exact (RaisesOnly.nestedOrReturn (hL.msgUnpack unpack hunpack buf 0)).map
    exact hraises.not_unsupported (by decide) _
  | multipartRequest flags body =>
    cases body with
    | unknown type htype => simp [packBody, oflMsgPackMultipartRequest, packMultipartHeader] at hret
    | meterFeatures => exact absurd hmsg id
    | experimenter r =>
      cases hpack : OflExp.statsReqPack exp with
      | none =>
        simp [packBody, oflMsgPackMultipartRequest, packMultipartHeader, hpack] at hret
      | some pack =>
        have hpacked : packBody exp (.multipartRequest flags (.experimenter r)) heap =
            packMultipartHeader OfpMultipartType.experimenter.toUInt16 flags (pack r heap) := by
          simp only [packBody, oflMsgPackMultipartRequest, hpack, MultipartRequest.type]
        rw [hpacked] at hret hhi h ⊢
        have hzero := ret_of_packMultipartHeader hret
        rw [packMultipartHeader_of_ret hzero] at hhi
        refine (multipart_supported hL rfl ?_ (fun _ hlen => ?_) hret h xid).1
        · simp
        · exact hmsg pack hpack hzero hlen hhi
    | _ => refine (multipart_supported hL rfl ?_ ?_ hret h xid).1 <;> simp
  | multipartReply flags body =>
    cases body with
    | unknown type htype => simp [packBody, oflMsgPackMultipartReply, packMultipartHeader] at hret
    | meterFeatures r => exact absurd hmsg id
    | experimenter r =>
      have hunpack : (OflExp.statsReplyUnpack exp).isSome := by
        apply hexp.reply
        cases hpack : OflExp.statsReplyPack exp with
        | none => simp [packBody, oflMsgPackMultipartReply, packMultipartHeader, hpack] at hret
        | some pack => rfl
      refine (multipart_supported hL rfl ?_ (fun _ _ => hunpack) hret h xid).2
      simp
    | _ => refine (multipart_supported hL rfl ?_ ?_ hret h xid).2 <;> simp
  | _ =>
    -- The type has a `case`, and its decoder refuses for other reasons only.
    refine (raises_body hL _).not_unsupported ?_ _
    simp only [OflMsg.type, OfpType.ofUInt8?_toUInt8, bodyFaults]
    decide

theorem ret_of_oflMsgPack {msg : OflMsg L} {xid : UInt32} {heap : Mem}
    (h : (oflMsgPack exp msg xid heap).ret = 0) : (packBody exp msg heap).ret = 0 := by
  by_contra hne
  unfold oflMsgPack at h
  rw [if_pos hne] at h
  exact hne h

theorem keepsSupport_of_supported (hL : L.ErrorsMarked exp) (hexp : OflExp.Matched exp)
    {msg : OflMsg L} {xid : UInt32} {heap : Mem} (hmsg : msg.Supported exp heap) :
    KeepsSupport exp msg xid heap := by
  intro hret hhi buf hbuf x
  have hbody := ret_of_oflMsgPack hret
  have hbufLen : (oflMsgPack exp msg xid heap).bufLen = (packBody exp msg heap).bufLen := by
    rw [oflMsgPack_of_body _ hbody]
  rw [hbufLen] at hhi hbuf ⊢
  by_cases hlo : 8 ≤ (packBody exp msg heap).bufLen
  · obtain ⟨hrun, hagree⟩ := oflMsgUnpack_of_packed hbody hlo hhi hbuf x
    rw [hrun]
    exact body_supported hL hexp hmsg hbody hhi hagree _
  · -- A callback may return less than a header.
    rw [oflMsgUnpack_of_short exp x (Nat.lt_of_not_le hlo)]
    exact not_unsupported_badLen

/-! ## 4. What is refused -/

/-- A multipart message that is packed, and long enough, reaches the `switch` over its type. -/
theorem oflMsgUnpack_of_multipart {msg : OflMsg L} {type flags : UInt16} {r : PackResult}
    {heap : Mem} (hmsg : packBody exp msg heap = packMultipartHeader type flags r)
    (hret : r.ret = 0) (hlo : 16 ≤ r.bufLen) (hhi : r.bufLen ≤ 65535) (xid : UInt32)
    (x : Option UInt32) :
    (oflMsgPack exp msg xid heap).ret = 0 ∧ (oflMsgPack exp msg xid heap).bufLen = r.bufLen ∧
      multipartType (oflMsgPack exp msg xid heap).buf = OfpMultipartType.ofUInt16? type ∧
      oflMsgUnpack exp (oflMsgPack exp msg xid heap).buf r.bufLen x =
        unpackBody exp (oflMsgPack exp msg xid heap).buf (OfpType.ofUInt8? msg.type)
          ⟨r.bufLen, x.map fun _ => xid, false, false⟩ := by
  have hheader : packMultipartHeader type flags r = _ := packMultipartHeader_of_ret hret
  have hzero : (packBody exp msg heap).ret = 0 := by rw [hmsg, hheader]
  have hbufLen : (packBody exp msg heap).bufLen = r.bufLen := by rw [hmsg, hheader]
  have hpacked := oflMsgPack_of_body xid hzero
  have hsame : AgreeOn 0 (packBody exp msg heap).bufLen (oflMsgPack exp msg xid heap).buf
      (oflMsgPack exp msg xid heap).buf := fun _ _ _ => rfl
  obtain ⟨hrun, hagree⟩ := oflMsgUnpack_of_packed hzero (by omega) (by omega) hsame x
  rw [hbufLen] at hrun hagree
  rw [hmsg] at hagree
  refine ⟨by rw [hpacked], by rw [hpacked, hbufLen], ?_, hrun⟩
  rw [multipartType, OfpMultipartRequest.type, (agreeOn_multipartHeader hret hlo hagree).1]

theorem request_refused {buf : Mem} {s : UnpackState} (hlen : 16 ≤ s.len)
    (hbody : ∀ s, unpackRequestBody exp buf (multipartType buf) s = .error (.err badMultipart) s) :
    RejectedAsUnsupported (oflMsgUnpackMultipartRequest exp buf s) :=
  ⟨badMultipart, by decide, _, oflMsgUnpackMultipartRequest_error hlen hbody⟩

theorem reply_refused {buf : Mem} {s : UnpackState} (hlen : 16 ≤ s.len)
    (hbody : ∀ s, unpackReplyBody exp buf (multipartType buf) s = .error (.err badMultipart) s) :
    RejectedAsUnsupported (oflMsgUnpackMultipartReply exp buf s) :=
  ⟨badMultipart, by decide, _, oflMsgUnpackMultipartReply_error hlen hbody⟩

theorem supported_of_keepsSupport {msg : OflMsg L} {xid : UInt32} {heap : Mem}
    (h : KeepsSupport exp msg xid heap) : msg.Supported exp heap := by
  cases msg with
  | multipartRequest flags body =>
    cases body with
    | meterFeatures =>
      have hpacked : packBody exp (.multipartRequest flags .meterFeatures) heap =
          packMultipartHeader OfpMultipartType.meterFeatures.toUInt16 flags
            (oflMsgPackMultipartRequestEmpty heap) := rfl
      obtain ⟨hret, hbufLen, htype, hrun⟩ := oflMsgUnpack_of_multipart hpacked rfl le_rfl
        (show 16 ≤ 65535 by decide) xid none
      refine h hret ?_ _ (fun _ _ _ => rfl) none ?_
      · rw [hbufLen]
        exact show 16 ≤ 65535 by decide
      · rw [hbufLen, hrun]
        exact request_refused le_rfl fun s => by rw [htype]; rfl
    | experimenter r =>
      -- Without `reply_unpack` the decoder refuses what `req_pack` has packed.
      intro pack hpack hret hlo hhi
      by_contra hnone
      rw [Option.not_isSome_iff_eq_none] at hnone
      have hpacked : packBody exp (.multipartRequest flags (.experimenter r)) heap =
          packMultipartHeader OfpMultipartType.experimenter.toUInt16 flags (pack r heap) := by
        simp only [packBody, oflMsgPackMultipartRequest, hpack, MultipartRequest.type]
      obtain ⟨hzero, hbufLen, htype, hrun⟩ := oflMsgUnpack_of_multipart hpacked hret hlo hhi xid none
      refine h hzero ?_ _ (fun _ _ _ => rfl) none ?_
      · rw [hbufLen]
        exact hhi
      · rw [hbufLen, hrun]
        refine request_refused hlo fun s => ?_
        rw [htype, OfpMultipartType.ofUInt16?_toUInt16]
        simp [unpackRequestBody, hnone, callStats]
    | _ => exact trivial
  | multipartReply flags body =>
    cases body with
    | meterFeatures r =>
      have hpacked : packBody exp (.multipartReply flags (.meterFeatures r)) heap =
          packMultipartHeader OfpMultipartType.meterFeatures.toUInt16 flags
            (oflMsgPackMultipartReplyMeterFeatures r heap) := rfl
      obtain ⟨hret, hbufLen, htype, hrun⟩ := oflMsgUnpack_of_multipart hpacked rfl
        (show 16 ≤ 32 by decide) (show 32 ≤ 65535 by decide) xid none
      refine h hret ?_ _ (fun _ _ _ => rfl) none ?_
      · rw [hbufLen]
        exact show 32 ≤ 65535 by decide
      · rw [hbufLen, hrun]
        exact reply_refused (Nat.le_add_right 16 16) fun s => by rw [htype]; rfl
    | _ => exact trivial
  | _ => exact trivial

/-! ## 5. Which pointer is tested -/

/-- The pointers of the table that this repository calls. -/
inductive ExpCallback where
  | msgPack
  | msgUnpack
  | reqPack
  | reqUnpack
  | replyPack
  | replyUnpack
  | actOfpLen
  | actPack
  deriving DecidableEq, Repr

/-- The table with one pointer set to `NULL`. -/
def OflExp.clear (cb : ExpCallback) (e : OflExp L) : OflExp L :=
  match cb with
  | .msgPack => { e with msg := e.msg.map fun m => { m with pack := none } }
  | .msgUnpack => { e with msg := e.msg.map fun m => { m with unpack := none } }
  | .reqPack => { e with stats := e.stats.map fun t => { t with reqPack := none } }
  | .reqUnpack => { e with stats := e.stats.map fun t => { t with reqUnpack := none } }
  | .replyPack => { e with stats := e.stats.map fun t => { t with replyPack := none } }
  | .replyUnpack => { e with stats := e.stats.map fun t => { t with replyUnpack := none } }
  | .actOfpLen => { e with act := e.act.map fun a => { a with ofpLen := none } }
  | .actPack => { e with act := e.act.map fun a => { a with pack := none } }

theorem msgUnpack_clear (cb : ExpCallback) :
    OflExp.msgUnpack (exp.map (OflExp.clear cb)) =
      if cb = .msgUnpack then none else OflExp.msgUnpack exp := by
  cases exp with
  | none => simp [OflExp.msgUnpack]
  | some e => cases cb <;> cases hmsg : e.msg <;> simp [OflExp.msgUnpack, OflExp.clear, hmsg]

theorem statsReqUnpack_clear (cb : ExpCallback) :
    OflExp.statsReqUnpack (exp.map (OflExp.clear cb)) =
      if cb = .reqUnpack then none else OflExp.statsReqUnpack exp := by
  cases exp with
  | none => simp [OflExp.statsReqUnpack]
  | some e =>
    cases cb <;> cases hstats : e.stats <;> simp [OflExp.statsReqUnpack, OflExp.clear, hstats]

theorem statsReplyUnpack_clear (cb : ExpCallback) :
    OflExp.statsReplyUnpack (exp.map (OflExp.clear cb)) =
      if cb = .replyUnpack then none else OflExp.statsReplyUnpack exp := by
  cases exp with
  | none => simp [OflExp.statsReplyUnpack]
  | some e =>
    cases cb <;> cases hstats : e.stats <;> simp [OflExp.statsReplyUnpack, OflExp.clear, hstats]

/-- The called pointer is the tested one: with any one pointer set to `NULL`, the decoder does not
call `NULL`. -/
def DecoderTests (exp : Option (OflExp L)) (buf : Mem) (bufLen : Nat) : Prop :=
  ∀ cb x s, oflMsgUnpack (exp.map (OflExp.clear cb)) buf bufLen x ≠ .error .nullCall s

/-- A multipart EXPERIMENTER request that reaches the test of `reply_unpack` and passes it. -/
structure PassesSwappedTest (exp : Option (OflExp L)) (buf : Mem) (bufLen : Nat) : Prop where
  len : 16 ≤ bufLen
  version : buf OfpHeader.version = ofpVersion
  length : (ntohs (get16 buf OfpHeader.length)).toNat = bufLen
  type : OfpType.ofUInt8? (buf OfpHeader.type) = some .multipartRequest
  experimenter : multipartType buf = some .experimenter
  registered : (OflExp.statsReplyUnpack exp).isSome

theorem ErrorsMarked.clear (hL : L.ErrorsMarked exp) (cb : ExpCallback) :
    L.ErrorsMarked (exp.map (OflExp.clear cb)) := by
  refine { hL with msgUnpack := ?_, reqUnpack := ?_, replyUnpack := ?_ }
  · intro unpack h
    rw [msgUnpack_clear] at h
    split at h
    · cases h
    · exact hL.msgUnpack unpack h
  · intro unpack h
    rw [statsReqUnpack_clear] at h
    split at h
    · cases h
    · exact hL.reqUnpack unpack h
  · intro unpack h
    rw [statsReplyUnpack_clear] at h
    split at h
    · cases h
    · exact hL.replyUnpack unpack h

/-- Only the EXPERIMENTER request calls a pointer that may be `NULL`. -/
theorem nullCall_of_run (hL : L.ErrorsMarked exp) {buf : Mem} {bufLen : Nat} {x : Option UInt32}
    {s : UnpackState} (hrun : oflMsgUnpack exp buf bufLen x = .error .nullCall s) :
    PassesSwappedTest exp buf bufLen := by
  have hlen : 8 ≤ bufLen := by
    by_contra hshort
    rw [oflMsgUnpack_of_short exp x (Nat.lt_of_not_le hshort)] at hrun
    cases hrun
  have hversion : buf 0 = ofpVersion := by
    by_contra hne
    rw [oflMsgUnpack_of_version exp x hlen hne] at hrun
    cases hrun
  have hlength : (ntohs (get16 buf 2)).toNat = bufLen := by
    by_contra hne
    rw [oflMsgUnpack_of_length exp x hlen hversion hne] at hrun
    cases hrun
  rw [oflMsgUnpack_of_header exp x hlen hversion hlength] at hrun
  have honly : RaisesOnly (bodyFaults buf (OfpType.ofUInt8? (buf 1)))
      (unpackBody exp buf (OfpType.ofUInt8? (buf 1))) := raises_body hL _
  have hfault := honly.run (bodyState buf bufLen x)
  rw [hrun] at hfault
  -- Of all bodies only the EXPERIMENTER request may end in such a call.
  have hmem : .nullCall ∈ bodyFaults buf (OfpType.ofUInt8? (buf 1)) := hfault.2
  obtain ⟨htype, hmultipart⟩ : OfpType.ofUInt8? (buf 1) = some .multipartRequest ∧
      multipartType buf = some .experimenter := by
    revert hmem
    cases OfpType.ofUInt8? (buf 1) with
    | none => simp [bodyFaults]
    | some t =>
      cases t <;> simp [bodyFaults]
      · cases multipartType buf with
        | none => simp [requestFaults]
        | some t => cases t <;> simp [requestFaults]
      · cases multipartType buf with
        | none => simp [replyFaults]
        | some t => cases t <;> simp [replyFaults]
  rw [htype] at hrun
  have hbody : oflMsgUnpackMultipartRequest exp buf (bodyState buf bufLen x) =
      .error .nullCall s := hrun
  have hlong : 16 ≤ bufLen := by
    by_contra hshort
    have hreject : (bodyState buf bufLen x).len < 16 := Nat.lt_of_not_le hshort
    rw [multipartRequest_short exp buf hreject] at hbody
    cases hbody
  refine ⟨hlong, hversion, hlength, htype, hmultipart, ?_⟩
  by_contra hnone
  rw [Option.not_isSome_iff_eq_none] at hnone
  have hroom : 16 ≤ (bodyState buf bufLen x).len := hlong
  obtain ⟨e, he, s', herror⟩ : RejectedAsUnsupported (oflMsgUnpackMultipartRequest exp buf
      (bodyState buf bufLen x)) := by
    refine request_refused hroom fun s => ?_
    rw [hmultipart]
    simp [unpackRequestBody, hnone, callStats]
  rw [hbody] at herror
  cases herror

theorem decoderTests_iff (hL : L.ErrorsMarked exp) (buf : Mem) (bufLen : Nat) :
    DecoderTests exp buf bufLen ↔ ¬ PassesSwappedTest exp buf bufLen := by
  constructor
  · intro htests hswap
    -- Without `req_unpack` the test of `reply_unpack` still passes.
    have hreply : OflExp.statsReplyUnpack (exp.map (OflExp.clear .reqUnpack)) =
        OflExp.statsReplyUnpack exp := statsReplyUnpack_clear .reqUnpack
    have hreq : OflExp.statsReqUnpack (exp.map (OflExp.clear .reqUnpack)) = none :=
      statsReqUnpack_clear .reqUnpack
    obtain ⟨unpack, hunpack⟩ := Option.isSome_iff_exists.mp hswap.registered
    refine htests .reqUnpack none ⟨bufLen - 16, none, false, false⟩ ?_
    rw [oflMsgUnpack_of_header _ none (Nat.le_trans (by decide) hswap.len) hswap.version
      hswap.length, hswap.type]
    have hbody (s : UnpackState) : unpackRequestBody (exp.map (OflExp.clear .reqUnpack)) buf
        (multipartType buf) s = .error .nullCall s := by
      rw [hswap.experimenter]
      simp [unpackRequestBody, hreply, hreq, hunpack, callStats]
    exact oflMsgUnpackMultipartRequest_error (s := bodyState buf bufLen none) hswap.len hbody
  · intro hswap cb x s hrun
    have hpasses := nullCall_of_run (ErrorsMarked.clear hL cb) hrun
    refine hswap { hpasses with registered := ?_ }
    have hsome := hpasses.registered
    rw [statsReplyUnpack_clear] at hsome
    split at hsome
    · cases hsome
    · exact hsome

/-- The encoder refuses when the pointer that it would call is `NULL`: a message is not packed, an
action has the length `(size_t)-1` and is cut to its type. -/
structure EncoderTests (exp : Option (OflExp L)) : Prop where
  msg : ∀ m xid heap, oflMsgPack (exp.map (OflExp.clear .msgPack)) (.experimenter m) xid heap =
    packRefused heap
  request : ∀ flags r xid heap, oflMsgPack (exp.map (OflExp.clear .reqPack))
    (.multipartRequest flags (.experimenter r)) xid heap = packRefused heap
  reply : ∀ flags r xid heap, oflMsgPack (exp.map (OflExp.clear .replyPack))
    (.multipartReply flags (.experimenter r)) xid heap = packRefused heap
  actionLen : ∀ a, oflActionsOfpLen (exp.map (OflExp.clear .actOfpLen)) (.experimenter a) =
    2 ^ 64 - 1
  action : ∀ a m dst data,
    (oflActionsPack (exp.map (OflExp.clear .actPack)) (.experimenter a) m dst data).2 = 0

theorem encoderTests (exp : Option (OflExp L)) : EncoderTests exp where
  msg := by
    intro m xid heap
    have hnone : OflExp.msgPack (exp.map (OflExp.clear .msgPack)) = none := by
      cases exp with
      | none => rfl
      | some e => cases hmsg : e.msg <;> simp [OflExp.msgPack, OflExp.clear, hmsg]
    simp [oflMsgPack, packBody, hnone]
  request := by
    intro flags r xid heap
    have hnone : OflExp.statsReqPack (exp.map (OflExp.clear .reqPack)) = none := by
      cases exp with
      | none => rfl
      | some e => cases hstats : e.stats <;> simp [OflExp.statsReqPack, OflExp.clear, hstats]
    simp [oflMsgPack, packBody, oflMsgPackMultipartRequest, packMultipartHeader, hnone]
  reply := by
    intro flags r xid heap
    have hnone : OflExp.statsReplyPack (exp.map (OflExp.clear .replyPack)) = none := by
      cases exp with
      | none => rfl
      | some e => cases hstats : e.stats <;> simp [OflExp.statsReplyPack, OflExp.clear, hstats]
    simp [oflMsgPack, packBody, oflMsgPackMultipartReply, packMultipartHeader, hnone]
  actionLen := by
    intro a
    have hnone : OflExp.actOfpLen (exp.map (OflExp.clear .actOfpLen)) = none := by
      cases exp with
      | none => rfl
      | some e => cases hact : e.act <;> simp [OflExp.actOfpLen, OflExp.clear, hact]
    simp [oflActionsOfpLen, hnone]
  action := by
    intro a m dst data
    have hnone : OflExp.actPack (exp.map (OflExp.clear .actPack)) = none := by
      cases exp with
      | none => rfl
      | some e => cases hact : e.act <;> simp [OflExp.actPack, OflExp.clear, hact]
    simp [oflActionsPack, hnone]

/-- **Where the two sides support the same messages**: what is packed is not refused as unsupported
exactly when it is neither METER_FEATURES nor a request that meets the swapped test, and the decoder
tests what it calls exactly when that test does not pass. -/
theorem sameSupport_iff (hL : L.ErrorsMarked exp) (hexp : OflExp.Matched exp) :
    (∀ msg xid heap, KeepsSupport exp msg xid heap ↔ msg.Supported exp heap) ∧
      EncoderTests exp ∧
      ∀ buf bufLen, DecoderTests exp buf bufLen ↔ ¬ PassesSwappedTest exp buf bufLen :=
  ⟨fun _ _ _ => ⟨supported_of_keepsSupport, keepsSupport_of_supported hL hexp⟩, encoderTests exp,
    decoderTests_iff hL⟩

/-! ## 6. A table -/

/-- The decoder of an experimenter body of `n` bytes. -/
def sampleExpUnpack (n : Nat) : ElemDecoder Unit := fun _ _ len =>
  if len < n then (.error (.external 1), len) else (.ok (), len - n)

theorem sampleExpUnpack_foreign {n pos len : Nat} {buf : Mem} {e : OflErr}
    (h : (sampleExpUnpack n buf pos len).1 = .error e) : e.Foreign := by
  unfold sampleExpUnpack at h
  split at h
  · cases h
    exact ⟨1, rfl⟩
  · cases h

/-- Experimenter messages and requests without data; replies are left out. -/
def sampleExp : OflExp sampleLib.marked where
  msg := some ⟨some fun _ heap => packed heap 16, some (sampleExpUnpack 16)⟩
  act := none
  stats := some ⟨some fun _ heap => packed heap 24, some (sampleExpUnpack 8), none, none⟩

/-- A METER_FEATURES request is packed and refused, an EXPERIMENTER request is refused although both
of its callbacks are registered, and with `reply_unpack` alone `NULL` is called. -/
theorem support_differs :
    let heap : Mem := fun _ => 0
    let meter := oflMsgPack (some sampleExp) (.multipartRequest 0 .meterFeatures) 7 heap
    let request := oflMsgPack (some sampleExp) (.multipartRequest 0 (.experimenter ())) 7 heap
    let replyOnly : OflExp sampleLib.marked :=
      ⟨none, none, some ⟨none, none, none, some (sampleExpUnpack 8)⟩⟩
    (meter.ret = 0 ∧ meter.bufLen = 16 ∧ oflMsgUnpack (some sampleExp) meter.buf 16 none =
      .error (.err badMultipart) ⟨0, none, false, false⟩) ∧
    (request.ret = 0 ∧ request.bufLen = 24 ∧ oflMsgUnpack (some sampleExp) request.buf 24 none =
      .error (.err badMultipart) ⟨8, none, false, false⟩) ∧
    (OflExp.statsReqUnpack (some replyOnly) = none ∧
      oflMsgUnpack (some replyOnly) request.buf 24 none =
        .error .nullCall ⟨8, none, false, false⟩) ∧
    ¬ KeepsSupport (some sampleExp) (.multipartRequest 0 .meterFeatures) 7 heap ∧
    ¬ DecoderTests (some replyOnly) request.buf 24 := by
  refine ⟨⟨rfl, rfl, rfl⟩, ⟨rfl, rfl, rfl⟩, ⟨rfl, rfl⟩, ?_, ?_⟩
  · intro h
    exact h rfl (by decide) _ (fun _ _ _ => rfl) none ⟨badMultipart, by decide, _, rfl⟩
  · intro h
    exact h .reqUnpack none _ rfl

theorem sameSupport_iff_sampleExp :
    (∀ msg xid heap, KeepsSupport (some sampleExp) msg xid heap ↔
        msg.Supported (some sampleExp) heap) ∧
      EncoderTests (some sampleExp) ∧
      ∀ buf bufLen, DecoderTests (some sampleExp) buf bufLen ↔
        ¬ PassesSwappedTest (some sampleExp) buf bufLen :=
  sameSupport_iff
    { sampleLib.marked_errorsMarked with
      msgUnpack := by
        intro unpack h buf pos len e he
        cases h
        exact sampleExpUnpack_foreign he
      reqUnpack := by
        intro unpack h buf pos len e he
        cases h
        exact sampleExpUnpack_foreign he
      replyUnpack := nofun }
    ⟨fun _ => rfl, fun _ => rfl, nofun⟩

end CcPof.OpenFlow

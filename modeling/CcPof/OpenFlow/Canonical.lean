import CcPof.OpenFlow.MatchLayout

/-!
# Encode undoes decode

A canonical buffer has the size of its fixed structure and nothing in its padding. Whatever the
decoder accepts of such a buffer, the encoder turns back into the same bytes: every byte is either
captured by the decoder and written again at its offset, or known to be padding.
-/

namespace CcPof.OpenFlow

variable {L : OflLib} {α β : Type}

/-! ## 1. Canonical buffers -/

/-- The size of a wire structure, whether data may follow it, and the offsets and lengths of its
padding and reserved bytes. -/
structure WireShape where
  size : Nat
  data : Bool
  pads : List (Nat × Nat)

/-- The multipart requests that this repository encodes and decodes alone. -/
def requestShape? : OfpMultipartType → Option WireShape
  | .desc | .table | .groupDesc | .groupFeatures | .portDesc =>
      some ⟨OfpMultipartRequest.size, false, [(OfpMultipartRequest.pad, 4)]⟩
  | .portStats =>
      some ⟨OfpMultipartRequest.size + OfpPortStatsRequest.size, false,
        [(OfpMultipartRequest.pad, 4), (OfpMultipartRequest.body + OfpPortStatsRequest.pad, 4)]⟩
  | .queue =>
      some ⟨OfpMultipartRequest.size + OfpQueueStatsRequest.size, false,
        [(OfpMultipartRequest.pad, 4)]⟩
  | .group =>
      some ⟨OfpMultipartRequest.size + OfpGroupStatsRequest.size, false,
        [(OfpMultipartRequest.pad, 4), (OfpMultipartRequest.body + OfpGroupStatsRequest.pad, 4)]⟩
  | .meter | .meterConfig =>
      some ⟨OfpMultipartRequest.size + OfpMeterMultipartRequest.size, false,
        [(OfpMultipartRequest.pad, 4),
          (OfpMultipartRequest.body + OfpMeterMultipartRequest.pad, 4)]⟩
  | .flow | .aggregate | .meterFeatures | .tableFeatures | .experimenter => none

def replyShape? : OfpMultipartType → Option WireShape
  | .aggregate =>
      some ⟨OfpMultipartReply.size + OfpAggregateStatsReply.size, false,
        [(OfpMultipartReply.pad, 4), (OfpMultipartReply.body + OfpAggregateStatsReply.pad, 4)]⟩
  | .groupFeatures =>
      some ⟨OfpMultipartReply.size + OfpGroupFeaturesStats.size, false,
        [(OfpMultipartReply.pad, 4)]⟩
  | _ => none

/-- The shape of a message of the given type; a multipart message is asked for its own type. -/
def shape? (b : Mem) : OfpType → Option WireShape
  | .hello | .featuresRequest | .getConfigRequest | .getAsyncRequest | .barrierRequest
  | .barrierReply => some ⟨OfpHeader.size, false, []⟩
  | .error => some ⟨OfpErrorMsg.size, true, []⟩
  | .echoRequest | .echoReply => some ⟨OfpHeader.size, true, []⟩
  | .featuresReply =>
      some ⟨OfpSwitchFeatures.size, false,
        [(OfpSwitchFeatures.pad, 2), (OfpSwitchFeatures.reserved, 4)]⟩
  | .getConfigReply | .setConfig => some ⟨OfpSwitchConfig.size, false, []⟩
  | .getAsyncReply | .setAsync => some ⟨OfpAsyncConfig.size, false, []⟩
  | .portMod =>
      some ⟨OfpPortMod.size, false,
        [(OfpPortMod.pad, 4), (OfpPortMod.pad2, 2), (OfpPortMod.pad3, 4)]⟩
  | .tableMod => some ⟨OfpTableMod.size, false, [(OfpTableMod.pad, 3)]⟩
  | .roleRequest | .roleReply => some ⟨OfpRoleRequest.size, false, [(OfpRoleRequest.pad, 4)]⟩
  | .queueGetConfigRequest =>
      some ⟨OfpQueueGetConfigRequest.size, false, [(OfpQueueGetConfigRequest.pad, 4)]⟩
  | .multipartRequest => (multipartType b).bind requestShape?
  | .multipartReply => (multipartType b).bind replyShape?
  | .experimenter | .packetIn | .flowRemoved | .portStatus | .packetOut | .flowMod | .groupMod
  | .queueGetConfigReply | .meterMod => none

def ZeroAt (b : Mem) (off n : Nat) : Prop := ∀ i, off ≤ i → i < off + n → b i = 0

structure Canonical (b : Mem) (len : Nat) : Prop where
  version : b OfpHeader.version = ofpVersion
  length : (ntohs (get16 b OfpHeader.length)).toNat = len
  shaped : ∃ t s, OfpType.ofUInt8? (b OfpHeader.type) = some t ∧ shape? b t = some s ∧
    (len = s.size ∨ s.data = true ∧ s.size ≤ len) ∧ ∀ p ∈ s.pads, ZeroAt b p.1 p.2

theorem OfpType.toUInt8_of_ofUInt8? {n : UInt8} {t : OfpType} (h : ofUInt8? n = some t) :
    t.toUInt8 = n := by
  unfold ofUInt8? at h
  split at h <;> cases h <;> exact UInt8.toNat_inj.mp (Eq.symm ‹_›)

theorem OfpMultipartType.toUInt16_of_ofUInt16? {n : UInt16} {t : OfpMultipartType}
    (h : ofUInt16? n = some t) : t.toUInt16 = n := by
  unfold ofUInt16? at h
  split at h <;> cases h <;> exact UInt16.toNat_inj.mp (Eq.symm ‹_›)

/-! ## 2. Bodies -/

/-- Whatever the decoder makes of the `len` bytes of `b`, `taken` of them already counted off, the
encoder turns it into the bytes of `b` from `lo` on. -/
def Restores (lo taken : Nat) (b : Mem) (len : Nat) (dec : Unpack α)
    (enc : α → Mem → PackResult) : Prop :=
  ∀ xid a s, dec ⟨len - taken, xid, false, false⟩ = .ok a s →
    s.xid = xid ∧ ∀ heap, (enc a heap).ret = 0 ∧ (enc a heap).bufLen = len ∧
      AgreeOn lo len (enc a heap).buf b

variable {b : Mem} {len : Nat}

theorem restores_empty : Restores 8 0 b 8 oflMsgUnpackEmpty (fun _ => oflMsgPackEmpty) := by
  intro xid a s h
  simp [oflMsgUnpackEmpty, subLen_run] at h
  subst h
  exact ⟨rfl, fun heap => ⟨rfl, rfl, fun i hlo hhi => absurd hlo (Nat.not_le.mpr hhi)⟩⟩

theorem restores_error (hlen : 12 ≤ len) :
    Restores 8 0 b len (oflMsgUnpackError b) oflMsgPackError := by
  intro xid a s h
  simp [oflMsgUnpackError, requireLen_run, subLen_run, hlen] at h
  obtain ⟨rfl, rfl⟩ := h
  refine ⟨rfl, fun heap => ⟨rfl, ?_, ?_⟩⟩
  · simp [oflMsgPackError, hlen]
  · intro i hlo hhi
    simp only [oflMsgPackError, htons_ntohs, put16_get16_apply, store_load_apply]
    grind

theorem restores_echo (hlen : 8 ≤ len) :
    Restores 8 0 b len (oflMsgUnpackEcho b) oflMsgPackEcho := by
  intro xid a s h
  simp [oflMsgUnpackEcho, subLen_run, hlen] at h
  obtain ⟨rfl, rfl⟩ := h
  refine ⟨rfl, fun heap => ⟨rfl, ?_, ?_⟩⟩
  · simp [oflMsgPackEcho, hlen]
  · intro i hlo hhi
    simp only [oflMsgPackEcho, store_load_apply]
    grind

theorem restores_roleRequest (hpad : ZeroAt b 12 4) :
    Restores 8 0 b 24 (oflMsgUnpackRoleRequest b) oflMsgPackRoleRequest := by
  intro xid a s h
  simp [oflMsgUnpackRoleRequest, requireLen_run, subLen_run] at h
  obtain ⟨rfl, rfl⟩ := h
  refine ⟨rfl, fun heap => ⟨rfl, rfl, ?_⟩⟩
  intro i hlo hhi
  have hzero := hpad i
  simp only [oflMsgPackRoleRequest, htonl_ntohl, hton64_ntoh64, put32_get32_apply,
    put64_get64_apply, zero_apply]
  grind

theorem restores_featuresReply (hpad : ZeroAt b 22 2) (hreserved : ZeroAt b 28 4) :
    Restores 8 0 b 32 (oflMsgUnpackFeaturesReply b) oflMsgPackFeaturesReply := by
  intro xid a s h
  simp [oflMsgUnpackFeaturesReply, subLen_run] at h
  obtain ⟨rfl, rfl⟩ := h
  refine ⟨rfl, fun heap => ⟨rfl, rfl, ?_⟩⟩
  intro i hlo hhi
  have hzero := hpad i
  have hzero2 := hreserved i
  have hword (m : Mem) : put32 m 28 0 = zero m 28 4 := rfl
  simp only [oflMsgPackFeaturesReply, htonl_ntohl, hton64_ntoh64, put32_get32_apply,
    put64_get64_apply, put8_apply, zero_apply, hword]
  grind

theorem restores_getConfigReply :
    Restores 8 0 b 12 (oflMsgUnpackGetConfigReply b) oflMsgPackGetConfigReply := by
  intro xid a s h
  simp [oflMsgUnpackGetConfigReply, unpackConfig, requireLen_run, subLen_run] at h
  obtain ⟨rfl, rfl⟩ := h
  refine ⟨rfl, fun heap => ⟨rfl, rfl, ?_⟩⟩
  intro i hlo hhi
  simp only [oflMsgPackGetConfigReply, htons_ntohs, put16_get16_apply]
  grind

theorem restores_setConfig :
    Restores 8 0 b 12 (oflMsgUnpackSetConfig b) oflMsgPackSetConfig := by
  intro xid a s h
  simp [oflMsgUnpackSetConfig, unpackConfig, requireLen_run, subLen_run] at h
  obtain ⟨rfl, rfl⟩ := h
  refine ⟨rfl, fun heap => ⟨rfl, rfl, ?_⟩⟩
  intro i hlo hhi
  simp only [oflMsgPackSetConfig, htons_ntohs, put16_get16_apply]
  grind

/-- The masks are copied in host order on both sides. -/
theorem restores_asyncConfig :
    Restores 8 0 b 32 (oflMsgUnpackAsyncConfig b) oflMsgPackAsyncConfig := by
  intro xid a s h
  simp [oflMsgUnpackAsyncConfig, requireLen_run, subLen_run] at h
  obtain ⟨rfl, rfl⟩ := h
  refine ⟨rfl, fun heap => ⟨rfl, rfl, ?_⟩⟩
  intro i hlo hhi
  simp [oflMsgPackAsyncConfig, put32_get32_apply]
  grind

theorem restores_portMod (hpad : ZeroAt b 12 4) (hpad2 : ZeroAt b 22 2) (hpad3 : ZeroAt b 36 4) :
    Restores 8 0 b 40 (oflMsgUnpackPortMod b) oflMsgPackPortMod := by
  intro xid a s h
  simp [oflMsgUnpackPortMod, requireLen_run, subLen_run] at h
  obtain ⟨rfl, rfl⟩ := h
  refine ⟨rfl, fun heap => ⟨rfl, rfl, ?_⟩⟩
  intro i hlo hhi
  have hzero := hpad i
  have hzero2 := hpad2 i
  have hzero3 := hpad3 i
  simp only [oflMsgPackPortMod, htonl_ntohl, put32_get32_apply, zero_apply, ofFn_eq_load,
    store_load_apply]
  grind

theorem restores_tableMod (hpad : ZeroAt b 9 3) :
    Restores 8 0 b 16 (oflMsgUnpackTableMod b) oflMsgPackTableMod := by
  intro xid a s h
  simp [oflMsgUnpackTableMod, requireLen_run, subLen_run] at h
  obtain ⟨rfl, rfl⟩ := h
  refine ⟨rfl, fun heap => ⟨rfl, rfl, ?_⟩⟩
  intro i hlo hhi
  have hzero := hpad i
  simp only [oflMsgPackTableMod, htonl_ntohl, put32_get32_apply, put8_apply, zero_apply]
  grind

theorem restores_queueGetConfigRequest (hpad : ZeroAt b 12 4) :
    Restores 8 0 b 16 (oflMsgUnpackQueueGetConfigRequest b) oflMsgPackQueueGetConfigRequest := by
  intro xid a s h
  -- A port that the decoder rejects is no message.
  by_cases hbad : ntohl (get32 b 8) = 0 ∨ ofppMax < ntohl (get32 b 8)
  · simp [oflMsgUnpackQueueGetConfigRequest, requireLen_run, rejectIf_reject hbad] at h
  simp [oflMsgUnpackQueueGetConfigRequest, requireLen_run, subLen_run, rejectIf_run hbad] at h
  obtain ⟨rfl, rfl⟩ := h
  refine ⟨rfl, fun heap => ⟨rfl, rfl, ?_⟩⟩
  intro i hlo hhi
  have hzero := hpad i
  simp only [oflMsgPackQueueGetConfigRequest, htonl_ntohl, put32_get32_apply, zero_apply]
  grind

/-! ## 3. Multipart bodies -/

theorem restores_requestEmpty :
    Restores 16 16 b 16 oflMsgUnpackMultipartRequestEmpty
      (fun _ => oflMsgPackMultipartRequestEmpty) := by
  intro xid a s h
  simp [oflMsgUnpackMultipartRequestEmpty] at h
  subst h
  exact ⟨rfl, fun heap => ⟨rfl, rfl, fun i hlo hhi => absurd hlo (Nat.not_le.mpr hhi)⟩⟩

theorem restores_requestPort (hpad : ZeroAt b 20 4) :
    Restores 16 16 b 24 (oflMsgUnpackMultipartRequestPort b) oflMsgPackMultipartRequestPort := by
  intro xid a s h
  by_cases hbad : badStatsPort (ntohl (get32 b 16))
  · simp [oflMsgUnpackMultipartRequestPort, requireLen_run, rejectIf_reject hbad] at h
  simp [oflMsgUnpackMultipartRequestPort, requireLen_run, subLen_run, rejectIf_run hbad] at h
  obtain ⟨rfl, rfl⟩ := h
  refine ⟨rfl, fun heap => ⟨rfl, rfl, ?_⟩⟩
  intro i hlo hhi
  have hzero := hpad i
  simp [oflMsgPackMultipartRequestPort, put32_get32_apply, zero_apply]
  grind

theorem restores_requestQueue :
    Restores 16 16 b 24 (oflMsgUnpackMultipartRequestQueue b) oflMsgPackMultipartRequestQueue := by
  intro xid a s h
  by_cases hbad : badStatsPort (ntohl (get32 b 16))
  · simp [oflMsgUnpackMultipartRequestQueue, requireLen_run, rejectIf_reject hbad] at h
  simp [oflMsgUnpackMultipartRequestQueue, requireLen_run, subLen_run, rejectIf_run hbad] at h
  obtain ⟨rfl, rfl⟩ := h
  refine ⟨rfl, fun heap => ⟨rfl, rfl, ?_⟩⟩
  intro i hlo hhi
  simp [oflMsgPackMultipartRequestQueue, put32_get32_apply]
  grind

theorem restores_requestGroup (hpad : ZeroAt b 20 4) :
    Restores 16 16 b 24 (oflMsgUnpackMultipartRequestGroup b) oflMsgPackMultipartRequestGroup := by
  intro xid a s h
  simp [oflMsgUnpackMultipartRequestGroup, requireLen_run, subLen_run] at h
  obtain ⟨rfl, rfl⟩ := h
  refine ⟨rfl, fun heap => ⟨rfl, rfl, ?_⟩⟩
  intro i hlo hhi
  have hzero := hpad i
  simp [oflMsgPackMultipartRequestGroup, put32_get32_apply, zero_apply]
  grind

theorem restores_requestMeter (hpad : ZeroAt b 20 4) :
    Restores 16 16 b 24 (oflMsgUnpackMeterMultipartRequest b) oflMsgPackMeterMultipartRequest := by
  intro xid a s h
  simp [oflMsgUnpackMeterMultipartRequest, requireLen_run, subLen_run] at h
  obtain ⟨rfl, rfl⟩ := h
  refine ⟨rfl, fun heap => ⟨rfl, rfl, ?_⟩⟩
  intro i hlo hhi
  have hzero := hpad i
  simp [oflMsgPackMeterMultipartRequest, put32_get32_apply, zero_apply]
  grind

theorem restores_replyAggregate (hpad : ZeroAt b 36 4) :
    Restores 16 16 b 40 (oflMsgUnpackMultipartReplyAggregate b)
      oflMsgPackMultipartReplyAggregate := by
  intro xid a s h
  simp [oflMsgUnpackMultipartReplyAggregate, requireLen_run, subLen_run] at h
  obtain ⟨rfl, rfl⟩ := h
  refine ⟨rfl, fun heap => ⟨rfl, rfl, ?_⟩⟩
  intro i hlo hhi
  have hzero := hpad i
  simp [oflMsgPackMultipartReplyAggregate, put32_get32_apply, put64_get64_apply, zero_apply]
  grind

theorem restores_replyGroupFeatures :
    Restores 16 16 b 56 (oflMsgUnpackMultipartReplyGroupFeatures b)
      oflMsgPackMultipartReplyGroupFeatures := by
  intro xid a s h
  simp [oflMsgUnpackMultipartReplyGroupFeatures, requireLen_run, subLen_run] at h
  obtain ⟨rfl, rfl⟩ := h
  refine ⟨rfl, fun heap => ⟨rfl, rfl, ?_⟩⟩
  intro i hlo hhi
  simp [oflMsgPackMultipartReplyGroupFeatures, put32_get32_apply]
  grind

/-! ## 4. The dispatchers -/

/-- The body decoder of type `t` against the encoder of whatever message it returns. -/
def RestoresMsg (exp : Option (OflExp L)) (b : Mem) (len : Nat) (t : OfpType) : Prop :=
  ∀ xid m s, unpackBody exp b (some t) ⟨len, xid, false, false⟩ = .ok m s →
    m.type = t.toUInt8 ∧ s.xid = xid ∧ ∀ heap, (packBody exp m heap).ret = 0 ∧
      (packBody exp m heap).bufLen = len ∧ AgreeOn 8 len (packBody exp m heap).buf b

variable {exp : Option (OflExp L)}

theorem RestoresMsg.of {t : OfpType} {dec : Unpack α} {enc : α → Mem → PackResult}
    (f : α → OflMsg L) (h : Restores 8 0 b len dec enc)
    (hdec : ∀ s, unpackBody exp b (some t) s = (f <$> dec) s) (htype : ∀ a, (f a).type = t.toUInt8)
    (henc : ∀ a heap, packBody exp (f a) heap = enc a heap) : RestoresMsg exp b len t := by
  intro xid m s hrun
  rw [hdec, map_run] at hrun
  cases hres : dec ⟨len, xid, false, false⟩ with
  | error e s' =>
    rw [hres] at hrun
    cases hrun
  | ok a s' =>
    rw [hres] at hrun
    cases hrun
    obtain ⟨hxid, hback⟩ := h xid a s hres
    refine ⟨htype a, hxid, fun heap => ?_⟩
    rw [henc]
    exact hback heap

/-- The multipart header that was read is written again over its own bytes. -/
theorem agreeOn_multipartHeader_back {r : PackResult} {type : UInt16} (hret : r.ret = 0)
    (htype : type = ntohs (get16 b 8)) (hpad : ZeroAt b 12 4) (h : AgreeOn 16 len r.buf b) :
    AgreeOn 8 len (packMultipartHeader type (ntohs (get16 b 10)) r).buf b := by
  rw [packMultipartHeader_of_ret hret, htype]
  intro i hlo hhi
  have hzero := hpad i
  have hbody := h i
  simp only [htons_ntohs, put16_get16_apply, zero_apply]
  grind

/-- A body that is restored is restored with its multipart header. -/
theorem Restores.multipart {t : OfpMultipartType} {dec : Unpack α} {enc : α → Mem → PackResult}
    (h : Restores 16 16 b len dec enc) (htag : multipartType b = some t) (hpad : ZeroAt b 12 4) :
    Restores 8 16 b len dec fun a heap =>
      packMultipartHeader t.toUInt16 (ntohs (get16 b 10)) (enc a heap) := by
  intro xid a s hrun
  obtain ⟨hxid, hback⟩ := h xid a s hrun
  refine ⟨hxid, fun heap => ?_⟩
  obtain ⟨hret, hbufLen, hagree⟩ := hback heap
  have hwire : t.toUInt16 = ntohs (get16 b 8) := OfpMultipartType.toUInt16_of_ofUInt16? htag
  dsimp only
  refine ⟨?_, ?_, agreeOn_multipartHeader_back hret hwire hpad hagree⟩
  · rw [packMultipartHeader_of_ret hret]
  · rw [packMultipartHeader_of_ret hret]
    exact hbufLen

theorem RestoresMsg.request {t : OfpMultipartType} {dec : Unpack α} {enc : α → Mem → PackResult}
    (f : α → MultipartRequest L) (h : Restores 16 16 b len dec enc)
    (htag : multipartType b = some t) (hlen : 16 ≤ len) (hpad : ZeroAt b 12 4)
    (hdec : ∀ s, unpackRequestBody exp b (some t) s = (f <$> dec) s)
    (htype : ∀ a, (f a).type = t.toUInt16)
    (henc : ∀ a flags heap, packBody exp (.multipartRequest flags (f a)) heap =
      packMultipartHeader (f a).type flags (enc a heap)) :
    RestoresMsg exp b len .multipartRequest := by
  intro xid m s hrun
  have htag' : OfpMultipartType.ofUInt16? (ntohs (get16 b 8)) = some t := htag
  simp [unpackBody, oflMsgUnpackMultipartRequest, requireLen_run, subLen_run, hlen, htag', hdec]
    at hrun
  cases hres : dec ⟨len - 16, xid, false, false⟩ with
  | error e s' =>
    rw [hres] at hrun
    cases hrun
  | ok a s' =>
    rw [hres] at hrun
    cases hrun
    obtain ⟨hxid, hback⟩ := h.multipart htag hpad xid a s hres
    refine ⟨rfl, hxid, fun heap => ?_⟩
    rw [henc, htype]
    exact hback heap

theorem RestoresMsg.reply {t : OfpMultipartType} {dec : Unpack α} {enc : α → Mem → PackResult}
    (f : α → MultipartReply L) (h : Restores 16 16 b len dec enc)
    (htag : multipartType b = some t) (hlen : 16 ≤ len) (hpad : ZeroAt b 12 4)
    (hdec : ∀ s, unpackReplyBody exp b (some t) s = (f <$> dec) s)
    (htype : ∀ a, (f a).type = t.toUInt16)
    (henc : ∀ a flags heap, packBody exp (.multipartReply flags (f a)) heap =
      packMultipartHeader (f a).type flags (enc a heap)) :
    RestoresMsg exp b len .multipartReply := by
  intro xid m s hrun
  have htag' : OfpMultipartType.ofUInt16? (ntohs (get16 b 8)) = some t := htag
  simp [unpackBody, oflMsgUnpackMultipartReply, requireLen_run, subLen_run, hlen, htag', hdec]
    at hrun
  cases hres : dec ⟨len - 16, xid, false, false⟩ with
  | error e s' =>
    rw [hres] at hrun
    cases hrun
  | ok a s' =>
    rw [hres] at hrun
    cases hrun
    obtain ⟨hxid, hback⟩ := h.multipart htag hpad xid a s hres
    refine ⟨rfl, hxid, fun heap => ?_⟩
    rw [henc, htype]
    exact hback heap

/-- The requests without a body. -/
theorem RestoresMsg.requestEmpty {t : OfpMultipartType} (body : MultipartRequest L)
    (htag : multipartType b = some t) (hpad : ZeroAt b 12 4)
    (hdec : unpackRequestBody exp b (some t) = do oflMsgUnpackMultipartRequestEmpty; pure body)
    (htype : body.type = t.toUInt16)
    (henc : ∀ flags heap, packBody exp (.multipartRequest flags body) heap =
      packMultipartHeader body.type flags (oflMsgPackMultipartRequestEmpty heap)) :
    RestoresMsg exp b 16 .multipartRequest := by
  refine .request (fun _ => body) restores_requestEmpty htag (le_refl 16) hpad ?_ (fun _ => htype)
    fun _ => henc
  intro s
  rw [hdec]
  simp

theorem restoresMsg_request {t : OfpMultipartType} {s : WireShape}
    (htag : multipartType b = some t) (hshape : requestShape? t = some s)
    (hpads : ∀ p ∈ s.pads, ZeroAt b p.1 p.2) : RestoresMsg exp b s.size .multipartRequest := by
  cases t with
  | desc =>
    cases hshape
    exact .requestEmpty .desc htag (hpads (12, 4) (by simp)) rfl rfl fun _ _ => rfl
  | table =>
    cases hshape
    exact .requestEmpty .table htag (hpads (12, 4) (by simp)) rfl rfl fun _ _ => rfl
  | groupDesc =>
    cases hshape
    exact .requestEmpty .groupDesc htag (hpads (12, 4) (by simp)) rfl rfl fun _ _ => rfl
  | groupFeatures =>
    cases hshape
    exact .requestEmpty .groupFeatures htag (hpads (12, 4) (by simp)) rfl rfl fun _ _ => rfl
  | portDesc =>
    cases hshape
    exact .requestEmpty .portDesc htag (hpads (12, 4) (by simp)) rfl rfl fun _ _ => rfl
  | portStats =>
    cases hshape
    exact .request .portStats (restores_requestPort (hpads (20, 4) (by simp))) htag (by decide)
      (hpads (12, 4) (by simp)) (fun _ => rfl) (fun _ => rfl) fun _ _ _ => rfl
  | queue =>
    cases hshape
    exact .request .queue restores_requestQueue htag (by decide) (hpads (12, 4) (by simp))
      (fun _ => rfl) (fun _ => rfl) fun _ _ _ => rfl
  | group =>
    cases hshape
    exact .request .group (restores_requestGroup (hpads (20, 4) (by simp))) htag (by decide)
      (hpads (12, 4) (by simp)) (fun _ => rfl) (fun _ => rfl) fun _ _ _ => rfl
  | meter =>
    cases hshape
    exact .request .meter (restores_requestMeter (hpads (20, 4) (by simp))) htag (by decide)
      (hpads (12, 4) (by simp)) (fun _ => rfl) (fun _ => rfl) fun _ _ _ => rfl
  | meterConfig =>
    cases hshape
    exact .request .meterConfig (restores_requestMeter (hpads (20, 4) (by simp))) htag (by decide)
      (hpads (12, 4) (by simp)) (fun _ => rfl) (fun _ => rfl) fun _ _ _ => rfl
  | _ => cases hshape

theorem restoresMsg_reply {t : OfpMultipartType} {s : WireShape}
    (htag : multipartType b = some t) (hshape : replyShape? t = some s)
    (hpads : ∀ p ∈ s.pads, ZeroAt b p.1 p.2) : RestoresMsg exp b s.size .multipartReply := by
  cases t with
  | aggregate =>
    cases hshape
    exact .reply .aggregate (restores_replyAggregate (hpads (36, 4) (by simp))) htag (by decide)
      (hpads (12, 4) (by simp)) (fun _ => rfl) (fun _ => rfl) fun _ _ _ => rfl
  | groupFeatures =>
    cases hshape
    exact .reply .groupFeatures restores_replyGroupFeatures htag (by decide)
      (hpads (12, 4) (by simp)) (fun _ => rfl) (fun _ => rfl) fun _ _ _ => rfl
  | _ => cases hshape

/-- The messages that are a header and nothing else. -/
theorem RestoresMsg.empty {t : OfpType} (msg : OflMsg L)
    (hdec : unpackBody exp b (some t) = do oflMsgUnpackEmpty; pure msg)
    (htype : msg.type = t.toUInt8) (henc : ∀ heap, packBody exp msg heap = oflMsgPackEmpty heap) :
    RestoresMsg exp b 8 t := by
  refine .of (fun _ => msg) restores_empty ?_ (fun _ => htype) fun _ => henc
  intro s
  rw [hdec]
  simp

/-- Every shape has its decoder undone by its encoder. -/
theorem restoresMsg {t : OfpType} {s : WireShape} (hshape : shape? b t = some s)
    (hlen : len = s.size ∨ s.data = true ∧ s.size ≤ len) (hpads : ∀ p ∈ s.pads, ZeroAt b p.1 p.2) :
    RestoresMsg exp b len t := by
  -- Without data the size is exact, with data it is a lower bound.
  have hexact (hdata : s.data = false) : len = s.size := hlen.resolve_right (by simp [hdata])
  have hmin : s.size ≤ len := by
    cases hlen with
    | inl h => exact Nat.le_of_eq h.symm
    | inr h => exact h.2
  cases t with
  | hello =>
    cases hshape
    rw [hexact rfl]
    exact .empty .hello rfl rfl fun _ => rfl
  | featuresRequest =>
    cases hshape
    rw [hexact rfl]
    exact .empty .featuresRequest rfl rfl fun _ => rfl
  | getConfigRequest =>
    cases hshape
    rw [hexact rfl]
    exact .empty .getConfigRequest rfl rfl fun _ => rfl
  | getAsyncRequest =>
    cases hshape
    rw [hexact rfl]
    exact .empty .getAsyncRequest rfl rfl fun _ => rfl
  | barrierRequest =>
    cases hshape
    rw [hexact rfl]
    exact .empty .barrierRequest rfl rfl fun _ => rfl
  | barrierReply =>
    cases hshape
    rw [hexact rfl]
    exact .empty .barrierReply rfl rfl fun _ => rfl
  | error =>
    cases hshape
    exact .of .error (restores_error hmin) (fun _ => rfl) (fun _ => rfl) fun _ _ => rfl
  | echoRequest =>
    cases hshape
    exact .of .echoRequest (restores_echo hmin) (fun _ => rfl) (fun _ => rfl) fun _ _ => rfl
  | echoReply =>
    cases hshape
    exact .of .echoReply (restores_echo hmin) (fun _ => rfl) (fun _ => rfl) fun _ _ => rfl
  | featuresReply =>
    cases hshape
    rw [hexact rfl]
    have hback := restores_featuresReply (hpads (22, 2) (by simp)) (hpads (28, 4) (by simp))
    exact .of .featuresReply hback (fun _ => rfl) (fun _ => rfl) fun _ _ => rfl
  | getConfigReply =>
    cases hshape
    rw [hexact rfl]
    exact .of .getConfigReply restores_getConfigReply (fun _ => rfl) (fun _ => rfl)
      fun _ _ => rfl
  | setConfig =>
    cases hshape
    rw [hexact rfl]
    exact .of .setConfig restores_setConfig (fun _ => rfl) (fun _ => rfl)
      fun _ _ => rfl
  | getAsyncReply =>
    cases hshape
    rw [hexact rfl]
    exact .of .getAsyncReply restores_asyncConfig (fun _ => rfl) (fun _ => rfl)
      fun _ _ => rfl
  | setAsync =>
    cases hshape
    rw [hexact rfl]
    exact .of .setAsync restores_asyncConfig (fun _ => rfl) (fun _ => rfl)
      fun _ _ => rfl
  | portMod =>
    cases hshape
    rw [hexact rfl]
    have hback := restores_portMod (hpads (12, 4) (by simp)) (hpads (22, 2) (by simp))
      (hpads (36, 4) (by simp))
    exact .of .portMod hback (fun _ => rfl) (fun _ => rfl) fun _ _ => rfl
  | tableMod =>
    cases hshape
    rw [hexact rfl]
    exact .of .tableMod (restores_tableMod (hpads (9, 3) (by simp))) (fun _ => rfl)
      (fun _ => rfl) fun _ _ => rfl
  | roleRequest =>
    cases hshape
    rw [hexact rfl]
    exact .of .roleRequest (restores_roleRequest (hpads (12, 4) (by simp))) (fun _ => rfl)
      (fun _ => rfl) fun _ _ => rfl
  | roleReply =>
    cases hshape
    rw [hexact rfl]
    exact .of .roleReply (restores_roleRequest (hpads (12, 4) (by simp))) (fun _ => rfl)
      (fun _ => rfl) fun _ _ => rfl
  | queueGetConfigRequest =>
    cases hshape
    rw [hexact rfl]
    have hback := restores_queueGetConfigRequest (hpads (12, 4) (by simp))
    exact .of .queueGetConfigRequest hback (fun _ => rfl) (fun _ => rfl) fun _ _ => rfl
  | multipartRequest =>
    obtain ⟨t, htag, hbody⟩ := Option.bind_eq_some_iff.mp hshape
    have hdata : s.data = false := by cases t <;> cases hbody <;> rfl
    rw [hexact hdata]
    exact restoresMsg_request htag hbody hpads
  | multipartReply =>
    obtain ⟨t, htag, hbody⟩ := Option.bind_eq_some_iff.mp hshape
    have hdata : s.data = false := by cases t <;> cases hbody <;> rfl
    rw [hexact hdata]
    exact restoresMsg_reply htag hbody hpads
  | _ => cases hshape

/-! ## 5. Whole messages -/

/-- The common header that was read is written again over its own bytes. -/
theorem agreeOn_header_back {type : UInt8} {buf : Mem} (hversion : b 0 = ofpVersion)
    (htype : type = b 1) (hlength : (ntohs (get16 b 2)).toNat = len) (h : AgreeOn 8 len buf b) :
    AgreeOn 0 len (packHeader type (ntohl (get32 b 4)) len buf) b := by
  have hswap : htons (UInt16.ofNat len) = get16 b 2 := by
    rw [← hlength, UInt16.ofNat_toNat, htons_ntohs]
  intro i hlo hhi
  have hbody := h i
  simp only [packHeader, OfpHeader.version, OfpHeader.type, OfpHeader.length, OfpHeader.xid, hswap,
    htonl_ntohl, put16_get16_apply, put32_get32_apply, put8_apply]
  grind

/-- **Encode undoes decode**: what the decoder accepts of a canonical buffer, with the xid that it
reports, encodes to the same bytes. -/
theorem oflMsgPack_of_unpack (exp : Option (OflExp L)) (old : UInt32) {x : UInt32}
    {m : OflMsg L} {s : UnpackState} (hb : Canonical b len)
    (hrun : oflMsgUnpack exp b len (some old) = .ok m s) (hxid : s.xid = some x) (heap : Mem) :
    (oflMsgPack exp m x heap).ret = 0 ∧ (oflMsgPack exp m x heap).bufLen = len ∧
      AgreeOn 0 len (oflMsgPack exp m x heap).buf b := by
  obtain ⟨hversion, hlength, t, shape, htype, hshape, hlen, hpads⟩ := hb
  have hmin : 8 ≤ len := by
    by_contra hshort
    rw [oflMsgUnpack_of_short exp _ (by omega)] at hrun
    cases hrun
  rw [oflMsgUnpack_of_header exp _ hmin hversion hlength] at hrun
  have htype' : OfpType.ofUInt8? (b 1) = some t := htype
  rw [htype', bodyState] at hrun
  -- The body comes back whatever the buffer held before, and the header is written over it.
  obtain ⟨htag, hx, hback⟩ := restoresMsg hshape hlen hpads _ _ _ hrun
  obtain ⟨hret, hbufLen, hbody⟩ := hback heap
  have hxid' : x = ntohl (get32 b 4) := by
    rw [hxid] at hx
    exact Option.some.inj hx
  have hwire : m.type = b 1 := by rw [htag, OfpType.toUInt8_of_ofUInt8? htype]
  rw [oflMsgPack_of_body _ hret]
  refine ⟨rfl, hbufLen, ?_⟩
  rw [hbufLen, hxid']
  exact agreeOn_header_back hversion hwire hlength hbody

/-- A TABLE_MOD of table 3 with xid 7. -/
def sampleTableMod : Mem := sampleBuf [4, 17, 0, 16, 0, 0, 0, 7, 3, 0, 0, 0, 0, 0, 0, 5]

theorem sampleTableMod_canonical : Canonical sampleTableMod 16 where
  version := rfl
  length := by decide
  shaped := by
    refine ⟨.tableMod, ⟨16, false, [(9, 3)]⟩, rfl, rfl, Or.inl rfl, ?_⟩
    intro p hp
    cases List.mem_singleton.mp hp
    intro i hlo hhi
    have hi : i = 9 ∨ i = 10 ∨ i = 11 := by omega
    obtain rfl | rfl | rfl := hi <;> rfl

theorem oflMsgPack_of_unpack_tableMod :
    AgreeOn 0 16
      (oflMsgPack (L := sampleLib) none (.tableMod ⟨3, 5⟩) 7 (fun _ => 255)).buf sampleTableMod :=
  (oflMsgPack_of_unpack (L := sampleLib) none 0 (s := ⟨0, some 7, false, false⟩)
    sampleTableMod_canonical rfl rfl (fun _ => 255)).2.2

end CcPof.OpenFlow

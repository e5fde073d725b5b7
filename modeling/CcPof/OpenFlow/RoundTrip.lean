import Mathlib.Data.Fin.Basic
import CcPof.OpenFlow.SampleLib
import CcPof.OpenFlow.UnpackRules

/-!
# Decode undoes encode

Each encoder of this repository against its decoder, and from the bodies the whole message through
the two dispatchers.
-/

namespace CcPof.OpenFlow

variable {L : OflLib} {α β : Type}

/-! ## 1. What it means to read a message back -/

/-- On every memory that holds the bytes of `r` from `lo` on, and with `taken` bytes already counted
off, the decoder returns `a` and has used up the message. -/
def Decodes (lo taken : Nat) (r : PackResult) (dec : Mem → Unpack α) (a : α) : Prop :=
  ∀ buf, AgreeOn lo r.bufLen buf r.buf → ∀ xid,
    dec buf ⟨r.bufLen - taken, xid, false, false⟩ = .ok a ⟨0, xid, false, false⟩

theorem Decodes.map {lo taken : Nat} {r : PackResult} {dec : Mem → Unpack α} {a : α} (f : α → β)
    (h : Decodes lo taken r dec a) : Decodes lo taken r (fun buf => f <$> dec buf) (f a) := by
  intro buf hbuf xid
  simp only [map_run, h buf hbuf xid]

/-! ## 2. Messages with a fixed body -/

theorem decodes_empty (heap : Mem) (a : α) :
    Decodes 8 0 (oflMsgPackEmpty heap) (fun _ => do oflMsgUnpackEmpty; pure a) a := by
  intro buf _ xid
  simp [oflMsgPackEmpty, packed, oflMsgUnpackEmpty, subLen_run]

theorem decodes_error (m : OflMsgError) (heap : Mem) :
    Decodes 8 0 (oflMsgPackError m heap) oflMsgUnpackError m := by
  intro buf h xid
  simp only [oflMsgPackError, packed] at h ⊢
  have hdata : load buf 12 m.data.length = m.data := by
    rw [h.load (by simp) (by simp), load_store_same _ _ _ _ rfl]
  have hfixed := h.mono (le_refl 8) (Nat.le_add_right 12 _)
  simp [oflMsgUnpackError, requireLen_run, subLen_run, hdata]
  simp (disch := simp) [hfixed.get16, get16_store_disjoint]

theorem decodes_echo (m : OflMsgEcho) (heap : Mem) :
    Decodes 8 0 (oflMsgPackEcho m heap) oflMsgUnpackEcho m := by
  intro buf h xid
  simp only [oflMsgPackEcho, packed] at h ⊢
  have hdata : load buf 8 m.data.length = m.data := by
    rw [h.load (by simp) (by simp), load_store_same _ _ _ _ rfl]
  simp [oflMsgUnpackEcho, subLen_run, hdata]

theorem decodes_roleRequest (m : OflMsgRoleRequest) (heap : Mem) :
    Decodes 8 0 (oflMsgPackRoleRequest m heap) oflMsgUnpackRoleRequest m := by
  intro buf h xid
  simp only [oflMsgPackRoleRequest, packed] at h ⊢
  simp [oflMsgUnpackRoleRequest, requireLen_run, subLen_run]
  simp (disch := simp) [h.get32, h.get64, get32_store_disjoint]

theorem decodes_featuresReply (m : OflMsgFeaturesReply) (heap : Mem) :
    Decodes 8 0 (oflMsgPackFeaturesReply m heap) oflMsgUnpackFeaturesReply m := by
  intro buf h xid
  simp only [oflMsgPackFeaturesReply, packed] at h ⊢
  simp [oflMsgUnpackFeaturesReply, subLen_run]
  simp (disch := simp) [h.get8, h.get32, h.get64, get32_store_disjoint, get64_store_disjoint,
    store_outside]

theorem decodes_getConfigReply (config : OflConfig) (heap : Mem) :
    Decodes 8 0 (oflMsgPackGetConfigReply config heap) oflMsgUnpackGetConfigReply config := by
  intro buf h xid
  simp only [oflMsgPackGetConfigReply, packed] at h ⊢
  simp [oflMsgUnpackGetConfigReply, unpackConfig, requireLen_run, subLen_run]
  simp (disch := simp) [h.get16, get16_store_disjoint]

theorem decodes_setConfig (config : OflConfig) (heap : Mem) :
    Decodes 8 0 (oflMsgPackSetConfig config heap) oflMsgUnpackSetConfig config := by
  intro buf h xid
  simp only [oflMsgPackSetConfig, packed] at h ⊢
  simp [oflMsgUnpackSetConfig, unpackConfig, requireLen_run, subLen_run]
  simp (disch := simp) [h.get16, get16_store_disjoint]

theorem decodes_asyncConfig (config : OflAsyncConfig) (heap : Mem) :
    Decodes 8 0 (oflMsgPackAsyncConfig config heap) oflMsgUnpackAsyncConfig config := by
  intro buf h xid
  simp only [oflMsgPackAsyncConfig, packed] at h ⊢
  simp [oflMsgUnpackAsyncConfig, requireLen_run, subLen_run] at h ⊢
  have hmasks : ∀ i : Fin 2, get32 buf (8 + 4 * i) = config.packetInMask i ∧
      get32 buf (16 + 4 * i) = config.portStatusMask i ∧
      get32 buf (24 + 4 * i) = config.flowRemovedMask i := by
    intro i
    match i with
    | 0 | 1 => simp (disch := simp) [h.get32, get32_store_disjoint]
  simp only [fun i => (hmasks i).1, fun i => (hmasks i).2.1, fun i => (hmasks i).2.2]

theorem decodes_portMod (m : OflMsgPortMod) (heap : Mem) :
    Decodes 8 0 (oflMsgPackPortMod m heap) oflMsgUnpackPortMod m := by
  intro buf h xid
  simp only [oflMsgPackPortMod, packed] at h ⊢
  have haddr : (fun i : Fin 6 => buf (16 + i)) = m.hwAddr := by
    funext i
    have hi := i.isLt
    rw [h.get8 (by omega) (by simp; omega)]
    have hframe : ∀ (buf : Mem) (off : Nat) (bs : List UInt8), 22 ≤ off →
        store buf off bs (16 + i) = buf (16 + i) := fun _ _ _ hoff => store_outside (by omega)
    simp (disch := simp) only [zero, put32, hframe]
    rw [store_inside (by simp), List.getElem_ofFn]
  simp [oflMsgUnpackPortMod, requireLen_run, subLen_run, haddr]
  simp (disch := simp) [h.get32, get32_store_disjoint]

theorem decodes_tableMod (m : OflMsgTableMod) (heap : Mem) :
    Decodes 8 0 (oflMsgPackTableMod m heap) oflMsgUnpackTableMod m := by
  intro buf h xid
  simp only [oflMsgPackTableMod, packed] at h ⊢
  simp [oflMsgUnpackTableMod, requireLen_run, subLen_run]
  simp (disch := simp) [h.get8, h.get32, store_outside]

theorem decodes_queueGetConfigRequest (port : UInt32) (heap : Mem)
    (hport : port ≠ 0 ∧ port ≤ ofppMax) :
    Decodes 8 0 (oflMsgPackQueueGetConfigRequest port heap) oflMsgUnpackQueueGetConfigRequest
      port := by
  intro buf h xid
  simp only [oflMsgPackQueueGetConfigRequest, packed] at h ⊢
  have hread : ntohl (get32 buf 8) = port := by
    simp (disch := simp) [h.get32, get32_store_disjoint]
  have hok : ¬ (port = 0 ∨ ofppMax < port) := by
    rintro (h0 | hmax)
    · exact hport.1 h0
    · exact absurd hmax (UInt32.not_lt.mpr hport.2)
  simp [oflMsgUnpackQueueGetConfigRequest, requireLen_run, subLen_run, hread, rejectIf_run hok]

/-! ## 3. Multipart bodies -/

theorem decodes_multipartRequestPort (portNo : UInt32) (heap : Mem) (hport : ¬ badStatsPort portNo) :
    Decodes 16 16 (oflMsgPackMultipartRequestPort portNo heap) oflMsgUnpackMultipartRequestPort
      portNo := by
  intro buf h xid
  simp only [oflMsgPackMultipartRequestPort, packed] at h ⊢
  have hread : ntohl (get32 buf 16) = portNo := by
    simp (disch := simp) [h.get32, get32_store_disjoint]
  simp [oflMsgUnpackMultipartRequestPort, requireLen_run, subLen_run, hread, rejectIf_run hport]

theorem decodes_multipartRequestQueue (r : OflMsgMultipartRequestQueue) (heap : Mem)
    (hport : ¬ badStatsPort r.portNo) :
    Decodes 16 16 (oflMsgPackMultipartRequestQueue r heap) oflMsgUnpackMultipartRequestQueue r := by
  intro buf h xid
  simp only [oflMsgPackMultipartRequestQueue, packed] at h ⊢
  have hread : ntohl (get32 buf 16) = r.portNo := by
    simp (disch := simp) [h.get32, get32_store_disjoint]
  simp [oflMsgUnpackMultipartRequestQueue, requireLen_run, subLen_run, hread, rejectIf_run hport]
  simp (disch := simp) [h.get32]

theorem decodes_multipartRequestGroup (groupId : UInt32) (heap : Mem) :
    Decodes 16 16 (oflMsgPackMultipartRequestGroup groupId heap) oflMsgUnpackMultipartRequestGroup
      groupId := by
  intro buf h xid
  simp only [oflMsgPackMultipartRequestGroup, packed] at h ⊢
  simp [oflMsgUnpackMultipartRequestGroup, requireLen_run, subLen_run]
  simp (disch := simp) [h.get32, get32_store_disjoint]

theorem decodes_meterMultipartRequest (meterId : UInt32) (heap : Mem) :
    Decodes 16 16 (oflMsgPackMeterMultipartRequest meterId heap) oflMsgUnpackMeterMultipartRequest
      meterId := by
  intro buf h xid
  simp only [oflMsgPackMeterMultipartRequest, packed] at h ⊢
  simp [oflMsgUnpackMeterMultipartRequest, requireLen_run, subLen_run]
  simp (disch := simp) [h.get32, get32_store_disjoint]

theorem decodes_multipartRequestEmpty (heap : Mem) (a : α) :
    Decodes 16 16 (oflMsgPackMultipartRequestEmpty heap)
      (fun _ => do oflMsgUnpackMultipartRequestEmpty; pure a) a := by
  intro buf _ xid
  simp [oflMsgPackMultipartRequestEmpty, packed, oflMsgUnpackMultipartRequestEmpty]

theorem decodes_multipartReplyAggregate (r : OflMsgMultipartReplyAggregate) (heap : Mem) :
    Decodes 16 16 (oflMsgPackMultipartReplyAggregate r heap) oflMsgUnpackMultipartReplyAggregate
      r := by
  intro buf h xid
  simp only [oflMsgPackMultipartReplyAggregate, packed] at h ⊢
  simp [oflMsgUnpackMultipartReplyAggregate, requireLen_run, subLen_run]
  simp (disch := simp) [h.get32, h.get64, get32_store_disjoint, get64_store_disjoint]

theorem decodes_multipartReplyGroupFeatures (r : OflMsgMultipartReplyGroupFeatures) (heap : Mem) :
    Decodes 16 16 (oflMsgPackMultipartReplyGroupFeatures r heap)
      oflMsgUnpackMultipartReplyGroupFeatures r := by
  intro buf h xid
  simp only [oflMsgPackMultipartReplyGroupFeatures, packed] at h ⊢
  simp [oflMsgUnpackMultipartReplyGroupFeatures, requireLen_run, subLen_run] at h ⊢
  have hwords : ∀ i : Fin 4, ntohl (get32 buf (24 + 4 * i)) = r.maxGroups i ∧
      ntohl (get32 buf (40 + 4 * i)) = r.actions i := by
    intro i
    match i with
    | 0 | 1 | 2 | 3 => simp (disch := simp) [h.get32, get32_store_disjoint]
  simp only [fun i => (hwords i).1, fun i => (hwords i).2]
  simp (disch := simp) [h.get32, get32_store_disjoint]

/-! ## 4. The dispatchers -/

theorem packMultipartHeader_of_ret {type flags : UInt16} {r : PackResult} (hret : r.ret = 0) :
    packMultipartHeader type flags r =
      ⟨0, zero (put16 (put16 r.buf 8 (htons type)) 10 (htons flags)) 12 4, r.bufLen⟩ :=
  if_neg fun hne => hne hret

/-- The dispatchers write the multipart header below the body and leave the body alone. -/
theorem agreeOn_multipartHeader {type flags : UInt16} {r : PackResult} {buf : Mem}
    (hret : r.ret = 0) (hlen : 16 ≤ r.bufLen)
    (h : AgreeOn 8 r.bufLen buf (packMultipartHeader type flags r).buf) :
    ntohs (get16 buf 8) = type ∧ ntohs (get16 buf 10) = flags ∧ AgreeOn 16 r.bufLen buf r.buf := by
  rw [packMultipartHeader_of_ret hret] at h
  have hfixed := h.mono (le_refl 8) hlen
  have hbody := h.mono (show 8 ≤ 16 by omega) le_rfl
  refine ⟨?_, ?_, ((hbody.of_store (by simp)).of_store (by simp)).of_store (by simp)⟩
  · simp (disch := simp) [hfixed.get16, get16_store_disjoint]
  · simp (disch := simp) [hfixed.get16, get16_store_disjoint]

theorem Decodes.multipartRequest {exp : Option (OflExp L)} {r : PackResult} {t : OfpMultipartType}
    {body : MultipartRequest L} (flags : UInt16) (hret : r.ret = 0) (hlen : 16 ≤ r.bufLen)
    (htype : body.type = t.toUInt16)
    (h : Decodes 16 16 r (fun buf => unpackRequestBody exp buf (some t)) body) :
    Decodes 8 0 (packMultipartHeader body.type flags r) (oflMsgUnpackMultipartRequest exp)
      (.multipartRequest flags body) := by
  intro buf hbuf xid
  have hbufLen : (packMultipartHeader body.type flags r).bufLen = r.bufLen := by
    rw [packMultipartHeader_of_ret hret]
  rw [hbufLen] at hbuf ⊢
  obtain ⟨htag, hflags, hbody⟩ := agreeOn_multipartHeader hret hlen hbuf
  have hrun := h buf hbody xid
  simp [oflMsgUnpackMultipartRequest, requireLen_run, subLen_run, hlen, htag, htype, hflags, hrun]

theorem Decodes.multipartReply {exp : Option (OflExp L)} {r : PackResult} {t : OfpMultipartType}
    {body : MultipartReply L} (flags : UInt16) (hret : r.ret = 0) (hlen : 16 ≤ r.bufLen)
    (htype : body.type = t.toUInt16)
    (h : Decodes 16 16 r (fun buf => unpackReplyBody exp buf (some t)) body) :
    Decodes 8 0 (packMultipartHeader body.type flags r) (oflMsgUnpackMultipartReply exp)
      (.multipartReply flags body) := by
  intro buf hbuf xid
  have hbufLen : (packMultipartHeader body.type flags r).bufLen = r.bufLen := by
    rw [packMultipartHeader_of_ret hret]
  rw [hbufLen] at hbuf ⊢
  obtain ⟨htag, hflags, hbody⟩ := agreeOn_multipartHeader hret hlen hbuf
  have hrun := h buf hbody xid
  simp [oflMsgUnpackMultipartReply, requireLen_run, subLen_run, hlen, htag, htype, hflags, hrun]

/-- `ofl_msg_pack` succeeds, and `ofl_msg_unpack` on the bytes that it produced returns the message
and the xid with nothing left over. -/
def RoundTrips (exp : Option (OflExp L)) (msg : OflMsg L) (xid : UInt32) (heap : Mem) : Prop :=
  let r := oflMsgPack exp msg xid heap
  r.ret = 0 ∧ ∀ buf, AgreeOn 0 r.bufLen buf r.buf → ∀ x : Option UInt32,
    oflMsgUnpack exp buf r.bufLen x = .ok msg ⟨0, x.map fun _ => xid, false, false⟩

/-- What the header checks read of the header that `packHeader` wrote. -/
theorem agreeOn_packHeader {type : UInt8} {xid : UInt32} {bufLen : Nat} {buf body : Mem}
    (hlo : 8 ≤ bufLen) (hhi : bufLen ≤ 65535)
    (h : AgreeOn 0 bufLen buf (packHeader type xid bufLen body)) :
    buf 0 = ofpVersion ∧ buf 1 = type ∧ (ntohs (get16 buf 2)).toNat = bufLen ∧
      ntohl (get32 buf 4) = xid ∧ AgreeOn 8 bufLen buf body := by
  simp only [packHeader, OfpHeader.version, OfpHeader.type, OfpHeader.length, OfpHeader.xid] at h
  have hfixed := h.mono (le_refl 0) hlo
  have hbody := h.mono (show 0 ≤ 8 by omega) le_rfl
  refine ⟨?_, ?_, ?_, ?_,
    (((hbody.of_store (by simp)).of_store (by simp)).of_store (by simp)).of_store (by simp)⟩
  · simp (disch := simp) [hfixed.get8, store_outside]
  · simp (disch := simp) [hfixed.get8, store_outside]
  · simp (disch := simp) [hfixed.get16, get16_store_disjoint]
    omega
  · simp (disch := simp) [hfixed.get32]

/-- A message with a body that is packed well: the header joins the body. -/
theorem oflMsgPack_of_body {exp : Option (OflExp L)} {msg : OflMsg L} (xid : UInt32) {heap : Mem}
    (hret : (packBody exp msg heap).ret = 0) :
    oflMsgPack exp msg xid heap =
      ⟨0, packHeader msg.type xid (packBody exp msg heap).bufLen (packBody exp msg heap).buf,
        (packBody exp msg heap).bufLen⟩ := by
  unfold oflMsgPack
  exact if_neg fun hne => hne hret

/-- The decoder takes the bytes of a packed message to the body decoder of its type. -/
theorem oflMsgUnpack_of_packed {exp : Option (OflExp L)} {msg : OflMsg L} {xid : UInt32}
    {heap buf : Mem} (hret : (packBody exp msg heap).ret = 0)
    (hlo : 8 ≤ (packBody exp msg heap).bufLen) (hhi : (packBody exp msg heap).bufLen ≤ 65535)
    (hbuf : AgreeOn 0 (packBody exp msg heap).bufLen buf (oflMsgPack exp msg xid heap).buf)
    (x : Option UInt32) :
    oflMsgUnpack exp buf (packBody exp msg heap).bufLen x =
        unpackBody exp buf (OfpType.ofUInt8? msg.type)
          ⟨(packBody exp msg heap).bufLen, x.map fun _ => xid, false, false⟩ ∧
      AgreeOn 8 (packBody exp msg heap).bufLen buf (packBody exp msg heap).buf := by
  rw [oflMsgPack_of_body _ hret] at hbuf
  obtain ⟨hversion, htag, hlength, hxid, hbody⟩ := agreeOn_packHeader hlo hhi hbuf
  refine ⟨?_, hbody⟩
  rw [oflMsgUnpack_of_header exp x hlo hversion hlength, htag, bodyState, OfpHeader.xid, hxid]

/-- The decoder on packed bytes, where the body decoder returns `msg'`. -/
theorem oflMsgUnpack_of_decodes {exp : Option (OflExp L)} {msg msg' : OflMsg L} {t : OfpType}
    {xid : UInt32} {heap buf : Mem} (htype : msg.type = t.toUInt8)
    (hret : (packBody exp msg heap).ret = 0) (hlo : 8 ≤ (packBody exp msg heap).bufLen)
    (hhi : (packBody exp msg heap).bufLen ≤ 65535)
    (h : Decodes 8 0 (packBody exp msg heap) (fun buf => unpackBody exp buf (some t)) msg')
    (hbuf : AgreeOn 0 (packBody exp msg heap).bufLen buf (oflMsgPack exp msg xid heap).buf)
    (x : Option UInt32) :
    oflMsgUnpack exp buf (packBody exp msg heap).bufLen x =
      .ok msg' ⟨0, x.map fun _ => xid, false, false⟩ := by
  obtain ⟨hrun, hbody⟩ := oflMsgUnpack_of_packed hret hlo hhi hbuf x
  rw [hrun, htype, OfpType.ofUInt8?_toUInt8]
  exact h buf hbody (x.map fun _ => xid)

theorem roundTrips_of_decodes {exp : Option (OflExp L)} {msg : OflMsg L} {t : OfpType}
    {xid : UInt32} {heap : Mem} (htype : msg.type = t.toUInt8)
    (hret : (packBody exp msg heap).ret = 0) (hlo : 8 ≤ (packBody exp msg heap).bufLen)
    (hhi : (packBody exp msg heap).bufLen ≤ 65535)
    (h : Decodes 8 0 (packBody exp msg heap) (fun buf => unpackBody exp buf (some t)) msg) :
    RoundTrips exp msg xid heap := by
  have hpacked := oflMsgPack_of_body xid hret
  simp only [RoundTrips, congrArg PackResult.ret hpacked, congrArg PackResult.bufLen hpacked,
    true_and]
  exact fun buf hbuf x => oflMsgUnpack_of_decodes htype hret hlo hhi h hbuf x

/-- `ofl_msg_pack` succeeds, and `ofl_msg_unpack` accepts the bytes that it produced and returns
`msg`; `left` is what the remaining length may be. -/
def ReadsBack (exp : Option (OflExp L)) (msg : OflMsg L) (xid : UInt32) (heap : Mem)
    (left : Nat → Prop) : Prop :=
  let r := oflMsgPack exp msg xid heap
  r.ret = 0 ∧ ∀ buf, AgreeOn 0 r.bufLen buf r.buf → ∀ x : Option UInt32,
    ∃ s, oflMsgUnpack exp buf r.bufLen x = .ok msg s ∧ left s.len

theorem RoundTrips.readsBack {exp : Option (OflExp L)} {msg : OflMsg L} {xid : UInt32} {heap : Mem}
    {left : Nat → Prop} (h : RoundTrips exp msg xid heap) (hleft : left 0) :
    ReadsBack exp msg xid heap left :=
  ⟨h.1, fun buf hbuf x => ⟨_, h.2 buf hbuf x, hleft⟩⟩

/-- Where the body decoder returns `msg'`, the message is read back exactly when `msg'` is it. -/
theorem readsBack_iff_of_decodes {exp : Option (OflExp L)} {msg msg' : OflMsg L} {t : OfpType}
    {xid : UInt32} {heap : Mem} {left : Nat → Prop} (hleft : left 0) (htype : msg.type = t.toUInt8)
    (hret : (packBody exp msg heap).ret = 0) (hlo : 8 ≤ (packBody exp msg heap).bufLen)
    (hhi : (packBody exp msg heap).bufLen ≤ 65535)
    (h : Decodes 8 0 (packBody exp msg heap) (fun buf => unpackBody exp buf (some t)) msg') :
    ReadsBack exp msg xid heap left ↔ msg' = msg := by
  have hpacked := oflMsgPack_of_body xid hret
  have hbufLen := congrArg PackResult.bufLen hpacked
  have hrun (buf : Mem) (hbuf : AgreeOn 0 _ buf (oflMsgPack exp msg xid heap).buf) :=
    oflMsgUnpack_of_decodes htype hret hlo hhi h hbuf
  simp only [ReadsBack, congrArg PackResult.ret hpacked, hbufLen, true_and]
  constructor
  · intro hback
    obtain ⟨s, hs, _⟩ := hback _ (fun _ _ _ => rfl) none
    rw [hrun _ (fun _ _ _ => rfl) none] at hs
    cases hs
    rfl
  · rintro rfl buf hbuf x
    exact ⟨_, hrun buf hbuf x, hleft⟩

/-- A message that is longer than the length field can say is not read back. -/
theorem not_readsBack_of_long {exp : Option (OflExp L)} {msg : OflMsg L} {xid : UInt32}
    {heap : Mem} {left : Nat → Prop} (hlong : 65535 < (oflMsgPack exp msg xid heap).bufLen) :
    ¬ ReadsBack exp msg xid heap left := by
  intro hback
  obtain ⟨hret, hback⟩ := hback
  obtain ⟨s, hs, _⟩ := hback _ (fun _ _ _ => rfl) none
  have hfield := (ntohs (get16 (oflMsgPack exp msg xid heap).buf 2)).toNat_lt
  by_cases hversion : (oflMsgPack exp msg xid heap).buf 0 = ofpVersion
  · rw [oflMsgUnpack_of_length exp none (by omega) hversion (by omega)] at hs
    cases hs
  · rw [oflMsgUnpack_of_version exp none (by omega) hversion] at hs
    cases hs

/-! ## 5. The messages that this repository encodes and decodes alone -/

/-- The multipart requests without a match, an array or an experimenter body, METER_FEATURES apart,
which the decoder does not know. -/
def MultipartRequest.InRepoCodec : MultipartRequest L → Prop
  | desc | table | portStats _ | queue _ | group _ | groupDesc | groupFeatures | meter _
  | meterConfig _ | portDesc => True
  | flow _ | aggregate _ | meterFeatures | tableFeatures _ | experimenter _ | unknown _ _ => False

def MultipartReply.InRepoCodec : MultipartReply L → Prop
  | aggregate _ | groupFeatures _ => True
  | desc _ | flow _ | table _ | portStats _ | queue _ | group _ | groupDesc _ | meter _
  | meterConfig _ | meterFeatures _ | tableFeatures _ | portDesc _ | experimenter _
  | unknown _ _ => False

def OflMsg.InRepoCodec : OflMsg L → Prop
  | hello | error _ | echoRequest _ | echoReply _ | featuresRequest | featuresReply _
  | getConfigRequest | getConfigReply _ | setConfig _ | getAsyncRequest | getAsyncReply _
  | setAsync _ | portMod _ | tableMod _ | barrierRequest | barrierReply | roleRequest _
  | roleReply _ | queueGetConfigRequest _ => True
  | multipartRequest _ body => body.InRepoCodec
  | multipartReply _ body => body.InRepoCodec
  | experimenter _ | packetIn _ | flowRemoved _ | portStatus _ | packetOut _ | flowMod _
  | groupMod _ | queueGetConfigReply _ _ | meterMod _ | unknown _ _ => False

/-- The port numbers of a message are none that the decoder refuses. -/
def OflMsg.PassesPortChecks : OflMsg L → Prop
  | queueGetConfigRequest port => port ≠ 0 ∧ port ≤ ofppMax
  | multipartRequest _ (.portStats portNo) => ¬ badStatsPort portNo
  | multipartRequest _ (.queue r) => ¬ badStatsPort r.portNo
  | _ => True

theorem oflMsgPack_bufLen (exp : Option (OflExp L)) (msg : OflMsg L) (xid : UInt32) (heap : Mem) :
    (oflMsgPack exp msg xid heap).bufLen = (packBody exp msg heap).bufLen := by
  unfold oflMsgPack
  by_cases hret : (packBody exp msg heap).ret ≠ 0
  · simp only [if_pos hret]
  · simp only [if_neg hret]

theorem roundTrips_multipartRequest {exp : Option (OflExp L)} {flags : UInt16}
    {body : MultipartRequest L} {xid : UInt32} {heap : Mem} {r : PackResult}
    {t : OfpMultipartType} (htype : body.type = t.toUInt16)
    (hpack : packBody exp (.multipartRequest flags body) heap =
      packMultipartHeader body.type flags r)
    (hret : r.ret = 0) (hlo : 16 ≤ r.bufLen) (hhi : r.bufLen ≤ 65535)
    (h : Decodes 16 16 r (fun buf => unpackRequestBody exp buf (some t)) body) :
    RoundTrips exp (.multipartRequest flags body) xid heap := by
  have hheader := hpack.trans (packMultipartHeader_of_ret hret)
  refine roundTrips_of_decodes (t := .multipartRequest) rfl ?_ ?_ ?_ ?_
  · rw [hheader]
  · rw [hheader]
    exact Nat.le_trans (by decide) hlo
  · rw [hheader]
    exact hhi
  · rw [hpack]
    exact h.multipartRequest flags hret hlo htype

theorem roundTrips_multipartReply {exp : Option (OflExp L)} {flags : UInt16}
    {body : MultipartReply L} {xid : UInt32} {heap : Mem} {r : PackResult}
    {t : OfpMultipartType} (htype : body.type = t.toUInt16)
    (hpack : packBody exp (.multipartReply flags body) heap =
      packMultipartHeader body.type flags r)
    (hret : r.ret = 0) (hlo : 16 ≤ r.bufLen) (hhi : r.bufLen ≤ 65535)
    (h : Decodes 16 16 r (fun buf => unpackReplyBody exp buf (some t)) body) :
    RoundTrips exp (.multipartReply flags body) xid heap := by
  have hheader := hpack.trans (packMultipartHeader_of_ret hret)
  refine roundTrips_of_decodes (t := .multipartReply) rfl ?_ ?_ ?_ ?_
  · rw [hheader]
  · rw [hheader]
    exact Nat.le_trans (by decide) hlo
  · rw [hheader]
    exact hhi
  · rw [hpack]
    exact h.multipartReply flags hret hlo htype

theorem roundTrips_request_inRepoCodec (exp : Option (OflExp L)) (flags : UInt16)
    (body : MultipartRequest L) (xid : UInt32) (heap : Mem) (hin : body.InRepoCodec)
    (hport : (OflMsg.multipartRequest flags body).PassesPortChecks) :
    RoundTrips exp (.multipartRequest flags body) xid heap := by
  cases body with
  | desc =>
    exact roundTrips_multipartRequest (t := .desc) rfl rfl rfl (Nat.le_of_ble_eq_true rfl)
      (Nat.le_of_ble_eq_true rfl) (decodes_multipartRequestEmpty heap _)
  | table =>
    exact roundTrips_multipartRequest (t := .table) rfl rfl rfl (Nat.le_of_ble_eq_true rfl)
      (Nat.le_of_ble_eq_true rfl) (decodes_multipartRequestEmpty heap _)
  | portStats portNo =>
    exact roundTrips_multipartRequest (t := .portStats) rfl rfl rfl (Nat.le_of_ble_eq_true rfl)
      (Nat.le_of_ble_eq_true rfl) ((decodes_multipartRequestPort portNo heap hport).map _)
  | queue r =>
    exact roundTrips_multipartRequest (t := .queue) rfl rfl rfl (Nat.le_of_ble_eq_true rfl)
      (Nat.le_of_ble_eq_true rfl) ((decodes_multipartRequestQueue r heap hport).map _)
  | group groupId =>
    exact roundTrips_multipartRequest (t := .group) rfl rfl rfl (Nat.le_of_ble_eq_true rfl)
      (Nat.le_of_ble_eq_true rfl) ((decodes_multipartRequestGroup groupId heap).map _)
  | groupDesc =>
    exact roundTrips_multipartRequest (t := .groupDesc) rfl rfl rfl (Nat.le_of_ble_eq_true rfl)
      (Nat.le_of_ble_eq_true rfl) (decodes_multipartRequestEmpty heap _)
  | groupFeatures =>
    exact roundTrips_multipartRequest (t := .groupFeatures) rfl rfl rfl (Nat.le_of_ble_eq_true rfl)
      (Nat.le_of_ble_eq_true rfl) (decodes_multipartRequestEmpty heap _)
  | meter meterId =>
    exact roundTrips_multipartRequest (t := .meter) rfl rfl rfl (Nat.le_of_ble_eq_true rfl)
      (Nat.le_of_ble_eq_true rfl) ((decodes_meterMultipartRequest meterId heap).map _)
  | meterConfig meterId =>
    exact roundTrips_multipartRequest (t := .meterConfig) rfl rfl rfl (Nat.le_of_ble_eq_true rfl)
      (Nat.le_of_ble_eq_true rfl) ((decodes_meterMultipartRequest meterId heap).map _)
  | portDesc =>
    exact roundTrips_multipartRequest (t := .portDesc) rfl rfl rfl (Nat.le_of_ble_eq_true rfl)
      (Nat.le_of_ble_eq_true rfl) (decodes_multipartRequestEmpty heap _)
  | _ => exact hin.elim

theorem roundTrips_reply_inRepoCodec (exp : Option (OflExp L)) (flags : UInt16)
    (body : MultipartReply L) (xid : UInt32) (heap : Mem) (hin : body.InRepoCodec) :
    RoundTrips exp (.multipartReply flags body) xid heap := by
  cases body with
  | aggregate r =>
    exact roundTrips_multipartReply (t := .aggregate) rfl rfl rfl (Nat.le_of_ble_eq_true rfl)
      (Nat.le_of_ble_eq_true rfl) ((decodes_multipartReplyAggregate r heap).map _)
  | groupFeatures r =>
    exact roundTrips_multipartReply (t := .groupFeatures) rfl rfl rfl (Nat.le_of_ble_eq_true rfl)
      (Nat.le_of_ble_eq_true rfl) ((decodes_multipartReplyGroupFeatures r heap).map _)
  | _ => exact hin.elim

/-- **Decode undoes encode**, for every message of these types that fits in the length field. -/
theorem roundTrips_of_inRepoCodec (exp : Option (OflExp L)) (msg : OflMsg L) (xid : UInt32)
    (heap : Mem) (hin : msg.InRepoCodec) (hport : msg.PassesPortChecks)
    (hlen : (oflMsgPack exp msg xid heap).bufLen ≤ 65535) : RoundTrips exp msg xid heap := by
  rw [oflMsgPack_bufLen] at hlen
  -- A body of its own for each type; the rest is the same header.
  cases msg with
  | hello =>
    exact roundTrips_of_decodes (t := .hello) rfl rfl (Nat.le_of_ble_eq_true rfl) hlen
      (decodes_empty heap _)
  | error m =>
    exact roundTrips_of_decodes (t := .error) rfl rfl (Nat.le_add_right_of_le (by decide)) hlen
      ((decodes_error m heap).map _)
  | echoRequest m =>
    exact roundTrips_of_decodes (t := .echoRequest) rfl rfl (Nat.le_add_right 8 _) hlen
      ((decodes_echo m heap).map _)
  | echoReply m =>
    exact roundTrips_of_decodes (t := .echoReply) rfl rfl (Nat.le_add_right 8 _) hlen
      ((decodes_echo m heap).map _)
  | featuresRequest =>
    exact roundTrips_of_decodes (t := .featuresRequest) rfl rfl (Nat.le_of_ble_eq_true rfl) hlen
      (decodes_empty heap _)
  | featuresReply m =>
    exact roundTrips_of_decodes (t := .featuresReply) rfl rfl (Nat.le_of_ble_eq_true rfl) hlen
      ((decodes_featuresReply m heap).map _)
  | getConfigRequest =>
    exact roundTrips_of_decodes (t := .getConfigRequest) rfl rfl (Nat.le_of_ble_eq_true rfl) hlen
      (decodes_empty heap _)
  | getConfigReply config =>
    exact roundTrips_of_decodes (t := .getConfigReply) rfl rfl (Nat.le_of_ble_eq_true rfl) hlen
      ((decodes_getConfigReply config heap).map _)
  | setConfig config =>
    exact roundTrips_of_decodes (t := .setConfig) rfl rfl (Nat.le_of_ble_eq_true rfl) hlen
      ((decodes_setConfig config heap).map _)
  | getAsyncRequest =>
    exact roundTrips_of_decodes (t := .getAsyncRequest) rfl rfl (Nat.le_of_ble_eq_true rfl) hlen
      (decodes_empty heap _)
  | getAsyncReply config =>
    exact roundTrips_of_decodes (t := .getAsyncReply) rfl rfl (Nat.le_of_ble_eq_true rfl) hlen
      ((decodes_asyncConfig config heap).map _)
  | setAsync config =>
    exact roundTrips_of_decodes (t := .setAsync) rfl rfl (Nat.le_of_ble_eq_true rfl) hlen
      ((decodes_asyncConfig config heap).map _)
  | portMod m =>
    exact roundTrips_of_decodes (t := .portMod) rfl rfl (Nat.le_of_ble_eq_true rfl) hlen
      ((decodes_portMod m heap).map _)
  | tableMod m =>
    exact roundTrips_of_decodes (t := .tableMod) rfl rfl (Nat.le_of_ble_eq_true rfl) hlen
      ((decodes_tableMod m heap).map _)
  | barrierRequest =>
    exact roundTrips_of_decodes (t := .barrierRequest) rfl rfl (Nat.le_of_ble_eq_true rfl) hlen
      (decodes_empty heap _)
  | barrierReply =>
    exact roundTrips_of_decodes (t := .barrierReply) rfl rfl (Nat.le_of_ble_eq_true rfl) hlen
      (decodes_empty heap _)
  | roleRequest m =>
    exact roundTrips_of_decodes (t := .roleRequest) rfl rfl (Nat.le_of_ble_eq_true rfl) hlen
      ((decodes_roleRequest m heap).map _)
  | roleReply m =>
    exact roundTrips_of_decodes (t := .roleReply) rfl rfl (Nat.le_of_ble_eq_true rfl) hlen
      ((decodes_roleRequest m heap).map _)
  | queueGetConfigRequest port =>
    exact roundTrips_of_decodes (t := .queueGetConfigRequest) rfl rfl (Nat.le_of_ble_eq_true rfl) hlen
      ((decodes_queueGetConfigRequest port heap hport).map _)
  | multipartRequest flags body =>
    exact roundTrips_request_inRepoCodec exp flags body xid heap hin hport
  | multipartReply flags body => exact roundTrips_reply_inRepoCodec exp flags body xid heap hin
  | _ => exact hin.elim

theorem roundTrips_of_inRepoCodec_echo :
    RoundTrips (L := sampleLib) none (.echoRequest ⟨[1, 2, 3]⟩) 7 (fun _ => 0) :=
  roundTrips_of_inRepoCodec none (.echoRequest ⟨[1, 2, 3]⟩) 7 (fun _ => 0) trivial trivial
    (by rw [oflMsgPack_bufLen]; exact Nat.le_of_ble_eq_true rfl)

end CcPof.OpenFlow

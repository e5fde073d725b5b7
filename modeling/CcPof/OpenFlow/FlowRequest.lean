import CcPof.OpenFlow.MatchLayout

/-!
# FLOW and AGGREGATE requests

The sibling encoders subtract the four placeholder bytes of `struct ofp_match`; this one does not. It
puts the TLVs four bytes too far behind the match header, and it sizes the buffer by the same number
without the padding of the match.
-/

namespace CcPof.OpenFlow

variable {L : OflLib}

/-! ## 1. What the encoder writes -/

def flowRequestFixed (r : OflMsgMultipartRequestFlow L) (heap : Mem) : Mem :=
  let stats := OfpMultipartRequest.body
  let buf := put8 heap (stats + OfpFlowStatsRequest.tableId) r.tableId
  let buf := zero buf (stats + OfpFlowStatsRequest.pad) 3
  let buf := put32 buf (stats + OfpFlowStatsRequest.outPort) (htonl r.outPort)
  let buf := put32 buf (stats + OfpFlowStatsRequest.outGroup) (htonl r.outGroup)
  let buf := zero buf (stats + OfpFlowStatsRequest.pad2) 4
  let buf := put64 buf (stats + OfpFlowStatsRequest.cookie) (hton64 r.cookie)
  put64 buf (stats + OfpFlowStatsRequest.cookieMask) (hton64 r.cookieMask)

theorem oflMsgPackMultipartRequestFlow_eq (r : OflMsgMultipartRequestFlow L) (heap : Mem) :
    oflMsgPackMultipartRequestFlow r heap =
      packed (L.matchPack .host r.fmatch (flowRequestFixed r heap) 48 56)
        (56 + (L.matchLength r.fmatch).toNat) := rfl

theorem flowRequestFixed_changedWithin (r : OflMsgMultipartRequestFlow L) (heap : Mem) :
    ChangedWithin 16 48 heap (flowRequestFixed r heap) := by
  unfold flowRequestFixed
  exact (((((((ChangedWithin.refl 16 48 heap).put8 16 (by decide) (by decide)).zero 17 (by decide)
    (by decide)).put32 20 (by decide) (by decide)).put32 24 (by decide) (by decide)).zero 28
      (by decide) (by decide)).put64 32 (by decide) (by decide)).put64 40 (by decide) (by decide)

/-- Behind the match header there is nothing but the TLVs, from offset 56 on. -/
theorem flowRequest_behind (H : MatchCodec L .host) (r : OflMsgMultipartRequestFlow L) (heap : Mem)
    {i : Nat} (hi : 52 ≤ i) :
    (oflMsgPackMultipartRequestFlow r heap).buf i = store heap 56 (H.tlvs r.fmatch) i := by
  have hbelow : put16 (put16 (flowRequestFixed r heap) 48 (htons H.type)) 50
      (htons (UInt16.ofNat (4 + (H.tlvs r.fmatch).length))) i = heap i := by
    rw [put16_outside (by omega), put16_outside (by omega),
      flowRequestFixed_changedWithin r heap i (by omega)]
  rw [oflMsgPackMultipartRequestFlow_eq, H.pack_eq]
  show store (put16 (put16 (flowRequestFixed r heap) 48 _) 50 _) 56 (H.tlvs r.fmatch) i = _
  by_cases hin : 56 ≤ i ∧ i < 56 + (H.tlvs r.fmatch).length
  · obtain ⟨k, rfl⟩ := Nat.exists_eq_add_of_le hin.1
    rw [store_inside (by omega), store_inside (by omega)]
  · rw [store_outside (by omega), store_outside (by omega), hbelow]

/-! ## 2. When that is what the decoder reads -/

/-- The four bytes of `heap` at 52 are the first four TLV bytes, and the TLV bytes repeat every four
bytes, so that the TLVs can be read four bytes before the place they were written to. -/
def ReadsShifted (heap : Mem) (tlvs : List UInt8) : Prop :=
  ∀ i (h : i < tlvs.length), tlvs[i] = if i < 4 then heap (52 + i) else tlvs[i - 4]

theorem load_shifted_iff (heap : Mem) (tlvs : List UInt8) :
    load (store heap 56 tlvs) 52 tlvs.length = tlvs ↔ ReadsShifted heap tlvs := by
  have hbyte (i : Nat) (hi : i < tlvs.length) :
      store heap 56 tlvs (52 + i) = if i < 4 then heap (52 + i) else tlvs[i - 4] := by
    by_cases hfour : i < 4
    · rw [if_pos hfour, store_outside (by omega)]
    · obtain ⟨k, rfl⟩ := Nat.exists_eq_add_of_le (Nat.le_of_not_lt hfour)
      rw [if_neg hfour, show 52 + (4 + k) = 56 + k by omega, store_inside (by omega)]
      simp only [Nat.add_sub_cancel_left]
  constructor
  · intro h i hi
    have hget : (load (store heap 56 tlvs) 52 tlvs.length)[i]? = tlvs[i]? := by rw [h]
    rw [List.getElem?_eq_getElem (by rwa [length_load]), List.getElem?_eq_getElem hi,
      getElem_load, hbyte i hi, Option.some.injEq] at hget
    exact hget.symm
  · intro h
    refine List.ext_getElem (length_load _ _ _) fun i h1 h2 => ?_
    rw [getElem_load, hbyte i h2, h i h2]

theorem decodes_multipartRequestFlow (H : MatchCodec L .host) (r : OflMsgMultipartRequestFlow L)
    (heap : Mem) (hmod : (L.matchLength r.fmatch).toNat % 8 = 0)
    (hsize : 56 + (L.matchLength r.fmatch).toNat ≤ 65535)
    (hshift : ReadsShifted heap (H.tlvs r.fmatch)) :
    Decodes 16 16 (oflMsgPackMultipartRequestFlow r heap) oflMsgUnpackMultipartRequestFlow r := by
  intro buf h xid
  have hbehind : AgreeOn 52 (52 + (L.matchLength r.fmatch).toNat) buf
      (store heap 56 (H.tlvs r.fmatch)) := by
    intro i hlo hhi
    rw [h i (by omega) (by rw [oflMsgPackMultipartRequestFlow_eq]; dsimp only; omega),
      flowRequest_behind H r heap hlo]
  rw [oflMsgPackMultipartRequestFlow_eq, H.pack_eq] at h
  rw [oflMsgPackMultipartRequestFlow_eq]
  dsimp only at h ⊢
  rw [← H.length_tlvs] at hmod hsize hbehind h ⊢
  have hround : roundUp (4 + (H.tlvs r.fmatch).length) 8 = 8 + (H.tlvs r.fmatch).length := by
    unfold roundUp
    omega
  have hfixed : AgreeOn 16 48 buf (flowRequestFixed r heap) := by
    intro i hlo hhi
    rw [h i hlo (by omega), store_outside (by omega)]
    exact (put16_outside (Or.inl (by simp; omega))).trans (put16_outside (Or.inl (by simp; omega)))
  have htype : ntohs (get16 buf 48) = H.type := by
    rw [h.get16 (by omega) (by omega), get16_store_disjoint (by omega)]
    simp (disch := simp) [get16_store_disjoint]
  have hlength : (ntohs (get16 buf 50)).toNat = 4 + (H.tlvs r.fmatch).length := by
    rw [h.get16 (by omega) (by omega), get16_store_disjoint (by omega)]
    simp only [OfpMatch.length, Nat.reduceAdd, get16_put16, ntohs_htons, UInt16.toNat_ofNat']
    omega
  have htlvs : load buf 52 (H.tlvs r.fmatch).length = H.tlvs r.fmatch := by
    rw [hbehind.load (le_refl 52) (by omega), load_shifted_iff]
    exact hshift
  -- the match takes the 8 bytes of `struct ofp_match` and the TLVs
  have hrun := H.unpack_eq r.fmatch buf 48 52 (8 + (H.tlvs r.fmatch).length) (by omega) htype
    hlength htlvs (Nat.le_of_eq hround)
  have hnested : nestedOrReturn (L.matchUnpack buf 48 52)
      ⟨8 + (H.tlvs r.fmatch).length, xid, false, false⟩ = .ok r.fmatch ⟨0, xid, false, false⟩ := by
    rw [hround, Nat.sub_self] at hrun
    exact nestedOrReturn_ok hrun
  simp only [flowRequestFixed] at hfixed
  have hlen : 56 + (H.tlvs r.fmatch).length - 16 = 32 + (8 + (H.tlvs r.fmatch).length) := by omega
  rw [hlen]
  simp [oflMsgUnpackMultipartRequestFlow, requireLen_run, subLen_run, hnested]
  simp (disch := simp) [hfixed.get8, hfixed.get32, hfixed.get64, get32_store_disjoint,
    get64_store_disjoint, store_outside]

/-! ## 3. The messages -/

/-- The message has the length of a well-formed request, its TLVs follow the match header, and it is
read back. -/
structure FlowRequestSurvives (H : MatchCodec L .host) (exp : Option (OflExp L)) (flags : UInt16)
    (body : MultipartRequest L) (r : OflMsgMultipartRequestFlow L) (xid : UInt32) (heap : Mem) :
    Prop where
  bufLen : (oflMsgPack exp (.multipartRequest flags body) xid heap).bufLen =
    48 + roundUp (4 + (L.matchLength r.fmatch).toNat) 8
  tlvs : load (oflMsgPack exp (.multipartRequest flags body) xid heap).buf 52
    (L.matchLength r.fmatch).toNat = H.tlvs r.fmatch
  readsBack : ReadsBack exp (.multipartRequest flags body) xid heap (· = 0)

/-- The match is empty, or its length is a multiple of 8 and the memory happens to make up for the
shift. -/
structure ShiftHarmless (H : MatchCodec L .host) (r : OflMsgMultipartRequestFlow L) (heap : Mem) :
    Prop where
  length : (L.matchLength r.fmatch).toNat % 8 = 0
  fits : 56 + (L.matchLength r.fmatch).toNat ≤ 65535
  shifted : ReadsShifted heap (H.tlvs r.fmatch)

theorem flowRequestSurvives_of_body (H : MatchCodec L .host) {exp : Option (OflExp L)}
    {flags : UInt16} {body : MultipartRequest L} {t : OfpMultipartType}
    {r : OflMsgMultipartRequestFlow L} {f : OflMsgMultipartRequestFlow L → MultipartRequest L}
    (xid : UInt32) {heap : Mem} (htype : body.type = t.toUInt16) (hbody : body = f r)
    (hpack : packBody exp (.multipartRequest flags body) heap =
      packMultipartHeader body.type flags (oflMsgPackMultipartRequestFlow r heap))
    (hdec : ∀ buf, unpackRequestBody exp buf (some t) =
      f <$> oflMsgUnpackMultipartRequestFlow buf) :
    FlowRequestSurvives H exp flags body r xid heap ↔ ShiftHarmless H r heap := by
  have hheader := hpack.trans (packMultipartHeader_of_ret rfl)
  have hbufLen : (oflMsgPack exp (.multipartRequest flags body) xid heap).bufLen =
      56 + (L.matchLength r.fmatch).toNat := by
    rw [oflMsgPack_bufLen, hheader]
    rfl
  have htlvs : load (oflMsgPack exp (.multipartRequest flags body) xid heap).buf 52
      (L.matchLength r.fmatch).toNat = H.tlvs r.fmatch ↔ ReadsShifted heap (H.tlvs r.fmatch) := by
    rw [← load_shifted_iff, H.length_tlvs]
    refine iff_of_eq (congrArg (· = _) (load_ext fun i _ => ?_))
    rw [oflMsgPack_of_body xid (by rw [hheader])]
    dsimp only
    -- The headers are written before offset 52.
    rw [packHeader_changedWithin _ _ _ _ _ (by omega), hheader]
    dsimp only
    rw [zero_outside (by omega), put16_outside (by omega), put16_outside (by omega),
      flowRequest_behind H r heap (by omega)]
  constructor
  · -- The missing padding shows in the length, and the shift in the bytes from 52 on.
    intro h
    have hlen := h.bufLen
    rw [hbufLen] at hlen
    refine ⟨?_, ?_, htlvs.mp h.tlvs⟩
    · unfold roundUp at hlen
      omega
    · by_contra hlong
      exact not_readsBack_of_long (by omega) h.readsBack
  · intro h
    refine ⟨?_, htlvs.mpr h.shifted, ?_⟩
    · have hmod := h.length
      rw [hbufLen]
      unfold roundUp
      omega
    · refine (roundTrips_multipartRequest htype hpack rfl (by
        rw [oflMsgPackMultipartRequestFlow_eq]; dsimp only; omega) h.fits ?_).readsBack rfl
      simp only [hdec, hbody]
      exact (decodes_multipartRequestFlow H r heap h.length h.fits h.shifted).map f

/-- **When a FLOW or AGGREGATE request survives the round trip**: with the empty match, and else only
where the memory hides the shift. -/
theorem flowRequest_survives_iff (H : MatchCodec L .host) (exp : Option (OflExp L))
    (flags : UInt16) (r : OflMsgMultipartRequestFlow L) (xid : UInt32) (heap : Mem) :
    (FlowRequestSurvives H exp flags (.flow r) r xid heap ↔ ShiftHarmless H r heap) ∧
      (FlowRequestSurvives H exp flags (.aggregate r) r xid heap ↔ ShiftHarmless H r heap) :=
  ⟨flowRequestSurvives_of_body H (t := .flow) xid rfl rfl rfl fun _ => rfl,
    flowRequestSurvives_of_body H (t := .aggregate) xid rfl rfl rfl fun _ => rfl⟩

/-- A request for all flows. -/
def allFlowsRequest : OflMsgMultipartRequestFlow sampleMatchLib where
  tableId := 0
  outPort := 0
  outGroup := 0
  cookie := 0
  cookieMask := 0
  fmatch := sampleMatchLib.staleMatch

theorem flowRequest_survives_iff_allFlows :
    FlowRequestSurvives (sampleMatchCodec .host) none 0 (.flow allFlowsRequest) allFlowsRequest 7
        (fun _ => 0) ∧
      FlowRequestSurvives (sampleMatchCodec .host) none 0 (.aggregate allFlowsRequest)
        allFlowsRequest 7 (fun _ => 0) := by
  have hiff := flowRequest_survives_iff (sampleMatchCodec .host) none 0 allFlowsRequest 7
    (fun _ => 0)
  -- There are no TLVs to be shifted.
  have hharmless : ShiftHarmless (sampleMatchCodec .host) allFlowsRequest (fun _ => 0) :=
    ⟨by decide, by decide, nofun⟩
  exact ⟨hiff.1.mpr hharmless, hiff.2.mpr hharmless⟩

/-- A request for the flows with one OXM of four bytes. -/
def sampleFlowRequest : OflMsgMultipartRequestFlow sampleMatchLib where
  tableId := 0
  outPort := 0
  outGroup := 0
  cookie := 0
  cookieMask := 0
  fmatch := ⟨[128, 0, 0, 4, 0, 0, 0, 1], by decide⟩

/-- Its length is right, but its TLVs are not where a decoder looks for them. -/
theorem flowRequest_shifted :
    ¬ FlowRequestSurvives (sampleMatchCodec .host) none 0 (.flow sampleFlowRequest)
      sampleFlowRequest 7 (fun _ => 0) := by
  rw [flowRequestSurvives_of_body (sampleMatchCodec .host) (t := .flow) 7 rfl rfl rfl fun _ => rfl]
  intro h
  exact absurd (h.shifted 0 (by decide)) (by decide)

end CcPof.OpenFlow

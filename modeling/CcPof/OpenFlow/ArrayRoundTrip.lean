import CcPof.OpenFlow.RoundTrip

/-!
# Array-bodied messages

Decode undoes encode for the messages whose body is a list of elements, from the promises of the
element codecs.
-/

namespace CcPof.OpenFlow

variable {L : OflLib} {α : Type}

/-! ## 1. The array bodies -/

/-- Count, then walk: the common body of the array decoders. -/
theorem unpackRest_packArr {pack : α → Mem → Nat → Mem × Nat} {unpack : ElemDecoder α}
    {stride : Mem → Nat → Nat} {fixed : Nat} (C : EntryCodec pack unpack stride fixed)
    {count : Mem → (pos len : Nat) → Except OflErr Nat}
    (hcount : ∀ buf pos len n, Tiles stride fixed buf pos len n → count buf pos len = .ok n)
    {as : List α} {m buf : Mem} {pos : Nat} {s : UnpackState} (hlen : s.len = C.totalSize as)
    (hsize : C.totalSize as ≤ 65535)
    (h : AgreeOn pos (pos + C.totalSize as) buf (packArr pack as m pos).1) :
    unpackRest count unpack stride buf pos s = .ok as { s with len := 0 } := by
  have hn := hcount buf pos s.len as.length (by rw [hlen]; exact C.tiles_packArr as hsize h)
  have hrun := C.unpackArr_packArr as hsize (Nat.le_of_eq hlen.symm) h
  rw [hlen, Nat.sub_self] at hrun
  simp only [unpackRest, bind_run, get_run, hn, orReturn_ok, hrun]

theorem decodes_replyArr (C : ArrayCodecs L) (k : ElemKind) (as : List (L.Elem k)) (heap : Mem)
    (hsize : (C.elem k).totalSize as ≤ 65519) :
    Decodes 16 16 (packReplyArr (L.elemPack k) ((C.elem k).totalSize as) as heap)
      (unpackReplyArr k k.stride) as := by
  intro buf h xid
  refine unpackRest_packArr (C.elem k) (C.elem_count k) (s := ⟨_, xid, false, false⟩) ?_ ?_ h
  · exact Nat.add_sub_cancel_left _ _
  · omega

/-- The encoders of fixed-size entries size the buffer by the number of elements. -/
theorem replyArr_sizeof (C : ArrayCodecs L) {k : ElemKind} (hk : k.lenOff = none)
    (as : List (L.Elem k)) : as.length * k.fixedSize = (C.elem k).totalSize as :=
  ((C.elem k).totalSize_of_const (C.elem_sizeof k hk) as).symm

/-- The two pointers of the FLOW loop move together. -/
theorem unpackFlowStats_packArr (C : ArrayCodecs L) (as : List L.FlowStats) :
    ∀ {m buf : Mem} {pos : Nat} {s : UnpackState}, C.flowStats.totalSize as ≤ 65535 →
      C.flowStats.totalSize as ≤ s.len →
      AgreeOn pos (pos + C.flowStats.totalSize as) buf (packArr L.flowStatsPack as m pos).1 →
      unpackFlowStats buf as.length pos pos s =
        .ok as { s with len := s.len - C.flowStats.totalSize as } := by
  induction as with
  | nil => exact fun _ _ _ => rfl
  | cons a as ih =>
    intro m buf pos s hsize hlen h
    rw [C.flowStats.totalSize_cons] at hsize hlen h ⊢
    have hhead := C.flowStats.agreeOn_head (Nat.add_le_add_left (Nat.le_add_right _ _) pos) h
    have hstride := C.flowStats.stride_pack a m pos buf (by omega) hhead
    have hunpack := C.flowStats.unpack_pack a m pos buf s.len (by omega) (by omega) hhead
    have htail := C.flowStats.agreeOn_tail h
    rw [← Nat.add_assoc] at htail
    have hrest := ih (s := { s with len := s.len - C.flowStats.size a }) (by omega)
      (by simp only; omega) htail
    -- `ptr` has moved by the bytes consumed, which is the length field that `stat` moved by
    have hptr : pos + s.len - (s.len - C.flowStats.size a) = pos + C.flowStats.size a := by omega
    simp only [List.length_cons, unpackFlowStats, bind_run, get_run, nestedOrReturn_ok hunpack,
      hstride, hptr, hrest, pure_run, Nat.sub_sub]

theorem decodes_multipartReplyFlow (C : ArrayCodecs L) (as : List L.FlowStats) (heap : Mem)
    (hsize : C.flowStats.totalSize as ≤ 65519) :
    Decodes 16 16 (oflMsgPackMultipartReplyFlow as heap) oflMsgUnpackMultipartReplyFlow as := by
  intro buf h xid
  simp only [oflMsgPackMultipartReplyFlow, packReplyArr, packed, C.flowStats_total,
    OfpMultipartReply.size, OfpMultipartReply.body, Nat.add_sub_cancel_left] at h ⊢
  have hn := C.flowStats_count buf 16 (C.flowStats.totalSize as) as.length
    (C.flowStats.tiles_packArr as (by omega) h)
  have hrun := unpackFlowStats_packArr C as
    (s := ⟨C.flowStats.totalSize as, xid, false, false⟩) (by omega) (le_refl _) h
  simp only [oflMsgUnpackMultipartReplyFlow, bind_run, get_run, OfpMultipartReply.body, hn,
    orReturn_ok, OfpMultipartReply.size, hrun, Nat.sub_self]

theorem decodes_multipartReplyTableFeatures (C : ArrayCodecs L)
    (as : List (L.Elem .tableFeatures)) (heap : Mem)
    (hsize : (C.elem .tableFeatures).totalSize as ≤ 65519) :
    Decodes 16 16 (oflMsgPackMultipartReplyTableFeatures as heap)
      oflMsgUnpackMultipartReplyTableFeatures as := by
  intro buf h xid
  have hbuf : AgreeOn 16 (16 + (C.elem .tableFeatures).totalSize as) buf
      (packArr (L.elemPack .tableFeatures) as heap 16).1 := by
    simp only [oflMsgPackMultipartReplyTableFeatures, packTableFeatures, packed, C.elem_total,
      OfpMultipartRequest.size, OfpMultipartRequest.body] at h
    by_cases hempty : (C.elem .tableFeatures).totalSize as = 0
    · -- nothing is written, and nothing is in the window
      intro i hlo hhi
      omega
    · rwa [if_pos hempty] at h
  simp only [oflMsgPackMultipartReplyTableFeatures, packTableFeatures, packed, C.elem_total,
    OfpMultipartRequest.size, Nat.add_sub_cancel_left]
  have hn := C.elem_count .tableFeatures buf 16 _ as.length
    ((C.elem .tableFeatures).tiles_packArr as (by omega) hbuf)
  have hrun := (C.elem .tableFeatures).unpackArrLax_packArr L.staleTableFeatures as
    (s := ⟨(C.elem .tableFeatures).totalSize as, xid, false, false⟩) (by omega) (le_refl _) hbuf
  simp only [oflMsgUnpackMultipartReplyTableFeatures, bind_run, get_run, OfpMultipartReply.body, hn,
    orReturn_ok]
  exact hrun.trans (by rw [Nat.sub_self])

theorem decodes_queueGetConfigReply (C : ArrayCodecs L) (port : UInt32)
    (as : List (L.Elem .packetQueue)) (heap : Mem)
    (hsize : (C.elem .packetQueue).totalSize as ≤ 65519) :
    Decodes 8 0 (oflMsgPackQueueGetConfigReply port as heap) oflMsgUnpackQueueGetConfigReply
      (port, as) := by
  intro buf h xid
  simp only [oflMsgPackQueueGetConfigReply, packed, C.elem_total, OfpQueueGetConfigReply.size,
    OfpQueueGetConfigReply.queues, OfpQueueGetConfigReply.port, OfpQueueGetConfigReply.pad] at h ⊢
  -- The queues lie behind the port, which the loop leaves alone.
  have hport : ntohl (get32 buf 8) = port := by
    have hfixed : AgreeOn 8 16 buf (zero (put32 heap 8 (htonl port)) 12 4) := by
      intro i hlo hhi
      rw [h i hlo (by omega), (C.elem .packetQueue).packArr_frame as _ _ i hhi]
    simp (disch := simp) [hfixed.get32, get32_store_disjoint]
  have hrun := unpackRest_packArr (C.elem .packetQueue) (C.elem_count .packetQueue)
    (s := ⟨(C.elem .packetQueue).totalSize as, xid, false, false⟩) rfl (by omega)
    (h.mono (by omega) (le_refl _))
  change unpackRest (L.elemCount .packetQueue) (L.elemUnpack .packetQueue)
    (lenField OfpPacketQueue.len) buf 16 _ = _ at hrun
  simp only [oflMsgUnpackQueueGetConfigReply, bind_run, Nat.sub_zero, OfpQueueGetConfigReply.size,
    requireLen_run (show 16 ≤ (⟨16 + (C.elem .packetQueue).totalSize as, xid, false, false⟩ :
      UnpackState).len from Nat.le_add_right _ _),
    subLen_run (show 16 ≤ (⟨16 + (C.elem .packetQueue).totalSize as, xid, false, false⟩ :
      UnpackState).len from Nat.le_add_right _ _), Nat.add_sub_cancel_left,
    OfpQueueGetConfigReply.queues, hrun, OfpQueueGetConfigReply.port, hport, pure_run]

/-- The range checks that the METER_MOD decoder makes. -/
def OflMsgMeterMod.PassesRangeChecks (m : OflMsgMeterMod L) : Prop :=
  ¬ ofpmcDelete < m.command ∧ ¬ (1 : UInt16) < m.flags >>> 3 ∧
    ¬ (ofpmMax < m.meterId ∧ ¬ (m.command = ofpmcDelete ∧ m.meterId = ofpmAll))

theorem decodes_meterMod (C : ArrayCodecs L) (m : OflMsgMeterMod L) (heap : Mem)
    (hsize : (C.elem .meterBand).totalSize m.bands ≤ 65519) (hrange : m.PassesRangeChecks) :
    Decodes 8 0 (oflMsgPackMeterMod m heap) oflMsgUnpackMeterMod m := by
  intro buf h xid
  obtain ⟨hcommand, hflags, hmeter⟩ := hrange
  simp only [oflMsgPackMeterMod, packed, C.elem_total, OfpMeterMod.size, OfpMeterMod.command,
    OfpMeterMod.flags, OfpMeterMod.meterId, ntohl_eq_htonl] at h ⊢
  have hread : ntohs (get16 buf 8) = m.command ∧ ntohs (get16 buf 10) = m.flags ∧
      ntohl (get32 buf 12) = m.meterId := by
    have hfixed : AgreeOn 8 16 buf
        (put32 (put16 (put16 heap 8 (htons m.command)) 10 (htons m.flags)) 12
          (htonl m.meterId)) := by
      intro i hlo hhi
      rw [h i hlo (by omega), (C.elem .meterBand).packArr_frame m.bands _ _ i hhi]
    simp (disch := simp) [hfixed.get16, hfixed.get32, get16_store_disjoint]
  have hrun := unpackRest_packArr (C.elem .meterBand) (C.elem_count .meterBand)
    (s := ⟨(C.elem .meterBand).totalSize m.bands, xid, false, false⟩) rfl (by omega)
    (h.mono (by omega) (le_refl _))
  change unpackRest (L.elemCount .meterBand) (L.elemUnpack .meterBand)
    (lenField OfpMeterBandHeader.len) buf 16 _ = _ at hrun
  simp only [oflMsgUnpackMeterMod, bind_run, Nat.sub_zero, OfpMeterMod.size,
    requireLen_run (show 16 ≤ (⟨16 + (C.elem .meterBand).totalSize m.bands, xid, false, false⟩ :
      UnpackState).len from Nat.le_add_right _ _),
    subLen_run (show 16 ≤ (⟨16 + (C.elem .meterBand).totalSize m.bands, xid, false, false⟩ :
      UnpackState).len from Nat.le_add_right _ _), Nat.add_sub_cancel_left,
    OfpMeterMod.command, OfpMeterMod.flags, OfpMeterMod.meterId, OfpMeterMod.bands, hread.1,
    hread.2.1, hread.2.2, rejectIf_run hcommand, rejectIf_run hflags, rejectIf_run hmeter, hrun,
    pure_run]

/-! ## 2. The messages -/

def MultipartReply.ArrayBodied : MultipartReply L → Prop
  | flow _ | table _ | portStats _ | queue _ | group _ | groupDesc _ | meter _ | meterConfig _
  | portDesc _ | tableFeatures _ => True
  | desc _ | aggregate _ | groupFeatures _ | meterFeatures _ | experimenter _ | unknown _ _ => False

/-- The array-bodied replies, and METER_MOD, which has range checks of its own. -/
def OflMsg.ArrayBodied : OflMsg L → Prop
  | multipartReply _ body => body.ArrayBodied
  | queueGetConfigReply _ _ => True
  | meterMod m => m.PassesRangeChecks
  | _ => False

theorem roundTrips_replyArr (C : ArrayCodecs L) (exp : Option (OflExp L)) {flags : UInt16}
    {body : MultipartReply L} {xid : UInt32} {heap : Mem} {k : ElemKind} {as : List (L.Elem k)}
    {t : OfpMultipartType} {total : Nat} {f : List (L.Elem k) → MultipartReply L}
    (htype : body.type = t.toUInt16) (hbody : body = f as)
    (hpack : packBody exp (.multipartReply flags body) heap =
      packMultipartHeader body.type flags (packReplyArr (L.elemPack k) total as heap))
    (hdec : ∀ buf, unpackReplyBody exp buf (some t) = f <$> unpackReplyArr k k.stride buf)
    (htotal : total = (C.elem k).totalSize as)
    (hlen : (packBody exp (.multipartReply flags body) heap).bufLen ≤ 65535) :
    RoundTrips exp (.multipartReply flags body) xid heap := by
  have hbufLen : (packReplyArr (L.elemPack k) total as heap).bufLen ≤ 65535 := by
    rwa [hpack, packMultipartHeader_of_ret rfl] at hlen
  have hsize : 16 + total ≤ 65535 := hbufLen
  refine roundTrips_multipartReply htype hpack rfl (Nat.le_add_right _ _) hbufLen ?_
  simp only [hdec, hbody]
  rw [htotal] at hsize ⊢
  exact (decodes_replyArr C k as heap (by omega)).map f

theorem roundTrips_reply_arrayBodied (C : ArrayCodecs L) (exp : Option (OflExp L))
    (flags : UInt16) (body : MultipartReply L) (xid : UInt32) (heap : Mem)
    (hin : body.ArrayBodied)
    (hlen : (packBody exp (.multipartReply flags body) heap).bufLen ≤ 65535) :
    RoundTrips exp (.multipartReply flags body) xid heap := by
  -- `flow` and `tableFeatures` have loops of their own, the others share one.
  cases body with
  | flow as =>
    have hbufLen : 16 + L.flowStatsTotalLen as ≤ 65535 := hlen
    rw [C.flowStats_total] at hbufLen
    exact roundTrips_multipartReply (t := .flow) (r := oflMsgPackMultipartReplyFlow as heap) rfl rfl
      rfl (Nat.le_add_right _ _) hlen ((decodes_multipartReplyFlow C as heap (by omega)).map _)
  | tableFeatures as =>
    have hbufLen : 16 + L.elemTotalLen .tableFeatures as ≤ 65535 := hlen
    rw [C.elem_total] at hbufLen
    exact roundTrips_multipartReply (t := .tableFeatures)
      (r := oflMsgPackMultipartReplyTableFeatures as heap) rfl rfl rfl (Nat.le_add_right _ _) hlen
      ((decodes_multipartReplyTableFeatures C as heap (by omega)).map _)
  | table as =>
    exact roundTrips_replyArr C exp (t := .table) rfl rfl rfl (fun _ => rfl)
      (replyArr_sizeof C rfl as) hlen
  | portStats as =>
    exact roundTrips_replyArr C exp (t := .portStats) rfl rfl rfl (fun _ => rfl)
      (replyArr_sizeof C rfl as) hlen
  | queue as =>
    exact roundTrips_replyArr C exp (t := .queue) rfl rfl rfl (fun _ => rfl)
      (replyArr_sizeof C rfl as) hlen
  | portDesc as =>
    exact roundTrips_replyArr C exp (t := .portDesc) rfl rfl rfl (fun _ => rfl)
      (replyArr_sizeof C rfl as) hlen
  | group as =>
    exact roundTrips_replyArr C exp (t := .group) rfl rfl rfl (fun _ => rfl)
      (C.elem_total _ as) hlen
  | groupDesc as =>
    exact roundTrips_replyArr C exp (t := .groupDesc) rfl rfl rfl (fun _ => rfl)
      (C.elem_total _ as) hlen
  | meter as =>
    exact roundTrips_replyArr C exp (t := .meter) rfl rfl rfl (fun _ => rfl)
      (C.elem_total _ as) hlen
  | meterConfig as =>
    exact roundTrips_replyArr C exp (t := .meterConfig) rfl rfl rfl (fun _ => rfl)
      (C.elem_total _ as) hlen
  | _ => exact hin.elim

/-- **Array-bodied messages survive the round trip**, element by element and in order. -/
theorem roundTrips_of_arrayBodied (C : ArrayCodecs L) (exp : Option (OflExp L)) (msg : OflMsg L)
    (xid : UInt32) (heap : Mem) (hin : msg.ArrayBodied)
    (hlen : (oflMsgPack exp msg xid heap).bufLen ≤ 65535) : RoundTrips exp msg xid heap := by
  rw [oflMsgPack_bufLen] at hlen
  cases msg with
  | multipartReply flags body => exact roundTrips_reply_arrayBodied C exp flags body xid heap hin hlen
  | queueGetConfigReply port queues =>
    have hbufLen : 16 + L.elemTotalLen .packetQueue queues ≤ 65535 := hlen
    rw [C.elem_total] at hbufLen
    refine roundTrips_of_decodes (t := .queueGetConfigReply) rfl rfl ?_ hlen ?_
    · exact Nat.le_trans (by decide) (Nat.le_add_right 16 _)
    · intro buf h x
      have hrun := decodes_queueGetConfigReply C port queues heap (by omega) buf h x
      simp only [unpackBody, bind_run]
      rw [show (packBody exp (.queueGetConfigReply port queues) heap) =
        oflMsgPackQueueGetConfigReply port queues heap from rfl, hrun]
      rfl
  | meterMod m =>
    have hbufLen : 16 + L.elemTotalLen .meterBand m.bands ≤ 65535 := hlen
    rw [C.elem_total] at hbufLen
    refine roundTrips_of_decodes (t := .meterMod) rfl rfl ?_ hlen
      ((decodes_meterMod C m heap (by omega) hin).map _)
    exact Nat.le_trans (by decide) (Nat.le_add_right 16 _)
  | _ => exact hin.elim

/-- Three groups, two of them with the same counters. -/
theorem roundTrips_of_arrayBodied_groups :
    RoundTrips (L := sampleLib) none (.multipartReply 0 (.group ([5, 9, 5] : List UInt16))) 7
      (fun _ => 0) :=
  roundTrips_of_arrayBodied sampleCodecs none _ 7 (fun _ => 0) trivial
    (by rw [oflMsgPack_bufLen]; exact Nat.le_of_ble_eq_true rfl)

end CcPof.OpenFlow

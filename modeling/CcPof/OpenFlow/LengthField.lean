import CcPof.OpenFlow.PacketOutFrame
import CcPof.OpenFlow.RoundTrip

/-!
# The length fields of an encoded message

`ofl_msg_pack` writes the length through `htons`, which keeps 16 bits of it, and so does the
PACKET_OUT encoder with the length of the actions, whose two bytes a SET_FIELD value may overwrite
afterwards.
-/

namespace CcPof.OpenFlow

variable {L : OflLib}

/-! ## 1. The encoded length of a message -/

def MultipartRequest.encodedLength (exp : Option (OflExp L)) (heap : Mem) :
    MultipartRequest L → Option Nat
  | flow r | aggregate r =>
      some (OfpMultipartRequest.size + OfpFlowStatsRequest.size + (L.matchLength r.fmatch).toNat)
  | portStats _ => some (OfpMultipartRequest.size + OfpPortStatsRequest.size)
  | queue _ => some (OfpMultipartRequest.size + OfpQueueStatsRequest.size)
  | group _ => some (OfpMultipartRequest.size + OfpGroupStatsRequest.size)
  | meter _ | meterConfig _ => some (OfpMultipartRequest.size + OfpMeterMultipartRequest.size)
  | tableFeatures tables => some (OfpMultipartRequest.size + L.elemTotalLen .tableFeatures tables)
  | desc | table | groupDesc | groupFeatures | meterFeatures | portDesc =>
      some OfpMultipartRequest.size
  | experimenter r =>
      match OflExp.statsReqPack exp with
      | none => none
      | some reqPack => if (reqPack r heap).ret = 0 then some (reqPack r heap).bufLen else none
  | unknown _ _ => none

def MultipartReply.encodedLength (exp : Option (OflExp L)) (heap : Mem) :
    MultipartReply L → Option Nat
  | desc _ => some (OfpMultipartReply.size + OfpDesc.size)
  | flow stats => some (OfpMultipartReply.size + L.flowStatsTotalLen stats)
  | aggregate _ => some (OfpMultipartReply.size + OfpAggregateStatsReply.size)
  | table stats => some (OfpMultipartReply.size + stats.length * OfpTableStats.size)
  | portStats stats => some (OfpMultipartReply.size + stats.length * OfpPortStats.size)
  | queue stats => some (OfpMultipartReply.size + stats.length * OfpQueueStats.size)
  | group stats => some (OfpMultipartReply.size + L.elemTotalLen .groupStats stats)
  | groupDesc stats => some (OfpMultipartReply.size + L.elemTotalLen .groupDescStats stats)
  | groupFeatures _ => some (OfpMultipartReply.size + OfpGroupFeaturesStats.size)
  | meter stats => some (OfpMultipartReply.size + L.elemTotalLen .meterStats stats)
  | meterConfig stats => some (OfpMultipartReply.size + L.elemTotalLen .meterConfig stats)
  | meterFeatures _ => some (OfpMultipartReply.size + OfpMeterFeatures.size)
  | tableFeatures tables => some (OfpMultipartReply.size + L.elemTotalLen .tableFeatures tables)
  | portDesc stats => some (OfpMultipartReply.size + stats.length * OfpPort.size)
  | experimenter r =>
      match OflExp.statsReplyPack exp with
      | none => none
      | some replyPack => if (replyPack r heap).ret = 0 then some (replyPack r heap).bufLen else none
  | unknown _ _ => none

/-- The number of bytes that a message takes on the wire, from its variable parts; `none` for the
messages that the encoder refuses. An experimenter callback decides for its own messages. -/
def OflMsg.encodedLength (exp : Option (OflExp L)) (heap : Mem) : OflMsg L → Option Nat
  | hello | featuresRequest | getConfigRequest | getAsyncRequest | barrierRequest | barrierReply =>
      some OfpHeader.size
  | error m => some (OfpErrorMsg.size + m.data.length)
  | echoRequest m | echoReply m => some (OfpHeader.size + m.data.length)
  | experimenter m =>
      match OflExp.msgPack exp with
      | none => none
      | some pack => if (pack m heap).ret = 0 then some (pack m heap).bufLen else none
  | featuresReply _ => some OfpSwitchFeatures.size
  | getConfigReply _ | setConfig _ => some OfpSwitchConfig.size
  | packetIn m =>
      some (OfpPacketIn.size + (roundUpInt ((L.matchLength m.fmatch).toNat - 4) 8).toNat +
        m.data.length + 2)
  | flowRemoved m =>
      some (roundUp (OfpFlowRemoved.size - 4 + (L.matchLength m.stats.fmatch).toNat) 8)
  | portStatus _ => some OfpPortStatus.size
  | packetOut m =>
      some (OfpPacketOut.size + oflActionsOfpTotalLen exp m.actions + m.data.length)
  | flowMod m =>
      some (roundUp (OfpFlowMod.size - 4 + (L.matchLength m.fmatch).toNat) 8 +
        L.elemTotalLen .instruction m.instructions)
  | groupMod m => some (OfpGroupMod.size + L.bucketTotalLen m.buckets)
  | portMod _ => some OfpPortMod.size
  | tableMod _ => some OfpTableMod.size
  | multipartRequest _ body => body.encodedLength exp heap
  | multipartReply _ body => body.encodedLength exp heap
  | queueGetConfigRequest _ => some OfpQueueGetConfigRequest.size
  | queueGetConfigReply _ queues =>
      some (OfpQueueGetConfigReply.size + L.elemTotalLen .packetQueue queues)
  | roleRequest _ | roleReply _ => some OfpRoleRequest.size
  | getAsyncReply _ | setAsync _ => some OfpAsyncConfig.size
  | meterMod m => some (OfpMeterMod.size + L.elemTotalLen .meterBand m.bands)
  | unknown _ _ => none

/-- A pack result that is a refusal, or a success of that many bytes. -/
def PackResult.HasLength (r : PackResult) : Option Nat → Prop
  | none => r.ret ≠ 0
  | some n => r.ret = 0 ∧ r.bufLen = n

theorem hasLength_of_callback (r : PackResult) :
    r.HasLength (if r.ret = 0 then some r.bufLen else none) := by
  by_cases hret : r.ret = 0
  · rw [if_pos hret]
    exact ⟨hret, rfl⟩
  · rw [if_neg hret]
    exact hret

theorem hasLength_packMultipartHeader {type flags : UInt16} {r : PackResult} {n : Option Nat}
    (h : r.HasLength n) : (packMultipartHeader type flags r).HasLength n := by
  cases n with
  | none =>
    have hret : r.ret ≠ 0 := h
    rw [packMultipartHeader, if_pos hret]
    exact hret
  | some n =>
    rw [packMultipartHeader_of_ret h.1]
    exact ⟨rfl, h.2⟩

theorem hasLength_multipartRequest (exp : Option (OflExp L)) (flags : UInt16)
    (body : MultipartRequest L) (heap : Mem) :
    (oflMsgPackMultipartRequest exp flags body heap).HasLength (body.encodedLength exp heap) := by
  apply hasLength_packMultipartHeader
  cases body with
  | experimenter r =>
    unfold MultipartRequest.encodedLength
    cases OflExp.statsReqPack exp with
    | none => exact (by decide : (-1 : Int) ≠ 0)
    | some reqPack => exact hasLength_of_callback _
  | unknown type h => exact (by decide : (-1 : Int) ≠ 0)
  | _ => exact ⟨rfl, rfl⟩

theorem hasLength_multipartReply (exp : Option (OflExp L)) (flags : UInt16)
    (body : MultipartReply L) (heap : Mem) :
    (oflMsgPackMultipartReply exp flags body heap).HasLength (body.encodedLength exp heap) := by
  apply hasLength_packMultipartHeader
  cases body with
  | experimenter r =>
    unfold MultipartReply.encodedLength
    cases OflExp.statsReplyPack exp with
    | none => exact (by decide : (-1 : Int) ≠ 0)
    | some replyPack => exact hasLength_of_callback _
  | unknown type h => exact (by decide : (-1 : Int) ≠ 0)
  | _ => exact ⟨rfl, rfl⟩

/-- The encoder allocates exactly the encoded length. -/
theorem hasLength_packBody (exp : Option (OflExp L)) (msg : OflMsg L) (heap : Mem) :
    (packBody exp msg heap).HasLength (msg.encodedLength exp heap) := by
  cases msg with
  | experimenter m =>
    unfold OflMsg.encodedLength packBody
    cases OflExp.msgPack exp with
    | none => exact (by decide : (-1 : Int) ≠ 0)
    | some pack => exact hasLength_of_callback _
  | multipartRequest flags body => exact hasLength_multipartRequest exp flags body heap
  | multipartReply flags body => exact hasLength_multipartReply exp flags body heap
  | unknown type h => exact (by decide : (-1 : Int) ≠ 0)
  | _ => exact ⟨rfl, rfl⟩

/-! ## 2. The header -/

/-- The header holds the low 16 bits of the length. -/
theorem ntohs_length_packHeader (type : UInt8) (xid : UInt32) (bufLen : Nat) (buf : Mem) :
    (ntohs (get16 (packHeader type xid bufLen buf) OfpHeader.length)).toNat = bufLen % 65536 := by
  simp (disch := simp) [packHeader, get16_store_disjoint]

theorem packHeader_outside {type : UInt8} {xid : UInt32} {bufLen i : Nat} {buf : Mem}
    (hi : 8 ≤ i) : packHeader type xid bufLen buf i = buf i := by
  simp only [packHeader, OfpHeader.xid, OfpHeader.length, OfpHeader.type, OfpHeader.version]
  rw [put32_outside (by omega), put16_outside (by omega), put8_outside (by omega),
    put8_outside (by omega)]

/-! ## 3. The bytes of `actions_len` -/

/-- What one action does to the two bytes of `actions_len`: the value of a 16-byte field is copied
over them, and the padding of a 9-byte one clears the second. -/
def overwriteActionsLen {E : Type} (field : UInt8 × UInt8) : OflAction E → UInt8 × UInt8
  | .setField f =>
      if oxmLength f.header = 16 then (f.value 8, f.value 9)
      else if oxmLength f.header = 9 then (field.1, 0)
      else field
  | _ => field

/-- The two bytes of a number that fits a 16-bit field in network order. -/
def networkBytes (n : Nat) : UInt8 × UInt8 := (UInt8.ofNat (n / 256), UInt8.ofNat n)

/-- After all actions the two bytes still spell the length of the actions. -/
def ActionsLenKept (exp : Option (OflExp L)) (m : OflMsgPacketOut L) : Prop :=
  let field := m.actions.foldl overwriteActionsLen
    (networkBytes (oflActionsOfpTotalLen exp m.actions))
  field.1.toNat * 256 + field.2.toNat = oflActionsOfpTotalLen exp m.actions

/-- An experimenter action is packed at its destination, not before it. -/
def OflExp.ActPacksForward (exp : Option (OflExp L)) : Prop :=
  ∀ pack, OflExp.actPack exp = some pack → ∀ a m dst, AgreeOn 0 dst (pack a m dst).1 m

theorem length_setFieldValue_cases (field : OflMatchTlv) :
    (setFieldValue field).length = oxmLength field.header ∧ oxmLength field.header = 16 ∨
      (setFieldValue field).length ≤ 8 := by
  by_cases h16 : oxmLength field.header = 16
  · exact Or.inl ⟨length_setFieldValue (by rw [h16]; decide) (by omega), h16⟩
  · apply Or.inr
    simp only [setFieldValue]
    by_cases h1 : oxmLength field.header = 1 ∨ oxmLength field.header = 6 ∨
        oxmLength field.header = 16
    · rw [if_pos h1, length_load]
      omega
    · rw [if_neg h1]
      repeat' split
      all_goals simp only [length_toLE, List.length_nil]; omega

/-- Behind the fixed part, a SET_FIELD changes the two bytes as `overwriteActionsLen` says. -/
theorem packSetField_actionsLen (field : OflMatchTlv) (m : Mem) {dst : Nat} (hdst : 24 ≤ dst) :
    ((packSetField field m dst 0).1 16, (packSetField field m dst 0).1 17) =
      overwriteActionsLen (m 16, m 17) (.setField field : OflAction L.ExpAction) := by
  have hbelow (i : Nat) (hi : i < 24) (x : UInt16) (y : UInt32) :
      put32 (put16 m (dst + 2) x) (dst + 4) y i = m i := by
    rw [put32_outside (by omega), put16_outside (by omega)]
  have hround : roundUp (oxmLength field.header) 8 = (oxmLength field.header + 7) / 8 * 8 := rfl
  simp only [packSetField, overwriteActionsLen, OfpActionSetField.size, OfpActionSetField.len,
    OfpActionSetField.field, Nat.zero_add]
  -- The value goes to byte 8 of the message: 16 bytes of it reach `actions_len`, and the padding of
  -- a value of 9 bytes reaches its second byte.
  rcases length_setFieldValue_cases field with ⟨hlen, h16⟩ | hshort
  · rw [h16] at hlen
    have hvalue (i : Nat) (hi : i < 16) (mem : Mem) :
        store mem 8 (setFieldValue field) (8 + i) = field.value i := by
      rw [store_inside (by omega)]
      simp only [setFieldValue, h16, or_true, if_true, getElem_load, Nat.zero_add]
    rw [if_pos h16, zero_outside (by omega), zero_outside (by omega)]
    exact Prod.ext (hvalue 8 (by decide) _) (hvalue 9 (by decide) _)
  · have h16 : oxmLength field.header ≠ 16 := by
      intro h16
      rw [length_setFieldValue (by rw [h16]; decide) (by omega)] at hshort
      omega
    rw [if_neg h16]
    have hkeep (i : Nat) (h1 : 16 ≤ i) (h2 : i < 24) (x : UInt16) (y : UInt32) :
        store (put32 (put16 m (dst + 2) x) (dst + 4) y) 8 (setFieldValue field) i = m i := by
      rw [store_outside (by omega), hbelow i h2]
    by_cases h9 : oxmLength field.header = 9
    · have hclear (mem : Mem) : zero mem (8 + 9) ((9 + 7) / 8 * 8 - 9) 17 = 0 :=
        store_inside (i := 0) (by decide)
      rw [if_pos h9, zero_outside (by omega), hkeep 16 (by omega) (by omega), hround, h9, hclear]
    · rw [if_neg h9, zero_outside (by omega), zero_outside (by omega),
        hkeep 16 (by omega) (by omega), hkeep 17 (by omega) (by omega)]

theorem oflActionsPack_below (exp : Option (OflExp L)) (hexp : OflExp.ActPacksForward exp)
    (a : OflAction L.ExpAction) (hset : ¬ a.IsSetField) (m : Mem) (dst : Nat) :
    AgreeOn 0 dst (oflActionsPack exp a m dst 0).1 m := by
  have hpro (type : UInt16) : AgreeOn 0 dst (zero (put16 m dst type) (dst + 4) 4) m :=
    (changedWithin_prologue type m dst (le_refl 8)).agreeOn (le_refl dst)
  have hframe (hknown : a.Known exp) :=
    (oflActionsPack_frame exp a hknown hset m dst 0).2.agreeOn (le_refl dst)
  cases a with
  | setField field => exact absurd trivial hset
  | unknown type h => exact hpro (htons type)
  | experimenter a =>
    simp only [oflActionsPack]
    cases hpack : OflExp.actPack exp with
    | none => exact hpro _
    | some pack => exact (hexp pack hpack a _ dst).trans (hpro _)
  | _ => exact hframe trivial

theorem oflActionsPack_actionsLen (exp : Option (OflExp L)) (hexp : OflExp.ActPacksForward exp)
    (a : OflAction L.ExpAction) (m : Mem) {dst : Nat} (hdst : 24 ≤ dst) :
    ((oflActionsPack exp a m dst 0).1 16, (oflActionsPack exp a m dst 0).1 17) =
      overwriteActionsLen (m 16, m 17) a := by
  by_cases hset : a.IsSetField
  · cases a with
    | setField field =>
      have hpro := (changedWithin_prologue (htons 25) m dst (le_refl 8)).agreeOn (le_refl dst)
      have h := packSetField_actionsLen (L := L) field (zero (put16 m dst (htons 25)) (dst + 4) 4)
        hdst
      rw [hpro 16 (by omega) (by omega), hpro 17 (by omega) (by omega)] at h
      exact h
    | _ => exact hset.elim
  · have hbelow := oflActionsPack_below exp hexp a hset m dst
    rw [hbelow 16 (by omega) (by omega), hbelow 17 (by omega) (by omega)]
    cases a with
    | setField field => exact absurd trivial hset
    | _ => rfl

/-- The loop folds these changes over the actions, and its pointer never moves back. -/
theorem packActions_actionsLen (exp : Option (OflExp L)) (hexp : OflExp.ActPacksForward exp)
    (as : List (OflAction L.ExpAction)) :
    ∀ m {ptr : Nat}, 24 ≤ ptr →
      ((packActions exp as m ptr).1 16, (packActions exp as m ptr).1 17) =
          as.foldl overwriteActionsLen (m 16, m 17) ∧
        24 ≤ (packActions exp as m ptr).2 := by
  induction as with
  | nil => exact fun _ _ hptr => ⟨rfl, hptr⟩
  | cons a as ih =>
    intro m ptr hptr
    have hhead := oflActionsPack_actionsLen exp hexp a m hptr
    have htail := ih (oflActionsPack exp a m ptr 0).1
      (Nat.le_trans hptr (Nat.le_add_right ptr (oflActionsPack exp a m ptr 0).2))
    rw [packActions_cons, List.foldl_cons, ← hhead]
    exact htail

/-- The two bytes that a store of a number in network order leaves. -/
theorem put16_htons_bytes (m : Mem) (off n : Nat) :
    (put16 m off (htons (UInt16.ofNat n)) off, put16 m off (htons (UInt16.ofNat n)) (off + 1)) =
      networkBytes n := by
  have h := ntohs_get16 (put16 m off (htons (UInt16.ofNat n))) off
  rw [get16_put16, ntohs_htons, UInt16.toNat_ofNat'] at h
  have hhi := (put16 m off (htons (UInt16.ofNat n)) off).toNat_lt
  have hlo := (put16 m off (htons (UInt16.ofNat n)) (off + 1)).toNat_lt
  refine Prod.ext (UInt8.toNat_inj.mp ?_) (UInt8.toNat_inj.mp ?_)
  · simp only [networkBytes, UInt8.toNat_ofNat']
    omega
  · simp only [networkBytes, UInt8.toNat_ofNat']
    omega

theorem packetOut_actionsLen (exp : Option (OflExp L)) (hexp : OflExp.ActPacksForward exp)
    (m : OflMsgPacketOut L) (heap : Mem) :
    (ntohs (get16 (oflMsgPackPacketOut exp m heap).buf 16)).toNat =
        oflActionsOfpTotalLen exp m.actions ↔ ActionsLenKept exp m := by
  obtain ⟨hbytes, hptr⟩ := packActions_actionsLen exp hexp m.actions
    (packPacketOutFixed exp m heap) (le_refl OfpPacketOut.size)
  have hfixed : (packPacketOutFixed exp m heap 16, packPacketOutFixed exp m heap 17) =
      networkBytes (oflActionsOfpTotalLen exp m.actions) := by
    rw [← put16_htons_bytes (put32 (put32 heap 8 (htonl m.bufferId)) 12 (htonl m.inPort)) 16]
    simp only [packPacketOutFixed]
    rw [zero_outside (by simp), zero_outside (by simp)]
  rw [hfixed] at hbytes
  rw [ntohs_get16, oflMsgPackPacketOut_eq, store_outside (by omega), store_outside (by omega),
    ActionsLenKept, ← hbytes]

/-! ## 4. Honest length fields -/

/-- A success of `ofl_msg_pack` comes with the right length in the header, and for PACKET_OUT in
`actions_len`; a message that does not fit is not a success. -/
structure LengthFieldHonest (exp : Option (OflExp L)) (msg : OflMsg L) (xid : UInt32)
    (heap : Mem) : Prop where
  length : (oflMsgPack exp msg xid heap).ret = 0 →
    (ntohs (get16 (oflMsgPack exp msg xid heap).buf OfpHeader.length)).toNat =
      (oflMsgPack exp msg xid heap).bufLen
  actionsLen : (oflMsgPack exp msg xid heap).ret = 0 → ∀ m, msg = .packetOut m →
    (ntohs (get16 (oflMsgPack exp msg xid heap).buf OfpPacketOut.actionsLen)).toNat =
      oflActionsOfpTotalLen exp m.actions
  tooLong : 65535 < (oflMsgPack exp msg xid heap).bufLen → (oflMsgPack exp msg xid heap).ret ≠ 0

/-- **When the length fields are right**: for every message that the encoder takes, exactly when its
encoded length fits in 16 bits and no SET_FIELD of a PACKET_OUT damages `actions_len`. -/
theorem lengthFieldHonest_iff (exp : Option (OflExp L)) (hexp : OflExp.ActPacksForward exp)
    (msg : OflMsg L) (xid : UInt32) (heap : Mem) :
    LengthFieldHonest exp msg xid heap ↔
      ∀ n, msg.encodedLength exp heap = some n →
        n ≤ 65535 ∧ ∀ m, msg = .packetOut m → ActionsLenKept exp m := by
  have hbody := hasLength_packBody exp msg heap
  cases hlen : msg.encodedLength exp heap with
  | none =>
    rw [hlen] at hbody
    have hrefused : (packBody exp msg heap).ret ≠ 0 := hbody
    have hret : (oflMsgPack exp msg xid heap).ret ≠ 0 := by
      simp only [oflMsgPack, if_pos hrefused]
      exact hrefused
    -- A message that the encoder refuses promises nothing.
    refine iff_of_true ⟨fun h => absurd h hret, fun h => absurd h hret, fun _ => hret⟩ ?_
    intro n hn
    cases hn
  | some n =>
    rw [hlen] at hbody
    obtain ⟨hret, rfl⟩ := hbody
    have hpack : oflMsgPack exp msg xid heap = _ := oflMsgPack_of_body _ hret
    have hmod := ntohs_length_packHeader msg.type xid (packBody exp msg heap).bufLen
      (packBody exp msg heap).buf
    -- The header does not reach the bytes of `actions_len`.
    have hactions (m : OflMsgPacketOut L) (hm : msg = .packetOut m) :
        (ntohs (get16 (oflMsgPack exp msg xid heap).buf 16)).toNat =
          oflActionsOfpTotalLen exp m.actions ↔ ActionsLenKept exp m := by
      subst hm
      rw [← packetOut_actionsLen exp hexp m heap, ntohs_get16, ntohs_get16, hpack]
      simp only [packHeader_outside (show 8 ≤ 16 by decide),
        packHeader_outside (show 8 ≤ 16 + 1 by decide)]
      rfl
    constructor
    · intro h n hn
      cases hn
      have hlength := h.length (by rw [hpack])
      rw [hpack, hmod] at hlength
      change (packBody exp msg heap).bufLen % 65536 = (packBody exp msg heap).bufLen at hlength
      refine ⟨by omega, fun m hm => (hactions m hm).mp (h.actionsLen (by rw [hpack]) m hm)⟩
    · intro h
      obtain ⟨hfits, hkept⟩ := h _ rfl
      refine ⟨fun _ => ?_, fun _ m hm => (hactions m hm).mpr (hkept m hm), fun hlong => ?_⟩
      · rw [hpack, hmod]
        exact Nat.mod_eq_of_lt (by omega)
      · rw [hpack] at hlong
        exact absurd hfits (Nat.not_le.mpr hlong)

theorem lengthFieldHonest_iff_outputAndGroup :
    LengthFieldHonest none (.packetOut outputAndGroup) 7 (fun _ => 0) ↔
      ∀ n, (OflMsg.packetOut outputAndGroup).encodedLength none (fun _ => 0) = some n →
        n ≤ 65535 ∧ ∀ m, OflMsg.packetOut outputAndGroup = .packetOut m → ActionsLenKept none m :=
  lengthFieldHonest_iff none nofun (.packetOut outputAndGroup) 7 (fun _ => 0)

theorem echo_bufLen (exp : Option (OflExp L)) (data : List UInt8) (xid : UInt32) (heap : Mem) :
    (oflMsgPack exp (.echoRequest ⟨data⟩) xid heap).bufLen = 8 + data.length := rfl

/-- The header of an echo of 65536 bytes says that it is empty. -/
theorem echo_length_zero (data : List UInt8) (hlen : data.length = 65528) :
    let r := oflMsgPack (L := sampleLib) none (.echoRequest ⟨data⟩) 7 fun _ => 0
    r.ret = 0 ∧ r.bufLen = 65536 ∧ ntohs (get16 r.buf 2) = 0 ∧
      ¬ LengthFieldHonest (L := sampleLib) none (.echoRequest ⟨data⟩) 7
        fun _ => 0 := by
  have hbufLen : (oflMsgPack (L := sampleLib) none (.echoRequest ⟨data⟩) 7
      fun _ => 0).bufLen = 65536 := by
    rw [echo_bufLen]
    omega
  have hfield : (ntohs (get16 (oflMsgPack (L := sampleLib) none (.echoRequest ⟨data⟩) 7
      fun _ => 0).buf 2)).toNat = 0 := by
    rw [oflMsgPack_of_body _ rfl]
    refine (ntohs_length_packHeader _ _ _ _).trans ?_
    show (8 + data.length) % 65536 = 0
    omega
  refine ⟨rfl, hbufLen, UInt16.toNat_inj.mp hfield, fun h => ?_⟩
  have hlength := h.length rfl
  rw [hbufLen, show OfpHeader.length = 2 from rfl, hfield] at hlength
  omega

/-- An echo of 65528 bytes is encoded, and its header says that it is empty. -/
theorem echo_65528_length_zero :
    let r := oflMsgPack (L := sampleLib) none (.echoRequest ⟨List.replicate 65528 0⟩) 7 fun _ => 0
    r.ret = 0 ∧ r.bufLen = 65536 ∧ ntohs (get16 r.buf 2) = 0 ∧
      ¬ LengthFieldHonest (L := sampleLib) none (.echoRequest ⟨List.replicate 65528 0⟩) 7
        fun _ => 0 :=
  echo_length_zero (List.replicate 65528 0) List.length_replicate

end CcPof.OpenFlow

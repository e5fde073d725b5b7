import CcPof.OpenFlow.MatchLayout
import CcPof.OpenFlow.PacketOutFrame

/-!
# Byte order on the wire

Every 16, 32 and 64-bit field that the encoder writes itself, read back big-endian. A round trip
cannot see a conversion that is missing on both sides, so each message is compared with the field
list of its wire structure.
-/

namespace CcPof.OpenFlow

variable {L : OflLib}

/-! ## 1. Fields of a wire structure -/

/-- `width` bytes at `off`, and the number that they are to stand for. -/
structure WireField where
  off : Nat
  width : Nat
  value : Nat

namespace WireField

def u16 (off : Nat) (value : UInt16) : WireField := ⟨off, 2, value.toNat⟩
def u32 (off : Nat) (value : UInt32) : WireField := ⟨off, 4, value.toNat⟩
def u64 (off : Nat) (value : UInt64) : WireField := ⟨off, 8, value.toNat⟩

/-- Read big-endian, the field is the value. -/
def InNetworkOrder (m : Mem) (f : WireField) : Prop := ofBE (load m f.off f.width) = f.value

@[simp] theorem u16_inNetworkOrder (m : Mem) (off : Nat) (value : UInt16) :
    (u16 off value).InNetworkOrder m ↔ ntohs (get16 m off) = value := by
  rw [InNetworkOrder, u16, ofBE_load_two, UInt16.toNat_inj]

@[simp] theorem u32_inNetworkOrder (m : Mem) (off : Nat) (value : UInt32) :
    (u32 off value).InNetworkOrder m ↔ ntohl (get32 m off) = value := by
  rw [InNetworkOrder, u32, ofBE_load_four, UInt32.toNat_inj]

@[simp] theorem u64_inNetworkOrder (m : Mem) (off : Nat) (value : UInt64) :
    (u64 off value).InNetworkOrder m ↔ ntoh64 (get64 m off) = value := by
  rw [InNetworkOrder, u64, ofBE_load_eight, UInt64.toNat_inj]

/-- Two memories that agree where the field lies give it the same reading. -/
theorem inNetworkOrder_congr {lo hi : Nat} {m m' : Mem} {f : WireField} (h : AgreeOn lo hi m m')
    (hlo : lo ≤ f.off) (hhi : f.off + f.width ≤ hi) : f.InNetworkOrder m ↔ f.InNetworkOrder m' := by
  rw [InNetworkOrder, InNetworkOrder, h.load hlo hhi]

end WireField

open WireField (u16 u32 u64)

/-! ## 2. The fields of each message -/

def MultipartRequest.wireFields : MultipartRequest L → List WireField
  | portStats portNo => [u32 (OfpMultipartRequest.body + OfpPortStatsRequest.portNo) portNo]
  | queue r =>
      [u32 (OfpMultipartRequest.body + OfpQueueStatsRequest.portNo) r.portNo,
        u32 (OfpMultipartRequest.body + OfpQueueStatsRequest.queueId) r.queueId]
  | group groupId => [u32 (OfpMultipartRequest.body + OfpGroupStatsRequest.groupId) groupId]
  | meter meterId | meterConfig meterId =>
      [u32 (OfpMultipartRequest.body + OfpMeterMultipartRequest.meterId) meterId]
  | _ => []

def MultipartReply.wireFields : MultipartReply L → List WireField
  | aggregate r =>
      [u64 (OfpMultipartReply.body + OfpAggregateStatsReply.packetCount) r.packetCount,
        u64 (OfpMultipartReply.body + OfpAggregateStatsReply.byteCount) r.byteCount,
        u32 (OfpMultipartReply.body + OfpAggregateStatsReply.flowCount) r.flowCount]
  | groupFeatures r =>
      [u32 (OfpMultipartReply.body + OfpGroupFeaturesStats.types) r.types,
        u32 (OfpMultipartReply.body + OfpGroupFeaturesStats.capabilities) r.capabilities] ++
      List.ofFn (fun i : Fin 4 =>
        u32 (OfpMultipartReply.body + OfpGroupFeaturesStats.maxGroups + 4 * i) (r.maxGroups i)) ++
      List.ofFn (fun i : Fin 4 =>
        u32 (OfpMultipartReply.body + OfpGroupFeaturesStats.actions + 4 * i) (r.actions i))
  | meterFeatures features =>
      [u32 (OfpMultipartReply.body + OfpMeterFeatures.maxMeter) features.maxMeter,
        u32 (OfpMultipartReply.body + OfpMeterFeatures.bandTypes) features.bandTypes,
        u32 (OfpMultipartReply.body + OfpMeterFeatures.capabilities) features.capabilities]
  | _ => []

def OflAsyncConfig.wireFields (config : OflAsyncConfig) : List WireField :=
  List.ofFn (fun i : Fin 2 => u32 (OfpAsyncConfig.packetInMask + 4 * i) (config.packetInMask i)) ++
  List.ofFn (fun i : Fin 2 =>
    u32 (OfpAsyncConfig.portStatusMask + 4 * i) (config.portStatusMask i)) ++
  List.ofFn (fun i : Fin 2 =>
    u32 (OfpAsyncConfig.flowRemovedMask + 4 * i) (config.flowRemovedMask i))

/-- The fields behind the common header that `cc_create_msg.c` writes itself. -/
def OflMsg.wireFields (exp : Option (OflExp L)) : OflMsg L → List WireField
  | error m => [u16 OfpErrorMsg.type m.type, u16 OfpErrorMsg.code m.code]
  | roleRequest m | roleReply m =>
      [u32 OfpRoleRequest.role m.role, u64 OfpRoleRequest.generationId m.generationId]
  | featuresReply m =>
      [u64 OfpSwitchFeatures.datapathId m.datapathId, u32 OfpSwitchFeatures.nBuffers m.nBuffers,
        u32 OfpSwitchFeatures.capabilities m.capabilities, u32 OfpSwitchFeatures.reserved 0]
  | getConfigReply config | setConfig config =>
      [u16 OfpSwitchConfig.flags config.flags, u16 OfpSwitchConfig.missSendLen config.missSendLen]
  | getAsyncReply config | setAsync config => config.wireFields
  | portMod m =>
      [u32 OfpPortMod.portNo m.portNo, u32 OfpPortMod.config m.config, u32 OfpPortMod.mask m.mask,
        u32 OfpPortMod.advertise m.advertise]
  | tableMod m => [u32 OfpTableMod.config m.config]
  | queueGetConfigRequest port => [u32 OfpQueueGetConfigRequest.port port]
  | packetIn m =>
      [u32 OfpPacketIn.bufferId m.bufferId, u16 OfpPacketIn.totalLen m.totalLen,
        u64 OfpPacketIn.cookie m.cookie]
  | packetOut m =>
      [u32 OfpPacketOut.bufferId m.bufferId, u32 OfpPacketOut.inPort m.inPort,
        u16 OfpPacketOut.actionsLen (UInt16.ofNat (oflActionsOfpTotalLen exp m.actions))]
  | flowMod m =>
      [u64 OfpFlowMod.cookie m.cookie, u64 OfpFlowMod.cookieMask m.cookieMask,
        u16 OfpFlowMod.idleTimeout m.idleTimeout, u16 OfpFlowMod.hardTimeout m.hardTimeout,
        u16 OfpFlowMod.priority m.priority, u32 OfpFlowMod.bufferId m.bufferId,
        u32 OfpFlowMod.outPort m.outPort, u32 OfpFlowMod.outGroup m.outGroup,
        u16 OfpFlowMod.flags m.flags]
  | groupMod m => [u16 OfpGroupMod.command m.command, u32 OfpGroupMod.groupId m.groupId]
  | meterMod m =>
      [u16 OfpMeterMod.command m.command, u16 OfpMeterMod.flags m.flags,
        u32 OfpMeterMod.meterId m.meterId]
  | multipartRequest flags body =>
      [u16 OfpMultipartRequest.type body.type, u16 OfpMultipartRequest.flags flags] ++
        body.wireFields
  | multipartReply flags body =>
      [u16 OfpMultipartReply.type body.type, u16 OfpMultipartReply.flags flags] ++ body.wireFields
  | _ => []

/-- The fields of the common header. -/
def headerFields (xid : UInt32) (bufLen : Nat) : List WireField :=
  [u16 OfpHeader.length (UInt16.ofNat bufLen), u32 OfpHeader.xid xid]

/-- The multipart requests that this repository encodes without help. -/
def MultipartRequest.EncodedHere : MultipartRequest L → Prop
  | flow _ | aggregate _ | tableFeatures _ | experimenter _ | unknown _ _ => False
  | _ => True

def MultipartReply.EncodedHere : MultipartReply L → Prop
  | desc _ | aggregate _ | groupFeatures _ | meterFeatures _ => True
  | _ => False

/-- The messages whose fixed part this repository encodes. A SET_FIELD action in a PACKET_OUT writes
over the fixed part. -/
def OflMsg.EncodedHere : OflMsg L → Prop
  | error _ | roleRequest _ | roleReply _ | featuresReply _ | getConfigReply _ | setConfig _
  | getAsyncReply _ | setAsync _ | portMod _ | tableMod _ | queueGetConfigRequest _ | packetIn _
  | flowMod _ | groupMod _ | meterMod _ => True
  | packetOut m => ∀ a ∈ m.actions, ¬ a.IsSetField
  | multipartRequest _ body => body.EncodedHere
  | multipartReply _ body => body.EncodedHere
  | _ => False

/-! ## 3. What the parts from outside leave alone -/

/-- The packers outside the repository write at their place and behind it. -/
structure OflLib.WritesBehind (L : OflLib) (exp : Option (OflExp L)) : Prop where
  matchPack : ∀ order m mem dst ptr i, dst ≤ ptr → i < dst → L.matchPack order m mem dst ptr i = mem i
  elemPack : ∀ k a m pos i, i < pos → (L.elemPack k a m pos).1 i = m i
  bucketPack : ∀ a m pos i, i < pos → (L.bucketPack a m pos).1 i = m i
  actPack : ∀ pack, OflExp.actPack exp = some pack → ∀ a m dst i, i < dst → (pack a m dst).1 i = m i

/-- A loop of packers that write behind their pointer does so too. -/
theorem packArr_behind {α : Type} {pack : α → Mem → Nat → Mem × Nat} (as : List α) :
    ∀ {m : Mem} {pos i : Nat},
      (∀ a ∈ as, ∀ m pos i, i < pos → (pack a m pos).1 i = m i) → i < pos →
      (packArr pack as m pos).1 i = m i := by
  induction as with
  | nil => exact fun _ _ => rfl
  | cons a as ih =>
    intro m pos i hpack hi
    rw [EntryCodec.packArr_cons, ih (fun b hb => hpack b (List.mem_cons_of_mem a hb)) (by omega),
      hpack a List.mem_cons_self m pos i hi]

theorem le_packArr_ptr {α : Type} (pack : α → Mem → Nat → Mem × Nat) (as : List α) :
    ∀ m pos, pos ≤ (packArr pack as m pos).2 := by
  induction as with
  | nil => exact fun _ pos => le_refl pos
  | cons a as ih =>
    intro m pos
    rw [EntryCodec.packArr_cons]
    exact (Nat.le_add_right pos _).trans (ih _ _)

/-- An action other than SET_FIELD writes behind its start. -/
theorem oflActionsPack_behind {exp : Option (OflExp L)} (hL : L.WritesBehind exp)
    {a : OflAction L.ExpAction} (hset : ¬ a.IsSetField) (m : Mem) (dst data i : Nat) (hi : i < dst) :
    (oflActionsPack exp a m dst data).1 i = m i := by
  have hpro (type : UInt16) : zero (put16 m dst type) (dst + 4) 4 i = m i :=
    changedWithin_prologue type m dst (le_refl 8) i (Or.inl hi)
  cases a with
  | experimenter a =>
    simp only [oflActionsPack]
    cases hpack : OflExp.actPack exp with
    | none => exact hpro _
    | some pack => exact (hL.actPack pack hpack a _ dst i hi).trans (hpro _)
  | unknown type h => exact hpro _
  | setField field => exact absurd trivial hset
  | _ =>
    refine (oflActionsPack_frame exp _ ?_ hset m dst data).2 i (Or.inl hi)
    exact trivial

/-! ## 4. The bodies -/

/-- All these fields are in network order. -/
def AllInOrder (m : Mem) (fields : List WireField) : Prop := ∀ f ∈ fields, f.InNetworkOrder m

theorem error_inOrder (m : OflMsgError) (heap : Mem) :
    AllInOrder (oflMsgPackError m heap).buf [u16 8 m.type, u16 10 m.code] := by
  simp (disch := simp) [AllInOrder, oflMsgPackError, get16_store_disjoint]

theorem roleRequest_inOrder (m : OflMsgRoleRequest) (heap : Mem) :
    AllInOrder (oflMsgPackRoleRequest m heap).buf [u32 8 m.role, u64 16 m.generationId] := by
  simp (disch := simp) [AllInOrder, oflMsgPackRoleRequest, get32_store_disjoint]

theorem featuresReply_inOrder (m : OflMsgFeaturesReply) (heap : Mem) :
    AllInOrder (oflMsgPackFeaturesReply m heap).buf
      [u64 8 m.datapathId, u32 16 m.nBuffers, u32 24 m.capabilities, u32 28 0] := by
  have hzero : ntohl 0 = 0 := by decide
  simp (disch := simp) [AllInOrder, oflMsgPackFeaturesReply, get32_store_disjoint,
    get64_store_disjoint, hzero]

theorem config_inOrder (config : OflConfig) (heap : Mem) :
    AllInOrder (oflMsgPackGetConfigReply config heap).buf
        [u16 8 config.flags, u16 10 config.missSendLen] ∧
      AllInOrder (oflMsgPackSetConfig config heap).buf
        [u16 8 config.flags, u16 10 config.missSendLen] := by
  simp (disch := simp) [AllInOrder, oflMsgPackGetConfigReply, oflMsgPackSetConfig,
    get16_store_disjoint]

theorem portMod_inOrder (m : OflMsgPortMod) (heap : Mem) :
    AllInOrder (oflMsgPackPortMod m heap).buf
      [u32 8 m.portNo, u32 24 m.config, u32 28 m.mask, u32 32 m.advertise] := by
  simp (disch := simp) [AllInOrder, oflMsgPackPortMod, get32_store_disjoint]

theorem tableMod_inOrder (m : OflMsgTableMod) (heap : Mem) :
    AllInOrder (oflMsgPackTableMod m heap).buf [u32 12 m.config] := by
  simp [AllInOrder, oflMsgPackTableMod]

theorem queueGetConfigRequest_inOrder (port : UInt32) (heap : Mem) :
    AllInOrder (oflMsgPackQueueGetConfigRequest port heap).buf [u32 8 port] := by
  simp (disch := simp) [AllInOrder, oflMsgPackQueueGetConfigRequest, get32_store_disjoint]

/-- The multipart header is in network order, and the fields of the body stay as they are. -/
theorem multipartHeader_inOrder {type flags : UInt16} {r : PackResult} {fields : List WireField}
    (hret : r.ret = 0) (hoff : ∀ f ∈ fields, 16 ≤ f.off) (h : AllInOrder r.buf fields) :
    AllInOrder (packMultipartHeader type flags r).buf
      ([u16 8 type, u16 10 flags] ++ fields) := by
  rw [packMultipartHeader_of_ret hret]
  dsimp only
  intro f hf
  simp only [List.cons_append, List.nil_append, List.mem_cons] at hf
  obtain rfl | rfl | hf := hf
  · simp (disch := simp) [get16_store_disjoint]
  · simp (disch := simp) [get16_store_disjoint]
  · -- A field of the body lies behind the header.
    have hframe : ChangedWithin 8 16 r.buf
        (zero (put16 (put16 r.buf 8 (htons type)) 10 (htons flags)) 12 4) :=
      (((ChangedWithin.refl 8 16 r.buf).put16 8 (by decide) (by decide)).put16 10 (by decide)
        (by decide)).zero 12 (by decide) (by decide)
    have hagree : AgreeOn 16 (f.off + f.width)
        (zero (put16 (put16 r.buf 8 (htons type)) 10 (htons flags)) 12 4) r.buf :=
      fun i hi _ => hframe i (Or.inr hi)
    exact (WireField.inNetworkOrder_congr hagree (hoff f hf) (le_refl _)).mpr (h f hf)

theorem request_inOrder (exp : Option (OflExp L)) (flags : UInt16) (body : MultipartRequest L)
    (heap : Mem) (hbody : body.EncodedHere) :
    AllInOrder (oflMsgPackMultipartRequest exp flags body heap).buf
      ([u16 8 body.type, u16 10 flags] ++ body.wireFields) := by
  cases body with
  | portStats portNo =>
    apply multipartHeader_inOrder rfl (by simp [MultipartRequest.wireFields, u32])
    simp (disch := simp) [AllInOrder, MultipartRequest.wireFields, oflMsgPackMultipartRequestPort,
      get32_store_disjoint]
  | queue r =>
    apply multipartHeader_inOrder rfl (by simp [MultipartRequest.wireFields, u32])
    simp (disch := simp) [AllInOrder, MultipartRequest.wireFields, oflMsgPackMultipartRequestQueue,
      get32_store_disjoint]
  | group groupId =>
    apply multipartHeader_inOrder rfl (by simp [MultipartRequest.wireFields, u32])
    simp (disch := simp) [AllInOrder, MultipartRequest.wireFields, oflMsgPackMultipartRequestGroup,
      get32_store_disjoint]
  | meter meterId =>
    apply multipartHeader_inOrder rfl (by simp [MultipartRequest.wireFields, u32])
    simp (disch := simp) [AllInOrder, MultipartRequest.wireFields, oflMsgPackMeterMultipartRequest,
      get32_store_disjoint]
  | meterConfig meterId =>
    apply multipartHeader_inOrder rfl (by simp [MultipartRequest.wireFields, u32])
    simp (disch := simp) [AllInOrder, MultipartRequest.wireFields, oflMsgPackMeterMultipartRequest,
      get32_store_disjoint]
  | desc | table | groupDesc | groupFeatures | meterFeatures | portDesc =>
    apply multipartHeader_inOrder rfl (by simp [MultipartRequest.wireFields])
    simp [AllInOrder, MultipartRequest.wireFields]
  | _ => exact hbody.elim

theorem groupFeatures_inOrder (r : OflMsgMultipartReplyGroupFeatures) (heap : Mem) :
    AllInOrder (oflMsgPackMultipartReplyGroupFeatures r heap).buf
      (MultipartReply.groupFeatures (L := L) r).wireFields := by
  simp (disch := simp) [AllInOrder, MultipartReply.wireFields, List.ofFn_succ,
    oflMsgPackMultipartReplyGroupFeatures, get32_store_disjoint]

theorem reply_inOrder (exp : Option (OflExp L)) (flags : UInt16) (body : MultipartReply L)
    (heap : Mem) (hbody : body.EncodedHere) :
    AllInOrder (oflMsgPackMultipartReply exp flags body heap).buf
      ([u16 8 body.type, u16 10 flags] ++ body.wireFields) := by
  cases body with
  | desc r =>
    apply multipartHeader_inOrder rfl (by simp [MultipartReply.wireFields])
    simp [AllInOrder, MultipartReply.wireFields]
  | aggregate r =>
    apply multipartHeader_inOrder rfl (by simp [MultipartReply.wireFields, u32, u64])
    simp (disch := simp) [AllInOrder, MultipartReply.wireFields, oflMsgPackMultipartReplyAggregate,
      get32_store_disjoint, get64_store_disjoint]
  | groupFeatures r =>
    apply multipartHeader_inOrder rfl _ (groupFeatures_inOrder r heap)
    simp [MultipartReply.wireFields, List.ofFn_succ, u32]
  | meterFeatures features =>
    apply multipartHeader_inOrder rfl (by simp [MultipartReply.wireFields, u32])
    simp (disch := simp) [AllInOrder, MultipartReply.wireFields,
      oflMsgPackMultipartReplyMeterFeatures, get32_store_disjoint]
  | _ => exact hbody.elim

/-! ## 5. Fixed parts in front of a match or an array -/

/-- The fields of a fixed part are in order when they were so before the rest was written. -/
theorem AllInOrder.of_agreeOn {lo hi : Nat} {m m' : Mem} {fields : List WireField}
    (h : AllInOrder m' fields) (hagree : AgreeOn lo hi m m')
    (hin : ∀ f ∈ fields, lo ≤ f.off ∧ f.off + f.width ≤ hi) : AllInOrder m fields :=
  fun f hf => (WireField.inNetworkOrder_congr hagree (hin f hf).1 (hin f hf).2).mpr (h f hf)

theorem packetIn_inOrder {exp : Option (OflExp L)} (hL : L.WritesBehind exp) (m : OflMsgPacketIn L)
    (heap : Mem) :
    AllInOrder (oflMsgPackPacketIn m heap).buf
      [u32 8 m.bufferId, u16 12 m.totalLen, u64 16 m.cookie] := by
  have hround := le_roundUp (4 + (L.matchLength m.fmatch).toNat)
  -- The match, its padding and the data lie behind the fixed part.
  have hagree : AgreeOn 8 24 (oflMsgPackPacketIn m heap).buf (packetInFixed m heap) := by
    intro i hlo hhi
    rw [oflMsgPackPacketIn_eq]
    dsimp only
    rw [store_outside (by omega), zero_outside (by omega),
      hL.matchPack _ _ _ _ _ _ (by decide) hhi]
  refine AllInOrder.of_agreeOn ?_ hagree (by simp [u16, u32, u64])
  simp (disch := simp) [AllInOrder, packetInFixed, get16_store_disjoint, get32_store_disjoint]

theorem packetOut_inOrder {exp : Option (OflExp L)} (hL : L.WritesBehind exp)
    (m : OflMsgPacketOut L) (heap : Mem) (hset : ∀ a ∈ m.actions, ¬ a.IsSetField) :
    AllInOrder (oflMsgPackPacketOut exp m heap).buf
      [u32 8 m.bufferId, u32 12 m.inPort,
        u16 16 (UInt16.ofNat (oflActionsOfpTotalLen exp m.actions))] := by
  have hagree : AgreeOn 8 24 (oflMsgPackPacketOut exp m heap).buf
      (zero (put16 (put32 (put32 heap 8 (htonl m.bufferId)) 12 (htonl m.inPort)) 16
        (htons (UInt16.ofNat (oflActionsOfpTotalLen exp m.actions)))) 18 6) := by
    intro i _ hhi
    -- The data lies behind the actions, and these behind the fixed part.
    have hptr := le_packArr_ptr (fun a m dst => oflActionsPack exp a m dst 0) m.actions
      (zero (put16 (put32 (put32 heap 8 (htonl m.bufferId)) 12 (htonl m.inPort)) 16
        (htons (UInt16.ofNat (oflActionsOfpTotalLen exp m.actions)))) 18 6) 24
    refine Eq.trans (store_outside (Or.inl (hhi.trans_le hptr))) ?_
    exact packArr_behind _ (fun a ha m dst => oflActionsPack_behind hL (hset a ha) m dst 0) hhi
  refine AllInOrder.of_agreeOn ?_ hagree (by simp [u16, u32])
  simp (disch := simp) [AllInOrder, get16_store_disjoint, get32_store_disjoint]

theorem flowMod_inOrder {exp : Option (OflExp L)} (hL : L.WritesBehind exp) (m : OflMsgFlowMod L)
    (heap : Mem) :
    AllInOrder (oflMsgPackFlowMod m heap).buf
      [u64 8 m.cookie, u64 16 m.cookieMask, u16 26 m.idleTimeout, u16 28 m.hardTimeout,
        u16 30 m.priority, u32 32 m.bufferId, u32 36 m.outPort, u32 40 m.outGroup,
        u16 44 m.flags] := by
  have hagree : AgreeOn 8 48 (oflMsgPackFlowMod m heap).buf (flowModFixed m heap) := by
    intro i hlo hhi
    rw [oflMsgPackFlowMod_eq]
    dsimp only
    rw [packArr_behind _ (fun a _ => hL.elemPack .instruction a) (by omega),
      hL.matchPack _ _ _ _ _ _ (by decide) hhi]
  refine AllInOrder.of_agreeOn ?_ hagree (by simp [u16, u32, u64])
  simp (disch := simp) [AllInOrder, flowModFixed, get16_store_disjoint, get32_store_disjoint,
    get64_store_disjoint]

theorem groupMod_inOrder {exp : Option (OflExp L)} (hL : L.WritesBehind exp) (m : OflMsgGroupMod L)
    (heap : Mem) :
    AllInOrder (oflMsgPackGroupMod m heap).buf [u16 8 m.command, u32 12 m.groupId] := by
  have hagree : AgreeOn 8 16 (oflMsgPackGroupMod m heap).buf
      (put32 (put8 (put8 (put16 heap 8 (htons m.command)) 10 m.type) 11 0) 12
        (htonl m.groupId)) :=
    fun i _ hhi => packArr_behind _ (fun a _ => hL.bucketPack a) hhi
  refine AllInOrder.of_agreeOn ?_ hagree (by simp [u16, u32])
  simp (disch := simp) [AllInOrder, get16_store_disjoint]

theorem meterMod_inOrder {exp : Option (OflExp L)} (hL : L.WritesBehind exp) (m : OflMsgMeterMod L)
    (heap : Mem) :
    AllInOrder (oflMsgPackMeterMod m heap).buf
      [u16 8 m.command, u16 10 m.flags, u32 12 m.meterId] := by
  have hagree : AgreeOn 8 16 (oflMsgPackMeterMod m heap).buf
      (put32 (put16 (put16 heap 8 (htons m.command)) 10 (htons m.flags)) 12 (htonl m.meterId)) :=
    fun i _ hhi => packArr_behind _ (fun a _ => hL.elemPack .meterBand a) hhi
  refine AllInOrder.of_agreeOn ?_ hagree (by simp [u16, u32])
  simp (disch := simp) [AllInOrder, get16_store_disjoint]

/-! ## 6. The asynchronous configuration -/

/-- Each mask word is its own byte reversal. -/
def OflAsyncConfig.SwapInvariant (config : OflAsyncConfig) : Prop :=
  ∀ i, htonl (config.packetInMask i) = config.packetInMask i ∧
    htonl (config.portStatusMask i) = config.portStatusMask i ∧
    htonl (config.flowRemovedMask i) = config.flowRemovedMask i

theorem asyncConfig_inOrder_iff (config : OflAsyncConfig) (heap : Mem) :
    AllInOrder (oflMsgPackAsyncConfig config heap).buf config.wireFields ↔
      config.SwapInvariant := by
  simp (disch := simp) [AllInOrder, OflAsyncConfig.wireFields, oflMsgPackAsyncConfig,
    List.ofFn_succ, get32_store_disjoint, OflAsyncConfig.SwapInvariant, Fin.forall_fin_two,
    ntohl_eq_htonl]
  tauto

/-! ## 7. The messages -/

/-- The asynchronous configurations whose masks read the same in both byte orders, and all other
messages. -/
def OflMsg.SwapInvariant : OflMsg L → Prop
  | getAsyncReply config | setAsync config => config.SwapInvariant
  | _ => True

theorem OflMsg.le_wireFields_off (exp : Option (OflExp L)) (msg : OflMsg L) :
    ∀ f ∈ msg.wireFields exp, 8 ≤ f.off := by
  cases msg with
  | multipartRequest flags body =>
    cases body <;> simp [OflMsg.wireFields, MultipartRequest.wireFields, u16, u32]
  | multipartReply flags body =>
    cases body <;> simp [OflMsg.wireFields, MultipartReply.wireFields, u16, u32, u64, List.ofFn_succ]
  | getAsyncReply config =>
    simp [OflMsg.wireFields, OflAsyncConfig.wireFields, u32, List.ofFn_succ]
  | setAsync config =>
    simp [OflMsg.wireFields, OflAsyncConfig.wireFields, u32, List.ofFn_succ]
  | _ => simp [OflMsg.wireFields, u16, u32, u64]

theorem OflMsg.EncodedHere.ret {msg : OflMsg L} (hmsg : msg.EncodedHere) (exp : Option (OflExp L))
    (heap : Mem) : (packBody exp msg heap).ret = 0 := by
  cases msg with
  | multipartRequest flags body =>
    cases body <;> first | rfl | exact hmsg.elim
  | multipartReply flags body =>
    cases body <;> first | rfl | exact hmsg.elim
  | _ => first | rfl | exact hmsg.elim

/-- The common header is in network order, and the fields of the body stay as they are. -/
theorem oflMsgPack_inOrder_iff {exp : Option (OflExp L)} {msg : OflMsg L} (hmsg : msg.EncodedHere)
    (xid : UInt32) (heap : Mem) :
    AllInOrder (oflMsgPack exp msg xid heap).buf
        (headerFields xid (oflMsgPack exp msg xid heap).bufLen ++ msg.wireFields exp) ↔
      AllInOrder (packBody exp msg heap).buf (msg.wireFields exp) := by
  rw [oflMsgPack_of_body _ (hmsg.ret exp heap)]
  dsimp only
  generalize (packBody exp msg heap).bufLen = n
  generalize (packBody exp msg heap).buf = body
  have hheader : AllInOrder (packHeader msg.type xid n body) (headerFields xid n) := by
    simp (disch := simp) [AllInOrder, headerFields, packHeader, get16_store_disjoint]
  have hbody (f : WireField) (hf : f ∈ msg.wireFields exp) :
      f.InNetworkOrder (packHeader msg.type xid n body) ↔ f.InNetworkOrder body := by
    have hagree : AgreeOn 8 (f.off + f.width) (packHeader msg.type xid n body) body :=
      fun i hi _ => packHeader_changedWithin _ _ _ _ i (Or.inr hi)
    exact WireField.inNetworkOrder_congr hagree (msg.le_wireFields_off exp f hf) (le_refl _)
  constructor
  · intro h f hf
    exact (hbody f hf).mp (h f (List.mem_append_right _ hf))
  · intro h f hf
    cases List.mem_append.mp hf with
    | inl hf => exact hheader f hf
    | inr hf => exact (hbody f hf).mpr (h f hf)

/-- **Every field goes out in network order**, the masks of an asynchronous configuration apart:
these do only when their bytes read the same both ways. -/
theorem network_order_iff {exp : Option (OflExp L)} (hL : L.WritesBehind exp) (msg : OflMsg L)
    (hmsg : msg.EncodedHere) (xid : UInt32) (heap : Mem) :
    AllInOrder (oflMsgPack exp msg xid heap).buf
        (headerFields xid (oflMsgPack exp msg xid heap).bufLen ++ msg.wireFields exp) ↔
      msg.SwapInvariant := by
  rw [oflMsgPack_inOrder_iff hmsg]
  -- Only the two types with an asynchronous configuration ask for anything.
  cases msg with
  | getAsyncReply config => exact asyncConfig_inOrder_iff config heap
  | setAsync config => exact asyncConfig_inOrder_iff config heap
  | error m => exact iff_of_true (error_inOrder m heap) trivial
  | roleRequest m => exact iff_of_true (roleRequest_inOrder m heap) trivial
  | roleReply m => exact iff_of_true (roleRequest_inOrder m heap) trivial
  | featuresReply m => exact iff_of_true (featuresReply_inOrder m heap) trivial
  | getConfigReply config => exact iff_of_true (config_inOrder config heap).1 trivial
  | setConfig config => exact iff_of_true (config_inOrder config heap).2 trivial
  | portMod m => exact iff_of_true (portMod_inOrder m heap) trivial
  | tableMod m => exact iff_of_true (tableMod_inOrder m heap) trivial
  | queueGetConfigRequest port => exact iff_of_true (queueGetConfigRequest_inOrder port heap) trivial
  | packetIn m => exact iff_of_true (packetIn_inOrder hL m heap) trivial
  | packetOut m => exact iff_of_true (packetOut_inOrder hL m heap hmsg) trivial
  | flowMod m => exact iff_of_true (flowMod_inOrder hL m heap) trivial
  | groupMod m => exact iff_of_true (groupMod_inOrder hL m heap) trivial
  | meterMod m => exact iff_of_true (meterMod_inOrder hL m heap) trivial
  | multipartRequest flags body =>
    exact iff_of_true (request_inOrder exp flags body heap hmsg) trivial
  | multipartReply flags body => exact iff_of_true (reply_inOrder exp flags body heap hmsg) trivial
  | _ => exact hmsg.elim

theorem sampleLib_writesBehind : sampleLib.WritesBehind none where
  matchPack := by
    intro order m mem dst ptr i hptr hi
    show zero (put16 (put16 mem dst (htons 1)) (dst + OfpMatch.length) (htons 4)) ptr 4 i = mem i
    rw [zero_outside (by omega), put16_outside (by simp; omega), put16_outside (by omega)]
  elemPack := fun k a m pos i hi => k.sampleLayout.pack_frame a m pos i (Or.inl hi)
  bucketPack := fun a m pos i hi => sampleBucket.pack_frame a m pos i (Or.inl hi)
  actPack := fun pack hpack => nomatch hpack

/-- A METER_MOD with one band. -/
theorem network_order_iff_meterMod :
    AllInOrder (oflMsgPack (L := sampleLib) none (.meterMod ⟨0, 1, 513, [(5 : UInt16)]⟩) 7
        (fun _ => 0)).buf
      [u16 2 32, u32 4 7, u16 8 0, u16 10 1, u32 12 513] :=
  (network_order_iff sampleLib_writesBehind (.meterMod ⟨0, 1, 513, [(5 : UInt16)]⟩) trivial 7
    (fun _ => 0)).mpr trivial

/-- A SET_ASYNC that asks for `OFPR_NO_MATCH`, bit 0, goes out asking for bit 24. -/
def sampleAsyncConfig : OflAsyncConfig where
  packetInMask := fun _ => 1
  portStatusMask := fun _ => 0
  flowRemovedMask := fun _ => 0

theorem setAsync_not_inOrder :
    ¬ ∀ msg : OflMsg sampleLib, msg.EncodedHere →
      AllInOrder (oflMsgPack none msg 7 (fun _ => 0)).buf (msg.wireFields none) := by
  intro h
  have hmask := h (.setAsync sampleAsyncConfig) trivial (u32 8 1) (by
    show u32 8 1 ∈ sampleAsyncConfig.wireFields
    simp [OflAsyncConfig.wireFields, List.ofFn_succ, sampleAsyncConfig])
  rw [WireField.u32_inNetworkOrder] at hmask
  exact absurd hmask (by decide)

end CcPof.OpenFlow

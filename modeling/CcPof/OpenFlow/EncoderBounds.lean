import CcPof.OpenFlow.FlowRemoved
import CcPof.OpenFlow.FlowRequest
import CcPof.OpenFlow.PacketOutBounds
import CcPof.OpenFlow.ReplyDesc

/-!
# Where the encoder writes

Each pack function computes the size of its buffer with one expression and moves its write pointer
with others. `oflMsgPack_inside_iff` shows for every message that no write leaves the buffer, with
two exceptions, both of PACKET_OUT: the header of an action without a `case`, which
`ofl_actions_pack` writes and does not count, and an EXPERIMENTER action without callbacks, for
which a byte is taken off the size.
-/

namespace CcPof.OpenFlow

variable {L : OflLib} {α : Type}

/-! ## 1. The promise of the library -/

/-- The encoder of an entry writes what it returns as the length, and `total` is the sum. -/
def WritesArr (pack : α → Mem → Nat → Mem × Nat) (total : List α → Nat) : Prop :=
  ∃ size : α → Nat,
    (∀ a m pos, (pack a m pos).2 = size a ∧
      ChangedWithin pos (pos + size a) m (pack a m pos).1) ∧
    ∀ as, total as = (as.map size).sum

theorem EntryCodec.writesArr {pack : α → Mem → Nat → Mem × Nat} {unpack : ElemDecoder α}
    {stride : Mem → Nat → Nat} {fixed : Nat} (C : EntryCodec pack unpack stride fixed)
    {total : List α → Nat} (htotal : ∀ as, total as = C.totalSize as) : WritesArr pack total :=
  ⟨C.size, fun a m pos => ⟨C.pack_size a m pos, C.pack_frame a m pos⟩, htotal⟩

/-- The loop over the entries stays inside the sum. -/
theorem WritesArr.packArr {pack : α → Mem → Nat → Mem × Nat} {total : List α → Nat}
    (h : WritesArr pack total) (as : List α) :
    ∀ m pos, ChangedWithin pos (pos + total as) m (packArr pack as m pos).1 := by
  obtain ⟨size, hpack, htotal⟩ := h
  rw [htotal]
  induction as with
  | nil => exact fun m pos => ChangedWithin.refl _ _ m
  | cons a as ih =>
    intro m pos
    have hhead := (hpack a m pos).2
    have htail := ih (pack a m pos).1 (pos + size a)
    rw [List.map_cons, List.sum_cons]
    show ChangedWithin _ _ m (OpenFlow.packArr pack as (pack a m pos).1 (pos + (pack a m pos).2)).1
    rw [(hpack a m pos).1]
    -- The first entry, and the others behind it
    exact (hhead.mono le_rfl (by omega)).trans (htail.mono (by omega) (by omega))

/-- A match is written in two places: its header and its TLVs. -/
structure OflLib.WritesInside (L : OflLib) : Prop where
  elem : ∀ k, WritesArr (L.elemPack k) (L.elemTotalLen k)
  elemSizeof : ∀ k, k.lenOff = none → ∀ as, L.elemTotalLen k as = as.length * k.fixedSize
  bucket : WritesArr L.bucketPack L.bucketTotalLen
  flowStats : WritesArr L.flowStatsPack L.flowStatsTotalLen
  matchInside : ∀ order (fmatch : L.Match) m dst ptr i, i < dst ∨ dst + 4 ≤ i →
    i < ptr ∨ ptr + (L.matchLength fmatch).toNat ≤ i → L.matchPack order fmatch m dst ptr i = m i

/-- What a pack function leaves: only the buffer has changed, and on success there is room in it for
the header that the caller writes. -/
structure PackResult.Contained (header : Nat) (heap : Mem) (r : PackResult) : Prop where
  header_le : r.ret = 0 → header ≤ r.bufLen
  inside : ChangedWithin 0 r.bufLen heap r.buf

structure OflExp.WritesInside (exp : Option (OflExp L)) : Prop where
  msg : ∀ pack, OflExp.msgPack exp = some pack → ∀ a heap,
    (pack a heap).Contained OfpHeader.size heap
  request : ∀ pack, OflExp.statsReqPack exp = some pack → ∀ a heap,
    (pack a heap).Contained OfpMultipartRequest.size heap
  reply : ∀ pack, OflExp.statsReplyPack exp = some pack → ∀ a heap,
    (pack a heap).Contained OfpMultipartReply.size heap

theorem PackResult.Contained.packed {header bufLen : Nat} {heap buf : Mem}
    (hlen : header ≤ bufLen) (h : ChangedWithin 0 bufLen heap buf) :
    PackResult.Contained header heap (packed buf bufLen) :=
  ⟨fun _ => hlen, h⟩

theorem contained_refused (header : Nat) (heap : Mem) :
    (packRefused heap).Contained header heap :=
  ⟨fun h => absurd h (show ¬(-1 : Int) = 0 by decide), ChangedWithin.refl _ _ _⟩

/-- A match that lies in the range, header and TLVs. -/
theorem OflLib.WritesInside.fmatch (hL : L.WritesInside) {order : ByteOrder} {fmatch : L.Match}
    {m m' : Mem} {dst ptr lo hi : Nat} (h : ChangedWithin lo hi m m') (hdst : lo ≤ dst)
    (hheader : dst + 4 ≤ hi) (hptr : lo ≤ ptr)
    (htlvs : ptr + (L.matchLength fmatch).toNat ≤ hi) :
    ChangedWithin lo hi m (L.matchPack order fmatch m' dst ptr) := by
  intro i hi
  rw [hL.matchInside order fmatch m' dst ptr i (by omega) (by omega)]
  exact h i hi

/-- Entries behind a fixed part. -/
theorem WritesArr.behind {pack : α → Mem → Nat → Mem × Nat} {total : List α → Nat}
    (harr : WritesArr pack total) (as : List α) {m m' : Mem} {pos : Nat}
    (h : ChangedWithin 0 pos m m') :
    ChangedWithin 0 (pos + total as) m (OpenFlow.packArr pack as m' pos).1 :=
  (h.mono le_rfl (Nat.le_add_right _ _)).trans ((harr.packArr as m' pos).mono (Nat.zero_le _) le_rfl)

/-! ## 2. Messages of fixed size -/

theorem contained_roleRequest (m : OflMsgRoleRequest) (heap : Mem) :
    (oflMsgPackRoleRequest m heap).Contained 8 heap := by
  apply PackResult.Contained.packed (by decide)
  apply ChangedWithin.put64 _ 16 (by decide) (by decide)
  apply ChangedWithin.zero _ 12 (by decide) (by decide)
  apply ChangedWithin.put32 _ 8 (by decide) (by decide)
  apply ChangedWithin.refl

theorem contained_featuresReply (m : OflMsgFeaturesReply) (heap : Mem) :
    (oflMsgPackFeaturesReply m heap).Contained 8 heap := by
  apply PackResult.Contained.packed (by decide)
  apply ChangedWithin.put32 _ 28 (by decide) (by decide)
  apply ChangedWithin.put32 _ 24 (by decide) (by decide)
  apply ChangedWithin.zero _ 22 (by decide) (by decide)
  apply ChangedWithin.put8 _ 21 (by decide) (by decide)
  apply ChangedWithin.put8 _ 20 (by decide) (by decide)
  apply ChangedWithin.put32 _ 16 (by decide) (by decide)
  apply ChangedWithin.put64 _ 8 (by decide) (by decide)
  apply ChangedWithin.refl

theorem contained_getConfigReply (config : OflConfig) (heap : Mem) :
    (oflMsgPackGetConfigReply config heap).Contained 8 heap := by
  apply PackResult.Contained.packed (by decide)
  apply ChangedWithin.put16 _ 10 (by decide) (by decide)
  apply ChangedWithin.put16 _ 8 (by decide) (by decide)
  apply ChangedWithin.refl

theorem contained_setConfig (config : OflConfig) (heap : Mem) :
    (oflMsgPackSetConfig config heap).Contained 8 heap := by
  apply PackResult.Contained.packed (by decide)
  apply ChangedWithin.put16 _ 8 (by decide) (by decide)
  apply ChangedWithin.put16 _ 10 (by decide) (by decide)
  apply ChangedWithin.refl

theorem contained_portMod (m : OflMsgPortMod) (heap : Mem) :
    (oflMsgPackPortMod m heap).Contained 8 heap := by
  apply PackResult.Contained.packed (by decide)
  apply ChangedWithin.zero _ 36 (by decide) (by decide)
  apply ChangedWithin.put32 _ 32 (by decide) (by decide)
  apply ChangedWithin.put32 _ 28 (by decide) (by decide)
  apply ChangedWithin.put32 _ 24 (by decide) (by decide)
  apply ChangedWithin.zero _ 22 (by decide) (by decide)
  apply ChangedWithin.store _ (by decide) (by rw [List.length_ofFn]; decide)
  apply ChangedWithin.zero _ 12 (by decide) (by decide)
  apply ChangedWithin.put32 _ 8 (by decide) (by decide)
  apply ChangedWithin.refl

theorem contained_tableMod (m : OflMsgTableMod) (heap : Mem) :
    (oflMsgPackTableMod m heap).Contained 8 heap := by
  apply PackResult.Contained.packed (by decide)
  apply ChangedWithin.put32 _ 12 (by decide) (by decide)
  apply ChangedWithin.zero _ 9 (by decide) (by decide)
  apply ChangedWithin.put8 _ 8 (by decide) (by decide)
  apply ChangedWithin.refl

theorem contained_asyncConfig (config : OflAsyncConfig) (heap : Mem) :
    (oflMsgPackAsyncConfig config heap).Contained 8 heap := by
  apply PackResult.Contained.packed (by decide)
  apply ChangedWithin.put32 _ 28 (by decide) (by decide)
  apply ChangedWithin.put32 _ 20 (by decide) (by decide)
  apply ChangedWithin.put32 _ 12 (by decide) (by decide)
  apply ChangedWithin.put32 _ 24 (by decide) (by decide)
  apply ChangedWithin.put32 _ 16 (by decide) (by decide)
  apply ChangedWithin.put32 _ 8 (by decide) (by decide)
  apply ChangedWithin.refl

theorem contained_queueGetConfigRequest (port : UInt32) (heap : Mem) :
    (oflMsgPackQueueGetConfigRequest port heap).Contained 8 heap := by
  apply PackResult.Contained.packed (by decide)
  apply ChangedWithin.zero _ 12 (by decide) (by decide)
  apply ChangedWithin.put32 _ 8 (by decide) (by decide)
  apply ChangedWithin.refl

/-- Requests of one number and four bytes of padding: PORT, GROUP and METER. -/
theorem contained_oneWord (x : UInt32) (heap : Mem) :
    PackResult.Contained 16 heap (packed (zero (put32 heap 16 x) 20 4) 24) := by
  apply PackResult.Contained.packed (by decide)
  apply ChangedWithin.zero _ 20 (by decide) (by decide)
  apply ChangedWithin.put32 _ 16 (by decide) (by decide)
  apply ChangedWithin.refl

theorem contained_requestQueue (m : OflMsgMultipartRequestQueue) (heap : Mem) :
    (oflMsgPackMultipartRequestQueue m heap).Contained 16 heap := by
  apply PackResult.Contained.packed (by decide)
  apply ChangedWithin.put32 _ 20 (by decide) (by decide)
  apply ChangedWithin.put32 _ 16 (by decide) (by decide)
  apply ChangedWithin.refl

theorem contained_replyAggregate (m : OflMsgMultipartReplyAggregate) (heap : Mem) :
    (oflMsgPackMultipartReplyAggregate m heap).Contained 16 heap := by
  apply PackResult.Contained.packed (by decide)
  apply ChangedWithin.zero _ 36 (by decide) (by decide)
  apply ChangedWithin.put32 _ 32 (by decide) (by decide)
  apply ChangedWithin.put64 _ 24 (by decide) (by decide)
  apply ChangedWithin.put64 _ 16 (by decide) (by decide)
  apply ChangedWithin.refl

theorem contained_replyGroupFeatures (m : OflMsgMultipartReplyGroupFeatures) (heap : Mem) :
    (oflMsgPackMultipartReplyGroupFeatures m heap).Contained 16 heap := by
  -- One turn of the loop: word `i` of either array.
  have hstep {buf : Mem} (h : ChangedWithin 0 56 heap buf) (i : Fin 4) (x y : UInt32) :
      ChangedWithin 0 56 heap (put32 (put32 buf (24 + 4 * i) x) (40 + 4 * i) y) := by
    apply ChangedWithin.put32 _ _ (by omega) (by omega)
    exact h.put32 _ (by omega) (by omega)
  apply PackResult.Contained.packed (by decide)
  apply hstep _ 3
  apply hstep _ 2
  apply hstep _ 1
  apply hstep _ 0
  apply ChangedWithin.put32 _ 20 (by decide) (by decide)
  apply ChangedWithin.put32 _ 16 (by decide) (by decide)
  apply ChangedWithin.refl

theorem contained_replyMeterFeatures (features : OflMeterFeatures) (heap : Mem) :
    (oflMsgPackMultipartReplyMeterFeatures features heap).Contained 16 heap := by
  apply PackResult.Contained.packed (by decide)
  apply ChangedWithin.zero _ 30 (by decide) (by decide)
  apply ChangedWithin.put8 _ 29 (by decide) (by decide)
  apply ChangedWithin.put8 _ 28 (by decide) (by decide)
  apply ChangedWithin.put32 _ 24 (by decide) (by decide)
  apply ChangedWithin.put32 _ 20 (by decide) (by decide)
  apply ChangedWithin.put32 _ 16 (by decide) (by decide)
  apply ChangedWithin.refl

/-- The five strings are copied with the widths of their fields. -/
theorem contained_replyDesc (m : OflMsgReplyDesc) (heap : Mem) :
    (oflMsgPackMultipartReplyDesc L m heap).Contained 16 heap :=
  .packed (by decide) ((packReplyDesc_changedWithin m heap).mono (by decide) le_rfl)

/-! ## 3. Messages with data, a match or an array -/

theorem contained_error (m : OflMsgError) (heap : Mem) :
    (oflMsgPackError m heap).Contained 8 heap := by
  apply PackResult.Contained.packed (Nat.le_add_right_of_le (by decide))
  apply ChangedWithin.store _ (Nat.zero_le _) le_rfl
  apply ChangedWithin.put16 _ 10 (Nat.zero_le _) (Nat.le_add_right _ _)
  apply ChangedWithin.put16 _ 8 (Nat.zero_le _) (Nat.le_add_right_of_le (by decide))
  apply ChangedWithin.refl

theorem contained_echo (m : OflMsgEcho) (heap : Mem) :
    (oflMsgPackEcho m heap).Contained 8 heap := by
  apply PackResult.Contained.packed (Nat.le_add_right _ _)
  apply ChangedWithin.store _ (Nat.zero_le _) le_rfl
  apply ChangedWithin.refl

theorem contained_packetIn (hL : L.WritesInside) (m : OflMsgPacketIn L) (heap : Mem) :
    (oflMsgPackPacketIn m heap).Contained 8 heap := by
  have hround := le_roundUp (4 + (L.matchLength m.fmatch).toNat)
  have hfixed := packetInFixed_changedWithin m heap
  rw [oflMsgPackPacketIn_eq]
  apply PackResult.Contained.packed (by omega)
  -- The padding and the data come behind the match.
  apply ChangedWithin.store _ (by omega) (by omega)
  apply ChangedWithin.zero _ _ (by omega) (by omega)
  apply hL.fmatch (hfixed.mono (by omega) (by omega)) <;> omega

theorem contained_flowRemoved (hL : L.WritesInside) (m : OflMsgFlowRemoved L) (heap : Mem) :
    (oflMsgPackFlowRemoved m heap).Contained 8 heap := by
  have hround := le_roundUp (4 + (L.matchLength m.stats.fmatch).toNat)
  have hfixed : ChangedWithin 0 48 heap (flowRemovedFixed m heap) := by
    unfold flowRemovedFixed
    apply ChangedWithin.put64 _ 40 (by decide) (by decide)
    apply ChangedWithin.put64 _ 32 (by decide) (by decide)
    apply ChangedWithin.put16 _ 28 (by decide) (by decide)
    apply ChangedWithin.put32 _ 24 (by decide) (by decide)
    apply ChangedWithin.put32 _ 20 (by decide) (by decide)
    apply ChangedWithin.put8 _ 19 (by decide) (by decide)
    apply ChangedWithin.put8 _ 18 (by decide) (by decide)
    apply ChangedWithin.put16 _ 16 (by decide) (by decide)
    apply ChangedWithin.put64 _ 8 (by decide) (by decide)
    apply ChangedWithin.refl
  rw [oflMsgPackFlowRemoved_eq]
  apply PackResult.Contained.packed (by omega)
  apply hL.fmatch (hfixed.mono le_rfl (by omega)) <;> omega

theorem contained_flowMod (hL : L.WritesInside) (m : OflMsgFlowMod L) (heap : Mem) :
    (oflMsgPackFlowMod m heap).Contained 8 heap := by
  have hround := le_roundUp (4 + (L.matchLength m.fmatch).toNat)
  have hfixed := flowModFixed_changedWithin m heap
  rw [oflMsgPackFlowMod_eq]
  apply PackResult.Contained.packed (by omega)
  -- The instructions come behind the padded match.
  apply (hL.elem .instruction).behind
  apply hL.fmatch (hfixed.mono (by omega) (by omega)) <;> omega

/-- The TLVs stand four bytes too far behind, and so does the end of the buffer. -/
theorem contained_requestFlow (hL : L.WritesInside) (m : OflMsgMultipartRequestFlow L) (heap : Mem) :
    (oflMsgPackMultipartRequestFlow m heap).Contained 16 heap := by
  have hfixed := flowRequestFixed_changedWithin m heap
  rw [oflMsgPackMultipartRequestFlow_eq]
  apply PackResult.Contained.packed (by omega)
  apply hL.fmatch (hfixed.mono (by omega) (by omega)) <;> omega

theorem contained_portStatus (hL : L.WritesInside) (m : OflMsgPortStatus L) (heap : Mem) :
    (oflMsgPackPortStatus m heap).Contained 8 heap := by
  have hfixed : ChangedWithin 0 16 heap (zero (put8 heap 8 m.reason) 9 7) := by
    apply ChangedWithin.zero _ 9 (by decide) (by decide)
    apply ChangedWithin.put8 _ 8 (by decide) (by decide)
    apply ChangedWithin.refl
  -- One port, as the loop over a list of one would write it.
  have hport := (hL.elem .port).behind [m.desc] hfixed
  rw [hL.elemSizeof .port rfl] at hport
  exact .packed (by decide) hport

theorem contained_groupMod (hL : L.WritesInside) (m : OflMsgGroupMod L) (heap : Mem) :
    (oflMsgPackGroupMod m heap).Contained 8 heap := by
  apply PackResult.Contained.packed (Nat.le_add_right_of_le (by decide))
  apply hL.bucket.behind
  apply ChangedWithin.put32 _ 12 (by decide) (by decide)
  apply ChangedWithin.put8 _ 11 (by decide) (by decide)
  apply ChangedWithin.put8 _ 10 (by decide) (by decide)
  apply ChangedWithin.put16 _ 8 (by decide) (by decide)
  apply ChangedWithin.refl

theorem contained_meterMod (hL : L.WritesInside) (m : OflMsgMeterMod L) (heap : Mem) :
    (oflMsgPackMeterMod m heap).Contained 8 heap := by
  apply PackResult.Contained.packed (Nat.le_add_right_of_le (by decide))
  apply (hL.elem .meterBand).behind
  apply ChangedWithin.put32 _ 12 (by decide) (by decide)
  apply ChangedWithin.put16 _ 10 (by decide) (by decide)
  apply ChangedWithin.put16 _ 8 (by decide) (by decide)
  apply ChangedWithin.refl

theorem contained_queueGetConfigReply (hL : L.WritesInside) (port : UInt32)
    (queues : List (L.Elem .packetQueue)) (heap : Mem) :
    (oflMsgPackQueueGetConfigReply port queues heap).Contained 8 heap := by
  apply PackResult.Contained.packed (Nat.le_add_right_of_le (by decide))
  apply (hL.elem .packetQueue).behind
  apply ChangedWithin.zero _ 12 (by decide) (by decide)
  apply ChangedWithin.put32 _ 8 (by decide) (by decide)
  apply ChangedWithin.refl

theorem contained_replyArr {pack : α → Mem → Nat → Mem × Nat} {total : List α → Nat}
    (h : WritesArr pack total) (stats : List α) (heap : Mem) :
    (packReplyArr pack (total stats) stats heap).Contained 16 heap := by
  apply PackResult.Contained.packed (Nat.le_add_right _ _)
  exact h.behind stats (ChangedWithin.refl _ _ _)

/-- Where the buffer is sized by the number of entries and a `sizeof`. -/
theorem contained_replySizeof (hL : L.WritesInside) {k : ElemKind} (hk : k.lenOff = none)
    (stats : List (L.Elem k)) (heap : Mem) :
    (packReplyArr (L.elemPack k) (stats.length * k.fixedSize) stats heap).Contained 16 heap := by
  rw [← hL.elemSizeof k hk]
  exact contained_replyArr (hL.elem k) stats heap

theorem contained_tableFeatures (hL : L.WritesInside) (tables : List (L.Elem .tableFeatures))
    (heap : Mem) : (packTableFeatures tables heap).Contained 16 heap := by
  apply PackResult.Contained.packed (Nat.le_add_right _ _)
  split
  · exact (hL.elem .tableFeatures).behind tables (ChangedWithin.refl _ _ _)
  · exact ChangedWithin.refl _ _ _

/-! ## 4. The dispatchers -/

theorem PackResult.Contained.multipartHeader {heap : Mem} {r : PackResult} (type flags : UInt16)
    (h : r.Contained 16 heap) : (packMultipartHeader type flags r).Contained 8 heap := by
  unfold packMultipartHeader
  split
  · -- A body that has failed is returned as it is.
    next hret => exact ⟨fun hok => absurd hok hret, h.inside⟩
  · next hret =>
    have hlen := h.header_le (not_not.mp hret)
    apply PackResult.Contained.packed (by omega)
    apply ChangedWithin.zero _ 12 (by omega) (by omega)
    apply ChangedWithin.put16 _ 10 (by omega) (by omega)
    apply ChangedWithin.put16 _ 8 (by omega) (by omega)
    exact h.inside

theorem contained_multipartRequest (hL : L.WritesInside) {exp : Option (OflExp L)}
    (hexp : OflExp.WritesInside exp) (flags : UInt16) (msg : MultipartRequest L) (heap : Mem) :
    (oflMsgPackMultipartRequest exp flags msg heap).Contained 8 heap := by
  apply PackResult.Contained.multipartHeader
  have hempty : (oflMsgPackMultipartRequestEmpty heap).Contained 16 heap :=
    .packed le_rfl (ChangedWithin.refl _ _ _)
  cases msg with
  | desc => exact hempty
  | flow r => exact contained_requestFlow hL r heap
  | aggregate r => exact contained_requestFlow hL r heap
  | table => exact hempty
  | portStats portNo => exact contained_oneWord _ heap
  | queue r => exact contained_requestQueue r heap
  | group groupId => exact contained_oneWord _ heap
  | groupDesc => exact hempty
  | groupFeatures => exact hempty
  | meter meterId => exact contained_oneWord _ heap
  | meterConfig meterId => exact contained_oneWord _ heap
  | meterFeatures => exact hempty
  | tableFeatures tables => exact contained_tableFeatures hL tables heap
  | portDesc => exact hempty
  | experimenter r =>
    dsimp only
    split
    · -- No callback is registered.
      exact contained_refused 16 heap
    · next reqPack hpack => exact hexp.request reqPack hpack r heap
  | unknown type h => exact contained_refused 16 heap

theorem contained_multipartReply (hL : L.WritesInside) {exp : Option (OflExp L)}
    (hexp : OflExp.WritesInside exp) (flags : UInt16) (msg : MultipartReply L) (heap : Mem) :
    (oflMsgPackMultipartReply exp flags msg heap).Contained 8 heap := by
  apply PackResult.Contained.multipartHeader
  cases msg with
  | desc r => exact contained_replyDesc r heap
  | flow stats => exact contained_replyArr hL.flowStats stats heap
  | aggregate r => exact contained_replyAggregate r heap
  | table stats => exact contained_replySizeof hL rfl stats heap
  | tableFeatures tables => exact contained_tableFeatures hL tables heap
  | portStats stats => exact contained_replySizeof hL rfl stats heap
  | queue stats => exact contained_replySizeof hL rfl stats heap
  | group stats => exact contained_replyArr (hL.elem .groupStats) stats heap
  | groupDesc stats => exact contained_replyArr (hL.elem .groupDescStats) stats heap
  | groupFeatures r => exact contained_replyGroupFeatures r heap
  | meter stats => exact contained_replyArr (hL.elem .meterStats) stats heap
  | meterConfig stats => exact contained_replyArr (hL.elem .meterConfig) stats heap
  | meterFeatures features => exact contained_replyMeterFeatures features heap
  | portDesc stats => exact contained_replySizeof hL rfl stats heap
  | experimenter r =>
    dsimp only
    split
    · exact contained_refused 16 heap
    · next replyPack hpack => exact hexp.reply replyPack hpack r heap
  | unknown type h => exact contained_refused 16 heap

/-- The sums are those of a `size_t`. -/
def OflMsg.Packable (exp : Option (OflExp L)) : OflMsg L → Prop
  | .packetOut m => m.Packable exp
  | msg => ∀ heap, (packBody exp msg heap).bufLen < 2 ^ 64

def OflMsg.LeavesRoom (exp : Option (OflExp L)) : OflMsg L → Prop
  | .packetOut m => m.LeavesRoom exp
  | _ => True

/-- The `switch` of `ofl_msg_pack`, case by case. -/
theorem contained_packBody (hL : L.WritesInside) {exp : Option (OflExp L)}
    (hexp : OflExp.WritesInside exp) {msg : OflMsg L} (hmsg : ∀ m, msg ≠ .packetOut m)
    (heap : Mem) : (packBody exp msg heap).Contained 8 heap := by
  have hempty : (oflMsgPackEmpty heap).Contained 8 heap :=
    .packed le_rfl (ChangedWithin.refl _ _ _)
  unfold packBody
  cases msg with
  | hello => exact hempty
  | error m => exact contained_error m heap
  | echoRequest m => exact contained_echo m heap
  | echoReply m => exact contained_echo m heap
  | experimenter m =>
    dsimp only
    split
    · exact contained_refused 8 heap
    · next pack hmsg => exact hexp.msg pack hmsg m heap
  | featuresRequest => exact hempty
  | featuresReply m => exact contained_featuresReply m heap
  | getConfigRequest => exact hempty
  | getConfigReply config => exact contained_getConfigReply config heap
  | setConfig config => exact contained_setConfig config heap
  | packetIn m => exact contained_packetIn hL m heap
  | flowRemoved m => exact contained_flowRemoved hL m heap
  | portStatus m => exact contained_portStatus hL m heap
  | getAsyncRequest => exact hempty
  | getAsyncReply config => exact contained_asyncConfig config heap
  | setAsync config => exact contained_asyncConfig config heap
  | packetOut m => exact absurd rfl (hmsg m)
  | flowMod m => exact contained_flowMod hL m heap
  | groupMod m => exact contained_groupMod hL m heap
  | portMod m => exact contained_portMod m heap
  | tableMod m => exact contained_tableMod m heap
  | meterMod m => exact contained_meterMod hL m heap
  | multipartRequest flags body => exact contained_multipartRequest hL hexp flags body heap
  | multipartReply flags body => exact contained_multipartReply hL hexp flags body heap
  | barrierRequest => exact hempty
  | barrierReply => exact hempty
  | queueGetConfigRequest port => exact contained_queueGetConfigRequest port heap
  | queueGetConfigReply port queues => exact contained_queueGetConfigReply hL port queues heap
  | roleRequest m => exact contained_roleRequest m heap
  | roleReply m => exact contained_roleRequest m heap
  | unknown type h => exact contained_refused 8 heap

theorem oflMsgPack_changedWithin (hL : L.WritesInside) {exp : Option (OflExp L)}
    (hexp : OflExp.WritesInside exp) {msg : OflMsg L} (hmsg : ∀ m, msg ≠ .packetOut m)
    (hfits : ∀ heap, (packBody exp msg heap).bufLen < 2 ^ 64) (xid : UInt32) (heap : Mem) :
    ChangedWithin 0 (oflMsgPack exp msg xid heap).mallocSize heap
      (oflMsgPack exp msg xid heap).buf := by
  have hbody := contained_packBody hL hexp hmsg heap
  have hsize : (packBody exp msg heap).mallocSize = (packBody exp msg heap).bufLen :=
    Nat.mod_eq_of_lt (hfits heap)
  by_cases hret : (packBody exp msg heap).ret = 0
  · have hlen := hbody.header_le hret
    have hheader := packHeader_changedWithin msg.type xid (packBody exp msg heap).bufLen
      (packBody exp msg heap).buf
    -- The header is the last thing that is written.
    rw [oflMsgPack_of_body xid hret]
    show ChangedWithin 0 (packBody exp msg heap).mallocSize heap _
    rw [hsize]
    exact hbody.inside.trans (hheader.mono le_rfl hlen)
  · have hfailed : oflMsgPack exp msg xid heap = packBody exp msg heap := if_pos hret
    rw [hfailed, hsize]
    exact hbody.inside

/-- **The encoder stays in its buffer**: only a PACKET_OUT makes it write behind the buffer, one
whose last action has no `case` and whose data is shorter than the header of this action, or one
with an EXPERIMENTER action without callbacks. -/
theorem oflMsgPack_inside_iff (hL : L.WritesInside) (exp : Option (OflExp L))
    (hexp : OflExp.WritesInside exp) (msg : OflMsg L) (hpack : msg.Packable exp) (xid : UInt32) :
    (∀ heap, ChangedWithin 0 (oflMsgPack exp msg xid heap).mallocSize heap
      (oflMsgPack exp msg xid heap).buf) ↔ msg.LeavesRoom exp := by
  cases msg with
  | packetOut m => exact packetOut_inside_iff hpack xid
  | _ =>
    refine iff_of_true (oflMsgPack_changedWithin hL hexp ?_ hpack xid) trivial
    intro m h
    cases h

/-! ## 5. The sample library keeps the promise -/

theorem sampleLib_writesInside : sampleLib.WritesInside where
  elem k := (sampleCodecs.elem k).writesArr (sampleCodecs.elem_total k)
  elemSizeof := by
    intro k hk as
    cases k with
    | port | tableStats | portStats | queueStats => rfl
    | _ => cases hk
  bucket := (sampleBucket.codec (le_refl OfpBucket.size)).writesArr fun as =>
    (sampleBucket.codec_totalSize le_rfl as).symm
  flowStats := sampleCodecs.flowStats.writesArr sampleCodecs.flowStats_total
  matchInside := by
    intro order fmatch m dst ptr i hdst hptr
    have htlvs : i < ptr ∨ ptr + 4 ≤ i := hptr
    show zero (put16 (put16 m dst (htons 1)) (dst + 2) (htons 4)) ptr 4 i = m i
    rw [zero_outside htlvs, put16_outside (by omega), put16_outside (by omega)]

theorem writesInside_none : OflExp.WritesInside (none : Option (OflExp L)) where
  msg := nofun
  request := nofun
  reply := nofun

/-- An output action, an action that nobody knows and as much data as the argument says. -/
def strayAction (data : List UInt8) : OflMsg sampleLib :=
  .packetOut
    { bufferId := 0xffffffff, inPort := 1
      actions := [.output 2 64, .unknown 99 (by decide)], data := data }

/-- An experimenter action, where no experimenter is registered. -/
def refusedAction : OflMsg sampleLib :=
  .packetOut { bufferId := 0xffffffff, inPort := 1, actions := [.experimenter ()], data := [] }

theorem strayAction_packable {data : List UInt8} (hdata : data.length ≤ 8) :
    (strayAction data).Packable none where
  actions := by
    intro a ha
    cases ha with
    | head => exact .inl trivial
    | tail _ ha =>
      cases List.mem_singleton.mp ha
      exact .inr (.inl trivial)
  fits := by
    show 24 + 16 + data.length < 2 ^ 64
    omega
  refused := Nat.zero_le _

theorem refusedAction_packable : refusedAction.Packable none where
  actions := by
    intro a ha
    cases List.mem_singleton.mp ha
    exact .inr (.inr rfl)
  fits := by decide
  refused := by decide

/-- The second and the third message overflow; the third one gets a buffer of 23 bytes, and the
encoder returns 0. -/
theorem oflMsgPack_inside_iff_strayAction :
    (∀ heap, ChangedWithin 0
      (oflMsgPack none (strayAction [1, 2, 3, 4, 5, 6, 7, 8]) 7 heap).mallocSize heap
      (oflMsgPack none (strayAction [1, 2, 3, 4, 5, 6, 7, 8]) 7 heap).buf) ∧
    (¬ ∀ heap, ChangedWithin 0 (oflMsgPack none (strayAction [1, 2, 3]) 7 heap).mallocSize heap
      (oflMsgPack none (strayAction [1, 2, 3]) 7 heap).buf) ∧
    (¬ ∀ heap, ChangedWithin 0 (oflMsgPack none refusedAction 7 heap).mallocSize heap
      (oflMsgPack none refusedAction 7 heap).buf) ∧
    (oflMsgPack none refusedAction 7 fun _ => 0).mallocSize = 23 ∧
    (oflMsgPack none refusedAction 7 fun _ => 0).ret = 0 := by
  refine ⟨?_, ?_, ?_, by decide, by decide⟩
  · apply (oflMsgPack_inside_iff sampleLib_writesInside none writesInside_none _
      (strayAction_packable (by decide)) 7).mpr
    exact fun _ => by decide
  · intro h
    have hroom := (oflMsgPack_inside_iff sampleLib_writesInside none writesInside_none _
      (strayAction_packable (by decide)) 7).mp h ⟨_, rfl, trivial⟩
    exact absurd hroom (by decide)
  · intro h
    have hroom := (oflMsgPack_inside_iff sampleLib_writesInside none writesInside_none _
      refusedAction_packable 7).mp h
    obtain ⟨-, field, hlast, -⟩ := hroom
    cases hlast

end CcPof.OpenFlow

import CcPof.OpenFlow.EntryCodec

/-!
# A concrete element library

`OflLib` leaves the element codecs open. `sampleLib` is one that can be run: each structure has its
wire size, its own length field where the wire format has one, and one 16-bit field that carries the
value; its other bytes are zero. Its decoders refuse what is too short, and its action decoder
refuses every action but OUTPUT. `sampleCodecs` shows that it keeps the promises of `ArrayCodecs`.
-/

namespace CcPof.OpenFlow

/-- A block that starts with the given bytes. -/
def sampleBuf (bs : List UInt8) : Mem := store (fun _ => 0) 0 bs

/-! ## 1. Structures with one field -/

/-- The wire size, the offset of the length field and the offset of the value, which do not
overlap. -/
structure SampleLayout where
  size : Nat
  lenOff : Option Nat
  valueOff : Nat
  size_le : size ≤ 65535 := by decide
  value_fits : valueOff + 2 ≤ size := by decide
  len_fits : ∀ off ∈ lenOff, off + 2 ≤ size ∧ (off + 2 ≤ valueOff ∨ valueOff + 2 ≤ off) := by decide

namespace SampleLayout

def pack (l : SampleLayout) (value : UInt16) (m : Mem) (pos : Nat) : Mem × Nat :=
  let m := zero m pos l.size
  let m := put16 m (pos + l.valueOff) (htons value)
  let m :=
    match l.lenOff with
    | none => m
    | some off => put16 m (pos + off) (htons (UInt16.ofNat l.size))
  (m, l.size)

def unpack (l : SampleLayout) : ElemDecoder UInt16 := fun buf pos len =>
  if len < l.size then (.error badLen, len)
  else (.ok (ntohs (get16 buf (pos + l.valueOff))), len - l.size)

def stride (l : SampleLayout) : Mem → Nat → Nat := l.lenOff.elim (fixedStride l.size) lenField

theorem pack_frame (l : SampleLayout) (value : UInt16) (m : Mem) (pos i : Nat)
    (h : i < pos ∨ pos + l.size ≤ i) : (l.pack value m pos).1 i = m i := by
  have hvalue := l.value_fits
  have hlen := l.len_fits
  unfold pack
  cases hoff : l.lenOff with
  | none =>
    simp only
    rw [put16_outside (by omega), zero_outside (by omega)]
  | some off =>
    have hfits := hlen off hoff
    simp only
    rw [put16_outside (by omega), put16_outside (by omega), zero_outside (by omega)]

theorem get16_value (l : SampleLayout) (value : UInt16) (m : Mem) (pos : Nat) :
    get16 (l.pack value m pos).1 (pos + l.valueOff) = htons value := by
  have hlen := l.len_fits
  unfold pack
  cases hoff : l.lenOff with
  | none => exact get16_put16 _ _ _
  | some off =>
    have hfits := hlen off hoff
    simp only
    rw [get16_store_disjoint (by rw [length_toLE]; omega), get16_put16]

theorem stride_pack (l : SampleLayout) {value : UInt16} {m buf : Mem} {pos : Nat}
    (h : AgreeOn pos (pos + l.size) buf (l.pack value m pos).1) : l.stride buf pos = l.size := by
  have hsize := l.size_le
  have hlen := l.len_fits
  unfold stride
  unfold pack at h
  cases hoff : l.lenOff with
  | none => rfl
  | some off =>
    have hfits := hlen off hoff
    rw [hoff] at h
    simp only at h
    rw [Option.elim_some, lenField, h.get16 (by omega) (by omega), get16_put16, ntohs_htons,
      UInt16.toNat_ofNat']
    omega

/-- The codec of a one-field structure, for any smaller structure that the walk compares with. -/
def codec (l : SampleLayout) {fixed : Nat} (hfixed : fixed ≤ l.size) :
    EntryCodec l.pack l.unpack l.stride fixed where
  size := fun _ => l.size
  fixed_le_size := fun _ => hfixed
  pack_size := fun _ _ _ => rfl
  pack_frame := l.pack_frame
  unpack_pack := by
    intro value m pos buf len _ hlen h
    have hvalue := l.value_fits
    have hread : get16 buf (pos + l.valueOff) = htons value := by
      rw [h.get16 (by omega) (by omega), l.get16_value]
    rw [unpack, if_neg (by omega), hread, ntohs_htons]
  stride_pack := fun _ _ _ _ _ h => l.stride_pack h

theorem codec_totalSize (l : SampleLayout) {fixed : Nat} (hfixed : fixed ≤ l.size)
    (as : List UInt16) : (l.codec hfixed).totalSize as = as.length * l.size :=
  (l.codec hfixed).totalSize_of_const (fun _ => rfl) as

end SampleLayout

def ElemKind.sampleLayout : ElemKind → SampleLayout
  | .instruction => { size := OfpInstruction.size, lenOff := some OfpInstruction.len, valueOff := 4 }
  | .meterBand => { size := 16, lenOff := some OfpMeterBandHeader.len, valueOff := 4 }
  | .port => { size := OfpPort.size, lenOff := none, valueOff := 0 }
  | .tableStats => { size := OfpTableStats.size, lenOff := none, valueOff := 0 }
  | .portStats => { size := OfpPortStats.size, lenOff := none, valueOff := 0 }
  | .queueStats => { size := OfpQueueStats.size, lenOff := none, valueOff := 0 }
  | .groupStats => { size := OfpGroupStats.size, lenOff := some OfpGroupStats.length, valueOff := 4 }
  | .groupDescStats =>
      { size := OfpGroupDescStats.size, lenOff := some OfpGroupDescStats.length, valueOff := 4 }
  | .tableFeatures =>
      { size := OfpTableFeatures.size, lenOff := some OfpTableFeatures.length, valueOff := 2 }
  | .meterStats => { size := OfpMeterStats.size, lenOff := some OfpMeterStats.len, valueOff := 0 }
  | .meterConfig =>
      { size := OfpMeterConfig.size, lenOff := some OfpMeterConfig.length, valueOff := 4 }
  | .packetQueue => { size := OfpPacketQueue.size, lenOff := some OfpPacketQueue.len, valueOff := 0 }

def sampleBucket : SampleLayout :=
  { size := OfpBucket.size, lenOff := some OfpBucket.len, valueOff := 4 }

def sampleFlowStats : SampleLayout :=
  { size := OfpFlowStats.size, lenOff := some OfpFlowStats.length, valueOff := 2 }

/-! ## 2. The library -/

def sampleActionUnpack : ElemDecoder (OflAction Unit) := fun buf pos len =>
  if get16 buf pos ≠ 0 then (.error (.ofl .badRequest ofpbrcBadType), len)
  else if len < OfpActionOutput.size then (.error badLen, len)
  else
    (.ok (.output (ntohl (get32 buf (pos + OfpActionOutput.port)))
      (ntohs (get16 buf (pos + OfpActionOutput.maxLen)))), len - OfpActionOutput.size)

/-- Its only match is the empty one, four bytes and four bytes of padding. -/
def sampleLib : OflLib where
  Elem := fun _ => UInt16
  Match := Unit
  Bucket := UInt16
  FlowStats := UInt16
  ExpMsg := Unit
  ExpRequest := Unit
  ExpReply := Unit
  ExpAction := Unit
  matchLength := fun _ => 4
  matchPack := fun _ _ m dst ptr =>
    zero (put16 (put16 m dst (htons 1)) (dst + OfpMatch.length) (htons 4)) ptr 4
  matchUnpack := fun buf src _ len =>
    if len < OfpMatch.size then (.error badLen, len)
    else if ntohs (get16 buf src) ≠ 1 then (.error (.ofl .badRequest ofpbrcBadType), len)
    else (.ok (), len - OfpMatch.size)
  elemPack := fun k => k.sampleLayout.pack
  elemTotalLen := fun k as => as.length * k.sampleLayout.size
  elemCount := fun k buf pos len => countEntries k.stride k.fixedSize buf len pos len
  elemUnpack := fun k => k.sampleLayout.unpack
  bucketPack := sampleBucket.pack
  bucketTotalLen := fun bs => bs.length * sampleBucket.size
  bucketCount := fun buf pos len =>
    countEntries (lenField OfpBucket.len) OfpBucket.size buf len pos len
  bucketUnpack := fun _ => sampleBucket.unpack
  flowStatsPack := sampleFlowStats.pack
  flowStatsTotalLen := fun as => as.length * sampleFlowStats.size
  flowStatsCount := fun buf pos len =>
    countEntries (lenField OfpFlowStats.length) OfpFlowStats.size buf len pos len
  flowStatsUnpack := fun buf stat _ len => sampleFlowStats.unpack buf stat len
  actionCount := fun buf pos len =>
    countEntries (lenField OfpActionHeader.len) OfpActionHeader.size buf len pos len
  actionUnpack := sampleActionUnpack
  staleInPort := 0
  staleMatch := ()
  staleAction := .output 0 0
  staleTableFeatures := (0 : UInt16)
  heapAfter := fun _ _ => 0
  mappedEnd := 65536

theorem ElemKind.fixedSize_le_sampleLayout (k : ElemKind) : k.fixedSize ≤ k.sampleLayout.size := by
  cases k <;> decide

theorem ElemKind.sampleLayout_stride (k : ElemKind) : k.sampleLayout.stride = k.stride := by
  cases k <;> rfl

theorem ElemKind.fixedSize_pos (k : ElemKind) : 0 < k.fixedSize := by
  cases k <;> decide

def sampleCodecs : ArrayCodecs sampleLib where
  elem := fun k => k.sampleLayout_stride ▸ k.sampleLayout.codec k.fixedSize_le_sampleLayout
  elem_sizeof := by
    intro k hk a
    cases k <;> first | rfl | cases hk
  elem_total := by
    intro k as
    cases k <;> exact (SampleLayout.codec_totalSize _ _ as).symm
  elem_count := fun k _ _ _ _ h => countEntries_of_tiles k.fixedSize_pos h _ le_rfl
  flowStats := sampleFlowStats.codec (le_refl OfpFlowStats.size)
  flowStats_total := fun as => (sampleFlowStats.codec_totalSize _ as).symm
  flowStats_count := fun _ _ _ _ h => countEntries_of_tiles (by decide) h _ le_rfl

end CcPof.OpenFlow

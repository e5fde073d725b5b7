import CcPof.OpenFlow.ArrayRoundTrip

/-!
# Messages around a match

PACKET_IN and FLOW_MOD carry a match of any length between their fixed part and what follows it.
The encoder sizes the buffer with one expression, places the rest of the message with a second one,
and the decoder finds it with a third. `roundUp_behind` and `packetIn_bufLen_eq` show that they are
the same number, whatever the length of the match is modulo 8.
-/

namespace CcPof.OpenFlow

variable {L : OflLib}

/-! ## 1. Where a match ends -/

theorem le_roundUp (n : Nat) : n ≤ roundUp n 8 := by
  unfold roundUp
  omega

/-- The TLVs start 4 bytes behind the start of the match, and the padding counts from there. -/
theorem roundUp_behind {pos : Nat} (hpos : pos % 8 = 0) (n : Nat) :
    roundUp (pos + 4 + n) 8 = pos + roundUp (4 + n) 8 := by
  unfold roundUp
  omega

/-- The `int` that is rounded up may be negative, but not so far that the quotient is. -/
theorem roundUpInt_sub_four (n : Nat) :
    (roundUpInt (n - 4) 8).toNat + 8 = roundUp (4 + n) 8 := by
  have hnum : 0 ≤ ((n : Int) - 4) + (8 - 1) := by omega
  rw [roundUpInt, roundUp, Int.tdiv_eq_ediv_of_nonneg hnum]
  omega

/-! ## 2. The match codec -/

/-- The promise of the match codec in one byte order: the type and the length go into the
`ofp_match`, the TLVs to the pointer, and the decoder takes them back from its own pointer. -/
structure MatchCodec (L : OflLib) (order : ByteOrder) where
  type : UInt16
  tlvs : L.Match → List UInt8
  length_tlvs : ∀ m, (tlvs m).length = (L.matchLength m).toNat
  pack_eq : ∀ m mem dst ptr, L.matchPack order m mem dst ptr =
    store (put16 (put16 mem (dst + OfpMatch.type) (htons type)) (dst + OfpMatch.length)
      (htons (UInt16.ofNat (4 + (tlvs m).length)))) ptr (tlvs m)
  unpack_eq : ∀ m buf src ptr len, 4 + (tlvs m).length ≤ 65535 →
    ntohs (get16 buf (src + OfpMatch.type)) = type →
    (ntohs (get16 buf (src + OfpMatch.length))).toNat = 4 + (tlvs m).length →
    load buf ptr (tlvs m).length = tlvs m → roundUp (4 + (tlvs m).length) 8 ≤ len →
    L.matchUnpack buf src ptr len = (.ok m, len - roundUp (4 + (tlvs m).length) 8)

namespace MatchCodec

variable {order : ByteOrder}

/-- With the pointer right behind the match header, header and TLVs are one block. -/
theorem changedWithin (M : MatchCodec L order) (m : L.Match) (mem : Mem) (dst : Nat) :
    ChangedWithin dst (dst + 4 + (L.matchLength m).toNat) mem
      (L.matchPack order m mem dst (dst + 4)) := by
  have hlen := M.length_tlvs m
  rw [M.pack_eq]
  apply ChangedWithin.store
  · apply ChangedWithin.put16 _ _ (by simp) (by simp)
    exact (ChangedWithin.refl _ _ mem).put16 _ (by simp) (by simp; omega)
  · omega
  · omega

/-- The decoder on any memory that holds the block. -/
theorem unpack_packed (M : MatchCodec L order) {m : L.Match} {mem buf : Mem} {dst : Nat} (len : Nat)
    (hsize : 4 + (L.matchLength m).toNat ≤ 65535)
    (hlen : roundUp (4 + (L.matchLength m).toNat) 8 ≤ len)
    (h : AgreeOn dst (dst + 4 + (L.matchLength m).toNat) buf
      (L.matchPack order m mem dst (dst + 4))) :
    L.matchUnpack buf dst (dst + 4) len =
      (.ok m, len - roundUp (4 + (L.matchLength m).toNat) 8) := by
  rw [← M.length_tlvs] at hsize hlen h ⊢
  rw [M.pack_eq, OfpMatch.type, OfpMatch.length] at h
  refine M.unpack_eq m buf dst (dst + 4) len hsize ?_ ?_ ?_ hlen
  · rw [OfpMatch.type, h.get16 (by omega) (by omega), get16_store_disjoint (by omega),
      get16_store_disjoint (by rw [length_toLE]; omega), get16_put16, ntohs_htons]
  · rw [OfpMatch.length, h.get16 (by omega) (by omega), get16_store_disjoint (by omega),
      get16_put16, ntohs_htons, UInt16.toNat_ofNat']
    omega
  · rw [h.load (by omega) (by omega), load_store_same _ _ _ _ rfl]

end MatchCodec

/-! ## 3. PACKET_IN -/

/-- The memory when the encoder has written everything in front of the match. -/
def packetInFixed (m : OflMsgPacketIn L) (heap : Mem) : Mem :=
  let buf := put32 heap OfpPacketIn.bufferId (htonl m.bufferId)
  let buf := put16 buf OfpPacketIn.totalLen (htons m.totalLen)
  let buf := put8 buf OfpPacketIn.reason m.reason
  let buf := put8 buf OfpPacketIn.tableId m.tableId
  put64 buf OfpPacketIn.cookie (hton64 m.cookie)

theorem packetInFixed_changedWithin (m : OflMsgPacketIn L) (heap : Mem) :
    ChangedWithin 8 24 heap (packetInFixed m heap) := by
  unfold packetInFixed
  exact (((((ChangedWithin.refl 8 24 heap).put32 8 (by decide) (by decide)).put16 12 (by decide)
    (by decide)).put8 14 (by decide) (by decide)).put8 15 (by decide) (by decide)).put64 16
      (by decide) (by decide)

/-- The three stages of the encoder, with the places of the match and of the data computed. -/
theorem oflMsgPackPacketIn_eq (m : OflMsgPacketIn L) (heap : Mem) :
    oflMsgPackPacketIn m heap =
      packed
        (store (zero (L.matchPack .network m.fmatch (packetInFixed m heap) 24 28)
            (24 + roundUp (4 + (L.matchLength m.fmatch).toNat) 8) 2)
          (24 + roundUp (4 + (L.matchLength m.fmatch).toNat) 8 + 2) m.data)
        (24 + roundUp (4 + (L.matchLength m.fmatch).toNat) 8 + 2 + m.data.length) := by
  have hround := roundUpInt_sub_four (L.matchLength m.fmatch).toNat
  have hptr := roundUp_behind (show 24 % 8 = 0 by decide) (L.matchLength m.fmatch).toNat
  have hlen : OfpPacketIn.size + (roundUpInt ((L.matchLength m.fmatch).toNat - 4) 8).toNat +
      m.data.length + 2 =
        24 + roundUp (4 + (L.matchLength m.fmatch).toNat) 8 + 2 + m.data.length := by
    rw [OfpPacketIn.size]
    omega
  simp only [oflMsgPackPacketIn, hlen, packetInFixed]
  simp only [OfpPacketIn.size, Nat.reduceSub, hptr, OfpPacketIn.fmatch]

/-- The bytes in front of the match, the match and the data of a memory that holds the message. -/
theorem agreeOn_packetIn (N : MatchCodec L .network) {m : OflMsgPacketIn L} {heap buf : Mem}
    (h : AgreeOn 8 (oflMsgPackPacketIn m heap).bufLen buf (oflMsgPackPacketIn m heap).buf) :
    AgreeOn 8 24 buf (packetInFixed m heap) ∧
      AgreeOn 24 (24 + 4 + (L.matchLength m.fmatch).toNat) buf
        (L.matchPack .network m.fmatch (packetInFixed m heap) 24 28) ∧
      load buf (24 + roundUp (4 + (L.matchLength m.fmatch).toNat) 8 + 2) m.data.length =
        m.data := by
  have hround := le_roundUp (4 + (L.matchLength m.fmatch).toNat)
  have hmatch := N.changedWithin m.fmatch (packetInFixed m heap) 24
  rw [oflMsgPackPacketIn_eq] at h
  dsimp only at h
  -- What is written behind the match does not show in it.
  have hfront : AgreeOn 8 (24 + roundUp (4 + (L.matchLength m.fmatch).toNat) 8) buf
      (L.matchPack .network m.fmatch (packetInFixed m heap) 24 28) := by
    intro i hlo hhi
    rw [h i hlo (by omega), store_outside (by omega), zero_outside (by omega)]
  refine ⟨?_, hfront.mono (by omega) (by omega), ?_⟩
  · intro i hlo hhi
    rw [hfront i hlo (by omega), hmatch i (Or.inl hhi)]
  · rw [h.load (by omega) (by omega), load_store_same _ _ _ _ rfl]

theorem decodes_packetIn (N : MatchCodec L .network) (m : OflMsgPacketIn L) (heap : Mem)
    (htable : m.tableId ≠ 0xff) (hsize : (oflMsgPackPacketIn m heap).bufLen ≤ 65535) :
    Decodes 8 0 (oflMsgPackPacketIn m heap) oflMsgUnpackPacketIn m := by
  intro buf h xid
  have hround := le_roundUp (4 + (L.matchLength m.fmatch).toNat)
  have hptr := roundUp_behind (show 24 % 8 = 0 by decide) (L.matchLength m.fmatch).toNat
  obtain ⟨hfixed, hmatch, hdata⟩ := agreeOn_packetIn N h
  rw [oflMsgPackPacketIn_eq] at hsize ⊢
  dsimp only at hsize ⊢
  have htag : buf 15 ≠ 0xff := by
    rw [hfixed.get8 (by decide) (by decide), packetInFixed]
    simpa (disch := simp) [store_outside] using htable
  generalize hn : (L.matchLength m.fmatch).toNat = n at *
  have hmin : 8 ≤ roundUp (4 + n) 8 := by
    unfold roundUp
    omega
  have hlen : 24 + roundUp (4 + n) 8 + 2 + m.data.length - 0 =
      24 + (roundUp (4 + n) 8 + (2 + m.data.length)) := by omega
  have hrequire : 32 ≤ 24 + (roundUp (4 + n) 8 + (2 + m.data.length)) := by omega
  -- The match leaves the pad of two bytes and the data.
  have hrun := N.unpack_packed (m := m.fmatch) (roundUp (4 + n) 8 + (2 + m.data.length))
    (by omega) (by rw [hn]; omega) (by rwa [hn])
  have hnested : nested (L.matchUnpack buf 24 28)
      ⟨roundUp (4 + n) 8 + (2 + m.data.length), xid, false, false⟩ =
        .ok (.ok m.fmatch) ⟨2 + m.data.length, xid, false, false⟩ := by
    rw [hn, Nat.add_sub_cancel_left] at hrun
    exact nested_ok hrun
  rw [hlen]
  simp [oflMsgUnpackPacketIn, requireLen_run, subLen_run, rejectIf_run, htag, hrequire, hnested]
  have hdata' : load buf (roundUp (28 + n) 8 + 2) m.data.length = m.data := by
    rw [hptr, hdata]
  simp only [packetInFixed] at hfixed
  simp (disch := simp) [Except.toOption, hn, hdata', hfixed.get8, hfixed.get16, hfixed.get32,
    hfixed.get64, get16_store_disjoint, get32_store_disjoint, store_outside]

/-! ## 4. FLOW_MOD -/

def flowModFixed (m : OflMsgFlowMod L) (heap : Mem) : Mem :=
  let buf := put64 heap OfpFlowMod.cookie (hton64 m.cookie)
  let buf := put64 buf OfpFlowMod.cookieMask (hton64 m.cookieMask)
  let buf := put8 buf OfpFlowMod.tableId m.tableId
  let buf := put8 buf OfpFlowMod.command m.command
  let buf := put16 buf OfpFlowMod.idleTimeout (htons m.idleTimeout)
  let buf := put16 buf OfpFlowMod.hardTimeout (htons m.hardTimeout)
  let buf := put16 buf OfpFlowMod.priority (htons m.priority)
  let buf := put32 buf OfpFlowMod.bufferId (htonl m.bufferId)
  let buf := put32 buf OfpFlowMod.outPort (htonl m.outPort)
  let buf := put32 buf OfpFlowMod.outGroup (htonl m.outGroup)
  let buf := put16 buf OfpFlowMod.flags (htons m.flags)
  zero buf OfpFlowMod.pad 2

theorem flowModFixed_changedWithin (m : OflMsgFlowMod L) (heap : Mem) :
    ChangedWithin 8 48 heap (flowModFixed m heap) := by
  unfold flowModFixed
  have h64 := ((ChangedWithin.refl 8 48 heap).put64 (x := hton64 m.cookie) 8 (by decide)
    (by decide)).put64 (x := hton64 m.cookieMask) 16 (by decide) (by decide)
  have h8 := (h64.put8 (x := m.tableId) 24 (by decide) (by decide)).put8 (x := m.command) 25
    (by decide) (by decide)
  have h16 := ((h8.put16 (x := htons m.idleTimeout) 26 (by decide) (by decide)).put16
    (x := htons m.hardTimeout) 28 (by decide) (by decide)).put16 (x := htons m.priority) 30
    (by decide) (by decide)
  have h32 := ((h16.put32 (x := htonl m.bufferId) 32 (by decide) (by decide)).put32
    (x := htonl m.outPort) 36 (by decide) (by decide)).put32 (x := htonl m.outGroup) 40
    (by decide) (by decide)
  exact (h32.put16 44 (by decide) (by decide)).zero 46 (by decide) (by decide)

theorem oflMsgPackFlowMod_eq (m : OflMsgFlowMod L) (heap : Mem) :
    oflMsgPackFlowMod m heap =
      packed
        (packArr (L.elemPack .instruction) m.instructions
          (L.matchPack .host m.fmatch (flowModFixed m heap) 48 52)
          (48 + roundUp (4 + (L.matchLength m.fmatch).toNat) 8)).1
        (48 + roundUp (4 + (L.matchLength m.fmatch).toNat) 8 +
          L.elemTotalLen .instruction m.instructions) := by
  have hptr := roundUp_behind (show 48 % 8 = 0 by decide) (L.matchLength m.fmatch).toNat
  simp only [oflMsgPackFlowMod, flowModFixed, OfpFlowMod.size, Nat.reduceSub, OfpFlowMod.fmatch]
  rw [show 52 + (L.matchLength m.fmatch).toNat = 48 + 4 + (L.matchLength m.fmatch).toNat from rfl,
    hptr]

theorem agreeOn_flowMod (H : MatchCodec L .host) (I : ElemCodec L .instruction)
    {m : OflMsgFlowMod L} {heap buf : Mem}
    (h : AgreeOn 8 (oflMsgPackFlowMod m heap).bufLen buf (oflMsgPackFlowMod m heap).buf) :
    AgreeOn 8 48 buf (flowModFixed m heap) ∧
      AgreeOn 48 (48 + 4 + (L.matchLength m.fmatch).toNat) buf
        (L.matchPack .host m.fmatch (flowModFixed m heap) 48 52) := by
  have hround := le_roundUp (4 + (L.matchLength m.fmatch).toNat)
  have hmatch := H.changedWithin m.fmatch (flowModFixed m heap) 48
  rw [oflMsgPackFlowMod_eq] at h
  dsimp only at h
  have hfront : AgreeOn 8 (48 + roundUp (4 + (L.matchLength m.fmatch).toNat) 8) buf
      (L.matchPack .host m.fmatch (flowModFixed m heap) 48 52) := by
    intro i hlo hhi
    rw [h i hlo (by omega), I.codec.packArr_frame _ _ _ i hhi]
  refine ⟨?_, hfront.mono (by omega) (by omega)⟩
  intro i hlo hhi
  rw [hfront i hlo (by omega), hmatch i (Or.inl hhi)]

theorem decodes_flowMod (H : MatchCodec L .host) (I : ElemCodec L .instruction)
    (m : OflMsgFlowMod L) (heap : Mem) (hsize : (oflMsgPackFlowMod m heap).bufLen ≤ 65535) :
    Decodes 8 0 (oflMsgPackFlowMod m heap) oflMsgUnpackFlowMod m := by
  intro buf h xid
  have hround := le_roundUp (4 + (L.matchLength m.fmatch).toNat)
  have hptr := roundUp_behind (show 48 % 8 = 0 by decide) (L.matchLength m.fmatch).toNat
  obtain ⟨hfixed, hmatch⟩ := agreeOn_flowMod H I h
  rw [oflMsgPackFlowMod_eq] at hsize h ⊢
  dsimp only at hsize h ⊢
  rw [I.total] at hsize h ⊢
  generalize hn : (L.matchLength m.fmatch).toNat = n at *
  generalize htotal : I.codec.totalSize m.instructions = total at *
  have hlen : 48 + roundUp (4 + n) 8 + total - 0 = 48 + (roundUp (4 + n) 8 + total) := by omega
  -- The match leaves the instructions, and these leave nothing.
  have hrun := H.unpack_packed (m := m.fmatch) (roundUp (4 + n) 8 + total) (by omega)
    (by rw [hn]; omega) (by rwa [hn])
  have hnested : nestedOrReturn (L.matchUnpack buf 48 52)
      ⟨roundUp (4 + n) 8 + total, xid, false, false⟩ =
        .ok m.fmatch ⟨total, xid, false, false⟩ := by
    rw [hn, Nat.add_sub_cancel_left] at hrun
    exact nestedOrReturn_ok hrun
  have hinst : unpackRest (L.elemCount .instruction) (L.elemUnpack .instruction) (lenField 2) buf
      (roundUp (52 + n) 8) ⟨total, xid, false, false⟩ = .ok m.instructions ⟨0, xid, false, false⟩ := by
    rw [hptr]
    exact unpackRest_packArr I.codec I.count (s := ⟨total, xid, false, false⟩) htotal.symm
      (by omega) (by rw [htotal]; exact h.mono (by omega) (le_refl _))
  simp only [flowModFixed] at hfixed
  rw [hlen]
  simp [oflMsgUnpackFlowMod, requireLen_run, subLen_run, hnested, hn, hinst]
  simp (disch := simp) [hfixed.get8, hfixed.get16, hfixed.get32, hfixed.get64, get16_store_disjoint,
    get32_store_disjoint, get64_store_disjoint, store_outside]

/-! ## 5. Both messages -/

theorem packHeader_changedWithin (type : UInt8) (xid : UInt32) (bufLen : Nat) (buf : Mem) :
    ChangedWithin 0 8 buf (packHeader type xid bufLen buf) := by
  unfold packHeader
  exact ((((ChangedWithin.refl 0 8 buf).put8 0 (by decide) (by decide)).put8 1 (by decide)
    (by decide)).put16 2 (by decide) (by decide)).put32 4 (by decide) (by decide)

/-- The message takes `total` bytes, the encoder leaves the memory behind them alone, and when the
length field can hold `total`, the decoder returns the message. -/
structure LaidOut (exp : Option (OflExp L)) (msg : OflMsg L) (xid : UInt32) (heap : Mem)
    (total : Nat) : Prop where
  bufLen : (oflMsgPack exp msg xid heap).bufLen = total
  inside : ∀ i, total ≤ i → (oflMsgPack exp msg xid heap).buf i = heap i
  roundTrips : total ≤ 65535 → RoundTrips exp msg xid heap

theorem LaidOut.of_body {exp : Option (OflExp L)} {msg : OflMsg L} {xid : UInt32} {heap : Mem}
    {t : OfpType} {total : Nat} (htype : msg.type = t.toUInt8)
    (hret : (packBody exp msg heap).ret = 0) (hbufLen : (packBody exp msg heap).bufLen = total)
    (hlo : 8 ≤ total) (hframe : ChangedWithin 8 total heap (packBody exp msg heap).buf)
    (hdec : total ≤ 65535 →
      Decodes 8 0 (packBody exp msg heap) (fun buf => unpackBody exp buf (some t)) msg) :
    LaidOut exp msg xid heap total := by
  constructor
  · rw [oflMsgPack_bufLen, hbufLen]
  · intro i hi
    rw [oflMsgPack_of_body _ hret]
    dsimp only
    rw [packHeader_changedWithin _ _ _ _ i (by omega), hframe i (Or.inr hi)]
  · intro hhi
    exact roundTrips_of_decodes htype hret (by rw [hbufLen]; exact hlo) (by rw [hbufLen]; exact hhi)
      (hdec hhi)

theorem packetIn_changedWithin (N : MatchCodec L .network) (m : OflMsgPacketIn L) (heap : Mem) :
    ChangedWithin 8
      (24 + roundUp (4 + (L.matchLength m.fmatch).toNat) 8 + 2 + m.data.length) heap
      (oflMsgPackPacketIn m heap).buf := by
  have hround := le_roundUp (4 + (L.matchLength m.fmatch).toNat)
  have hfixed := packetInFixed_changedWithin m heap
  have hmatch := N.changedWithin m.fmatch (packetInFixed m heap) 24
  rw [oflMsgPackPacketIn_eq]
  apply ChangedWithin.store _ (by omega) (by omega)
  apply ChangedWithin.zero _ _ (by omega) (by omega)
  exact (hfixed.mono (le_refl 8) (by omega)).trans (hmatch.mono (by omega) (by omega))

theorem flowMod_changedWithin (H : MatchCodec L .host) (I : ElemCodec L .instruction)
    (m : OflMsgFlowMod L) (heap : Mem) :
    ChangedWithin 8
      (48 + roundUp (4 + (L.matchLength m.fmatch).toNat) 8 +
        L.elemTotalLen .instruction m.instructions) heap
      (oflMsgPackFlowMod m heap).buf := by
  have hround := le_roundUp (4 + (L.matchLength m.fmatch).toNat)
  have hfixed := flowModFixed_changedWithin m heap
  have hmatch := H.changedWithin m.fmatch (flowModFixed m heap) 48
  have harr := I.codec.packArr_changedWithin m.instructions
    (L.matchPack .host m.fmatch (flowModFixed m heap) 48 52)
    (48 + roundUp (4 + (L.matchLength m.fmatch).toNat) 8)
  rw [oflMsgPackFlowMod_eq, I.total]
  exact ((hfixed.mono (le_refl 8) (by omega)).trans (hmatch.mono (by omega) (by omega))).trans
    (harr.mono (by omega) (le_refl _))

/-- **Encoder and decoder agree on the layout around the match**, for a match of every length. A
PACKET_IN needs the promises of the match codec in network order, a FLOW_MOD those in host order. -/
theorem match_layout (N : MatchCodec L .network) (H : MatchCodec L .host)
    (I : ElemCodec L .instruction) (exp : Option (OflExp L)) (xid : UInt32) (heap : Mem) :
    (∀ m : OflMsgPacketIn L, m.tableId ≠ 0xff →
      LaidOut exp (.packetIn m) xid heap
        (24 + roundUp (4 + (L.matchLength m.fmatch).toNat) 8 + 2 + m.data.length)) ∧
    (∀ m : OflMsgFlowMod L,
      LaidOut exp (.flowMod m) xid heap
        (48 + roundUp (4 + (L.matchLength m.fmatch).toNat) 8 +
          L.elemTotalLen .instruction m.instructions)) := by
  constructor
  · intro m htable
    have hbufLen := congrArg PackResult.bufLen (oflMsgPackPacketIn_eq m heap)
    refine LaidOut.of_body (t := .packetIn) rfl rfl hbufLen (by omega)
      (packetIn_changedWithin N m heap) fun hhi => ?_
    exact (decodes_packetIn N m heap htable (by rw [hbufLen]; exact hhi)).map _
  · intro m
    have hbufLen := congrArg PackResult.bufLen (oflMsgPackFlowMod_eq m heap)
    refine LaidOut.of_body (t := .flowMod) rfl rfl hbufLen (by omega)
      (flowMod_changedWithin H I m heap) fun hhi => ?_
    exact (decodes_flowMod H I m heap (by rw [hbufLen]; exact hhi)).map _

/-! ## 6. A match codec that can be run -/

/-- A match that is its TLV bytes; header and bytes fit in 16 bits of length. -/
abbrev SampleMatch : Type := { tlvs : List UInt8 // tlvs.length ≤ 65531 }

def SampleMatch.unpack (buf : Mem) (src ptr len : Nat) : Except OflErr SampleMatch × Nat :=
  let n := (ntohs (get16 buf (src + OfpMatch.length))).toNat
  if ntohs (get16 buf (src + OfpMatch.type)) ≠ 1 then (.error (.ofl .badRequest ofpbrcBadType), len)
  else if len < roundUp n 8 then (.error badLen, len)
  else (.ok ⟨load buf ptr (n - 4), by
    have hn := (ntohs (get16 buf (src + OfpMatch.length))).toNat_lt
    rw [length_load]
    omega⟩, len - roundUp n 8)

/-- `sampleLib` with matches of every length. -/
def sampleMatchLib : OflLib :=
  { sampleLib with
    Match := SampleMatch
    matchLength := fun m => UInt16.ofNat m.1.length
    matchPack := fun _ m mem dst ptr =>
      store (put16 (put16 mem (dst + OfpMatch.type) (htons 1)) (dst + OfpMatch.length)
        (htons (UInt16.ofNat (4 + m.1.length)))) ptr m.1
    matchUnpack := SampleMatch.unpack
    staleMatch := ⟨[], by decide⟩ }

def sampleMatchCodec (order : ByteOrder) : MatchCodec sampleMatchLib order where
  type := 1
  tlvs := fun m => m.1
  length_tlvs := by
    intro m
    have hm := m.2
    show m.1.length = (UInt16.ofNat m.1.length).toNat
    rw [UInt16.toNat_ofNat']
    omega
  pack_eq := fun _ _ _ _ => rfl
  unpack_eq := by
    intro m buf src ptr len _ htype hlength hload hlen
    show SampleMatch.unpack buf src ptr len = _
    simp only [SampleMatch.unpack, htype, hlength, Nat.add_sub_cancel_left, hload]
    rw [if_neg (by simp), if_neg (by omega)]
    rfl

def sampleInstructionCodec : ElemCodec sampleMatchLib .instruction where
  codec := sampleCodecs.elem .instruction
  total := sampleCodecs.elem_total .instruction
  count := sampleCodecs.elem_count .instruction

/-- A PACKET_IN with five bytes of TLVs. -/
def samplePacketIn : OflMsgPacketIn sampleMatchLib where
  bufferId := 1
  totalLen := 60
  reason := 0
  tableId := 3
  cookie := 7
  fmatch := ⟨[128, 0, 0, 4, 9], by decide⟩
  data := [1, 2]

/-- A FLOW_MOD with the empty match and one instruction. -/
def sampleFlowMod : OflMsgFlowMod sampleMatchLib where
  cookie := 1
  cookieMask := 0
  tableId := 0
  command := 0
  idleTimeout := 0
  hardTimeout := 0
  priority := 5
  bufferId := 0
  outPort := 0
  outGroup := 0
  flags := 0
  fmatch := ⟨[], by decide⟩
  instructions := [(5 : UInt16)]

theorem match_layout_sample :
    LaidOut none (.packetIn samplePacketIn) 7 (fun _ => 0) 44 ∧
      LaidOut none (.flowMod sampleFlowMod) 7 (fun _ => 0) 64 := by
  have h := match_layout (sampleMatchCodec .network) (sampleMatchCodec .host) sampleInstructionCodec
    none 7 (fun _ => 0)
  exact ⟨h.1 samplePacketIn (by decide), h.2 sampleFlowMod⟩

end CcPof.OpenFlow

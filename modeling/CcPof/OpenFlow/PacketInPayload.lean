import CcPof.OpenFlow.Causes
import CcPof.OpenFlow.MatchLayout
import CcPof.OpenFlow.Truncation

/-!
# The payload of a PACKET_IN

The decoder takes three pieces off the remaining length: the part in front of the match, the match
and two bytes of padding. Only the first is compared with the length before. The payload is what the
counter says is left, from a place that the length of the decoded match gives.
-/

namespace CcPof.OpenFlow

variable {L : OflLib} {exp : Option (OflExp L)} {buf : Mem} {bufLen : Nat} {xid : Option UInt32}

/-! ## 1. The match -/

/-- The length field of the match at `src`. -/
def wireMatchLength (buf : Mem) (src : Nat) : Nat :=
  (ntohs (get16 buf (src + OfpMatch.length))).toNat

/-- A match of the length field at `src` and its padding were taken off `len`. -/
structure MatchTaken (L : OflLib) (buf : Mem) (src len : Nat) (fmatch : L.Match) (rest : Nat) :
    Prop where
  header : 4 ≤ wireMatchLength buf src
  fits : roundUp (wireMatchLength buf src) 8 ≤ len
  rest_eq : rest = len - roundUp (wireMatchLength buf src) 8
  length_eq : (L.matchLength fmatch).toNat = wireMatchLength buf src - 4

/-- What `ofl_structs_match_unpack` does when it succeeds. -/
def OflLib.TakesMatch (L : OflLib) : Prop :=
  ∀ buf src ptr len fmatch rest, L.matchUnpack buf src ptr len = (.ok fmatch, rest) →
    MatchTaken L buf src len fmatch rest

/-- Where the payload starts, by the length that the decoded match has. -/
def payloadOffset (L : OflLib) (fmatch : L.Match) : Nat :=
  roundUp (OfpPacketIn.size - 4 + (L.matchLength fmatch).toNat) 8 + 2

/-- Where it starts by the length field of the match. -/
def payloadStart (buf : Mem) : Nat :=
  OfpPacketIn.fmatch + roundUp (wireMatchLength buf OfpPacketIn.fmatch) 8 + 2

/-- The payload is the received bytes from its offset on, and a message without room for match and
padding is rejected before the counter wraps. -/
structure PayloadReceived (exp : Option (OflExp L)) (buf : Mem) (bufLen : Nat)
    (xid : Option UInt32) : Prop where
  accepted : ∀ m s, oflMsgUnpack exp buf bufLen xid = .ok (.packetIn m) s →
    payloadOffset L m.fmatch ≤ bufLen ∧
      m.data.length = bufLen - payloadOffset L m.fmatch ∧
      m.data = load buf (payloadOffset L m.fmatch) (bufLen - payloadOffset L m.fmatch)
  short : OfpType.ofUInt8? (buf OfpHeader.type) = some .packetIn → bufLen < payloadStart buf →
    RejectsCleanly (oflMsgUnpack exp buf bufLen xid)

/-! ## 2. Which messages are accepted -/

/-- The checks of the header and of the PACKET_IN decoder. -/
structure PassesChecks (buf : Mem) (bufLen : Nat) : Prop where
  reaches : Reaches buf bufLen (some .packetIn)
  size : OfpPacketIn.size ≤ bufLen
  tableId : buf OfpPacketIn.tableId ≠ 0xff

theorem type_of_packetIn {t : Option OfpType} {s s' : UnpackState} {m : OflMsgPacketIn L}
    (h : unpackBody exp buf t s = .ok (.packetIn m) s') : t = some .packetIn := by
  cases t with
  | none => simp [unpackBody] at h
  | some t =>
    cases t with
    | packetIn => rfl
    | experimenter =>
      simp only [unpackBody] at h
      cases hunpack : OflExp.msgUnpack exp with
      | none =>
        rw [hunpack] at h
        cases h
      | some unpack =>
        rw [hunpack] at h
        obtain ⟨_, h⟩ := ok_of_map h
        cases h
    | multipartRequest =>
      obtain ⟨_, _, h⟩ := ok_of_bind h
      obtain ⟨_, _, h⟩ := ok_of_bind h
      obtain ⟨_, _, h⟩ := ok_of_bind h
      cases h
    | multipartReply =>
      obtain ⟨_, _, h⟩ := ok_of_bind h
      obtain ⟨_, _, h⟩ := ok_of_bind h
      obtain ⟨_, _, h⟩ := ok_of_bind h
      cases h
    | _ =>
      -- Every other decoder ends in the constructor of its own message.
      first
      | obtain ⟨_, h⟩ := ok_of_map h
        cases h
      | obtain ⟨_, _, h⟩ := ok_of_bind h
        cases h

/-- The checks of the header come before anything is taken off the length. -/
theorem rejectsCleanly_of_not_reaches (exp : Option (OflExp L)) (xid : Option UInt32)
    (h : ∀ t, ¬ Reaches buf bufLen t) : RejectsCleanly (oflMsgUnpack exp buf bufLen xid) := by
  by_cases hlen : bufLen < 8
  · rw [oflMsgUnpack_of_short exp xid hlen]
    exact .error rfl
  have hlo : 8 ≤ bufLen := Nat.not_lt.mp hlen
  by_cases hversion : buf OfpHeader.version = ofpVersion
  · have hlength : (ntohs (get16 buf OfpHeader.length)).toNat ≠ bufLen :=
      fun hlength => h _ ⟨hlo, hversion, hlength, rfl⟩
    rw [oflMsgUnpack_of_length exp xid hlo hversion hlength]
    exact .error rfl
  · rw [oflMsgUnpack_of_version exp xid hlo hversion]
    exact .error rfl

theorem packetIn_badTable {s : UnpackState} (hlen : 32 ≤ s.len) (htable : buf 15 = 0xff) :
    oflMsgUnpackPacketIn (L := L) buf s = .error (.err (.ofl .badRequest ofpbacBadArgument)) s := by
  simp [oflMsgUnpackPacketIn, requireLen_run, hlen, rejectIf_reject, htable]

/-- What is not accepted is rejected by a check, before the counter can wrap. -/
theorem rejectsCleanly_of_not_passesChecks (exp : Option (OflExp L)) (xid : Option UInt32)
    (htype : OfpType.ofUInt8? (buf OfpHeader.type) = some .packetIn)
    (h : ¬ PassesChecks buf bufLen) : RejectsCleanly (oflMsgUnpack exp buf bufLen xid) := by
  by_cases hr : Reaches buf bufLen (some .packetIn)
  · rw [hr.run]
    by_cases hsize : bufLen < OfpPacketIn.size
    · exact (rejectsCleanly_requireLen hsize rfl).map
    · have hsize' : OfpPacketIn.size ≤ bufLen := Nat.not_lt.mp hsize
      have htable : buf OfpPacketIn.tableId = 0xff := by
        by_contra htable
        exact h ⟨hr, hsize', htable⟩
      have hrun : RejectsCleanly (oflMsgUnpackPacketIn (L := L) buf (bodyState buf bufLen xid)) := by
        rw [packetIn_badTable hsize' htable]
        exact .error rfl
      exact hrun.map
  · apply rejectsCleanly_of_not_reaches
    intro t ht
    have hsame : some OfpType.packetIn = t := htype.symm.trans ht.type
    exact hr (hsame ▸ ht)

theorem passesChecks_of_accepted {m : OflMsgPacketIn L} {s : UnpackState}
    (h : oflMsgUnpack exp buf bufLen xid = .ok (.packetIn m) s) : PassesChecks buf bufLen := by
  by_contra hnot
  -- Only the decoder of the type PACKET_IN returns a PACKET_IN.
  obtain ⟨_, _, hbody⟩ := ok_of_bind h
  have hrejects := rejectsCleanly_of_not_passesChecks exp xid (type_of_packetIn hbody) hnot
  rw [h] at hrejects
  exact not_rejectsCleanly_ok hrejects

/-! ## 3. What an accepted message holds -/

/-- `*len - 2` as a `size_t`. -/
def lenBehindPadding (rest : Nat) : Nat := if 2 ≤ rest then rest - 2 else rest + 2 ^ 64 - 2

/-- Behind its checks the decoder always succeeds, whatever the match decoder does. -/
theorem packetIn_run (exp : Option (OflExp L)) (xid : Option UInt32) (h : PassesChecks buf bufLen)
    {r : Except OflErr L.Match} {rest : Nat}
    (hmatch : L.matchUnpack buf OfpPacketIn.fmatch (OfpPacketIn.size - 4)
      (bufLen - (OfpPacketIn.size - OfpMatch.size)) = (r, rest)) :
    ∃ m s, oflMsgUnpack exp buf bufLen xid = .ok (.packetIn m) s ∧
      m.fmatch = r.toOption.getD L.staleMatch ∧
      m.data = load buf (payloadOffset L m.fmatch) (lenBehindPadding rest) := by
  have hlen : OfpPacketIn.size ≤ (bodyState buf bufLen xid).len := h.size
  have hsub : OfpPacketIn.size - OfpMatch.size ≤ (bodyState buf bufLen xid).len :=
    Nat.le_trans (by decide) hlen
  rw [h.reaches.run]
  simp only [unpackBody, map_run, oflMsgUnpackPacketIn, bind_run, requireLen_run hlen,
    rejectIf_run h.tableId, subLen_run hsub, nested]
  -- From here on nothing can fail any more: the result of the match decoder is not looked at.
  simp only [subLen, takeRest_run, pure_run]
  have hr := congrArg Prod.fst hmatch
  have hrest := congrArg Prod.snd hmatch
  subst hr hrest
  exact ⟨_, _, rfl, rfl, rfl⟩

/-- For one accepted message the property is about its match and the length behind it. -/
theorem payloadReceived_of_run {m : OflMsgPacketIn L} {s : UnpackState} {len : Nat}
    (hrun : oflMsgUnpack exp buf bufLen xid = .ok (.packetIn m) s)
    (hdata : m.data = load buf (payloadOffset L m.fmatch) len) :
    PayloadReceived exp buf bufLen xid ↔
      payloadStart buf ≤ bufLen ∧ payloadOffset L m.fmatch ≤ bufLen ∧
        len = bufLen - payloadOffset L m.fmatch := by
  constructor
  · intro h
    obtain ⟨hinside, hlength, _⟩ := h.accepted m s hrun
    refine ⟨?_, hinside, ?_⟩
    · by_contra hshort
      have hrejects := h.short (passesChecks_of_accepted hrun).reaches.type (Nat.not_le.mp hshort)
      rw [hrun] at hrejects
      exact not_rejectsCleanly_ok hrejects
    · rw [hdata, length_load] at hlength
      exact hlength
  · intro h
    obtain ⟨hroom, hinside, hlen⟩ := h
    constructor
    · intro m' s' hrun'
      rw [hrun] at hrun'
      cases hrun'
      rw [hdata, hlen]
      exact ⟨hinside, length_load _ _ _, rfl⟩
    · exact fun _ hshort => absurd hroom (Nat.not_le.mpr hshort)

/-! ## 4. When the payload is what was received -/

/-- There is room behind the match for the padding. Where the match decoder refuses the match, what
`match` holds and the length that is left agree with the buffer by chance. -/
structure PayloadFits (L : OflLib) (buf : Mem) (bufLen : Nat) : Prop where
  room : payloadStart buf ≤ bufLen
  refused : ∀ e rest, L.matchUnpack buf OfpPacketIn.fmatch (OfpPacketIn.size - 4)
      (bufLen - (OfpPacketIn.size - OfpMatch.size)) = (.error e, rest) →
    payloadOffset L L.staleMatch ≤ bufLen ∧ payloadOffset L L.staleMatch + rest = bufLen + 2

/-- A match that was decoded ends where its length field says. -/
theorem payloadOffset_decoded (hL : L.TakesMatch) {ptr len rest : Nat} {fmatch : L.Match}
    (h : L.matchUnpack buf OfpPacketIn.fmatch ptr len = (.ok fmatch, rest)) :
    payloadOffset L fmatch = payloadStart buf := by
  have htaken := hL _ _ _ _ _ _ h
  have hheader := htaken.header
  have hlength := htaken.length_eq
  have hround := roundUp_behind (show 24 % 8 = 0 by decide) (L.matchLength fmatch).toNat
  have hwire : 4 + (L.matchLength fmatch).toNat = wireMatchLength buf OfpPacketIn.fmatch := by omega
  rw [hwire] at hround
  rw [payloadOffset, payloadStart]
  exact congrArg (· + 2) hround

/-- A decoded match leaves the room that the padding needs, or not. -/
theorem payloadReceived_of_decoded (hL : L.TakesMatch) (exp : Option (OflExp L))
    (xid : Option UInt32) (h : PassesChecks buf bufLen) {fmatch : L.Match} {rest : Nat}
    (hmatch : L.matchUnpack buf OfpPacketIn.fmatch (OfpPacketIn.size - 4)
      (bufLen - (OfpPacketIn.size - OfpMatch.size)) = (.ok fmatch, rest)) :
    PayloadReceived exp buf bufLen xid ↔ payloadStart buf ≤ bufLen := by
  obtain ⟨m, s, hrun, hfmatch, hdata⟩ := packetIn_run exp xid h hmatch
  have hm : m.fmatch = fmatch := hfmatch
  have hoffset := payloadOffset_decoded hL hmatch
  have hrest : rest = bufLen - 24 - roundUp (wireMatchLength buf OfpPacketIn.fmatch) 8 :=
    (hL _ _ _ _ _ _ hmatch).rest_eq
  have hstart : payloadStart buf =
    24 + roundUp (wireMatchLength buf OfpPacketIn.fmatch) 8 + 2 := rfl
  rw [payloadReceived_of_run hrun hdata, hm, hoffset]
  constructor
  · exact fun hfits => hfits.1
  · intro hroom
    refine ⟨hroom, hroom, ?_⟩
    -- With room for the padding the third subtraction does not wrap.
    rw [lenBehindPadding, if_pos (by omega)]
    omega

/-- The decoder goes on behind a match that was refused, with what `match` and `*len` hold. -/
theorem payloadReceived_of_refused (exp : Option (OflExp L)) (xid : Option UInt32)
    (h : PassesChecks buf bufLen) {e : OflErr} {rest : Nat}
    (hmatch : L.matchUnpack buf OfpPacketIn.fmatch (OfpPacketIn.size - 4)
      (bufLen - (OfpPacketIn.size - OfpMatch.size)) = (.error e, rest)) :
    PayloadReceived exp buf bufLen xid ↔
      payloadStart buf ≤ bufLen ∧ payloadOffset L L.staleMatch ≤ bufLen ∧
        payloadOffset L L.staleMatch + rest = bufLen + 2 := by
  obtain ⟨m, s, hrun, hfmatch, hdata⟩ := packetIn_run exp xid h hmatch
  have hm : m.fmatch = L.staleMatch := hfmatch
  -- A wrapped counter is larger than any message, whose length is a 16-bit field.
  have hsmall : bufLen < 65536 := h.reaches.length ▸ UInt16.toNat_lt _
  have hcounter (hinside : payloadOffset L L.staleMatch ≤ bufLen) :
      lenBehindPadding rest = bufLen - payloadOffset L L.staleMatch ↔
        payloadOffset L L.staleMatch + rest = bufLen + 2 := by
    unfold lenBehindPadding
    split <;> omega
  rw [payloadReceived_of_run hrun hdata, hm]
  constructor
  · intro hfits
    exact ⟨hfits.1, hfits.2.1, (hcounter hfits.2.1).mp hfits.2.2⟩
  · intro hfits
    exact ⟨hfits.1, hfits.2.1, (hcounter hfits.2.1).mpr hfits.2.2⟩

/-- **The payload of a PACKET_IN** is what was received behind the match exactly when the message is
rejected, or leaves room for the padding and has a match that decodes. -/
theorem packetIn_payload_iff (hL : L.TakesMatch) (exp : Option (OflExp L)) (buf : Mem)
    (bufLen : Nat) (xid : Option UInt32) :
    PayloadReceived exp buf bufLen xid ↔ (PassesChecks buf bufLen → PayloadFits L buf bufLen) := by
  by_cases h : PassesChecks buf bufLen
  · cases hmatch : L.matchUnpack buf OfpPacketIn.fmatch (OfpPacketIn.size - 4)
        (bufLen - (OfpPacketIn.size - OfpMatch.size)) with
    | mk r rest =>
      cases r with
      | ok fmatch =>
        rw [payloadReceived_of_decoded hL exp xid h hmatch]
        constructor
        · intro hroom _
          refine ⟨hroom, fun e rest' herror => ?_⟩
          rw [hmatch] at herror
          cases herror
        · exact fun hfits => (hfits h).room
      | error e =>
        rw [payloadReceived_of_refused exp xid h hmatch]
        constructor
        · intro hfits _
          refine ⟨hfits.1, fun e' rest' herror => ?_⟩
          rw [hmatch] at herror
          cases herror
          exact hfits.2
        · exact fun hfits => ⟨(hfits h).room, (hfits h).refused e rest hmatch⟩
  · -- A message that fails a check is rejected, and nothing else is a PACKET_IN.
    refine iff_of_true ⟨fun m s hrun => ?_, fun htype _ => ?_⟩ fun hpasses => absurd hpasses h
    · exact absurd (passesChecks_of_accepted hrun) h
    · exact rejectsCleanly_of_not_passesChecks exp xid htype h

/-! ## 5. A concrete match decoder -/

/-- `sampleMatchLib` with a check of the length field. -/
def checkedMatchLib : OflLib :=
  { sampleMatchLib with
    matchUnpack := fun buf src ptr len =>
      if wireMatchLength buf src < 4 then (.error badLen, len)
      else SampleMatch.unpack buf src ptr len }

theorem checkedMatchLib_takesMatch : checkedMatchLib.TakesMatch := by
  intro buf src ptr len fmatch rest h
  have hlt : wireMatchLength buf src < 65536 := UInt16.toNat_lt _
  have hunpack : (if wireMatchLength buf src < 4 then (.error badLen, len)
      else SampleMatch.unpack buf src ptr len) = (.ok fmatch, rest) := h
  split at hunpack
  · cases hunpack
  next hheader =>
    simp only [SampleMatch.unpack] at hunpack
    split at hunpack
    · cases hunpack
    split at hunpack
    · cases hunpack
    next hlen =>
      cases hunpack
      refine ⟨Nat.not_lt.mp hheader, Nat.not_lt.mp hlen, rfl, ?_⟩
      show (UInt16.ofNat (load buf ptr (wireMatchLength buf src - 4)).length).toNat = _
      rw [length_load, UInt16.toNat_ofNat']
      omega

/-- A PACKET_IN with the empty match, its four bytes of padding and nothing else. -/
def matchOnlyPacketIn : Mem :=
  sampleBuf [4, 10, 0, 32, 0, 0, 0, 7, 0, 0, 0, 1, 0, 60, 0, 3, 0, 0, 0, 0, 0, 0, 0, 0,
    0, 1, 0, 4, 0, 0, 0, 0]

/-- The same with padding and a payload of two bytes. -/
def twoBytePacketIn : Mem :=
  sampleBuf [4, 10, 0, 36, 0, 0, 0, 7, 0, 0, 0, 1, 0, 60, 0, 3, 0, 0, 0, 0, 0, 0, 0, 0,
    0, 1, 0, 4, 0, 0, 0, 0, 0, 0, 9, 9]

theorem packetIn_payload_iff_twoByte :
    PayloadReceived (L := checkedMatchLib) none twoBytePacketIn 36 none ↔
      (PassesChecks twoBytePacketIn 36 → PayloadFits checkedMatchLib twoBytePacketIn 36) :=
  packetIn_payload_iff checkedMatchLib_takesMatch none twoBytePacketIn 36 none

/-- The match ends with the message, and the counter goes from 0 to `2 ^ 64 - 2`. -/
theorem packetIn_payload_wraps :
    (∃ m s, oflMsgUnpack (L := checkedMatchLib) none matchOnlyPacketIn 32 none =
        .ok (.packetIn m) s ∧ m.data.length = 2 ^ 64 - 2) ∧
      ¬ PayloadReceived (L := checkedMatchLib) none matchOnlyPacketIn 32 none := by
  have hchecks : PassesChecks matchOnlyPacketIn 32 :=
    ⟨⟨by decide, by decide, by decide, by decide⟩, by decide, by decide⟩
  have hmatch : checkedMatchLib.matchUnpack matchOnlyPacketIn 24 28 8 =
    (.ok ⟨[], by decide⟩, 0) := rfl
  obtain ⟨m, s, hrun, hfmatch, hdata⟩ := packetIn_run (L := checkedMatchLib) none none hchecks hmatch
  constructor
  · refine ⟨m, s, hrun, ?_⟩
    rw [hdata, length_load]
    rfl
  · intro h
    have hinside := (h.accepted m s hrun).1
    rw [hfmatch] at hinside
    exact absurd hinside (by decide)

end CcPof.OpenFlow

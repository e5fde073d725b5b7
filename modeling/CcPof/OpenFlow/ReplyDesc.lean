import CcPof.OpenFlow.Causes
import CcPof.OpenFlow.RoundTrip
import CcPof.OpenFlow.SampleLib

/-!
# DESC replies

On the wire the five strings are fields of fixed width, which a terminator may leave room in or not
be found in at all. The decoder takes each for a C string, so that a full field runs on into the
next one; the encoder copies the width out of a block that is as long as the string.
-/

namespace CcPof.OpenFlow

variable {L : OflLib} {exp : Option (OflExp L)} {buf : Mem} {bufLen : Nat}

/-! ## 1. The fields -/

inductive DescField where
  | mfrDesc
  | hwDesc
  | swDesc
  | serialNum
  | dpDesc

namespace DescField

/-- The place of the field in the message. -/
def pos : DescField → Nat
  | mfrDesc => OfpMultipartReply.body + OfpDesc.mfrDesc
  | hwDesc => OfpMultipartReply.body + OfpDesc.hwDesc
  | swDesc => OfpMultipartReply.body + OfpDesc.swDesc
  | serialNum => OfpMultipartReply.body + OfpDesc.serialNum
  | dpDesc => OfpMultipartReply.body + OfpDesc.dpDesc

def width : DescField → Nat
  | serialNum => serialNumLen
  | mfrDesc | hwDesc | swDesc | dpDesc => descStrLen

def block (r : OflMsgReplyDesc) : DescField → List UInt8
  | mfrDesc => r.mfrDesc
  | hwDesc => r.hwDesc
  | swDesc => r.swDesc
  | serialNum => r.serialNum
  | dpDesc => r.dpDesc

/-- The field that starts where this one ends. -/
def next : DescField → Option DescField
  | mfrDesc => some hwDesc
  | hwDesc => some swDesc
  | swDesc => some serialNum
  | serialNum => some dpDesc
  | dpDesc => none

theorem pos_next {f g : DescField} (h : f.next = some g) : g.pos = f.pos + f.width := by
  cases f <;> cases h <;> decide

theorem next_ne_none {f : DescField} (h : f ≠ dpDesc) : ∃ g, f.next = some g := by
  cases f
  case dpDesc => exact absurd rfl h
  all_goals exact ⟨_, rfl⟩

theorem two_le_width (f : DescField) : 2 ≤ f.width := by cases f <;> decide

theorem body_le_pos (f : DescField) : OfpMultipartReply.size ≤ f.pos := by cases f <;> decide

theorem pos_add_width_le (f : DescField) :
    f.pos + f.width ≤ OfpMultipartReply.size + OfpDesc.size := by cases f <;> decide

end DescField

/-- What stands in the field: the bytes up to the first NUL, or all of them. -/
def fieldString (buf : Mem) (f : DescField) : List UInt8 := cString (load buf f.pos f.width)

/-! ## 2. The decoder -/

theorem strlen_eq_some_iff {pos m n : Nat} :
    strlen buf pos m = some n ↔ n < m ∧ NulAt buf pos n := by
  induction m generalizing pos n with
  | zero => simp [strlen]
  | succ m ih =>
    rw [strlen]
    by_cases hzero : buf pos = 0
    · have hnul : NulAt buf pos 0 := ⟨fun _ h => absurd h (Nat.not_lt_zero _), hzero⟩
      rw [if_pos hzero, Option.some.injEq]
      constructor
      · rintro rfl
        exact ⟨Nat.succ_pos m, hnul⟩
      · exact fun h => hnul.unique h.2
    · -- The first byte is no NUL, so the one that ends the string is counted from the next.
      rw [if_neg hzero, Option.map_eq_some_iff]
      constructor
      · rintro ⟨k, hk, rfl⟩
        obtain ⟨hlt, hbefore, hend⟩ := ih.mp hk
        refine ⟨Nat.succ_lt_succ hlt, fun i hi => ?_, ?_⟩
        · cases i with
          | zero => exact hzero
          | succ i =>
            have hi := hbefore i (by omega)
            rwa [Nat.add_right_comm] at hi
        · rwa [Nat.add_right_comm] at hend
      · rintro ⟨hlt, hbefore, hend⟩
        cases n with
        | zero => exact absurd hend hzero
        | succ k =>
          refine ⟨k, ih.mpr ⟨Nat.lt_of_succ_lt_succ hlt, fun i hi => ?_, ?_⟩, rfl⟩
          · have hi := hbefore (i + 1) (by omega)
            rwa [Nat.add_right_comm]
          · rwa [Nat.add_right_comm]

/-- The block that `strcpy` leaves: the string at `pos` with its terminator, in mapped memory. -/
def Copied (L : OflLib) (buf : Mem) (pos : Nat) (block : List UInt8) : Prop :=
  ∃ n, NulAt buf pos n ∧ pos + n < L.mappedEnd ∧ block = load buf pos (n + 1)

theorem strcpy_eq_ok_iff {pos : Nat} {block : List UInt8} {s t : UnpackState} :
    strcpy L buf pos s = .ok block t ↔ Copied L buf pos block ∧ s = t := by
  unfold strcpy Copied
  cases hlen : strlen buf pos (L.mappedEnd - pos) with
  | none =>
    -- `strlen` ran to the end of the mapped memory.
    constructor
    · rintro ⟨⟩
    · rintro ⟨⟨n, hnul, hmapped, _⟩, _⟩
      rw [strlen_eq_some_iff.mpr ⟨by omega, hnul⟩] at hlen
      cases hlen
  | some n =>
    obtain ⟨hlt, hnul⟩ := strlen_eq_some_iff.mp hlen
    constructor
    · rintro ⟨⟩
      exact ⟨⟨n, hnul, by omega, rfl⟩, rfl⟩
    · rintro ⟨⟨k, hk, _, rfl⟩, rfl⟩
      rw [hnul.unique hk]
      rfl

theorem copy_bind_eq_ok_iff {α : Type} {pos : Nat} {f : List UInt8 → Unpack α} {a : α}
    {s t : UnpackState} : (strcpy L buf pos >>= f) s = .ok a t ↔
      ∃ block, Copied L buf pos block ∧ f block s = .ok a t := by
  rw [bind_eq_ok_iff]
  constructor
  · rintro ⟨block, u, hcopy, hf⟩
    obtain ⟨hblock, rfl⟩ := strcpy_eq_ok_iff.mp hcopy
    exact ⟨block, hblock, hf⟩
  · rintro ⟨block, hblock, hf⟩
    exact ⟨block, s, strcpy_eq_ok_iff.mpr ⟨hblock, rfl⟩, hf⟩

/-- The decoder copies the five strings, each from where its field starts. -/
theorem unpackReplyDesc_eq_ok_iff {r : OflMsgReplyDesc} {s t : UnpackState}
    (hlen : OfpDesc.size ≤ s.len) : oflMsgUnpackReplyDesc L buf s = .ok r t ↔
      (∀ f : DescField, Copied L buf f.pos (f.block r)) ∧
        { s with len := s.len - OfpDesc.size } = t := by
  rw [oflMsgUnpackReplyDesc, bind_run, requireLen_run hlen]
  dsimp only
  rw [bind_run, subLen_run hlen]
  simp only [copy_bind_eq_ok_iff, pure_run]
  constructor
  · rintro ⟨mfr, hmfr, hw, hhw, sw, hsw, serial, hserial, dp, hdp, ⟨⟩⟩
    refine ⟨fun f => ?_, rfl⟩
    cases f
    · exact hmfr
    · exact hhw
    · exact hsw
    · exact hserial
    · exact hdp
  · rintro ⟨h, rfl⟩
    exact ⟨_, h .mfrDesc, _, h .hwDesc, _, h .swDesc, _, h .serialNum, _, h .dpDesc, rfl⟩

/-- `buf` holds a DESC reply whose body is long enough. -/
structure DescReply (buf : Mem) (bufLen : Nat) : Prop where
  reaches : Reaches buf bufLen (some .multipartReply)
  type : multipartType buf = some .desc
  size : OfpMultipartReply.size + OfpDesc.size ≤ bufLen

def DecodesDesc (exp : Option (OflExp L)) (buf : Mem) (bufLen : Nat) (x : Option UInt32)
    (flags : UInt16) (r : OflMsgReplyDesc) : Prop :=
  ∃ s, oflMsgUnpack exp buf bufLen x = .ok (.multipartReply flags (.desc r)) s

theorem decodesDesc_iff (h : DescReply buf bufLen) (exp : Option (OflExp L)) (x : Option UInt32)
    {flags : UInt16} {r : OflMsgReplyDesc} : DecodesDesc exp buf bufLen x flags r ↔
      ntohs (get16 buf OfpMultipartReply.flags) = flags ∧
        ∀ f : DescField, Copied L buf f.pos (f.block r) := by
  have hsize := h.size
  have hlen : OfpMultipartReply.size ≤ (bodyState buf bufLen x).len :=
    Nat.le_trans (Nat.le_add_right _ _) hsize
  have hbody : OfpDesc.size ≤ (bodyState buf bufLen x).len - OfpMultipartReply.size :=
    Nat.le_sub_of_add_le' hsize
  unfold DecodesDesc
  rw [h.reaches.run exp x, unpackBody, multipartReply_run exp buf hlen, h.type, unpackReplyBody]
  simp only [map_eq_ok_iff]
  constructor
  · rintro ⟨s, _, ⟨d, hd, rfl⟩, ⟨⟩⟩
    exact ⟨rfl, ((unpackReplyDesc_eq_ok_iff hbody).mp hd).1⟩
  · rintro ⟨rfl, hcopied⟩
    exact ⟨_, _, ⟨r, (unpackReplyDesc_eq_ok_iff hbody).mpr ⟨hcopied, rfl⟩, rfl⟩, rfl⟩

/-! ## 3. The encoder -/

/-- A block that is long enough is copied as it is. -/
theorem memcpyBlock_load {pos n k : Nat} (h : n ≤ k) :
    memcpyBlock L (load buf pos k) n = load buf pos n := by
  unfold memcpyBlock
  refine load_ext fun i hi => ?_
  rw [store_inside (by rw [length_load]; omega), getElem_load]

theorem load_packReplyDesc (r : OflMsgReplyDesc) (heap : Mem) (f : DescField) :
    load (oflMsgPackMultipartReplyDesc L r heap).buf f.pos f.width =
      memcpyBlock L (f.block r) f.width := by
  have hlen (block : List UInt8) (n : Nat) : (memcpyBlock L block n).length = n := length_load _ _ _
  unfold oflMsgPackMultipartReplyDesc
  cases f <;>
    simp (disch := simp [hlen, descStrLen, serialNumLen]) only [DescField.pos, DescField.width,
      DescField.block, load_store_disjoint, load_store_same]

theorem packReplyDesc_changedWithin (r : OflMsgReplyDesc) (heap : Mem) :
    ChangedWithin OfpMultipartReply.size (OfpMultipartReply.size + OfpDesc.size) heap
      (oflMsgPackMultipartReplyDesc L r heap).buf := by
  have hlen (block : List UInt8) (n : Nat) : (memcpyBlock L block n).length = n := length_load _ _ _
  unfold oflMsgPackMultipartReplyDesc
  have h := ChangedWithin.refl OfpMultipartReply.size (OfpMultipartReply.size + OfpDesc.size) heap
  refine ((((h.store ?_ ?_).store ?_ ?_).store ?_ ?_).store ?_ ?_).store ?_ ?_ <;>
    simp [hlen, descStrLen, serialNumLen]

section

variable (exp : Option (OflExp L)) (flags : UInt16) (r : OflMsgReplyDesc) (xid : UInt32)
  (heap : Mem)

theorem packBody_desc : packBody exp (.multipartReply flags (.desc r)) heap =
    packMultipartHeader OfpMultipartType.desc.toUInt16 flags
      (oflMsgPackMultipartReplyDesc L r heap) := rfl

theorem packDesc_bufLen : (oflMsgPack exp (.multipartReply flags (.desc r)) xid heap).bufLen =
    OfpMultipartReply.size + OfpDesc.size := by
  rw [oflMsgPack_bufLen, packBody_desc, packMultipartHeader_of_ret rfl]
  rfl

/-- The encoded message is a DESC reply, with the flags and the fields of `r`. -/
theorem descReply_pack :
    DescReply (oflMsgPack exp (.multipartReply flags (.desc r)) xid heap).buf
        (OfpMultipartReply.size + OfpDesc.size) ∧
      ntohs (get16 (oflMsgPack exp (.multipartReply flags (.desc r)) xid heap).buf
        OfpMultipartReply.flags) = flags ∧
      AgreeOn OfpMultipartReply.size (OfpMultipartReply.size + OfpDesc.size)
        (oflMsgPack exp (.multipartReply flags (.desc r)) xid heap).buf
        (oflMsgPackMultipartReplyDesc L r heap).buf := by
  have hret : (packBody exp (.multipartReply flags (.desc r)) heap).ret = 0 := by
    rw [packBody_desc, packMultipartHeader_of_ret rfl]
  have hlen : (packBody exp (.multipartReply flags (.desc r)) heap).bufLen =
      OfpMultipartReply.size + OfpDesc.size := by
    rw [← oflMsgPack_bufLen exp _ xid, packDesc_bufLen]
  have hpacked := congrArg PackResult.buf (oflMsgPack_of_body xid hret)
  rw [hlen] at hpacked
  obtain ⟨hversion, htype, hlength, _, hbody⟩ := agreeOn_packHeader (by decide) (by decide)
    (show AgreeOn 0 (OfpMultipartReply.size + OfpDesc.size) _ _ from fun i _ _ => congrFun hpacked i)
  obtain ⟨htag, hflags, hfields⟩ := agreeOn_multipartHeader
    (r := oflMsgPackMultipartReplyDesc L r heap) rfl (Nat.le_add_right _ _) hbody
  refine ⟨⟨⟨by decide, hversion, hlength, ?_⟩, ?_, le_rfl⟩, hflags, hfields⟩
  · rw [OfpHeader.type, htype]
    exact OfpType.ofUInt8?_toUInt8 .multipartReply
  · rw [multipartType, OfpMultipartRequest.type, htag]
    exact OfpMultipartType.ofUInt16?_toUInt16 .desc

/-- Behind the message the memory is left alone. -/
theorem packDesc_behind {i : Nat} (hi : OfpMultipartReply.size + OfpDesc.size ≤ i) :
    (oflMsgPack exp (.multipartReply flags (.desc r)) xid heap).buf i = heap i := by
  have hret : (packBody exp (.multipartReply flags (.desc r)) heap).ret = 0 := by
    rw [packBody_desc, packMultipartHeader_of_ret rfl]
  have hbehind := packReplyDesc_changedWithin (L := L) r heap i (Or.inr hi)
  rw [OfpMultipartReply.size, OfpDesc.size] at hi
  rw [oflMsgPack_of_body xid hret, packBody_desc, packMultipartHeader_of_ret rfl, ← hbehind]
  simp only [packHeader]
  rw [put32_outside (by simp; omega), put16_outside (by simp; omega), put8_outside (by simp; omega),
    put8_outside (by simp; omega), zero_outside (by simp; omega), put16_outside (by simp; omega),
    put16_outside (by simp; omega)]

end

/-! ## 4. Both ways -/

/-- Each string is what stands in its field; the copies of the encoder stay inside the blocks; and
the message that it writes decodes to the same strings. -/
structure DescFaithful (exp : Option (OflExp L)) (buf : Mem) (x : Option UInt32) (flags : UInt16)
    (r : OflMsgReplyDesc) (xid : UInt32) (heap : Mem) : Prop where
  decoded : ∀ f : DescField, cString (f.block r) = fieldString buf f
  within : ∀ f : DescField, f.width ≤ (f.block r).length
  again : ∃ r', DecodesDesc exp (oflMsgPack exp (.multipartReply flags (.desc r)) xid heap).buf
      (oflMsgPack exp (.multipartReply flags (.desc r)) xid heap).bufLen x flags r' ∧
    ∀ f : DescField, cString (f.block r') = cString (f.block r)

def DescSurvives (exp : Option (OflExp L)) (buf : Mem) (bufLen : Nat) (x : Option UInt32)
    (xid : UInt32) (heap : Mem) : Prop :=
  ∃ flags r, DecodesDesc exp buf bufLen x flags r ∧ DescFaithful exp buf x flags r xid heap

/-- Each field has its first NUL as its last byte. The last field may also do without one, when
behind the message, and behind the one that is written, there happens to stand a NUL. -/
structure FieldsFilled (L : OflLib) (buf heap : Mem) : Prop where
  first : ∀ f, f ≠ DescField.dpDesc → NulAt buf f.pos (f.width - 1)
  last : NulAt buf DescField.dpDesc.pos (descStrLen - 1) ∨
    NulAt buf DescField.dpDesc.pos descStrLen ∧
      heap (OfpMultipartReply.size + OfpDesc.size) = 0 ∧
      OfpMultipartReply.size + OfpDesc.size < L.mappedEnd

/-- A string that is right and long enough ends with its field, or one byte later. -/
theorem nulAt_of_copied {f : DescField} {block : List UInt8} (hcopied : Copied L buf f.pos block)
    (hdecoded : cString block = fieldString buf f) (hwithin : f.width ≤ block.length) :
    NulAt buf f.pos (f.width - 1) ∨
      NulAt buf f.pos f.width ∧ f.pos + f.width < L.mappedEnd ∧
        cString block = load buf f.pos f.width := by
  obtain ⟨n, hnul, hmapped, rfl⟩ := hcopied
  have htext := cString_load_of_lt hnul (Nat.lt_succ_self n)
  rw [length_load] at hwithin
  -- A string that runs on for longer is not that of the field.
  have hle : n ≤ f.width := by
    by_contra hlong
    rw [htext, fieldString, cString_load_of_le hnul (by omega)] at hdecoded
    have hlen := congrArg List.length hdecoded
    rw [length_load, length_load] at hlen
    omega
  by_cases hn : n = f.width
  · subst hn
    exact Or.inr ⟨hnul, hmapped, htext⟩
  · rw [show f.width - 1 = n by omega]
    exact Or.inl hnul

/-- The encoder writes back the bytes of a field that its block covers. -/
theorem packDesc_field (exp : Option (OflExp L)) (flags : UInt16) {r : OflMsgReplyDesc}
    (xid : UInt32) (heap : Mem) {f : DescField} (hcopied : Copied L buf f.pos (f.block r))
    (hwithin : f.width ≤ (f.block r).length) {i : Nat} (hi : i < f.width) :
    (oflMsgPack exp (.multipartReply flags (.desc r)) xid heap).buf (f.pos + i) =
      buf (f.pos + i) := by
  have hlo := f.body_le_pos
  have hhi := f.pos_add_width_le
  obtain ⟨_, _, hfields⟩ := descReply_pack exp flags r xid heap
  obtain ⟨n, _, _, hblock⟩ := hcopied
  have hload := load_packReplyDesc (L := L) r heap f
  rw [hblock, length_load] at hwithin
  rw [hblock, memcpyBlock_load hwithin] at hload
  have hbyte := List.getElem_of_eq hload (i := i) (by rwa [length_load])
  rw [getElem_load, getElem_load] at hbyte
  rw [hfields (f.pos + i) (by omega) (by omega), hbyte]

theorem fieldsFilled_of_survives (h : DescReply buf bufLen) {x : Option UInt32} {xid : UInt32}
    {heap : Mem} (hsurvives : DescSurvives exp buf bufLen x xid heap) :
    FieldsFilled L buf heap := by
  obtain ⟨flags, r, hdecodes, hfaithful⟩ := hsurvives
  obtain ⟨_, hcopied⟩ := (decodesDesc_iff h exp x).mp hdecodes
  have hend (f : DescField) := nulAt_of_copied (hcopied f) (hfaithful.decoded f) (hfaithful.within f)
  refine ⟨fun f hf => ?_, ?_⟩
  · rcases hend f with hlast | ⟨hbehind, _⟩
    · exact hlast
    · -- the next field starts with that NUL, and its string is too short to be copied back
      obtain ⟨g, hg⟩ := DescField.next_ne_none hf
      have hempty : NulAt buf g.pos 0 :=
        ⟨fun _ hi => absurd hi (Nat.not_lt_zero _), by rw [DescField.pos_next hg]; exact hbehind.2⟩
      have hwidth := g.two_le_width
      rcases hend g with hlast | ⟨hlast, _⟩
      · have hzero := hempty.unique hlast
        omega
      · have hzero := hempty.unique hlast
        omega
  · rcases hend .dpDesc with hlast | ⟨hbehind, hmapped, htext⟩
    · exact Or.inl hlast
    · -- the string that is read back ends where the first one did
      refine Or.inr ⟨hbehind, ?_, hmapped⟩
      obtain ⟨r', hagain, hsame⟩ := hfaithful.again
      obtain ⟨hreply, _, _⟩ := descReply_pack exp flags r xid heap
      rw [packDesc_bufLen, decodesDesc_iff hreply exp x] at hagain
      obtain ⟨k, hnul, _, hblock⟩ := hagain.2 .dpDesc
      have hk := hsame .dpDesc
      rw [hblock, cString_load_of_lt hnul (Nat.lt_succ_self k), htext] at hk
      have hlen := congrArg List.length hk
      rw [length_load, length_load] at hlen
      rw [← packDesc_behind exp flags r xid heap le_rfl]
      subst hlen
      exact hnul.2

/-- The message with the given blocks. -/
def OflMsgReplyDesc.ofBlocks (b : DescField → List UInt8) : OflMsgReplyDesc where
  mfrDesc := b .mfrDesc
  hwDesc := b .hwDesc
  swDesc := b .swDesc
  serialNum := b .serialNum
  dpDesc := b .dpDesc

theorem block_ofBlocks (b : DescField → List UInt8) (f : DescField) :
    f.block (OflMsgReplyDesc.ofBlocks b) = b f := by cases f <;> rfl

/-- The string of a filled field has `n` bytes: it ends with the field or behind the message. -/
structure FieldEnd (L : OflLib) (buf heap : Mem) (f : DescField) (n : Nat) : Prop where
  nul : NulAt buf f.pos n
  mapped : f.pos + n < L.mappedEnd
  min : f.width - 1 ≤ n
  max : n < f.width ∨ n = f.width ∧ f.pos + n = OfpMultipartReply.size + OfpDesc.size ∧
    heap (OfpMultipartReply.size + OfpDesc.size) = 0

theorem FieldsFilled.end {heap : Mem} (h : FieldsFilled L buf heap)
    (hmapped : OfpMultipartReply.size + OfpDesc.size ≤ L.mappedEnd) (f : DescField) :
    ∃ n, FieldEnd L buf heap f n := by
  have hwidth := f.two_le_width
  have hfits := f.pos_add_width_le
  have hlast (hnul : NulAt buf f.pos (f.width - 1)) : FieldEnd L buf heap f (f.width - 1) :=
    ⟨hnul, by omega, le_rfl, Or.inl (by omega)⟩
  by_cases hf : f = .dpDesc
  · subst hf
    rcases h.last with hnul | ⟨hnul, hheap, hbehind⟩
    · exact ⟨_, hlast hnul⟩
    · exact ⟨_, hnul, hbehind, Nat.sub_le _ _, Or.inr ⟨rfl, rfl, hheap⟩⟩
  · exact ⟨_, hlast (h.first f hf)⟩

theorem survives_of_fieldsFilled (h : DescReply buf bufLen) (hmapped : bufLen ≤ L.mappedEnd)
    (exp : Option (OflExp L)) (x : Option UInt32) (xid : UInt32) {heap : Mem}
    (hfilled : FieldsFilled L buf heap) : DescSurvives exp buf bufLen x xid heap := by
  choose n hend using hfilled.end (h.size.trans hmapped)
  let flags := ntohs (get16 buf OfpMultipartReply.flags)
  let r := OflMsgReplyDesc.ofBlocks fun f => load buf f.pos (n f + 1)
  have hblock (f : DescField) : f.block r = load buf f.pos (n f + 1) := block_ofBlocks _ f
  have hcopied (f : DescField) : Copied L buf f.pos (f.block r) :=
    ⟨n f, (hend f).nul, (hend f).mapped, hblock f⟩
  have hwithin (f : DescField) : f.width ≤ (f.block r).length := by
    have hmin := (hend f).min
    rw [hblock, length_load]
    omega
  refine ⟨flags, r, (decodesDesc_iff h exp x).mpr ⟨rfl, hcopied⟩, fun f => ?_, hwithin, r, ?_,
    fun _ => rfl⟩
  · rw [hblock, cString_load_of_lt (hend f).nul (Nat.lt_succ_self _), fieldString]
    rcases (hend f).max with hlt | ⟨heq, _⟩
    · rw [cString_load_of_lt (hend f).nul hlt]
    · rw [← heq, cString_load_of_le (hend f).nul le_rfl]
  · obtain ⟨hreply, hflags, _⟩ := descReply_pack exp flags r xid heap
    rw [packDesc_bufLen, decodesDesc_iff hreply exp x]
    refine ⟨hflags, fun f => ?_⟩
    -- up to the terminator the field holds the bytes that it was decoded from
    have hsame (i : Nat) (hi : i ≤ n f) :
        (oflMsgPack exp (.multipartReply flags (.desc r)) xid heap).buf (f.pos + i) =
          buf (f.pos + i) := by
      by_cases hin : i < f.width
      · exact packDesc_field exp flags xid heap (hcopied f) (hwithin f) hin
      · rcases (hend f).max with hlt | ⟨heq, hplace, hheap⟩
        · omega
        · have hi' : i = n f := by omega
          rw [hi', (hend f).nul.2, hplace, packDesc_behind exp flags r xid heap le_rfl, hheap]
    refine ⟨n f, (hend f).nul.congr hsame, (hend f).mapped, ?_⟩
    rw [hblock]
    exact load_ext fun i hi => (hsame i (Nat.le_of_lt_succ hi)).symm

/-- **When a DESC reply survives both ways**: when every field ends in its only terminator. -/
theorem descReply_survives_iff (h : DescReply buf bufLen) (hmapped : bufLen ≤ L.mappedEnd)
    (exp : Option (OflExp L)) (x : Option UInt32) (xid : UInt32) (heap : Mem) :
    DescSurvives exp buf bufLen x xid heap ↔ FieldsFilled L buf heap :=
  ⟨fieldsFilled_of_survives h, survives_of_fieldsFilled h hmapped exp x xid⟩

/-- A reply with five empty strings. -/
def emptyStrings : Mem := sampleBuf [4, 19, 4, 48, 0, 0, 0, 7]

theorem descReply_emptyStrings : DescReply emptyStrings 1072 :=
  ⟨⟨by decide, by decide, by decide, by decide⟩, by decide, by decide⟩

theorem descReply_survives_iff_emptyStrings :
    DescSurvives (L := sampleLib) none emptyStrings 1072 none 7 (fun _ => 0) ↔
      FieldsFilled sampleLib emptyStrings (fun _ => 0) :=
  descReply_survives_iff descReply_emptyStrings (by decide) none none 7 fun _ => 0

/-- Its strings are decoded, but the encoder reads behind their one-byte blocks. -/
theorem descReply_overreads :
    ¬ DescSurvives (L := sampleLib) none emptyStrings 1072 none 7 (fun _ => 0) := by
  intro h
  have hfilled := fieldsFilled_of_survives descReply_emptyStrings h
  exact (hfilled.first .mfrDesc (by rintro ⟨⟩)).1 0 (by decide) (by decide)

end CcPof.OpenFlow

import CcPof.OpenFlow.PacketOutFrame

/-!
# The bytes of a SET_FIELD

With both pointers at the slot of the action, `ofl_actions_pack` writes the type, the length, the
OXM header, the value and the padding one behind the other. The value goes through a switch on its
length, which has no case for three bytes and swaps eight bytes with `htons`.
-/

namespace CcPof.OpenFlow

variable {L : OflLib}

/-! ## 1. The wire format -/

/-- The four-byte fields that are kept in network order: the IPv4 and the ARP addresses. -/
def addressFields : List Nat := [11, 12, 22, 23]

/-- The value of a field on the wire: verbatim where it is kept in network order, else the host
integer, most significant byte first. -/
def oxmWireValue (field : OflMatchTlv) : List UInt8 :=
  let n := oxmLength field.header
  if n = 1 ∨ n = 6 ∨ n = 16 ∨ (n = 4 ∧ oxmField field.header ∈ addressFields) then
    load field.value 0 n
  else toBE n (ofLE (load field.value 0 n))

/-- What the specification puts in the slot of a SET_FIELD. -/
def setFieldWire (field : OflMatchTlv) : List UInt8 :=
  let n := oxmLength field.header
  toBE 2 25 ++ toBE 2 (8 + roundUp n 8) ++ toBE 4 field.header.toNat ++ oxmWireValue field ++
    List.replicate (roundUp n 8 - n) 0

/-- The slot of a SET_FIELD that is packed at `dst` with the data pointer there too. -/
def setFieldSlot (exp : Option (OflExp L)) (field : OflMatchTlv) (m : Mem) (dst : Nat) :
    List UInt8 :=
  load (oflActionsPack exp (.setField field) m dst dst).1 dst
    (oflActionsOfpLen exp (.setField field))

/-- The slot holds the field in its wire format, and nothing outside the slot changes. -/
structure EncodesExactly (exp : Option (OflExp L)) (field : OflMatchTlv) (m : Mem) (dst : Nat) :
    Prop where
  slot : setFieldSlot exp field m dst = setFieldWire field
  frame : ChangedWithin dst (dst + oflActionsOfpLen exp (.setField field)) m
    (oflActionsPack exp (.setField field) m dst dst).1

/-! ## 2. The bytes that are written -/

/-- The memory once type, length and OXM header are there. -/
def setFieldFixed (field : OflMatchTlv) (m : Mem) (dst : Nat) : Mem :=
  let m := zero (put16 m dst (htons 25)) (dst + 4) 4
  let m := put16 m (dst + 2)
    (htons (UInt16.ofNat (OfpActionSetField.size + roundUp (oxmLength field.header) 8)))
  put32 m (dst + 4) (htonl field.header)

theorem oflActionsPack_setField (exp : Option (OflExp L)) (field : OflMatchTlv) (m : Mem)
    (dst data : Nat) :
    (oflActionsPack exp (.setField field) m dst data).1 =
      zero (store (setFieldFixed field m dst) (data + 8) (setFieldValue field))
        (data + (8 + oxmLength field.header))
        (roundUp (oxmLength field.header) 8 - oxmLength field.header) :=
  rfl

theorem setFieldFixed_frame (field : OflMatchTlv) (m : Mem) (dst : Nat) :
    ChangedWithin dst (dst + 8) m (setFieldFixed field m dst) :=
  ((changedWithin_prologue _ m dst (le_refl 8)).put16 (dst + 2) (by omega) (by omega)).put32
    (dst + 4) (by omega) (by omega)

theorem load_setFieldFixed {field : OflMatchTlv}
    (hknown : oxmLength field.header ∈ basicFieldLengths) (m : Mem) (dst : Nat) :
    load (setFieldFixed field m dst) dst 8 =
      toBE 2 25 ++ toBE 2 (8 + roundUp (oxmLength field.header) 8) ++
        toBE 4 field.header.toNat := by
  have hround := (roundUp_basic hknown).2
  have hfits : 8 + roundUp (oxmLength field.header) 8 < 65536 := by omega
  -- The zeroed pad lies under the OXM header, which is written last.
  have htype : load (setFieldFixed field m dst) dst 2 = toBE 2 25 := by
    rw [setFieldFixed, load_store_disjoint (by simp), load_store_disjoint (by simp),
      load_store_disjoint (by simp), load_store_same _ _ _ _ (length_toLE _ _), toLE_htons]
    rfl
  have hlength : load (setFieldFixed field m dst) (dst + 2) 2 =
      toBE 2 (8 + roundUp (oxmLength field.header) 8) := by
    rw [setFieldFixed, load_store_disjoint (by simp), load_store_same _ _ _ _ (length_toLE _ _),
      toLE_htons]
    exact congrArg (toBE 2) (UInt16.toNat_ofNat_of_lt' hfits)
  have hheader : load (setFieldFixed field m dst) (dst + 4) 4 = toBE 4 field.header.toNat := by
    rw [setFieldFixed, load_store_same _ _ _ _ (length_toLE _ _), toLE_htonl]
  have hsplit : load (setFieldFixed field m dst) dst 8 =
      load (setFieldFixed field m dst) dst 2 ++ load (setFieldFixed field m dst) (dst + 2) 2 ++
        load (setFieldFixed field m dst) (dst + 4) 4 := by
    rw [← load_add, ← load_add]
  rw [hsplit, htype, hlength, hheader]

/-- The value bytes of the slot. The switch has no case for three bytes: what was there stays. -/
def writtenValue (field : OflMatchTlv) (m : Mem) (dst : Nat) : List UInt8 :=
  if oxmLength field.header = 3 then load m (dst + 8) 3 else setFieldValue field

theorem load_value {field : OflMatchTlv} (hknown : oxmLength field.header ∈ basicFieldLengths)
    (m : Mem) (dst : Nat) :
    load (store (setFieldFixed field m dst) (dst + 8) (setFieldValue field)) (dst + 8)
        (oxmLength field.header) = writtenValue field m dst := by
  unfold writtenValue
  split
  next hthree =>
    have hnone : setFieldValue field = [] := by simp [setFieldValue, hthree]
    -- No case of the switch: only the fixed part was written, in front of the value.
    rw [hnone, store_nil, hthree]
    exact load_ext fun i _ => setFieldFixed_frame field m dst _ (by omega)
  next hthree => exact load_store_same _ _ _ _ (length_setFieldValue hknown hthree)

/-- The slot byte by byte, whatever the length. -/
theorem setFieldSlot_eq (exp : Option (OflExp L)) {field : OflMatchTlv}
    (hknown : oxmLength field.header ∈ basicFieldLengths) (m : Mem) (dst : Nat) :
    setFieldSlot exp field m dst =
      toBE 2 25 ++ toBE 2 (8 + roundUp (oxmLength field.header) 8) ++ toBE 4 field.header.toNat ++
        writtenValue field m dst ++
        List.replicate (roundUp (oxmLength field.header) 8 - oxmLength field.header) 0 := by
  have hle := (roundUp_basic hknown).1
  have hvalue := length_setFieldValue_le field
  have hslot : setFieldSlot exp field m dst =
      load (oflActionsPack exp (.setField field) m dst dst).1 dst
        (8 + (oxmLength field.header +
          (roundUp (oxmLength field.header) 8 - oxmLength field.header))) := by
    rw [Nat.add_sub_of_le hle]
    rfl
  -- Neither the value nor the padding reaches back into what stands in front of it.
  rw [hslot, oflActionsPack_setField, load_add, load_add, load_store_disjoint (by omega),
    load_store_disjoint (by omega), load_store_disjoint (by omega), load_setFieldFixed hknown,
    load_value hknown, Nat.add_assoc, load_store_same _ _ _ _ List.length_replicate,
    List.append_assoc _ (writtenValue _ _ _)]

theorem setField_frame (exp : Option (OflExp L)) {field : OflMatchTlv}
    (hknown : oxmLength field.header ∈ basicFieldLengths) (m : Mem) (dst : Nat) :
    ChangedWithin dst (dst + oflActionsOfpLen exp (.setField field)) m
      (oflActionsPack exp (.setField field) m dst dst).1 := by
  have hle := (roundUp_basic hknown).1
  have hvalue := length_setFieldValue_le field
  have hlen : oflActionsOfpLen exp (.setField field) =
    8 + roundUp (oxmLength field.header) 8 := rfl
  have hfixed := (setFieldFixed_frame field m dst).mono (le_refl dst)
    (show dst + 8 ≤ dst + oflActionsOfpLen exp (.setField field) by omega)
  rw [oflActionsPack_setField]
  exact (hfixed.store (by omega) (by omega)).zero _ (by omega) (by omega)

/-! ## 3. When they are the right ones -/

theorem setFieldValue_eight {field : OflMatchTlv} (height : oxmLength field.header = 8) :
    setFieldValue field = (load field.value 0 2).reverse ++ List.replicate 6 0 := by
  have hcase : setFieldValue field = toLE 8 (htons (get64 field.value 0).toUInt16).toNat := by
    simp [setFieldValue, height]
  have hlow : (htons (get16 field.value 0)).toNat < 256 ^ 2 := (htons _).toNat_lt
  rw [hcase, toUInt16_get64, toLE_add_of_lt hlow 6, toLE_htons, toBE, toLE_get16]

theorem oxmWireValue_reverse {field : OflMatchTlv} (hlen : oxmLength field.header ∈ [2, 3, 8] ∨
    oxmLength field.header = 4 ∧ oxmField field.header ∉ addressFields) :
    oxmWireValue field = (load field.value 0 (oxmLength field.header)).reverse := by
  have hcond : ¬ (oxmLength field.header = 1 ∨ oxmLength field.header = 6 ∨
      oxmLength field.header = 16 ∨
        (oxmLength field.header = 4 ∧ oxmField field.header ∈ addressFields)) := by
    simp only [List.mem_cons, List.not_mem_nil, or_false] at hlen
    grind
  rw [oxmWireValue, if_neg hcond, toBE_ofLE (length_load _ _ _)]

theorem oxmWireValue_verbatim {field : OflMatchTlv} (hlen : oxmLength field.header ∈ [1, 6, 16] ∨
    oxmLength field.header = 4 ∧ oxmField field.header ∈ addressFields) :
    oxmWireValue field = load field.value 0 (oxmLength field.header) := by
  simp only [List.mem_cons, List.not_mem_nil, or_false, or_assoc] at hlen
  rw [oxmWireValue, if_pos hlen]

/-- The wire value determines the bytes of the value. -/
theorem oxmWireValue_inj {header : UInt32} {value value' : Mem}
    (h : oxmWireValue ⟨header, value⟩ = oxmWireValue ⟨header, value'⟩) :
    load value 0 (oxmLength header) = load value' 0 (oxmLength header) := by
  simp only [oxmWireValue] at h
  split at h
  · exact h
  · rw [toBE_ofLE (length_load _ _ _), toBE_ofLE (length_load _ _ _)] at h
    exact List.reverse_injective h

/-- The lengths with a case that is right. -/
theorem setFieldValue_eq_wire {field : OflMatchTlv}
    (hknown : oxmLength field.header ∈ basicFieldLengths) (hthree : oxmLength field.header ≠ 3)
    (height : oxmLength field.header ≠ 8) : setFieldValue field = oxmWireValue field := by
  simp only [basicFieldLengths, List.mem_cons, List.not_mem_nil, or_false] at hknown
  rcases hknown with h | h | h | h | h | h | h
  · rw [oxmWireValue_verbatim (Or.inl (by simp [h])), setFieldValue, if_pos (by simp [h])]
  · rw [oxmWireValue_reverse (Or.inl (by simp [h])), setFieldValue, if_neg (by simp [h]), if_pos h,
      toLE_htons, toBE, toLE_get16, h]
  · exact absurd h hthree
  · -- Four bytes: an address is copied, any other value is swapped.
    by_cases haddress : oxmField field.header ∈ addressFields
    · rw [oxmWireValue_verbatim (Or.inr ⟨h, haddress⟩)]
      simp only [addressFields, List.mem_cons, List.not_mem_nil, or_false] at haddress
      rw [setFieldValue, if_neg (by simp [h]), if_neg (by simp [h]), if_pos h,
        if_neg (by grind), toLE_get32, h]
    · rw [oxmWireValue_reverse (Or.inr ⟨h, haddress⟩)]
      simp only [addressFields, List.mem_cons, List.not_mem_nil, or_false] at haddress
      rw [setFieldValue, if_neg (by simp [h]), if_neg (by simp [h]), if_pos h,
        if_pos (by grind), toLE_htonl, toBE, toLE_get32, h]
  · rw [oxmWireValue_verbatim (Or.inl (by simp [h])), setFieldValue, if_pos (by simp [h])]
  · exact absurd h height
  · rw [oxmWireValue_verbatim (Or.inl (by simp [h])), setFieldValue, if_pos (by simp [h])]

/-- Eight bytes come out right when all of them are zero. -/
theorem setFieldValue_eight_eq_wire {field : OflMatchTlv} (height : oxmLength field.header = 8) :
    setFieldValue field = oxmWireValue field ↔ load field.value 0 8 = List.replicate 8 0 := by
  have hbytes : load field.value 0 8 = [field.value 0, field.value 1, field.value 2, field.value 3,
    field.value 4, field.value 5, field.value 6, field.value 7] := rfl
  have hlow : load field.value 0 2 = [field.value 0, field.value 1] := rfl
  -- The code writes the two low bytes first and zeros behind them, the wire wants them last.
  rw [setFieldValue_eight height, oxmWireValue_reverse (Or.inl (by simp [height])), height, hlow,
    hbytes]
  simp only [List.reverse_cons, List.reverse_nil, List.nil_append, List.cons_append,
    List.replicate_succ, List.replicate_zero, List.cons.injEq, and_true]
  grind

/-- The value of three bytes is in the slot already, and a value of eight bytes is zero. -/
def ValueReachesSlot (field : OflMatchTlv) (m : Mem) (dst : Nat) : Prop :=
  (oxmLength field.header = 3 → load m (dst + 8) 3 = oxmWireValue field) ∧
    (oxmLength field.header = 8 → load field.value 0 8 = List.replicate 8 0)

theorem writtenValue_eq_wire {field : OflMatchTlv}
    (hknown : oxmLength field.header ∈ basicFieldLengths) (m : Mem) (dst : Nat) :
    writtenValue field m dst = oxmWireValue field ↔ ValueReachesSlot field m dst := by
  unfold writtenValue ValueReachesSlot
  by_cases hthree : oxmLength field.header = 3
  · simp [hthree]
  by_cases height : oxmLength field.header = 8
  · simp [height, setFieldValue_eight_eq_wire height]
  · simp [hthree, height, setFieldValue_eq_wire hknown hthree height]

theorem encodesExactly_iff (exp : Option (OflExp L)) {field : OflMatchTlv}
    (hknown : oxmLength field.header ∈ basicFieldLengths) (m : Mem) (dst : Nat) :
    EncodesExactly exp field m dst ↔ ValueReachesSlot field m dst := by
  have hslot : setFieldSlot exp field m dst = setFieldWire field ↔
      writtenValue field m dst = oxmWireValue field := by
    rw [setFieldSlot_eq exp hknown, setFieldWire, List.append_cancel_right_eq,
      List.append_cancel_left_eq]
  rw [← writtenValue_eq_wire hknown, ← hslot]
  exact ⟨EncodesExactly.slot, fun h => ⟨h, setField_frame exp hknown m dst⟩⟩

/-! ## 4. Two values -/

/-- Of two values of three bytes it is the slots that differ beforehand, and two values of eight
bytes differ in their low half-word. -/
def StayDistinct (header : UInt32) (value value' m m' : Mem) (dst dst' : Nat) : Prop :=
  (oxmLength header = 3 → load m (dst + 8) 3 ≠ load m' (dst' + 8) 3) ∧
    (oxmLength header = 8 → load value 0 2 ≠ load value' 0 2)

theorem setFieldSlot_ne_iff (exp : Option (OflExp L)) {header : UInt32}
    (hknown : oxmLength header ∈ basicFieldLengths) {value value' : Mem}
    (hvalue : load value 0 (oxmLength header) ≠ load value' 0 (oxmLength header)) (m m' : Mem)
    (dst dst' : Nat) :
    setFieldSlot exp ⟨header, value⟩ m dst ≠ setFieldSlot exp ⟨header, value'⟩ m' dst' ↔
      StayDistinct header value value' m m' dst dst' := by
  have hslot : setFieldSlot exp ⟨header, value⟩ m dst = setFieldSlot exp ⟨header, value'⟩ m' dst' ↔
      writtenValue ⟨header, value⟩ m dst = writtenValue ⟨header, value'⟩ m' dst' := by
    rw [setFieldSlot_eq exp hknown, setFieldSlot_eq exp hknown, List.append_cancel_right_eq,
      List.append_cancel_left_eq]
  rw [Ne, hslot]
  unfold writtenValue StayDistinct
  by_cases hthree : oxmLength header = 3
  · simp [hthree]
  by_cases height : oxmLength header = 8
  · simp [height, setFieldValue_eight]
  · have hne : oxmWireValue ⟨header, value⟩ ≠ oxmWireValue ⟨header, value'⟩ :=
      fun h => hvalue (oxmWireValue_inj h)
    have hcode (v : Mem) : setFieldValue ⟨header, v⟩ = oxmWireValue ⟨header, v⟩ :=
      setFieldValue_eq_wire hknown hthree height
    simpa [hthree, height, hcode] using hne

/-- **SET_FIELD**: the slot holds the exact value, and two values of one field get different slots,
except where the length is three, or is eight and the value has a bit above its low half-word. -/
theorem setField_exact (exp : Option (OflExp L)) {header : UInt32}
    (hknown : oxmLength header ∈ basicFieldLengths) :
    (∀ value m dst, EncodesExactly exp ⟨header, value⟩ m dst ↔
      ValueReachesSlot ⟨header, value⟩ m dst) ∧
    ∀ value value' m m' dst dst',
      load value 0 (oxmLength header) ≠ load value' 0 (oxmLength header) →
        (setFieldSlot exp ⟨header, value⟩ m dst ≠ setFieldSlot exp ⟨header, value'⟩ m' dst' ↔
          StayDistinct header value value' m m' dst dst') :=
  ⟨fun _ m dst => encodesExactly_iff exp hknown m dst,
    fun _ _ m m' dst dst' hvalue => setFieldSlot_ne_iff exp hknown hvalue m m' dst dst'⟩

/-- OFPXMT_OFB_IPV4_SRC. -/
def ipv4SrcHeader : UInt32 := 0x80001604

theorem setField_exact_ipv4Src :
    (∀ value m dst, EncodesExactly (L := sampleLib) none ⟨ipv4SrcHeader, value⟩ m dst ↔
      ValueReachesSlot ⟨ipv4SrcHeader, value⟩ m dst) ∧
    ∀ value value' m m' dst dst', load value 0 4 ≠ load value' 0 4 →
      (setFieldSlot (L := sampleLib) none ⟨ipv4SrcHeader, value⟩ m dst ≠
          setFieldSlot (L := sampleLib) none ⟨ipv4SrcHeader, value'⟩ m' dst' ↔
        StayDistinct ipv4SrcHeader value value' m m' dst dst') := by
  have hknown : oxmLength ipv4SrcHeader ∈ basicFieldLengths := by decide
  exact setField_exact (L := sampleLib) none hknown

/-- OFPXMT_OFB_METADATA, eight bytes. -/
def metadataHeader : UInt32 := 0x80000408

/-- OFPXMT_OFB_PBB_ISID, three bytes. -/
def pbbIsidHeader : UInt32 := 0x80004a03

/-- The metadata 1 goes out as 2^48, 65537 goes out as the same bytes, and the service id
of a backbone frame is not written. -/
theorem setField_inexact :
    ¬ EncodesExactly (L := sampleLib) none ⟨metadataHeader, store (fun _ => 0) 0 (toLE 8 1)⟩
        (fun _ => 0) 0 ∧
    setFieldSlot (L := sampleLib) none ⟨metadataHeader, store (fun _ => 0) 0 (toLE 8 1)⟩
        (fun _ => 0) 0 =
      setFieldSlot (L := sampleLib) none ⟨metadataHeader, store (fun _ => 0) 0 (toLE 8 65537)⟩
        (fun _ => 0) 0 ∧
    ¬ EncodesExactly (L := sampleLib) none ⟨pbbIsidHeader, store (fun _ => 0) 0 (toLE 3 1)⟩
        (fun _ => 0) 0 := by
  refine ⟨fun h => absurd h.slot (by decide), by decide, fun h => absurd h.slot (by decide)⟩

end CcPof.OpenFlow

import CcPof.OpenFlow.SampleLib

/-!
# Where the PACKET_OUT encoder writes

`ofl_actions_pack` writes through two pointers. Every action but SET_FIELD stays inside its own
slot; SET_FIELD puts its value behind the second pointer, for which `ofl_msg_pack_packet_out` passes
the start of the message.
-/

namespace CcPof.OpenFlow

variable {L : OflLib}

/-! ## 1. Action kinds -/

def OflAction.IsSetField {E : Type} : OflAction E → Prop
  | setField _ => True
  | _ => False

instance {E : Type} (a : OflAction E) : Decidable a.IsSetField := by
  cases a <;> unfold OflAction.IsSetField <;> infer_instance

/-- An experimenter callback that writes the `ofp_len` bytes of its own action and returns their
number. -/
structure OflExp.ActFramed (exp : Option (OflExp L)) (a : L.ExpAction) : Prop where
  ofpLen : 8 ≤ oflActionsOfpLen exp (.experimenter a)
  pack : ∃ pack, OflExp.actPack exp = some pack ∧ ∀ m dst,
    (pack a m dst).2 = oflActionsOfpLen exp (.experimenter a) ∧
      ChangedWithin dst (dst + oflActionsOfpLen exp (.experimenter a)) m (pack a m dst).1

/-- The lengths of the OpenFlow basic fields. -/
def basicFieldLengths : List Nat := [1, 2, 3, 4, 6, 8, 16]

/-- The actions with a `case`; a SET_FIELD sets a field of the basic class, and the callbacks of an
experimenter action behave. -/
def OflAction.Known (exp : Option (OflExp L)) : OflAction L.ExpAction → Prop
  | setField field => oxmLength field.header ∈ basicFieldLengths
  | experimenter a => OflExp.ActFramed exp a
  | unknown _ _ => False
  | _ => True

/-! ## 2. One action -/

/-- The type and the padding that the common prologue writes. -/
theorem changedWithin_prologue (type : UInt16) (m : Mem) (dst : Nat) {n : Nat} (hn : 8 ≤ n) :
    ChangedWithin dst (dst + n) m (zero (put16 m dst type) (dst + 4) 4) :=
  ((ChangedWithin.refl _ _ _).put16 dst (by omega) (by omega)).zero (dst + 4) (by omega) (by omega)

/-- An action without a SET_FIELD value writes its own slot and returns the length of the slot. -/
theorem oflActionsPack_frame (exp : Option (OflExp L)) (a : OflAction L.ExpAction)
    (hknown : a.Known exp) (hset : ¬ a.IsSetField) (m : Mem) (dst data : Nat) :
    (oflActionsPack exp a m dst data).2 = oflActionsOfpLen exp a ∧
      ChangedWithin dst (dst + oflActionsOfpLen exp a) m (oflActionsPack exp a m dst data).1 := by
  -- The header alone, and the header with an ethertype.
  have hheader (type : UInt16) : ChangedWithin dst (dst + 8) m
      (put16 (zero (put16 m dst type) (dst + 4) 4) (dst + 2) (htons 8)) :=
    (changedWithin_prologue type m dst (le_refl 8)).put16 (dst + 2) (by omega) (by omega)
  have hpush (type ethertype : UInt16) : ChangedWithin dst (dst + 8) m
      (zero (put16 (put16 (zero (put16 m dst type) (dst + 4) 4) (dst + 2) (htons 8)) (dst + 4)
        ethertype) (dst + 6) 2) :=
    ((hheader type).put16 (dst + 4) (by omega) (by omega)).zero (dst + 6) (by omega) (by omega)
  cases a with
  | output port maxLen =>
    refine ⟨rfl, ?_⟩
    have hpro := changedWithin_prologue (htons 0) m dst (show 8 ≤ 16 by decide)
    exact (((hpro.put16 (dst + 2) (by omega) (by omega)).put32 (dst + 4) (by omega)
      (by omega)).put16 (dst + 8) (by omega) (by omega)).zero (dst + 10) (by omega) (by omega)
  | copyTtlOut => exact ⟨rfl, hheader _⟩
  | copyTtlIn => exact ⟨rfl, hheader _⟩
  | setMplsTtl mplsTtl =>
    exact ⟨rfl, ((hheader _).put8 (dst + 4) (by omega) (by omega)).zero (dst + 5) (by omega)
      (by omega)⟩
  | decMplsTtl => exact ⟨rfl, hheader _⟩
  | pushVlan ethertype => exact ⟨rfl, hpush _ _⟩
  | popVlan => exact ⟨rfl, hheader _⟩
  | pushMpls ethertype => exact ⟨rfl, hpush _ _⟩
  | popMpls ethertype => exact ⟨rfl, hpush _ _⟩
  | setQueue queueId => exact ⟨rfl, (hheader _).put32 (dst + 4) (by omega) (by omega)⟩
  | group groupId => exact ⟨rfl, (hheader _).put32 (dst + 4) (by omega) (by omega)⟩
  | setNwTtl nwTtl =>
    exact ⟨rfl, ((hheader _).put8 (dst + 4) (by omega) (by omega)).zero (dst + 5) (by omega)
      (by omega)⟩
  | decNwTtl => exact ⟨rfl, hheader _⟩
  | setField field => exact absurd trivial hset
  | pushPbb ethertype => exact ⟨rfl, hpush _ _⟩
  | popPbb => exact ⟨rfl, hheader _⟩
  | experimenter a =>
    obtain ⟨hlen, pack, hpack, hframe⟩ := hknown
    have hpro := changedWithin_prologue (htons (OflAction.experimenter a).type) m dst hlen
    simp only [oflActionsPack, hpack]
    exact ⟨(hframe _ dst).1, hpro.trans (hframe _ dst).2⟩
  | unknown type h => exact hknown.elim

/-- The first byte that a SET_FIELD writes behind the data pointer, or the first padding byte of a
three-byte value. -/
def setFieldProbe (field : OflMatchTlv) : Nat :=
  if oxmLength field.header = 3 then OfpActionSetField.size + 3 else OfpActionSetField.size

theorem length_setFieldValue {field : OflMatchTlv}
    (hknown : oxmLength field.header ∈ basicFieldLengths) (hthree : oxmLength field.header ≠ 3) :
    (setFieldValue field).length = oxmLength field.header := by
  have hcases : oxmLength field.header = 1 ∨ oxmLength field.header = 2 ∨
      oxmLength field.header = 4 ∨ oxmLength field.header = 6 ∨ oxmLength field.header = 8 ∨
      oxmLength field.header = 16 := by
    simp only [basicFieldLengths, List.mem_cons, List.not_mem_nil, or_false] at hknown
    omega
  rcases hcases with h | h | h | h | h | h <;> simp [setFieldValue, h]
  split <;> simp

/-- With the data pointer at the start of the message, a SET_FIELD in any slot of the message writes
one fixed byte of the fixed part. -/
theorem packSetField_probe (field : OflMatchTlv)
    (hknown : oxmLength field.header ∈ basicFieldLengths) :
    ∃ v, ∀ m dst, (packSetField field m dst 0).1 (setFieldProbe field) = v := by
  by_cases hthree : oxmLength field.header = 3
  · refine ⟨0, fun m dst => ?_⟩
    have hround : roundUp 3 8 - 3 = 5 := by decide
    simp only [packSetField, setFieldProbe, hthree, if_true, hround, OfpActionSetField.size,
      Nat.zero_add, Nat.reduceAdd]
    exact store_inside (i := 0) (by simp)
  · have hlen := length_setFieldValue hknown hthree
    have hpos : 0 < oxmLength field.header := by
      simp only [basicFieldLengths, List.mem_cons, List.not_mem_nil, or_false] at hknown
      omega
    have hfirst : 0 < (setFieldValue field).length := by omega
    refine ⟨(setFieldValue field)[0], fun m dst => ?_⟩
    simp only [packSetField, setFieldProbe, if_neg hthree, OfpActionSetField.size, Nat.zero_add]
    rw [zero_outside (by omega)]
    exact store_inside (i := 0) hfirst

theorem setFieldProbe_lt (field : OflMatchTlv) : setFieldProbe field < 24 := by
  unfold setFieldProbe
  split <;> decide

/-- So it leaves its own slot, wherever the slot starts. -/
theorem setField_leaves_slot (exp : Option (OflExp L)) (field : OflMatchTlv)
    (hknown : oxmLength field.header ∈ basicFieldLengths) {dst n : Nat} (hdst : 24 ≤ dst) :
    ¬ ∀ m, ChangedWithin dst (dst + n) m (oflActionsPack exp (.setField field) m dst 0).1 := by
  intro h
  obtain ⟨v, hv⟩ := packSetField_probe field hknown
  have hprobe := setFieldProbe_lt field
  -- Memory that holds something else there.
  have hsame := h (fun _ => v + 1) (setFieldProbe field) (Or.inl (by omega))
  have hwritten : (oflActionsPack exp (.setField field) (fun _ => v + 1) dst 0).1
      (setFieldProbe field) = v := hv _ dst
  rw [hwritten] at hsame
  have hnat := congrArg UInt8.toNat hsame
  rw [UInt8.toNat_add] at hnat
  have hlt := v.toNat_lt
  simp only [UInt8.reduceToNat] at hnat
  omega

theorem roundUp_basic {n : Nat} (h : n ∈ basicFieldLengths) :
    n ≤ roundUp n 8 ∧ roundUp n 8 ≤ 16 := by
  simp only [basicFieldLengths, List.mem_cons, List.not_mem_nil, or_false] at h
  rcases h with rfl | rfl | rfl | rfl | rfl | rfl | rfl <;> decide

/-- The switch copies no more than the length says. -/
theorem length_setFieldValue_le (field : OflMatchTlv) :
    (setFieldValue field).length ≤ oxmLength field.header := by
  simp only [setFieldValue]
  repeat' split
  all_goals simp only [length_load, length_toLE, List.length_nil]; omega

/-- What a SET_FIELD reads back from its own length field is what it wrote there. -/
theorem packSetField_size {field : OflMatchTlv} (hlen : oxmLength field.header ≤ 16) (m : Mem)
    {dst : Nat} (hdst : 24 ≤ dst) :
    (packSetField field m dst 0).2 = OfpActionSetField.size + roundUp (oxmLength field.header) 8 ∧
      lenField OfpActionHeader.len (packSetField field m dst 0).1 dst =
        OfpActionSetField.size + roundUp (oxmLength field.header) 8 := by
  have hround : oxmLength field.header ≤ roundUp (oxmLength field.header) 8 ∧
      roundUp (oxmLength field.header) 8 ≤ 16 := by
    unfold roundUp
    omega
  have hvalue := length_setFieldValue_le field
  have hread : (ntohs (get16 (packSetField field m dst 0).1 (dst + 2))).toNat =
      OfpActionSetField.size + roundUp (oxmLength field.header) 8 := by
    simp only [packSetField, OfpActionSetField.size, OfpActionSetField.len, OfpActionSetField.field,
      Nat.zero_add]
    -- The value and its padding lie in front of the slot.
    rw [get16_store_disjoint (by rw [List.length_replicate]; omega),
      get16_store_disjoint (by omega), get16_store_disjoint (by rw [length_toLE]; omega),
      get16_put16, ntohs_htons, UInt16.toNat_ofNat']
    omega
  exact ⟨hread, hread⟩

theorem oflActionsPack_size (exp : Option (OflExp L)) (a : OflAction L.ExpAction)
    (hknown : a.Known exp) (m : Mem) {dst : Nat} (hdst : 24 ≤ dst) :
    (oflActionsPack exp a m dst 0).2 = oflActionsOfpLen exp a := by
  by_cases hset : a.IsSetField
  · cases a with
    | setField field => exact (packSetField_size (by have h := roundUp_basic hknown; omega) _ hdst).1
    | _ => exact hset.elim
  · exact (oflActionsPack_frame exp a hknown hset m dst 0).1

/-! ## 3. The loop over the actions -/

/-- Where action `i` starts: behind the fixed part and the actions before it. -/
def slotStart (exp : Option (OflExp L)) (actions : List (OflAction L.ExpAction)) (i : Nat) : Nat :=
  OfpPacketOut.size + oflActionsOfpTotalLen exp (actions.take i)

/-- The loop of `ofl_msg_pack_packet_out`. -/
def packActions (exp : Option (OflExp L)) : List (OflAction L.ExpAction) → Mem → Nat → Mem × Nat :=
  packArr fun a m dst => oflActionsPack exp a m dst 0

theorem packActions_cons (exp : Option (OflExp L)) (a : OflAction L.ExpAction)
    (as : List (OflAction L.ExpAction)) (m : Mem) (ptr : Nat) :
    packActions exp (a :: as) m ptr =
      packActions exp as (oflActionsPack exp a m ptr 0).1 (ptr + (oflActionsPack exp a m ptr 0).2) :=
  rfl

theorem oflActionsOfpTotalLen_cons (exp : Option (OflExp L)) (a : OflAction L.ExpAction)
    (as : List (OflAction L.ExpAction)) :
    oflActionsOfpTotalLen exp (a :: as) = oflActionsOfpLen exp a + oflActionsOfpTotalLen exp as := by
  simp only [oflActionsOfpTotalLen, List.map_cons, List.sum_cons]

/-- The pointer of the loop moves by the encoded length of each action. -/
theorem packActions_ptr (exp : Option (OflExp L)) (as : List (OflAction L.ExpAction))
    (hknown : ∀ a ∈ as, a.Known exp) :
    ∀ m {ptr : Nat}, 24 ≤ ptr → (packActions exp as m ptr).2 = ptr + oflActionsOfpTotalLen exp as := by
  induction as with
  | nil => exact fun _ _ _ => rfl
  | cons a as ih =>
    intro m ptr hptr
    have hsize := oflActionsPack_size exp a (hknown a List.mem_cons_self) m hptr
    rw [packActions_cons, hsize, ih (fun b hb => hknown b (List.mem_cons_of_mem a hb)) _ (by omega),
      oflActionsOfpTotalLen_cons, Nat.add_assoc]

/-- Without a SET_FIELD the loop leaves alone what lies before its start. -/
theorem packActions_frame (exp : Option (OflExp L)) (as : List (OflAction L.ExpAction))
    (hknown : ∀ a ∈ as, a.Known exp) (hset : ∀ a ∈ as, ¬ a.IsSetField) :
    ∀ m ptr, AgreeOn 0 ptr (packActions exp as m ptr).1 m := by
  induction as with
  | nil => exact fun _ _ _ _ _ => rfl
  | cons a as ih =>
    intro m ptr
    have hframe := (oflActionsPack_frame exp a (hknown a List.mem_cons_self)
      (hset a List.mem_cons_self) m ptr 0).2
    have hrest := ih (fun b hb => hknown b (List.mem_cons_of_mem a hb))
      (fun b hb => hset b (List.mem_cons_of_mem a hb)) (oflActionsPack exp a m ptr 0).1
      (ptr + (oflActionsPack exp a m ptr 0).2)
    rw [packActions_cons]
    exact (hrest.mono (le_refl 0) (Nat.le_add_right _ _)).trans (hframe.agreeOn (le_refl ptr))

/-! ## 4. The message -/

/-- The fixed part, as it stands when the loop starts. -/
def packPacketOutFixed (exp : Option (OflExp L)) (msg : OflMsgPacketOut L) (heap : Mem) : Mem :=
  let buf := put32 heap OfpPacketOut.bufferId (htonl msg.bufferId)
  let buf := put32 buf OfpPacketOut.inPort (htonl msg.inPort)
  let buf := put16 buf OfpPacketOut.actionsLen
    (htons (UInt16.ofNat (oflActionsOfpTotalLen exp msg.actions)))
  zero buf OfpPacketOut.pad 6

theorem oflMsgPackPacketOut_eq (exp : Option (OflExp L)) (msg : OflMsgPacketOut L) (heap : Mem) :
    (oflMsgPackPacketOut exp msg heap).buf =
      store (packActions exp msg.actions (packPacketOutFixed exp msg heap) OfpPacketOut.size).1
        (packActions exp msg.actions (packPacketOutFixed exp msg heap) OfpPacketOut.size).2 msg.data :=
  rfl

/-- The fixed part of the encoded message holds the values of the message, and each action writes
its own slot only. -/
structure PacketOutFramed (exp : Option (OflExp L)) (msg : OflMsgPacketOut L) : Prop where
  bufferId : ∀ heap,
    ntohl (get32 (oflMsgPackPacketOut exp msg heap).buf OfpPacketOut.bufferId) = msg.bufferId
  inPort : ∀ heap,
    ntohl (get32 (oflMsgPackPacketOut exp msg heap).buf OfpPacketOut.inPort) = msg.inPort
  actionsLen : ∀ heap,
    (ntohs (get16 (oflMsgPackPacketOut exp msg heap).buf OfpPacketOut.actionsLen)).toNat =
      oflActionsOfpTotalLen exp msg.actions
  slots : ∀ (i : Nat) (hi : i < msg.actions.length) (m : Mem),
    ChangedWithin (slotStart exp msg.actions i)
      (slotStart exp msg.actions i + oflActionsOfpLen exp msg.actions[i]) m
      (oflActionsPack exp msg.actions[i] m (slotStart exp msg.actions i) 0).1

/-- Without a SET_FIELD the fixed part survives the loop and the copy of the data. -/
theorem packetOut_fixed_agreeOn (exp : Option (OflExp L)) (msg : OflMsgPacketOut L)
    (hknown : ∀ a ∈ msg.actions, a.Known exp) (hset : ∀ a ∈ msg.actions, ¬ a.IsSetField)
    (heap : Mem) :
    AgreeOn 0 24 (oflMsgPackPacketOut exp msg heap).buf (packPacketOutFixed exp msg heap) := by
  have hptr := packActions_ptr exp msg.actions hknown (packPacketOutFixed exp msg heap) (le_refl 24)
  have hloop := packActions_frame exp msg.actions hknown hset (packPacketOutFixed exp msg heap) 24
  intro i hlo hhi
  rw [oflMsgPackPacketOut_eq, store_outside (Or.inl (by rw [hptr]; omega))]
  exact hloop i hlo hhi

/-- **Where PACKET_OUT writes**: the encoded message is as the slots say exactly when no action is a
SET_FIELD and the length of the actions fits in its field. -/
theorem packetOutFramed_iff (exp : Option (OflExp L)) (msg : OflMsgPacketOut L)
    (hknown : ∀ a ∈ msg.actions, a.Known exp) :
    PacketOutFramed exp msg ↔
      (∀ a ∈ msg.actions, ¬ a.IsSetField) ∧ oflActionsOfpTotalLen exp msg.actions ≤ 65535 := by
  -- Without a SET_FIELD no action writes in front of its slot, so the fixed part stands.
  have hfields (hset : ∀ a ∈ msg.actions, ¬ a.IsSetField) (heap : Mem) :
      ntohl (get32 (oflMsgPackPacketOut exp msg heap).buf 8) = msg.bufferId ∧
        ntohl (get32 (oflMsgPackPacketOut exp msg heap).buf 12) = msg.inPort ∧
        (ntohs (get16 (oflMsgPackPacketOut exp msg heap).buf 16)).toNat =
          oflActionsOfpTotalLen exp msg.actions % 65536 := by
    have hfixed := packetOut_fixed_agreeOn exp msg hknown hset heap
    rw [hfixed.get32 (by omega) (by omega), hfixed.get32 (by omega) (by omega),
      hfixed.get16 (by omega) (by omega)]
    simp (disch := simp) [packPacketOutFixed, get32_store_disjoint, get16_store_disjoint]
  constructor
  · intro h
    have hset : ∀ a ∈ msg.actions, ¬ a.IsSetField := by
      intro a ha hset
      obtain ⟨i, hi, rfl⟩ := List.mem_iff_getElem.mp ha
      have hslot := h.slots i hi
      have hk := hknown _ ha
      have hstart : 24 ≤ slotStart exp msg.actions i := Nat.le_add_right _ _
      cases hact : msg.actions[i] with
      | setField field =>
        rw [hact] at hslot hk
        exact setField_leaves_slot exp field hk hstart hslot
      | _ =>
        rw [hact] at hset
        exact hset
    refine ⟨hset, ?_⟩
    have hlen := (hfields hset fun _ => 0).2.2
    rw [h.actionsLen] at hlen
    omega
  · rintro ⟨hset, hlen⟩
    refine ⟨fun heap => (hfields hset heap).1, fun heap => (hfields hset heap).2.1, ?_, ?_⟩
    · intro heap
      rw [(hfields hset heap).2.2]
      omega
    · intro i hi m
      have ha := List.getElem_mem hi
      exact (oflActionsPack_frame exp _ (hknown _ ha) (hset _ ha) m _ 0).2

def outputAndGroup : OflMsgPacketOut sampleLib :=
  { bufferId := 0xffffffff, inPort := 1, actions := [.output 2 0xffff, .group 3], data := [1, 2] }

theorem packetOutFramed_iff_outputAndGroup :
    PacketOutFramed none outputAndGroup ↔
      (∀ a ∈ outputAndGroup.actions, ¬ a.IsSetField) ∧
        oflActionsOfpTotalLen none outputAndGroup.actions ≤ 65535 :=
  packetOutFramed_iff none outputAndGroup (by
    intro a ha
    rcases List.mem_pair.mp ha with rfl | rfl <;> exact trivial)

/-- One SET_FIELD of an IPv6 destination. -/
def setIpv6Dst : OflMsgPacketOut sampleLib :=
  { bufferId := 0xffffffff
    inPort := 1
    actions := [.setField { header := 0x80003610, value := fun _ => 0xaa }]
    data := [] }

/-- Its value lands on `buffer_id`, `in_port` and `actions_len`. -/
theorem setIpv6Dst_overwrites_fixed_part :
    (∀ a ∈ setIpv6Dst.actions, a.Known none) ∧
      ntohl (get32 (oflMsgPackPacketOut none setIpv6Dst fun _ => 0).buf 8) = 0xaaaaaaaa ∧
      ntohl (get32 (oflMsgPackPacketOut none setIpv6Dst fun _ => 0).buf 12) = 0xaaaaaaaa ∧
      ntohs (get16 (oflMsgPackPacketOut none setIpv6Dst fun _ => 0).buf 16) = 0xaaaa ∧
      ¬ PacketOutFramed none setIpv6Dst := by
  refine ⟨?_, by decide, by decide, by decide, ?_⟩
  · intro a ha
    rw [List.mem_singleton.mp ha]
    exact (by decide : oxmLength 0x80003610 ∈ basicFieldLengths)
  · intro h
    exact absurd (h.inPort fun _ => 0) (by decide)

end CcPof.OpenFlow

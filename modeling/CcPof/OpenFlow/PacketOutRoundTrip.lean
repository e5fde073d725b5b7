import CcPof.OpenFlow.ActionSizes
import CcPof.OpenFlow.RoundTrip

/-!
# PACKET_OUT there and back

Two parts of variable length follow the fixed part, and only `actions_len` says where one ends and
the other starts. The decoder gets both right; it never reads `in_port`, which keeps what the
allocated message held there.
-/

namespace CcPof.OpenFlow

variable {L : OflLib}

/-! ## 1. The action codec -/

/-- An action without a SET_FIELD value, with a header and with the length that is announced. -/
structure OflAction.Encoded (exp : Option (OflExp L)) (a : OflAction L.ExpAction) : Prop where
  sized : a.Sized exp
  notSetField : ¬ a.IsSetField
  header : OfpActionHeader.size ≤ oflActionsOfpLen exp a

/-- The action decoder returns the packed action and consumes exactly its length. -/
def ActionDecodes (exp : Option (OflExp L)) (a : OflAction L.ExpAction) : Prop :=
  ∀ m pos buf len, oflActionsOfpLen exp a ≤ len →
    AgreeOn pos (pos + oflActionsOfpLen exp a) buf (oflActionsPack exp a m pos 0).1 →
    L.actionUnpack buf pos len = (.ok a, len - oflActionsOfpLen exp a)

/-- The action counter returns the number of actions that tile the bytes. -/
def OflLib.CountsActions (L : OflLib) : Prop :=
  ∀ buf pos len n, Tiles (lenField OfpActionHeader.len) OfpActionHeader.size buf pos len n →
    L.actionCount buf pos len = .ok n

theorem OflAction.Encoded.known {exp : Option (OflExp L)} {a : OflAction L.ExpAction}
    (h : a.Encoded exp) : a.Known exp := by
  have hsized := h.sized
  cases a with
  | setField field => exact absurd trivial h.notSetField
  | experimenter a =>
    obtain ⟨pack, hpack, hexact⟩ := hsized.pack
    exact ⟨h.header, pack, hpack, fun m dst => ⟨(hexact m dst).1, (hexact m dst).2.1⟩⟩
  | unknown type h => exact hsized.elim
  | _ => exact trivial

/-! ## 2. The two loops -/

/-- The loops of encoder and decoder stay aligned. -/
theorem unpackActions_packActions (exp : Option (OflExp L)) (as : List (OflAction L.ExpAction))
    (hencoded : ∀ a ∈ as, a.Encoded exp) (hdec : ∀ a ∈ as, ActionDecodes exp a) :
    ∀ {m buf : Mem} {ptr : Nat} {s : UnpackState}, 24 ≤ ptr →
      oflActionsOfpTotalLen exp as ≤ s.len →
      AgreeOn ptr (ptr + oflActionsOfpTotalLen exp as) buf (packActions exp as m ptr).1 →
      Tiles (lenField OfpActionHeader.len) OfpActionHeader.size buf ptr
          (oflActionsOfpTotalLen exp as) as.length ∧
        unpackArrLax L.staleAction L.actionUnpack (lenField OfpActionHeader.len) buf as.length ptr s =
          .ok as { s with len := s.len - oflActionsOfpTotalLen exp as } := by
  induction as with
  | nil => exact fun _ _ _ => ⟨.done _, rfl⟩
  | cons a as ih =>
    intro m buf ptr s hptr hlen h
    have ha := hencoded a List.mem_cons_self
    have hrest := fun b hb => hencoded b (List.mem_cons_of_mem a hb)
    obtain ⟨hcall, hfield⟩ := oflActionsPack_sized exp ha.sized m hptr
    have hheader : 8 ≤ oflActionsOfpLen exp a := ha.header
    rw [oflActionsOfpTotalLen_cons] at hlen h ⊢
    rw [packActions_cons, hcall] at h
    -- The later calls leave the slot of this one alone.
    have hslot : AgreeOn ptr (ptr + oflActionsOfpLen exp a) buf
        (oflActionsPack exp a m ptr 0).1 := by
      intro i hlo hhi
      rw [h i hlo (by omega), (packActions_sized exp as (fun b hb => (hrest b hb).sized) _
        (by omega)).2 i (by omega) hhi]
    have hstride : lenField 2 buf ptr = oflActionsOfpLen exp a := by
      rw [lenField, hslot.get16 (by omega) (by omega)]
      exact hfield
    have hunpack := hdec a List.mem_cons_self m ptr buf s.len (by omega) hslot
    obtain ⟨htiles, hrun⟩ := ih hrest (fun b hb => hdec b (List.mem_cons_of_mem a hb))
      (s := { s with len := s.len - oflActionsOfpLen exp a })
      (Nat.le_trans hptr (Nat.le_add_right _ _)) (by simp only; omega)
      (h.mono (Nat.le_add_right _ _) (by omega))
    constructor
    · refine .entry (by rw [hstride]; exact ha.header) (by rw [hstride]; omega) ?_
      rw [hstride, Nat.add_sub_cancel_left]
      exact htiles
    · simp only [List.length_cons, unpackArrLax, bind_run, nested_ok hunpack, hstride, hrun, pure_run,
        Nat.sub_sub, Except.toOption, Option.getD_some]

/-! ## 3. The message -/

/-- What the decoder makes of an encoded message: its `in_port` is whatever `malloc` returned. -/
def OflMsgPacketOut.received (m : OflMsgPacketOut L) : OflMsgPacketOut L :=
  { m with inPort := L.staleInPort }

theorem decodes_packetOut (exp : Option (OflExp L)) (m : OflMsgPacketOut L) (heap : Mem)
    (hcount : L.CountsActions) (hencoded : ∀ a ∈ m.actions, a.Encoded exp)
    (hdec : ∀ a ∈ m.actions, ActionDecodes exp a)
    (hsize : 24 + oflActionsOfpTotalLen exp m.actions + m.data.length ≤ 65535)
    (hdata : m.bufferId ≠ 0xffffffff → m.data = []) :
    Decodes 8 0 (oflMsgPackPacketOut exp m heap) oflMsgUnpackPacketOut m.received := by
  intro buf h xid
  have hsized := fun a ha => (hencoded a ha).sized
  have hfixed := packetOut_fixed_agreeOn exp m (fun a ha => (hencoded a ha).known)
    (fun a ha => (hencoded a ha).notSetField) heap
  obtain ⟨hptr, _⟩ := packActions_sized exp m.actions hsized (packPacketOutFixed exp m heap)
    (le_refl 24)
  have hbufLen : (oflMsgPackPacketOut exp m heap).bufLen =
      24 + oflActionsOfpTotalLen exp m.actions + m.data.length := rfl
  rw [hbufLen] at h ⊢
  generalize htotal : oflActionsOfpTotalLen exp m.actions = total at *
  have hhead : AgreeOn 8 24 buf (packPacketOutFixed exp m heap) := by
    intro i hlo hhi
    rw [h i hlo (by omega), hfixed i (Nat.zero_le i) hhi]
  have hbufferId : ntohl (get32 buf 8) = m.bufferId := by
    rw [hhead.get32 (by decide) (by decide)]
    simp (disch := simp) [packPacketOutFixed, get32_store_disjoint]
  have hactionsLen : (ntohs (get16 buf 16)).toNat = total := by
    rw [hhead.get16 (by decide) (by decide)]
    simp (disch := simp) [packPacketOutFixed, get16_store_disjoint, htotal]
    omega
  rw [oflMsgPackPacketOut_eq, hptr] at h
  have hactions : AgreeOn 24 (24 + oflActionsOfpTotalLen exp m.actions) buf
      (packActions exp m.actions (packPacketOutFixed exp m heap) 24).1 := by
    intro i hlo hhi
    rw [h i (by omega) (by omega), store_outside (by omega)]
  have hload : load buf (24 + total) m.data.length = m.data := by
    rw [h.load (by omega) (le_refl _), load_store_same _ _ _ _ rfl]
  -- The actions take `actions_len` bytes off the length and leave the data.
  obtain ⟨htiles, hloop⟩ := unpackActions_packActions exp m.actions hencoded hdec
    (s := ⟨total + m.data.length, xid, false, false⟩) (le_refl 24)
    (by rw [htotal]; exact Nat.le_add_right _ _) hactions
  rw [htotal] at htiles hloop
  have hn := hcount buf 24 total _ htiles
  have hguard : ¬ (¬ m.bufferId = 0xffffffff ∧ ¬ m.data = []) := fun h => h.2 (hdata h.1)
  simp only [Nat.add_sub_cancel_left, OfpActionHeader.len] at hloop
  rw [Nat.sub_zero, Nat.add_assoc]
  simp [oflMsgUnpackPacketOut, requireLen_run, subLen_run, hbufferId, hactionsLen, rejectIf_run,
    hguard, hn, orReturn_ok, hloop, hload, OflMsgPacketOut.received]

theorem readsBack_packetOut (exp : Option (OflExp L)) (m : OflMsgPacketOut L) (xid : UInt32)
    (heap : Mem) (hcount : L.CountsActions) (hencoded : ∀ a ∈ m.actions, a.Encoded exp)
    (hdec : ∀ a ∈ m.actions, ActionDecodes exp a)
    (hsize : 24 + oflActionsOfpTotalLen exp m.actions + m.data.length ≤ 65535)
    (hdata : m.bufferId ≠ 0xffffffff → m.data = []) :
    ReadsBack exp (.packetOut m) xid heap (· = 0) ↔ m.received = m := by
  have hbody : Decodes 8 0 (packBody exp (.packetOut m) heap)
      (fun buf => unpackBody exp buf (some .packetOut)) (.packetOut m.received) :=
    (decodes_packetOut exp m heap hcount hencoded hdec hsize hdata).map _
  have hlo : 8 ≤ (packBody exp (.packetOut m) heap).bufLen := by
    show 8 ≤ 24 + oflActionsOfpTotalLen exp m.actions + m.data.length
    omega
  have hback : ReadsBack exp (.packetOut m) xid heap (· = 0) ↔
      OflMsg.packetOut m.received = .packetOut m :=
    readsBack_iff_of_decodes rfl rfl rfl hlo hsize hbody
  rw [hback, OflMsg.packetOut.injEq]

theorem OflMsgPacketOut.received_eq_iff (m : OflMsgPacketOut L) :
    m.received = m ↔ m.inPort = L.staleInPort := by
  constructor
  · exact fun h => (congrArg OflMsgPacketOut.inPort h).symm
  · intro h
    calc m.received = { m with inPort := L.staleInPort } := rfl
      _ = { m with inPort := m.inPort } := by rw [← h]
      _ = m := rfl

/-- **When a PACKET_OUT survives the round trip**: exactly when its `in_port` is what the memory that
the decoder allocates happens to hold. -/
theorem packetOut_readsBack_iff (exp : Option (OflExp L)) (m : OflMsgPacketOut L) (xid : UInt32)
    (heap : Mem) (hcount : L.CountsActions) (hencoded : ∀ a ∈ m.actions, a.Encoded exp)
    (hdec : ∀ a ∈ m.actions, ActionDecodes exp a)
    (hsize : 24 + oflActionsOfpTotalLen exp m.actions + m.data.length ≤ 65535)
    (hdata : m.bufferId ≠ 0xffffffff → m.data = []) :
    ReadsBack exp (.packetOut m) xid heap (· = 0) ↔ m.inPort = L.staleInPort := by
  rw [readsBack_packetOut exp m xid heap hcount hencoded hdec hsize hdata, m.received_eq_iff]

/-! ## 4. A message that loses its port -/

/-- The OUTPUT action and two bytes of data, from port 1. -/
def outputFromPort (inPort : UInt32) : OflMsgPacketOut sampleLib :=
  { bufferId := 0xffffffff, inPort := inPort, actions := [.output 2 0xffff], data := [1, 2] }

theorem sampleLib_countsActions : sampleLib.CountsActions :=
  fun _ _ _ _ h => countEntries_of_tiles (by decide) h _ le_rfl

theorem output_encoded (inPort : UInt32) :
    ∀ a ∈ (outputFromPort inPort).actions, a.Encoded none := by
  intro a ha
  rw [List.mem_singleton.mp ha]
  exact ⟨trivial, not_false, by decide⟩

theorem output_decodes (inPort : UInt32) :
    ∀ a ∈ (outputFromPort inPort).actions, ActionDecodes none a := by
  intro a ha m pos buf len hlen h
  rw [List.mem_singleton.mp ha] at hlen h ⊢
  have hlen' : 16 ≤ len := hlen
  have h16 : AgreeOn pos (pos + 16) buf (oflActionsPack none (.output 2 0xffff) m pos 0).1 := h
  have htype : get16 buf pos = 0 := by
    rw [h16.get16 (by omega) (by omega)]
    simp (disch := simp) [oflActionsPack, get16_store_disjoint]
    decide
  have hport : ntohl (get32 buf (pos + 4)) = 2 := by
    rw [h16.get32 (by omega) (by omega)]
    simp (disch := simp) [oflActionsPack, get32_store_disjoint]
  have hmaxLen : ntohs (get16 buf (pos + 8)) = 0xffff := by
    rw [h16.get16 (by omega) (by omega)]
    simp (disch := simp) [oflActionsPack, get16_store_disjoint]
  show sampleActionUnpack buf pos len = _
  rw [sampleActionUnpack, if_neg (not_not.mpr htype), if_neg (Nat.not_lt.mpr hlen'), hport, hmaxLen]
  rfl

theorem packetOut_readsBack_iff_output :
    ReadsBack none (.packetOut (outputFromPort 0)) 7 (fun _ => 0) (· = 0) ↔
      (outputFromPort 0).inPort = sampleLib.staleInPort :=
  packetOut_readsBack_iff none (outputFromPort 0) 7 (fun _ => 0) sampleLib_countsActions
    (output_encoded 0) (output_decodes 0) (by decide) (fun h => absurd rfl h)

/-- Port 1 is lost. -/
theorem packetOut_loses_inPort :
    ¬ ReadsBack none (.packetOut (outputFromPort 1)) 7 (fun _ => 0) (· = 0) := by
  rw [readsBack_packetOut none (outputFromPort 1) 7 (fun _ => 0) sampleLib_countsActions
    (output_encoded 1) (output_decodes 1) (by decide) (fun h => absurd rfl h),
    OflMsgPacketOut.received_eq_iff]
  decide

end CcPof.OpenFlow

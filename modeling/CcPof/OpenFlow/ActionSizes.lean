import CcPof.OpenFlow.SetField

/-!
# The size of an action list

`ofl_actions_ofp_len` and `ofl_actions_pack` are two switches over the action kinds. Each call of the
second returns what the first announced, for a SET_FIELD too, which reads its length back from the
buffer after it has written its value somewhere else.
-/

namespace CcPof.OpenFlow

variable {L : OflLib}

/-! ## 1. One action -/

/-- An experimenter callback that writes and returns exactly what its `ofp_len` announces: that many
bytes, that length field and that result. -/
structure OflExp.ActExact (exp : Option (OflExp L)) (a : L.ExpAction) : Prop where
  pack : ∃ pack, OflExp.actPack exp = some pack ∧ ∀ m dst,
    (pack a m dst).2 = oflActionsOfpLen exp (.experimenter a) ∧
      ChangedWithin dst (dst + oflActionsOfpLen exp (.experimenter a)) m (pack a m dst).1 ∧
      lenField OfpActionHeader.len (pack a m dst).1 dst = oflActionsOfpLen exp (.experimenter a)

def OflAction.IsExperimenter {E : Type} : OflAction E → Prop
  | experimenter _ => True
  | _ => False

/-- The known types, a SET_FIELD with a value of at most 16 bytes, and the experimenter actions whose
callbacks agree with each other. -/
def OflAction.Sized (exp : Option (OflExp L)) : OflAction L.ExpAction → Prop
  | setField field => oxmLength field.header ≤ 16
  | experimenter a => OflExp.ActExact exp a
  | unknown _ _ => False
  | _ => True

theorem oflActionsOfpLen_mod (exp : Option (OflExp L)) {a : OflAction L.ExpAction}
    (hsized : a.Sized exp) (hexp : ¬ a.IsExperimenter) :
    0 < oflActionsOfpLen exp a ∧ oflActionsOfpLen exp a % 8 = 0 := by
  cases a with
  | setField field =>
    simp only [oflActionsOfpLen, OfpActionSetField.size, roundUp]
    omega
  | experimenter a => exact absurd trivial hexp
  | unknown type h => exact hsized.elim
  | _ => simp [oflActionsOfpLen]

/-- The call returns the announced length and leaves it in the length field. -/
theorem oflActionsPack_sized (exp : Option (OflExp L)) {a : OflAction L.ExpAction}
    (hsized : a.Sized exp) (m : Mem) {dst : Nat} (hdst : 24 ≤ dst) :
    (oflActionsPack exp a m dst 0).2 = oflActionsOfpLen exp a ∧
      lenField OfpActionHeader.len (oflActionsPack exp a m dst 0).1 dst = oflActionsOfpLen exp a := by
  cases a with
  | setField field => exact packSetField_size hsized _ hdst
  | experimenter a =>
    obtain ⟨pack, hpack, hexact⟩ := hsized.pack
    simp only [oflActionsPack, hpack]
    exact ⟨(hexact _ dst).1, (hexact _ dst).2.2⟩
  | unknown type h => exact hsized.elim
  | _ =>
    refine ⟨rfl, ?_⟩
    simp (disch := simp) [oflActionsPack, lenField, oflActionsOfpLen, get16_store_disjoint]

/-- A slot holds its own length field. -/
theorem four_le_oflActionsOfpLen (exp : Option (OflExp L)) {a : OflAction L.ExpAction}
    (hsized : a.Sized exp) : 4 ≤ oflActionsOfpLen exp a := by
  by_cases hexp : a.IsExperimenter
  · cases a with
    | experimenter a =>
      obtain ⟨pack, _, hexact⟩ := hsized.pack
      obtain ⟨_, hframe, hlen⟩ := hexact (fun _ => 255) 0
      by_contra hshort
      -- The callback would have to write the length outside its slot.
      have hbyte : (pack a (fun _ => 255) 0).1 (0 + 2 + 1) = 255 := hframe 3 (Or.inr (by omega))
      rw [lenField, ntohs_get16, OfpActionHeader.len, hbyte] at hlen
      simp only [UInt8.reduceToNat] at hlen
      omega
    | _ => exact hexp.elim
  · have hmod := oflActionsOfpLen_mod exp hsized hexp
    omega

/-- Between the fixed part and its slot, a call leaves the message alone. -/
theorem oflActionsPack_before (exp : Option (OflExp L)) {a : OflAction L.ExpAction}
    (hsized : a.Sized exp) (m : Mem) {dst i : Nat} (hlo : 24 ≤ i) (hi : i < dst) :
    (oflActionsPack exp a m dst 0).1 i = m i := by
  have hframe (hknown : a.Known exp) (hset : ¬ a.IsSetField) :=
    (oflActionsPack_frame exp a hknown hset m dst 0).2 i (Or.inl hi)
  cases a with
  | setField field =>
    have hvalue := length_setFieldValue_le field
    have hlen : oxmLength field.header ≤ 16 := hsized
    have hround : roundUp (oxmLength field.header) 8 ≤ 16 := by
      unfold roundUp
      omega
    rw [oflActionsPack_setField, zero_outside (by omega), store_outside (by omega),
      setFieldFixed_frame field m dst i (Or.inl hi)]
  | experimenter a =>
    obtain ⟨pack, hpack, hexact⟩ := hsized.pack
    have hpro := changedWithin_prologue (htons (OflAction.experimenter a).type) m dst (le_refl 8)
    simp only [oflActionsPack, hpack]
    exact ((hexact _ dst).2.1 i (Or.inl hi)).trans (hpro i (Or.inl hi))
  | unknown type h => exact hsized.elim
  | _ => exact hframe trivial not_false

/-! ## 2. The loop -/

theorem packActions_sized (exp : Option (OflExp L)) (as : List (OflAction L.ExpAction))
    (hsized : ∀ a ∈ as, a.Sized exp) :
    ∀ m {ptr : Nat}, 24 ≤ ptr →
      (packActions exp as m ptr).2 = ptr + oflActionsOfpTotalLen exp as ∧
        ∀ i, 24 ≤ i → i < ptr → (packActions exp as m ptr).1 i = m i := by
  induction as with
  | nil => exact fun _ _ _ => ⟨rfl, fun _ _ _ => rfl⟩
  | cons a as ih =>
    intro m ptr hptr
    have ha := hsized a List.mem_cons_self
    have hcall := (oflActionsPack_sized exp ha m hptr).1
    have hnext : 24 ≤ ptr + oflActionsOfpLen exp a := by omega
    obtain ⟨hrest, hframe⟩ := ih (fun b hb => hsized b (List.mem_cons_of_mem a hb))
      (oflActionsPack exp a m ptr 0).1 hnext
    rw [packActions_cons, hcall, oflActionsOfpTotalLen_cons, ← Nat.add_assoc]
    refine ⟨hrest, fun i hlo hi => ?_⟩
    rw [hframe i hlo (by omega), oflActionsPack_before exp ha m hlo hi]

/-- After the loop every action still has its length field. -/
theorem packActions_lenField (exp : Option (OflExp L)) (as : List (OflAction L.ExpAction))
    (hsized : ∀ a ∈ as, a.Sized exp) :
    ∀ m {ptr : Nat}, 24 ≤ ptr → ∀ i (hi : i < as.length),
      lenField OfpActionHeader.len (packActions exp as m ptr).1
          (ptr + oflActionsOfpTotalLen exp (as.take i)) = oflActionsOfpLen exp as[i] := by
  induction as with
  | nil => exact fun _ _ _ i hi => absurd hi (Nat.not_lt_zero i)
  | cons a as ih =>
    intro m ptr hptr i hi
    have ha := hsized a List.mem_cons_self
    have hrest := fun b hb => hsized b (List.mem_cons_of_mem a hb)
    obtain ⟨hcall, hlen⟩ := oflActionsPack_sized exp ha m hptr
    rw [packActions_cons, hcall]
    cases i with
    | zero =>
      -- The later calls do not reach back to the first slot.
      have hfour := four_le_oflActionsOfpLen exp ha
      have hnext : 24 ≤ ptr + oflActionsOfpLen exp a := by omega
      have hkeep := (packActions_sized exp as hrest (oflActionsPack exp a m ptr 0).1 hnext).2
      rw [List.take_zero, show oflActionsOfpTotalLen exp [] = 0 from rfl, Nat.add_zero]
      rw [lenField, ntohs_get16] at hlen ⊢
      rw [hkeep _ (by omega) (by simp; omega), hkeep _ (by omega) (by simp; omega), hlen]
      rfl
    | succ i =>
      rw [List.take_succ_cons, oflActionsOfpTotalLen_cons, ← Nat.add_assoc]
      exact ih hrest _ (by omega) i (Nat.lt_of_succ_lt_succ hi)

theorem slotStart_add_le (exp : Option (OflExp L)) (as : List (OflAction L.ExpAction)) :
    ∀ i (hi : i < as.length),
      slotStart exp as i + oflActionsOfpLen exp as[i] ≤ 24 + oflActionsOfpTotalLen exp as := by
  induction as with
  | nil => exact fun i hi => absurd hi (Nat.not_lt_zero i)
  | cons a as ih =>
    intro i hi
    cases i with
    | zero =>
      rw [oflActionsOfpTotalLen_cons, ← Nat.add_assoc]
      exact Nat.le_add_right _ _
    | succ i =>
      have hrest := ih i (Nat.lt_of_succ_lt_succ hi)
      simp only [slotStart, List.take_succ_cons, oflActionsOfpTotalLen_cons,
        List.getElem_cons_succ, OfpPacketOut.size] at hrest ⊢
      omega

/-! ## 3. The message -/

/-- The state of the loop in front of action `i`: the memory and the pointer. -/
def beforeAction (exp : Option (OflExp L)) (msg : OflMsgPacketOut L) (heap : Mem) (i : Nat) :
    Mem × Nat :=
  packActions exp (msg.actions.take i) (packPacketOutFixed exp msg heap) OfpPacketOut.size

/-- Computed and written sizes agree, call by call and in the finished message. -/
structure ActionSizesAgree (exp : Option (OflExp L)) (msg : OflMsgPacketOut L) (heap : Mem) :
    Prop where
  /-- The call returns the computed length and has written it. -/
  call : ∀ i (hi : i < msg.actions.length),
    (oflActionsPack exp msg.actions[i] (beforeAction exp msg heap i).1
        (beforeAction exp msg heap i).2 0).2 = oflActionsOfpLen exp msg.actions[i] ∧
      lenField OfpActionHeader.len
        (oflActionsPack exp msg.actions[i] (beforeAction exp msg heap i).1
          (beforeAction exp msg heap i).2 0).1
        (beforeAction exp msg heap i).2 = oflActionsOfpLen exp msg.actions[i]
  multiple : ∀ a ∈ msg.actions, ¬ a.IsExperimenter →
    0 < oflActionsOfpLen exp a ∧ oflActionsOfpLen exp a % 8 = 0
  lenFields : ∀ i (hi : i < msg.actions.length),
    lenField OfpActionHeader.len (oflMsgPackPacketOut exp msg heap).buf
      (slotStart exp msg.actions i) = oflActionsOfpLen exp msg.actions[i]
  pointer : (packActions exp msg.actions (packPacketOutFixed exp msg heap) OfpPacketOut.size).2 =
    24 + oflActionsOfpTotalLen exp msg.actions
  data : load (oflMsgPackPacketOut exp msg heap).buf
      (packActions exp msg.actions (packPacketOutFixed exp msg heap) OfpPacketOut.size).2
      msg.data.length = msg.data
  ends : (packActions exp msg.actions (packPacketOutFixed exp msg heap) OfpPacketOut.size).2 +
    msg.data.length = (oflMsgPackPacketOut exp msg heap).bufLen

/-- **The size computed for an action list is the size written.** -/
theorem actionSizes_agree (exp : Option (OflExp L)) (msg : OflMsgPacketOut L) (heap : Mem)
    (hsized : ∀ a ∈ msg.actions, a.Sized exp) : ActionSizesAgree exp msg heap := by
  have hpointer := (packActions_sized exp msg.actions hsized (packPacketOutFixed exp msg heap)
    (le_refl 24)).1
  constructor
  · intro i hi
    have htake : ∀ a ∈ msg.actions.take i, a.Sized exp :=
      fun a ha => hsized a (List.mem_of_mem_take ha)
    have hptr := (packActions_sized exp _ htake (packPacketOutFixed exp msg heap) (le_refl 24)).1
    exact oflActionsPack_sized exp (hsized _ (List.getElem_mem hi)) _
      (Nat.le_trans (Nat.le_add_right 24 _) (Nat.le_of_eq hptr.symm))
  · exact fun a ha hexp => oflActionsOfpLen_mod exp (hsized a ha) hexp
  · intro i hi
    have hlen := packActions_lenField exp msg.actions hsized (packPacketOutFixed exp msg heap)
      (le_refl 24) i hi
    -- The data lies behind the last slot.
    have hfits := slotStart_add_le exp msg.actions i hi
    have hfour := four_le_oflActionsOfpLen exp (hsized _ (List.getElem_mem hi))
    rw [oflMsgPackPacketOut_eq, hpointer, lenField, get16_store_disjoint (by simp; omega)]
    exact hlen
  · exact hpointer
  · rw [oflMsgPackPacketOut_eq, load_store_same _ _ _ _ rfl]
  · rw [hpointer]
    rfl

/-! ## 4. A message with all three kinds of action -/

/-- Experimenter actions of 16 bytes, of which only the length field is written. -/
def sampleExpAct : OflExp sampleLib where
  msg := none
  act := some {
    ofpLen := some fun _ => 16
    pack := some fun _ m dst => (put16 m (dst + OfpActionHeader.len) (htons 16), 16) }
  stats := none

theorem sampleExpAct_exact : OflExp.ActExact (some sampleExpAct) () := by
  refine ⟨_, rfl, fun m dst => ⟨rfl, ?_, ?_⟩⟩
  · exact (ChangedWithin.refl dst (dst + 16) m).put16 (dst + 2) (by omega) (by omega)
  · rw [lenField, get16_put16, ntohs_htons]
    rfl

def outputSetFieldExp : OflMsgPacketOut sampleLib where
  bufferId := 0xffffffff
  inPort := 1
  actions := [.output 2 0xffff, .setField { header := 0x80003610, value := fun _ => 0xaa },
    .experimenter ()]
  data := [1, 2, 3]

theorem actionSizes_agree_outputSetFieldExp :
    ActionSizesAgree (some sampleExpAct) outputSetFieldExp fun _ => 0 :=
  actionSizes_agree (some sampleExpAct) outputSetFieldExp (fun _ => 0) (by
    intro a ha
    rcases List.mem_cons.mp ha with rfl | ha
    · exact trivial
    · rcases List.mem_pair.mp ha with rfl | rfl
      · exact (by decide : oxmLength 0x80003610 ≤ 16)
      · exact sampleExpAct_exact)

end CcPof.OpenFlow

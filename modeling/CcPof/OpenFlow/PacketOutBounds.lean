import Mathlib.Algebra.Order.BigOperators.Group.List
import CcPof.OpenFlow.MatchLayout
import CcPof.OpenFlow.SetField

/-!
# The buffer of a PACKET_OUT

`ofl_msg_pack_packet_out` takes the lengths of the actions for the size of its buffer, and moves its
write pointer by what `ofl_actions_pack` returns. The two differ for an action without a `case`,
whose header is written and not counted, and for an EXPERIMENTER action without callbacks, whose
length is `(size_t)-1`.
-/

namespace CcPof.OpenFlow

variable {L : OflLib}

/-! ## 1. Action kinds -/

/-- What `malloc` is asked for: the sums are taken on `size_t`. -/
def PackResult.mallocSize (r : PackResult) : Nat := r.bufLen % 2 ^ 64

def OflAction.IsUnknown {E : Type} : OflAction E → Prop
  | unknown _ _ => True
  | _ => False

/-- An EXPERIMENTER action without callbacks. -/
def OflAction.refused (exp : Option (OflExp L)) : OflAction L.ExpAction → Bool
  | experimenter _ => (OflExp.actOfpLen exp).isNone && (OflExp.actPack exp).isNone
  | _ => false

/-- Only the header is written, and the pointer stays. -/
def OflAction.Bare (exp : Option (OflExp L)) (a : OflAction L.ExpAction) : Prop :=
  a.IsUnknown ∨ a.refused exp = true

/-- The callbacks of an experimenter action are both there or both missing. -/
def OflAction.Packable (exp : Option (OflExp L)) (a : OflAction L.ExpAction) : Prop :=
  a.Known exp ∨ a.Bare exp

/-- What `ofl_actions_pack` returns. -/
def OflAction.slotLen (exp : Option (OflExp L)) (a : OflAction L.ExpAction) : Nat :=
  if a.refused exp then 0 else oflActionsOfpLen exp a

def slotsLen (exp : Option (OflExp L)) (as : List (OflAction L.ExpAction)) : Nat :=
  (as.map (OflAction.slotLen exp)).sum

def refusedCount (exp : Option (OflExp L)) (as : List (OflAction L.ExpAction)) : Nat :=
  as.countP (OflAction.refused exp)

/-- The length of the message is a `size_t`, and not more actions are refused than it has bytes, so
that the sum stays above 0. -/
structure OflMsgPacketOut.Packable (exp : Option (OflExp L)) (m : OflMsgPacketOut L) : Prop where
  actions : ∀ a ∈ m.actions, a.Packable exp
  fits : OfpPacketOut.size + slotsLen exp m.actions + m.data.length < 2 ^ 64
  refused : refusedCount exp m.actions ≤
    OfpPacketOut.size + slotsLen exp m.actions + m.data.length

def EndsUnknown {E : Type} (as : List (OflAction E)) : Prop := ∃ a ∈ as.getLast?, a.IsUnknown

/-- The bytes of an uncounted header at the end of the actions lie under the data. Each refused
action takes a byte from the buffer; what makes up for them is the slot of a SET_FIELD at the end,
because its value is written elsewhere. -/
def OflMsgPacketOut.LeavesRoom (exp : Option (OflExp L)) (m : OflMsgPacketOut L) : Prop :=
  if refusedCount exp m.actions = 0 then EndsUnknown m.actions → 8 ≤ m.data.length
  else m.data = [] ∧ ∃ field, m.actions.getLast? = some (.setField field) ∧
    refusedCount exp m.actions ≤ roundUp (oxmLength field.header) 8

variable {exp : Option (OflExp L)}

theorem OflAction.Known.not_refused {a : OflAction L.ExpAction} (h : a.Known exp) :
    a.refused exp = false := by
  cases a with
  | experimenter e =>
    obtain ⟨pack, hpack, _⟩ := h.pack
    rw [refused, hpack, Option.isNone_some, Bool.and_false]
  | _ => rfl

theorem OflAction.Known.slotLen {a : OflAction L.ExpAction} (h : a.Known exp) :
    a.slotLen exp = oflActionsOfpLen exp a := by
  rw [OflAction.slotLen, h.not_refused]
  rfl

theorem OflAction.Bare.slotLen {a : OflAction L.ExpAction} (h : a.Bare exp) :
    a.slotLen exp = 0 := by
  cases h with
  | inl hunknown =>
    cases a with
    | unknown type h => rfl
    | _ => exact hunknown.elim
  | inr hrefused => exact if_pos hrefused

/-- A refused action is counted as `(size_t)-1`. -/
theorem oflActionsOfpLen_of_refused {a : OflAction L.ExpAction} (h : a.refused exp = true) :
    oflActionsOfpLen exp a = 2 ^ 64 - 1 := by
  cases a with
  | experimenter e =>
    have hlen : OflExp.actOfpLen exp = none := Option.isNone_iff_eq_none.mp (Bool.and_elim_left h)
    rw [oflActionsOfpLen, hlen]
  | _ => cases h

theorem oflActionsOfpTotalLen_eq (exp : Option (OflExp L)) (as : List (OflAction L.ExpAction)) :
    oflActionsOfpTotalLen exp as = slotsLen exp as + refusedCount exp as * (2 ^ 64 - 1) := by
  induction as with
  | nil => simp [oflActionsOfpTotalLen, slotsLen, refusedCount]
  | cons a as ih =>
    have hslots : slotsLen exp (a :: as) = a.slotLen exp + slotsLen exp as := List.sum_cons
    rw [oflActionsOfpTotalLen_cons, ih, hslots]
    cases hrefused : a.refused exp with
    | true =>
      have hcount : refusedCount exp (a :: as) = refusedCount exp as + 1 :=
        List.countP_cons_of_pos hrefused
      have hslot : a.slotLen exp = 0 := if_pos hrefused
      rw [hcount, hslot, oflActionsOfpLen_of_refused hrefused]
      omega
    | false =>
      have hcount : refusedCount exp (a :: as) = refusedCount exp as :=
        List.countP_cons_of_neg (by rw [hrefused]; exact Bool.false_ne_true)
      have hslot : a.slotLen exp = oflActionsOfpLen exp a := by
        rw [OflAction.slotLen, hrefused]
        rfl
      rw [hcount, hslot]
      omega

/-- The size of the buffer: one byte less for each refused action. -/
theorem mallocSize_packetOut {m : OflMsgPacketOut L} (hpack : m.Packable exp) (heap : Mem) :
    (oflMsgPackPacketOut exp m heap).mallocSize + refusedCount exp m.actions =
      24 + slotsLen exp m.actions + m.data.length := by
  have hfits := hpack.fits
  have hrefused := hpack.refused
  have hbufLen : (oflMsgPackPacketOut exp m heap).bufLen =
      24 + oflActionsOfpTotalLen exp m.actions + m.data.length := rfl
  rw [PackResult.mallocSize, hbufLen, oflActionsOfpTotalLen_eq]
  simp only [OfpPacketOut.size] at hfits hrefused
  omega

/-! ## 2. One action -/

theorem oflActionsPack_bare {a : OflAction L.ExpAction} (hbare : a.Bare exp) (m : Mem)
    (dst data : Nat) :
    oflActionsPack exp a m dst data = (zero (put16 m dst (htons a.type)) (dst + 4) 4, 0) := by
  cases hbare with
  | inl hunknown =>
    cases a with
    | unknown type h => rfl
    | _ => exact hunknown.elim
  | inr hrefused =>
    cases a with
    | experimenter e =>
      have hnone : OflExp.actPack exp = none :=
        Option.isNone_iff_eq_none.mp (Bool.and_elim_right hrefused)
      simp only [oflActionsPack, hnone]
      rfl
    | _ => cases hrefused

theorem oflActionsOfpLen_ge (exp : Option (OflExp L)) {a : OflAction L.ExpAction}
    (hknown : a.Known exp) : 8 ≤ oflActionsOfpLen exp a := by
  cases a with
  | setField field => exact Nat.le_add_right _ _
  | experimenter a => exact hknown.ofpLen
  | unknown type h => exact hknown.elim
  | _ => exact Nat.le_of_ble_eq_true rfl

/-- The value of a SET_FIELD lies in the fixed part, behind the header. -/
theorem setField_changedWithin (exp : Option (OflExp L)) {field : OflMatchTlv}
    (hknown : oxmLength field.header ∈ basicFieldLengths) (m : Mem) {dst : Nat} (hdst : 24 ≤ dst) :
    ChangedWithin 0 (dst + 8) m (oflActionsPack exp (.setField field) m dst 0).1 := by
  have hround := roundUp_basic hknown
  have hvalue := length_setFieldValue_le field
  have hfixed := (setFieldFixed_frame field m dst).mono (Nat.zero_le dst) le_rfl
  rw [oflActionsPack_setField]
  -- The value and the zeros behind it end at offset 24 at the latest.
  apply ChangedWithin.zero _ _ (by omega) (by omega)
  apply ChangedWithin.store _ (by omega) (by omega)
  exact hfixed

/-- One turn of the loop: the pointer moves by the slot, the writes may reach 8 bytes. -/
theorem oflActionsPack_packable {a : OflAction L.ExpAction} (hpack : a.Packable exp) (m : Mem)
    {dst : Nat} (hdst : 24 ≤ dst) :
    (oflActionsPack exp a m dst 0).2 = a.slotLen exp ∧
      ChangedWithin 0 (dst + max 8 (a.slotLen exp)) m (oflActionsPack exp a m dst 0).1 := by
  cases hpack with
  | inl hknown =>
    have hlen := oflActionsOfpLen_ge exp hknown
    rw [hknown.slotLen, max_eq_right hlen]
    refine ⟨oflActionsPack_size exp a hknown m hdst, ?_⟩
    -- All actions but SET_FIELD write in their slot only.
    by_cases hset : a.IsSetField
    · cases a with
      | setField field =>
        exact (setField_changedWithin exp hknown m hdst).mono le_rfl (Nat.add_le_add_left hlen dst)
      | _ => exact hset.elim
    · exact (oflActionsPack_frame exp a hknown hset m dst 0).2.mono (Nat.zero_le _) le_rfl
  | inr hbare =>
    -- The header is written, but no length is returned.
    rw [oflActionsPack_bare hbare m dst 0, hbare.slotLen]
    refine ⟨rfl, ?_⟩
    exact (changedWithin_prologue _ m dst le_rfl).mono (Nat.zero_le _) le_rfl

/-! ## 3. The loop -/

theorem slotsLen_cons (a : OflAction L.ExpAction) (as : List (OflAction L.ExpAction)) :
    slotsLen exp (a :: as) = a.slotLen exp + slotsLen exp as :=
  List.sum_cons

def EndsBare (exp : Option (OflExp L)) (as : List (OflAction L.ExpAction)) : Prop :=
  ∃ a ∈ as.getLast?, a.Bare exp

theorem EndsBare.cons {as : List (OflAction L.ExpAction)} (h : EndsBare exp as)
    (a : OflAction L.ExpAction) : EndsBare exp (a :: as) := by
  obtain ⟨b, hb, hbare⟩ := h
  cases as with
  | nil => cases hb
  | cons c cs => exact ⟨b, hb, hbare⟩

/-- What follows an action makes room for its header, or ends in a header itself. -/
theorem room_behind {as : List (OflAction L.ExpAction)} (hpack : ∀ a ∈ as, a.Packable exp)
    (hne : as ≠ []) : 8 ≤ slotsLen exp as ∨ EndsBare exp as := by
  have hmem := List.getLast_mem hne
  cases hpack _ hmem with
  | inl hknown =>
    -- The slot of the last action is a part of the sum.
    have hlen : (as.getLast hne).slotLen exp ≤ slotsLen exp as :=
      List.le_sum_of_mem (List.mem_map_of_mem hmem)
    rw [hknown.slotLen] at hlen
    exact .inl ((oflActionsOfpLen_ge exp hknown).trans hlen)
  | inr hbare => exact .inr ⟨_, List.getLast?_eq_some_getLast hne, hbare⟩

/-- The loop over the actions: where its pointer stops, and how far its writes reach. -/
theorem packActions_packable (as : List (OflAction L.ExpAction))
    (hpack : ∀ a ∈ as, a.Packable exp) :
    ∀ m {ptr : Nat}, 24 ≤ ptr →
      (packActions exp as m ptr).2 = ptr + slotsLen exp as ∧
        ∀ hi, ptr + slotsLen exp as ≤ hi →
          (EndsBare exp as → ptr + slotsLen exp as + 8 ≤ hi) →
            ChangedWithin 0 hi m (packActions exp as m ptr).1 := by
  induction as with
  | nil => exact fun m ptr _ => ⟨rfl, fun _ _ _ => ChangedWithin.refl _ _ m⟩
  | cons a as ih =>
    intro m ptr hptr
    have ha := hpack a List.mem_cons_self
    have has (b : OflAction L.ExpAction) (hb : b ∈ as) := hpack b (List.mem_cons_of_mem a hb)
    have hhead := oflActionsPack_packable ha m hptr
    have htail := ih has (oflActionsPack exp a m ptr 0).1
      (show 24 ≤ ptr + a.slotLen exp by omega)
    rw [packActions_cons, hhead.1, slotsLen_cons, ← Nat.add_assoc]
    refine ⟨htail.1, fun hi hle hroom => ?_⟩
    -- The header of the first action lies in the room of the others.
    have hfirst : ptr + max 8 (a.slotLen exp) ≤ hi := by
      by_cases hne : as = []
      · subst hne
        have htotal : slotsLen exp ([] : List (OflAction L.ExpAction)) = 0 := rfl
        cases ha with
        | inl hknown =>
          have hlen := oflActionsOfpLen_ge exp hknown
          rw [hknown.slotLen] at hle ⊢
          omega
        | inr hbare =>
          have hlast := hroom ⟨a, rfl, hbare⟩
          omega
      · cases room_behind has hne with
        | inl hlen => omega
        | inr hlast =>
          have hslack := hroom (hlast.cons a)
          omega
    have hrest : ChangedWithin 0 hi (oflActionsPack exp a m ptr 0).1
        (packActions exp as (oflActionsPack exp a m ptr 0).1 (ptr + a.slotLen exp)).1 :=
      htail.2 hi hle fun hends => hroom (hends.cons a)
    exact (hhead.2.mono le_rfl hfirst).trans hrest

/-- What is written in front of the data: fixed part and slots, and the header of a last action
that is not counted behind them. -/
theorem packetOut_loop {m : OflMsgPacketOut L} {as : List (OflAction L.ExpAction)}
    (hpack : ∀ a ∈ as, a.Packable exp) (heap : Mem) {hi : Nat}
    (hle : 24 + slotsLen exp as ≤ hi)
    (hroom : EndsBare exp as → 24 + slotsLen exp as + 8 ≤ hi) :
    ChangedWithin 0 hi heap (packActions exp as (packPacketOutFixed exp m heap) 24).1 := by
  have hfixed : ChangedWithin 0 24 heap (packPacketOutFixed exp m heap) := by
    unfold packPacketOutFixed
    apply ChangedWithin.zero _ 18 (by decide) (by decide)
    apply ChangedWithin.put16 _ 16 (by decide) (by decide)
    apply ChangedWithin.put32 _ 12 (by decide) (by decide)
    apply ChangedWithin.put32 _ 8 (by decide) (by decide)
    apply ChangedWithin.refl
  have hloop := packActions_packable as hpack (packPacketOutFixed exp m heap) le_rfl
  exact (hfixed.mono le_rfl (by omega)).trans (hloop.2 hi hle hroom)

theorem packActions_concat (exp : Option (OflExp L)) (as : List (OflAction L.ExpAction))
    (a : OflAction L.ExpAction) : ∀ m ptr,
      packActions exp (as ++ [a]) m ptr =
        packActions exp [a] (packActions exp as m ptr).1 (packActions exp as m ptr).2 := by
  induction as with
  | nil => exact fun _ _ => rfl
  | cons b as ih => exact fun m ptr => ih _ _

/-- The data goes where the loop stopped, which is the end of the slots. -/
theorem packetOut_buf {m : OflMsgPacketOut L} (hpack : ∀ a ∈ m.actions, a.Packable exp)
    (heap : Mem) :
    (oflMsgPackPacketOut exp m heap).buf =
      store (packActions exp m.actions (packPacketOutFixed exp m heap) 24).1
        (24 + slotsLen exp m.actions) m.data := by
  have hloop := packActions_packable m.actions hpack (packPacketOutFixed exp m heap) le_rfl
  rw [oflMsgPackPacketOut_eq]
  exact congrArg (fun ptr => store _ ptr m.data) hloop.1

/-- The last action is written where the slots of the others end. -/
theorem packetOut_last {m : OflMsgPacketOut L} (hpack : ∀ a ∈ m.actions, a.Packable exp)
    {as : List (OflAction L.ExpAction)} {a : OflAction L.ExpAction} (has : m.actions = as ++ [a])
    (heap : Mem) :
    slotsLen exp m.actions = slotsLen exp as + a.slotLen exp ∧
      (packActions exp m.actions (packPacketOutFixed exp m heap) 24).1 =
        (oflActionsPack exp a (packActions exp as (packPacketOutFixed exp m heap) 24).1
          (24 + slotsLen exp as) 0).1 := by
  have hfront (b : OflAction L.ExpAction) (hb : b ∈ as) : b.Packable exp :=
    hpack b (has ▸ List.mem_append_left _ hb)
  have hptr := (packActions_packable as hfront (packPacketOutFixed exp m heap) (le_refl 24)).1
  constructor
  · rw [has, slotsLen, List.map_append, List.sum_append, List.map_singleton, List.sum_singleton]
    rfl
  · rw [has, packActions_concat, hptr]
    rfl

/-! ## 4. Inside -/

theorem refused_of_bare {as : List (OflAction L.ExpAction)} (hcount : refusedCount exp as = 0)
    (h : EndsBare exp as) : EndsUnknown as := by
  obtain ⟨a, ha, hbare⟩ := h
  have hnot := List.countP_eq_zero.mp hcount a (List.mem_of_getLast? ha)
  exact ⟨a, ha, hbare.resolve_right hnot⟩

theorem packetOut_contained {m : OflMsgPacketOut L} (hpack : m.Packable exp)
    (hroom : m.LeavesRoom exp) (heap : Mem) :
    ChangedWithin 0 (oflMsgPackPacketOut exp m heap).mallocSize heap
      (oflMsgPackPacketOut exp m heap).buf := by
  have hsize := mallocSize_packetOut hpack heap
  rw [packetOut_buf hpack.actions]
  unfold OflMsgPacketOut.LeavesRoom at hroom
  by_cases hcount : refusedCount exp m.actions = 0
  · rw [if_pos hcount] at hroom
    apply ChangedWithin.store _ (Nat.zero_le _) (by omega)
    apply packetOut_loop hpack.actions heap (by omega)
    intro hends
    have hdata := hroom (refused_of_bare hcount hends)
    omega
  · rw [if_neg hcount] at hroom
    obtain ⟨hdata, field, hlast, hle⟩ := hroom
    obtain ⟨as, has⟩ := List.getLast?_eq_some_iff.mp hlast
    have hmem (a : OflAction L.ExpAction) (ha : a ∈ as ++ [.setField field]) : a.Packable exp :=
      hpack.actions a (has ▸ ha)
    have hfield : (OflAction.setField field : OflAction L.ExpAction).Known exp :=
      (hmem _ List.mem_concat_self).resolve_right fun hbare => by
        cases hbare with
        | inl hunknown => exact hunknown
        | inr hrefused => cases hrefused
    obtain ⟨hslots, hloop⟩ := packetOut_last hpack.actions has heap
    have hslot : (OflAction.setField field : OflAction L.ExpAction).slotLen exp =
        8 + roundUp (oxmLength field.header) 8 := rfl
    rw [hdata, List.length_nil] at hsize
    rw [hdata, store_nil, hloop]
    -- The slots of the others, the header of the last one, and its value in the fixed part
    have hfront : ChangedWithin 0 (24 + slotsLen exp as + 8) heap
        (packActions exp as (packPacketOutFixed exp m heap) 24).1 :=
      packetOut_loop (fun a ha => hmem a (List.mem_append_left _ ha)) heap (by omega)
        fun _ => le_rfl
    have hheader := setField_changedWithin exp hfield
      (packActions exp as (packPacketOutFixed exp m heap) 24).1
      (show 24 ≤ 24 + slotsLen exp as by omega)
    exact (hfront.trans hheader).mono le_rfl (by omega)

/-! ## 5. Outside -/

/-- A byte inside of a store does not depend on the memory. -/
theorem store_determined {off k : Nat} {bs : List UInt8} (hk : k < bs.length) (m m' : Mem) :
    store m off bs (off + k) = store m' off bs (off + k) :=
  (store_inside hk).trans (store_inside hk).symm

theorem zero_determined {off n k : Nat} (hk : k < n) (m m' : Mem) :
    zero m off n (off + k) = zero m' off n (off + k) :=
  store_determined (by rwa [List.length_replicate]) m m'

theorem put32_determined {off : Nat} {x : UInt32} (m m' : Mem) :
    put32 m off x (off + 3) = put32 m' off x (off + 3) :=
  store_determined (by rw [length_toLE]; decide) m m'

/-- The last byte of its slot is written by every action but a SET_FIELD. -/
theorem oflActionsPack_lastByte {a : OflAction L.ExpAction} (hknown : a.Known exp)
    (hset : ¬ a.IsSetField) (hnone : OflExp.actPack exp = none) (dst : Nat) (m m' : Mem) :
    (oflActionsPack exp a m dst 0).1 (dst + (oflActionsOfpLen exp a - 1)) =
      (oflActionsPack exp a m' dst 0).1 (dst + (oflActionsOfpLen exp a - 1)) := by
  -- Behind the prologue only the length is written.
  have hheader (type : UInt16) :
      put16 (zero (put16 m dst type) (dst + 4) 4) (dst + 2) (htons 8) (dst + 7) =
        put16 (zero (put16 m' dst type) (dst + 4) 4) (dst + 2) (htons 8) (dst + 7) := by
    rw [put16_outside (by omega), put16_outside (by omega)]
    exact zero_determined (k := 3) (by decide) _ _
  cases a with
  | output port maxLen => exact zero_determined (k := 5) (by decide) _ _
  | copyTtlOut | copyTtlIn | decMplsTtl | popVlan | popPbb | decNwTtl => exact hheader _
  | setMplsTtl ttl | setNwTtl ttl => exact zero_determined (k := 2) (by decide) _ _
  | pushVlan ethertype | pushMpls ethertype | pushPbb ethertype | popMpls ethertype =>
    exact zero_determined (k := 1) (by decide) _ _
  | setQueue queueId => exact put32_determined _ _
  | group groupId => exact put32_determined _ _
  | setField field => exact absurd trivial hset
  | experimenter e =>
    obtain ⟨pack, hpack, _⟩ := hknown.pack
    exact nomatch hnone.symm.trans hpack
  | unknown type h => exact hknown.elim

/-- A SET_FIELD writes the last byte of its OXM header. -/
theorem setField_lastByte {field : OflMatchTlv}
    (hknown : oxmLength field.header ∈ basicFieldLengths) {dst : Nat} (hdst : 24 ≤ dst)
    (m m' : Mem) :
    (oflActionsPack exp (.setField field) m dst 0).1 (dst + 7) =
      (oflActionsPack exp (.setField field) m' dst 0).1 (dst + 7) := by
  have hround := roundUp_basic hknown
  have hvalue := length_setFieldValue_le field
  rw [oflActionsPack_setField, oflActionsPack_setField, zero_outside (by omega),
    store_outside (by omega), zero_outside (by omega), store_outside (by omega)]
  exact put32_determined _ _

/-- The padding of a header that nothing counts. -/
theorem endsBare_byte {m : OflMsgPacketOut L} (hpack : ∀ a ∈ m.actions, a.Packable exp)
    (hends : EndsBare exp m.actions) (hdata : m.data.length < 8) (heap heap' : Mem) :
    (oflMsgPackPacketOut exp m heap).buf (24 + slotsLen exp m.actions + 7) =
      (oflMsgPackPacketOut exp m heap').buf (24 + slotsLen exp m.actions + 7) := by
  obtain ⟨a, hlast, hbare⟩ := hends
  obtain ⟨as, has⟩ := List.getLast?_eq_some_iff.mp hlast
  have hslots : slotsLen exp m.actions = slotsLen exp as := by
    rw [(packetOut_last hpack has heap).1, hbare.slotLen, Nat.add_zero]
  rw [packetOut_buf hpack, packetOut_buf hpack, store_outside (by omega), store_outside (by omega),
    (packetOut_last hpack has heap).2, (packetOut_last hpack has heap').2,
    oflActionsPack_bare hbare, oflActionsPack_bare hbare, hslots]
  exact zero_determined (k := 3) (by decide) _ _

/-- The last byte of the data. -/
theorem data_byte {m : OflMsgPacketOut L} (hpack : ∀ a ∈ m.actions, a.Packable exp)
    (hdata : m.data ≠ []) (heap heap' : Mem) :
    (oflMsgPackPacketOut exp m heap).buf
        (24 + slotsLen exp m.actions + (m.data.length - 1)) =
      (oflMsgPackPacketOut exp m heap').buf
        (24 + slotsLen exp m.actions + (m.data.length - 1)) := by
  have hlen : 0 < m.data.length := List.length_pos_iff.mpr hdata
  rw [packetOut_buf hpack, packetOut_buf hpack]
  exact store_determined (by omega) _ _

/-- Without data the loop is all that is written. -/
theorem packetOut_buf_of_nil {m : OflMsgPacketOut L} (hpack : ∀ a ∈ m.actions, a.Packable exp)
    (hdata : m.data = []) {as : List (OflAction L.ExpAction)} {a : OflAction L.ExpAction}
    (has : m.actions = as ++ [a]) (heap : Mem) :
    (oflMsgPackPacketOut exp m heap).buf =
      (oflActionsPack exp a (packActions exp as (packPacketOutFixed exp m heap) 24).1
        (24 + slotsLen exp as) 0).1 := by
  rw [packetOut_buf hpack, hdata, store_nil, (packetOut_last hpack has heap).2]

theorem actPack_of_refused {a : OflAction L.ExpAction} (h : a.refused exp = true) :
    OflExp.actPack exp = none := by
  cases a with
  | experimenter e => exact Option.isNone_iff_eq_none.mp (Bool.and_elim_right h)
  | _ => cases h

/-- With a refused action and no room, a byte behind the buffer is written. -/
theorem exists_byte_of_refused {m : OflMsgPacketOut L} (hpack : m.Packable exp)
    (hcount : refusedCount exp m.actions ≠ 0)
    (hroom : ¬(m.data = [] ∧ ∃ field, m.actions.getLast? = some (.setField field) ∧
      refusedCount exp m.actions ≤ roundUp (oxmLength field.header) 8)) :
    ∃ i, 24 + slotsLen exp m.actions + m.data.length ≤ i + refusedCount exp m.actions ∧ 8 ≤ i ∧
      ∀ heap heap', (oflMsgPackPacketOut exp m heap).buf i =
        (oflMsgPackPacketOut exp m heap').buf i := by
  by_cases hdata : m.data = []
  · have hlen : m.data.length = 0 := List.length_eq_zero_iff.mpr hdata
    obtain ⟨e, he, hrefused⟩ := List.countP_pos_iff.mp (Nat.pos_of_ne_zero hcount)
    have hlast := List.getLast?_eq_some_getLast (List.ne_nil_of_mem he)
    obtain ⟨as, has⟩ := List.getLast?_eq_some_iff.mp hlast
    generalize m.actions.getLast (List.ne_nil_of_mem he) = a at hlast has
    have hslots := (packetOut_last hpack.actions has fun _ => 0).1
    have hbuf := packetOut_buf_of_nil hpack.actions hdata has
    cases hpack.actions a (has ▸ List.mem_concat_self) with
    | inr hbare =>
      exact ⟨_, by omega, by omega, endsBare_byte hpack.actions ⟨a, hlast, hbare⟩ (by omega)⟩
    | inl hknown =>
      rw [hknown.slotLen] at hslots
      have hge := oflActionsOfpLen_ge exp hknown
      by_cases hset : a.IsSetField
      · cases a with
        | setField field =>
          have hmore : roundUp (oxmLength field.header) 8 < refusedCount exp m.actions :=
            Nat.lt_of_not_le fun hle => hroom ⟨hdata, field, hlast, hle⟩
          have hslot : oflActionsOfpLen exp (.setField field : OflAction L.ExpAction) =
              8 + roundUp (oxmLength field.header) 8 := rfl
          refine ⟨24 + slotsLen exp as + 7, by omega, by omega, fun heap heap' => ?_⟩
          rw [hbuf, hbuf]
          exact setField_lastByte hknown (by omega) _ _
        | _ => exact hset.elim
      · refine ⟨24 + slotsLen exp as + (oflActionsOfpLen exp a - 1), by omega, by omega,
          fun heap heap' => ?_⟩
        rw [hbuf, hbuf]
        exact oflActionsPack_lastByte hknown hset (actPack_of_refused hrefused) _ _ _
  · have hlen : 0 < m.data.length := List.length_pos_iff.mpr hdata
    exact ⟨_, by omega, by omega, data_byte hpack.actions hdata⟩

/-- Where there is no room, some byte behind the buffer and its header is written. -/
theorem exists_byte_outside {m : OflMsgPacketOut L} (hpack : m.Packable exp)
    (hroom : ¬ m.LeavesRoom exp) :
    ∃ i, (∀ heap, (oflMsgPackPacketOut exp m heap).mallocSize ≤ i) ∧ 8 ≤ i ∧
      ∀ heap heap', (oflMsgPackPacketOut exp m heap).buf i =
        (oflMsgPackPacketOut exp m heap').buf i := by
  have hsize := mallocSize_packetOut hpack
  unfold OflMsgPacketOut.LeavesRoom at hroom
  by_cases hcount : refusedCount exp m.actions = 0
  · rw [if_pos hcount, Classical.not_imp] at hroom
    obtain ⟨⟨a, hlast, hunknown⟩, hdata⟩ := hroom
    refine ⟨24 + slotsLen exp m.actions + 7, fun heap => ?_, by omega,
      endsBare_byte hpack.actions ⟨a, hlast, .inl hunknown⟩ (by omega)⟩
    have hheap := hsize heap
    omega
  · rw [if_neg hcount] at hroom
    obtain ⟨i, hle, hi, hbyte⟩ := exists_byte_of_refused hpack hcount hroom
    refine ⟨i, fun heap => ?_, hi, hbyte⟩
    have hheap := hsize heap
    omega

theorem refusedCount_le_of_room {m : OflMsgPacketOut L} (h : m.LeavesRoom exp) :
    refusedCount exp m.actions ≤ slotsLen exp m.actions := by
  unfold OflMsgPacketOut.LeavesRoom at h
  by_cases hcount : refusedCount exp m.actions = 0
  · rw [hcount]
    exact Nat.zero_le _
  · rw [if_neg hcount] at h
    obtain ⟨-, field, hlast, hle⟩ := h
    have hslot : roundUp (oxmLength field.header) 8 ≤
        (OflAction.setField field : OflAction L.ExpAction).slotLen exp :=
      Nat.le_add_left _ 8
    exact (hle.trans hslot).trans
      (List.le_sum_of_mem (List.mem_map_of_mem (List.mem_of_getLast? hlast)))

theorem exists_byte_ne (b : UInt8) : ∃ v, v ≠ b := by
  by_cases hb : b = 0
  · exact ⟨1, by rw [hb]; decide⟩
  · exact ⟨0, Ne.symm hb⟩

/-- The encoder of a PACKET_OUT stays in its buffer exactly if there is room. -/
theorem packetOut_inside_iff {m : OflMsgPacketOut L} (hpack : m.Packable exp) (xid : UInt32) :
    (∀ heap, ChangedWithin 0 (oflMsgPack exp (.packetOut m) xid heap).mallocSize heap
      (oflMsgPack exp (.packetOut m) xid heap).buf) ↔ m.LeavesRoom exp := by
  have hpacked (heap : Mem) : oflMsgPack exp (.packetOut m) xid heap =
      ⟨0, packHeader (OflMsg.packetOut m).type xid (oflMsgPackPacketOut exp m heap).bufLen
        (oflMsgPackPacketOut exp m heap).buf, (oflMsgPackPacketOut exp m heap).bufLen⟩ :=
    oflMsgPack_of_body xid rfl
  constructor
  · intro h
    by_contra hroom
    obtain ⟨i, hsize, hi, hbyte⟩ := exists_byte_outside hpack hroom
    -- Memory that holds another byte there
    obtain ⟨v, hv⟩ := exists_byte_ne ((oflMsgPackPacketOut exp m fun _ => 0).buf i)
    have hinside : (oflMsgPack exp (.packetOut m) xid fun _ => v).buf i = v :=
      h (fun _ => v) i (Or.inr (hsize fun _ => v))
    rw [hpacked] at hinside
    have hheader := packHeader_changedWithin (OflMsg.packetOut m).type xid
      (oflMsgPackPacketOut exp m fun _ => v).bufLen (oflMsgPackPacketOut exp m fun _ => v).buf i
      (Or.inr hi)
    exact hv (hinside.symm.trans (hheader.trans (hbyte _ _)))
  · intro hroom heap
    have hbody := packetOut_contained hpack hroom heap
    have hheader := packHeader_changedWithin (OflMsg.packetOut m).type xid
      (oflMsgPackPacketOut exp m heap).bufLen (oflMsgPackPacketOut exp m heap).buf
    rw [hpacked]
    have hsize := mallocSize_packetOut hpack heap
    have hcount := refusedCount_le_of_room hroom
    exact hbody.trans (hheader.mono le_rfl (by omega))

end CcPof.OpenFlow

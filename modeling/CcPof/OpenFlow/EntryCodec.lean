import CcPof.OpenFlow.UnpackRules

/-!
# Arrays of entries

The pack loop and the unpack loops against each other. `EntryCodec` is what one element codec
promises; from it the loops stay aligned by induction on the list of elements. `ArrayCodecs` is that
promise for the array elements of the library, with its total-length and count helpers.
-/

namespace CcPof.OpenFlow

section Loops

variable {α : Type} {pack : α → Mem → Nat → Mem × Nat} {unpack : ElemDecoder α}
  {stride : Mem → Nat → Nat} {fixed : Nat}

/-! ## 1. Regions tiled by entries -/

/-- The `len` bytes at `pos` are `n` entries, each at least `fixed` bytes long, one behind another. -/
inductive Tiles (stride : Mem → Nat → Nat) (fixed : Nat) (buf : Mem) :
    (pos len n : Nat) → Prop where
  | done (pos : Nat) : Tiles stride fixed buf pos 0 0
  | entry {pos len n : Nat} (hfixed : fixed ≤ stride buf pos) (hfits : stride buf pos ≤ len)
      (rest : Tiles stride fixed buf (pos + stride buf pos) (len - stride buf pos) n) :
      Tiles stride fixed buf pos len (n + 1)

/-- The walk of the count helpers: it refuses an entry that is shorter than its structure or longer
than what is left. -/
def countEntries (stride : Mem → Nat → Nat) (fixed : Nat) (buf : Mem) :
    (fuel pos len : Nat) → Except OflErr Nat
  | 0, _, len => if len = 0 then .ok 0 else .error badLen
  | fuel + 1, pos, len =>
      let n := stride buf pos
      if len = 0 then .ok 0
      else if n < fixed ∨ len < n then .error badLen
      else (countEntries stride fixed buf fuel (pos + n) (len - n)).map (· + 1)

theorem countEntries_of_tiles {buf : Mem} {pos len n : Nat} (hpos : 0 < fixed)
    (h : Tiles stride fixed buf pos len n) :
    ∀ fuel, len ≤ fuel → countEntries stride fixed buf fuel pos len = .ok n := by
  induction h with
  | done pos =>
    intro fuel _
    cases fuel <;> rfl
  | @entry pos len n hfixed hfits rest ih =>
    intro fuel hfuel
    cases fuel with
    | zero => omega
    | succ fuel =>
      -- An entry has a positive length, so the walk has not come to its end.
      have hne : len ≠ 0 := by omega
      have hok : ¬ (stride buf pos < fixed ∨ len < stride buf pos) := by omega
      simp only [countEntries, if_neg hne, if_neg hok, ih fuel (by omega)]
      rfl

theorem tiles_of_countEntries {buf : Mem} : ∀ {fuel pos len n : Nat},
    countEntries stride fixed buf fuel pos len = .ok n → Tiles stride fixed buf pos len n := by
  intro fuel
  induction fuel with
  | zero =>
    intro pos len n h
    rw [countEntries] at h
    split at h
    · cases h
      subst len
      exact Tiles.done pos
    · cases h
  | succ fuel ih =>
    intro pos len n h
    simp only [countEntries] at h
    split at h
    · cases h
      subst len
      exact Tiles.done pos
    · split at h
      · cases h
      · next hok =>
        cases hrest : countEntries stride fixed buf fuel (pos + stride buf pos)
            (len - stride buf pos) with
        | error e =>
          rw [hrest] at h
          cases h
        | ok k =>
          rw [hrest] at h
          cases h
          exact Tiles.entry (by omega) (by omega) (ih hrest)

/-- With enough fuel the walk succeeds on tiled regions and on no others. -/
theorem countEntries_iff_tiles {buf : Mem} {pos len n : Nat} (hpos : 0 < fixed) :
    countEntries stride fixed buf len pos len = .ok n ↔ Tiles stride fixed buf pos len n :=
  ⟨tiles_of_countEntries, fun h => countEntries_of_tiles hpos h len le_rfl⟩

/-! ## 2. Element codecs -/

/-- The promise of an element codec. `size` is the packed length of an element. A length field has
16 bits, so nothing is promised about longer elements. -/
structure EntryCodec (pack : α → Mem → Nat → Mem × Nat) (unpack : ElemDecoder α)
    (stride : Mem → Nat → Nat) (fixed : Nat) where
  size : α → Nat
  fixed_le_size : ∀ a, fixed ≤ size a
  pack_size : ∀ a m pos, (pack a m pos).2 = size a
  pack_frame : ∀ a m pos i, i < pos ∨ pos + size a ≤ i → (pack a m pos).1 i = m i
  unpack_pack : ∀ a m pos buf len, size a ≤ 65535 → size a ≤ len →
    AgreeOn pos (pos + size a) buf (pack a m pos).1 → unpack buf pos len = (.ok a, len - size a)
  stride_pack : ∀ a m pos buf, size a ≤ 65535 →
    AgreeOn pos (pos + size a) buf (pack a m pos).1 → stride buf pos = size a

namespace EntryCodec

/-- The sum of the packed lengths. -/
def totalSize (C : EntryCodec pack unpack stride fixed) (as : List α) : Nat :=
  (as.map C.size).sum

theorem totalSize_cons (C : EntryCodec pack unpack stride fixed) (a : α) (as : List α) :
    C.totalSize (a :: as) = C.size a + C.totalSize as := by
  rw [totalSize, List.map_cons, List.sum_cons, totalSize]

theorem packArr_cons (a : α) (as : List α) (m : Mem) (pos : Nat) :
    packArr pack (a :: as) m pos = packArr pack as (pack a m pos).1 (pos + (pack a m pos).2) := rfl

/-- The pack loop writes the bytes of its elements and nothing else. -/
theorem packArr_changedWithin (C : EntryCodec pack unpack stride fixed) (as : List α) :
    ∀ m pos, ChangedWithin pos (pos + C.totalSize as) m (packArr pack as m pos).1 := by
  induction as with
  | nil => exact fun m pos => ChangedWithin.refl _ _ m
  | cons a as ih =>
    intro m pos
    have hhead : ChangedWithin pos (pos + C.size a) m (pack a m pos).1 := C.pack_frame a m pos
    have htail := ih (pack a m pos).1 (pos + C.size a)
    rw [totalSize_cons, packArr_cons, C.pack_size]
    exact (hhead.mono (le_refl pos) (by omega)).trans (htail.mono (by omega) (by omega))

/-- The pack loop writes behind its start only. -/
theorem packArr_frame (C : EntryCodec pack unpack stride fixed) (as : List α) (m : Mem)
    (pos i : Nat) (hi : i < pos) : (packArr pack as m pos).1 i = m i :=
  C.packArr_changedWithin as m pos i (Or.inl hi)

/-- The bytes of the first element survive the rest of the loop. -/
theorem agreeOn_head (C : EntryCodec pack unpack stride fixed) {a : α} {as : List α} {m buf : Mem}
    {pos hi : Nat} (hhi : pos + C.size a ≤ hi)
    (h : AgreeOn pos hi buf (packArr pack (a :: as) m pos).1) :
    AgreeOn pos (pos + C.size a) buf (pack a m pos).1 := by
  intro i hlo hlt
  rw [h i hlo (by omega), packArr_cons, C.packArr_frame as _ _ i (by rwa [C.pack_size])]

theorem agreeOn_tail (C : EntryCodec pack unpack stride fixed) {a : α} {as : List α} {m buf : Mem}
    {pos hi : Nat} (h : AgreeOn pos hi buf (packArr pack (a :: as) m pos).1) :
    AgreeOn (pos + C.size a) hi buf (packArr pack as (pack a m pos).1 (pos + C.size a)).1 := by
  intro i hlo hlt
  rw [h i (by omega) hlt, packArr_cons, C.pack_size]

/-! ## 3. The loops stay aligned -/

theorem tiles_packArr (C : EntryCodec pack unpack stride fixed) (as : List α) :
    ∀ {m buf : Mem} {pos : Nat}, C.totalSize as ≤ 65535 →
      AgreeOn pos (pos + C.totalSize as) buf (packArr pack as m pos).1 →
      Tiles stride fixed buf pos (C.totalSize as) as.length := by
  induction as with
  | nil => exact fun _ _ => .done _
  | cons a as ih =>
    intro m buf pos hsize h
    rw [totalSize_cons] at hsize h ⊢
    have hhead := C.agreeOn_head (Nat.add_le_add_left (Nat.le_add_right _ _) pos) h
    have hstride := C.stride_pack a m pos buf (by omega) hhead
    have htail := C.agreeOn_tail h
    rw [← Nat.add_assoc] at htail
    refine .entry ?_ ?_ ?_
    · rw [hstride]
      exact C.fixed_le_size a
    · omega
    · rw [hstride, Nat.add_sub_cancel_left]
      exact ih (by omega) htail

theorem unpackArr_packArr (C : EntryCodec pack unpack stride fixed) (as : List α) :
    ∀ {m buf : Mem} {pos : Nat} {s : UnpackState}, C.totalSize as ≤ 65535 →
      C.totalSize as ≤ s.len → AgreeOn pos (pos + C.totalSize as) buf (packArr pack as m pos).1 →
      unpackArr unpack stride buf as.length pos s =
        .ok as { s with len := s.len - C.totalSize as } := by
  induction as with
  | nil => exact fun _ _ _ => rfl
  | cons a as ih =>
    intro m buf pos s hsize hlen h
    rw [totalSize_cons] at hsize hlen h ⊢
    have hhead := C.agreeOn_head (Nat.add_le_add_left (Nat.le_add_right _ _) pos) h
    -- The stride that the loop reads is the length that was written, so it goes on at the tail.
    have hstride := C.stride_pack a m pos buf (by omega) hhead
    have hunpack := C.unpack_pack a m pos buf s.len (by omega) (by omega) hhead
    have htail := C.agreeOn_tail h
    rw [← Nat.add_assoc] at htail
    have hrest := ih (s := { s with len := s.len - C.size a }) (by omega) (by simp only; omega) htail
    simp only [List.length_cons, unpackArr, bind_run, nestedOrReturn_ok hunpack, hstride, hrest,
      pure_run, Nat.sub_sub]

/-- Without a failing call, the loop that goes on after errors does the same. -/
theorem unpackArrLax_packArr (C : EntryCodec pack unpack stride fixed) (stale : α) (as : List α) :
    ∀ {m buf : Mem} {pos : Nat} {s : UnpackState}, C.totalSize as ≤ 65535 →
      C.totalSize as ≤ s.len → AgreeOn pos (pos + C.totalSize as) buf (packArr pack as m pos).1 →
      unpackArrLax stale unpack stride buf as.length pos s =
        .ok as { s with len := s.len - C.totalSize as } := by
  induction as with
  | nil => exact fun _ _ _ => rfl
  | cons a as ih =>
    intro m buf pos s hsize hlen h
    rw [totalSize_cons] at hsize hlen h ⊢
    have hhead := C.agreeOn_head (Nat.add_le_add_left (Nat.le_add_right _ _) pos) h
    have hstride := C.stride_pack a m pos buf (by omega) hhead
    have hunpack := C.unpack_pack a m pos buf s.len (by omega) (by omega) hhead
    have htail := C.agreeOn_tail h
    rw [← Nat.add_assoc] at htail
    have hrest := ih (s := { s with len := s.len - C.size a }) (by omega) (by simp only; omega) htail
    simp only [List.length_cons, unpackArrLax, bind_run, nested_ok hunpack, hstride, hrest, pure_run,
      Nat.sub_sub, Except.toOption, Option.getD_some]

/-- Where each element has the size of its structure, the total is the number of elements times
that size. -/
theorem totalSize_of_const {n : Nat} (C : EntryCodec pack unpack stride fixed)
    (hsize : ∀ a, C.size a = n) (as : List α) : C.totalSize as = as.length * n := by
  induction as with
  | nil => rw [totalSize, List.map_nil, List.sum_nil, List.length_nil, Nat.zero_mul]
  | cons a as ih => rw [totalSize_cons, ih, hsize, List.length_cons, Nat.succ_mul, Nat.add_comm]

end EntryCodec

end Loops

/-! ## 4. The elements of the library -/

/-- The structure that the count helper and the decoder compare with. -/
def ElemKind.fixedSize : ElemKind → Nat
  | .instruction => OfpInstruction.size
  | .meterBand => OfpMeterBandHeader.size
  | .port => OfpPort.size
  | .tableStats => OfpTableStats.size
  | .portStats => OfpPortStats.size
  | .queueStats => OfpQueueStats.size
  | .groupStats => OfpGroupStats.size
  | .groupDescStats => OfpGroupDescStats.size
  | .tableFeatures => OfpTableFeatures.size
  | .meterStats => OfpMeterStats.size
  | .meterConfig => OfpMeterConfig.size
  | .packetQueue => OfpPacketQueue.size

/-- The offset of the length field; `none` where the decoder strides by `sizeof`. -/
def ElemKind.lenOff : ElemKind → Option Nat
  | .instruction => some OfpInstruction.len
  | .meterBand => some OfpMeterBandHeader.len
  | .port | .tableStats | .portStats | .queueStats => none
  | .groupStats => some OfpGroupStats.length
  | .groupDescStats => some OfpGroupDescStats.length
  | .tableFeatures => some OfpTableFeatures.length
  | .meterStats => some OfpMeterStats.len
  | .meterConfig => some OfpMeterConfig.length
  | .packetQueue => some OfpPacketQueue.len

def ElemKind.stride (k : ElemKind) : Mem → Nat → Nat :=
  k.lenOff.elim (fixedStride k.fixedSize) lenField

/-- The promises about one element kind: mutually inverse codecs with exact lengths, and helpers
that agree with them. -/
structure ElemCodec (L : OflLib) (k : ElemKind) where
  codec : EntryCodec (L.elemPack k) (L.elemUnpack k) k.stride k.fixedSize
  total : ∀ as, L.elemTotalLen k as = codec.totalSize as
  count : ∀ buf pos len n,
    Tiles k.stride k.fixedSize buf pos len n → L.elemCount k buf pos len = .ok n

/-- The promises about the elements that array-bodied messages are made of. -/
structure ArrayCodecs (L : OflLib) where
  elem : (k : ElemKind) → EntryCodec (L.elemPack k) (L.elemUnpack k) k.stride k.fixedSize
  elem_sizeof : ∀ k, k.lenOff = none → ∀ a, (elem k).size a = k.fixedSize
  elem_total : ∀ k as, L.elemTotalLen k as = (elem k).totalSize as
  elem_count : ∀ k buf pos len n,
    Tiles k.stride k.fixedSize buf pos len n → L.elemCount k buf pos len = .ok n
  flowStats : EntryCodec L.flowStatsPack (fun buf pos len => L.flowStatsUnpack buf pos pos len)
    (lenField OfpFlowStats.length) OfpFlowStats.size
  flowStats_total : ∀ as, L.flowStatsTotalLen as = flowStats.totalSize as
  flowStats_count : ∀ buf pos len n,
    Tiles (lenField OfpFlowStats.length) OfpFlowStats.size buf pos len n →
      L.flowStatsCount buf pos len = .ok n

end CcPof.OpenFlow

import CcPof.Slab.Accounting

/-!
# Slot lists

The list behind the header of a slot has the pages of its chunk size that are neither full nor
empty. So the search of `ncx_slab_alloc` needs no test for the end of the list.
-/

namespace CcPof.Slab

variable {s s' : Pool} {N minShift base endAddr i j shift : Nat} {desc : Ref → SlabPage} {mem : Mem}
  {st : State} {blk : Nat → Option Block} {ring : Ref → List Nat} {full : Bool}

/-- Page `i` is used for chunks of `1 << shift` bytes, by the tag and the shift in its descriptor.
The descriptor of a page with exact chunks has no shift. -/
def Pool.IsSlab (s : Pool) (shift i : Nat) : Prop :=
  s.tag (.page i) = tagOf shift ∧ (shift ≠ 6 → (s.slab (.page i) &&& shiftMask).toNat = shift)

/-- The lists `ring` of a pool with `N` pages. -/
structure SlotLists (s : Pool) (N : Nat) (ring : Ref → List Nat) : Prop where
  rings : ∀ h, s.IsHeader h → Ring s.next s.prev h ((ring h).map .page)
  nodup : ∀ h, s.IsHeader h → (ring h).Nodup
  mem_iff : ∀ shift i, s.minShift ≤ shift → shift < 12 →
    (i ∈ ring (.slot (shift - s.minShift)) ↔
      i < N ∧ s.IsSlab shift i ∧ s.InUse i shift ∧ ¬ s.Full i shift)
  full : ∀ shift i, s.minShift ≤ shift → shift < 12 → i < N → s.IsSlab shift i → s.Full i shift →
    s.next (.page i) = .null ∧ s.prev (.page i) = .null ∧ ∀ h, s.IsHeader h → i ∉ ring h
  inUse : ∀ shift i, s.minShift ≤ shift → shift < 12 → i < N → s.IsSlab shift i → s.InUse i shift

/-- The search of a slot ends without a page when the list is empty, else with a free chunk of the
first page. -/
def SearchEnds (s : Pool) (ring : Ref → List Nat) (shift : Nat) : Prop :=
  (ring (.slot (shift - s.minShift)) = [] ∧
    searchSlot s shift (shift - s.minShift) = some (s, none)) ∨
  ∃ i r j s', ring (.slot (shift - s.minShift)) = i :: r ∧ j < chunks shift ∧
    s.bit i shift j = false ∧ s'.bit i shift j = true ∧
    searchSlot s shift (shift - s.minShift) = some (s', some (s.addr i + j <<< shift))

theorem ChunkOk.shift_low (hc : ChunkOk s i shift full) (h3 : 3 ≤ shift) (h12 : shift < 12)
    (hne : shift ≠ 6) : (s.slab (.page i) &&& shiftMask).toNat = shift := by
  by_cases h6 : shift < 6
  · rw [hc.small h6]
    obtain rfl | rfl | rfl : shift = 3 ∨ shift = 4 ∨ shift = 5 := by omega
    all_goals decide
  · exact hc.shift_eq (by omega) h12

theorem tagOf_ne_page (shift : Nat) : tagOf shift ≠ .page := by
  unfold tagOf
  split_ifs <;> decide

/-- The tag of a page tells on which side of the exact size its chunks are. -/
theorem tagOf_eq (h : tagOf shift = tagOf j) : (shift = 6 ↔ j = 6) := by
  unfold tagOf at h
  split_ifs at h <;> omega

/-- A descriptor says that its page is used for chunks just when the page is. -/
theorem Sound.isSlab_iff (hS : Sound s N blk ring) (hi : i < N) :
    s.IsSlab shift i ↔ ∃ full, blk i = some (.slab shift full) := by
  constructor
  · rintro ⟨htag, hlow⟩
    have hne : s.tag (.page i) ≠ .page := by
      rw [htag]
      exact tagOf_ne_page shift
    obtain ⟨shift', full, hblk, htag'⟩ := hS.slab_of_tag hi hne
    have hb := hS.shift_bounds hblk
    have hsix := tagOf_eq (htag.symm.trans htag')
    -- Exact pages are told by the tag alone, the others by the shift in the descriptor.
    have heq : shift = shift' := by
      by_cases h6 : shift = 6
      · rw [h6, hsix.mp h6]
      · have hlow' := (hS.chunk i shift' full hblk).shift_low hb.1 hb.2 (fun h => h6 (hsix.mpr h))
        rw [← hlow h6, hlow']
    rw [heq]
    exact ⟨full, hblk⟩
  · rintro ⟨full, hblk⟩
    have hb := hS.shift_bounds hblk
    exact ⟨(hS.links.desc i _ hblk).2.2.1, (hS.chunk i shift full hblk).shift_low hb.1 hb.2⟩

theorem Sound.lt_of_block (hS : Sound s N blk ring) (hi : blk i = some (.slab shift full)) : i < N :=
  hS.links.bound i _ hi

theorem Sound.slotLists (hS : Sound s N blk ring) : SlotLists s N ring where
  rings := hS.links.rings
  nodup _ hh := hS.links.ring_nodup hh
  mem_iff shift i hmin h12 := by
    have hh : s.IsHeader (.slot (shift - s.minShift)) := Or.inr ⟨_, rfl, by omega⟩
    constructor
    · intro hmem
      have hblk := hS.links.slab_of_mem hmin hmem h12
      have hfull := (hS.chunk i shift false hblk).full_iff
      have hlt := hS.lt_of_block hblk
      exact ⟨hlt, (hS.isSlab_iff hlt).mpr ⟨false, hblk⟩, hS.inUse i shift false hblk,
        fun hf => absurd (hfull.mpr hf) nofun⟩
    · rintro ⟨hlt, hslab, -, hnot⟩
      obtain ⟨full, hblk⟩ := (hS.isSlab_iff hlt).mp hslab
      have hfull := (hS.chunk i shift full hblk).full_iff
      cases full with
      | true => exact absurd (hfull.mp rfl) hnot
      | false => exact (hS.links.mem_ring _ i hh).mpr ⟨_, hblk, rfl⟩
  full shift i hmin h12 hlt hslab hf := by
    obtain ⟨full, hblk⟩ := (hS.isSlab_iff hlt).mp hslab
    obtain rfl : full = true := (hS.chunk i shift full hblk).full_iff.mpr hf
    have hnull := (hS.links.desc i _ hblk).2.2.2 rfl
    refine ⟨hnull.1, hnull.2, fun h hh hmem => ?_⟩
    -- A page in a list has a successor.
    exact (hS.links.neighbours hh hmem).2.1 hnull.1
  inUse shift i _ _ hlt hslab := by
    obtain ⟨full, hblk⟩ := (hS.isSlab_iff hlt).mp hslab
    exact hS.inUse i shift full hblk

theorem Sound.searchEnds (hS : Sound s N blk ring) (hmin : s.minShift ≤ shift) (h12 : shift < 12) :
    SearchEnds s ring shift := by
  unfold SearchEnds
  rcases hS.searchSlot hmin h12 with hempty | ⟨i, j, r, hring, hblk, hj, hbit, hs⟩
  · exact Or.inl hempty
  · right
    obtain ⟨s', ring', full', htake, -, -, hbits⟩ := hS.takeBit hblk hj hbit
    -- The bit that the search finds is set before the address is returned.
    have hset : s'.bit i shift j = true := by
      rw [hbits i shift false j hblk hj, if_pos ⟨rfl, rfl⟩]
    refine ⟨i, r, j, s', hring, hj, hbit, hset, ?_⟩
    rw [hs, htake]
    rfl

/-- The last chunk of a page was freed. -/
theorem Sound.free_last (hS : Sound s N blk ring) (hi : blk i = some (.slab shift full))
    (hj : j < chunks shift) (hset : s.bit i shift j = true) (hres : reserved shift ≤ j)
    (hlast : ∀ k, k < chunks shift → reserved shift ≤ k → s.bit i shift k = true → k = j) :
    ∃ (s' : Pool) (l : List Nat), ncxSlabFreeLocked s (s.addr i + j <<< shift) = some s' ∧
      Ring s'.next s'.prev .free (l.map .page) ∧ i ∈ l ∧
      s'.slab (.page i) = 1#64 := by
  have hb := hS.shift_bounds hi
  have hend := chunk_end hb.2 hj
  have hpow := Nat.two_pow_pos shift
  have hoff : j <<< shift < 4096 := by
    rw [Nat.shiftLeft_eq]
    omega
  have hfree : ncxSlabFreeLocked s (s.addr i + j <<< shift) = s.releaseBit i shift j full := by
    rw [hS.free_slab hi hoff, Nat.shiftLeft_eq, Nat.mul_mod_left, Nat.mul_div_cancel _ hpow,
      if_pos ⟨rfl, hset⟩]
  obtain ⟨s', ring', b, hs', hS', hsite, -, hcase⟩ := hS.releaseBit hi hj hres
  have hself : Function.update blk i (some b) i = some b := Function.update_self ..
  rcases hcase with ⟨rfl, hbits⟩ | ⟨rfl, -⟩
  · -- A page that stays in its list has a chunk in use, and none is left.
    obtain ⟨k, hk, hresk, hsetk⟩ := hS'.inUse i shift false hself
    rw [hbits k hk] at hsetk
    split at hsetk
    · cases hsetk
    · exact absurd (hlast k hk hresk hsetk) ‹_›
  · have hh : s'.IsHeader .free := Or.inl rfl
    have hmem : i ∈ ring' .free := (hS'.links.mem_ring _ i hh).mpr ⟨_, hself, rfl⟩
    exact ⟨s', ring' .free, hfree.trans hs', hS'.links.rings _ hh, hmem, (hS'.links.desc i _ hself).1⟩

/-- Of the pages of chunks, a list behind a slot header has those that are partly used, a full one
is in no list, and none is empty. The search of a slot ends on the first page of its list, and the
release of the last chunk of a page puts the page behind `pool->free`. -/
theorem slot_lists (h : Fits minShift base endAddr desc mem s N)
    (hst : (slabSystem s).Reachable st) :
    (∃ ring, SlotLists st.pool N ring ∧
      ∀ shift, st.pool.minShift ≤ shift → shift < 12 → SearchEnds st.pool ring shift) ∧
    ∀ i shift j, i < N → st.pool.IsSlab shift i → j < chunks shift →
      (∃ size, (st.pool.addr i + j <<< shift, size) ∈ st.live) →
      (∀ k, k < chunks shift → reserved shift ≤ k → st.pool.bit i shift k = true → k = j) →
      ∃ (s' : Pool) (l : List Nat), ncxSlabFreeLocked st.pool (st.pool.addr i + j <<< shift) = some s' ∧
        Ring s'.next s'.prev .free (l.map .page) ∧ i ∈ l ∧ s'.slab (.page i) = 1#64 := by
  obtain ⟨blk, ring, hI, -⟩ := h.reachable hst
  have hS := hI.sound
  refine ⟨⟨ring, hS.slotLists, fun shift => hS.searchEnds⟩, ?_⟩
  rintro i shift j hi hslab hj ⟨size, hlive⟩ hlast
  obtain ⟨full, hblk⟩ := (hS.isSlab_iff hi).mp hslab
  have hb := hS.shift_bounds hblk
  have hat := hS.at_of_holds_chunk hblk Nat.one_pos hb.2 hj (hI.holds _ size hlive)
  -- The address was given out, so its bit is set and it is no chunk of the bitmap.
  obtain ⟨-, k, hk, hres, hset, heq⟩ := hat
  have hkj : k = j := ((chunk_inj _).mp heq).symm
  rw [hkj] at hres hset
  exact hS.free_last hblk hj hset hres hlast

theorem slot_lists_fourKinds :
    ∃ st, (slabSystem sevenPages).exec (slabSystem sevenPages).init fourKinds = some st ∧
      ∃ ring, SlotLists st.pool 7 ring ∧
        ∀ shift, st.pool.minShift ≤ shift → shift < 12 → SearchEnds st.pool ring shift := by
  obtain ⟨st, hst, -⟩ := exec_fourKinds
  have hreach := (slabSystem sevenPages).reachable_of_exec hst
  exact ⟨st, hst, (slot_lists sevenPages_fits hreach).1⟩

end CcPof.Slab

import Mathlib.Data.Nat.Log
import CcPof.Slab.Accounting

/-!
# When an allocation fails

`ncx_slab_alloc` returns NULL when there is no room for the request, and only then. What room there
is can be told from the live allocations and from the list of the free blocks.
-/

namespace CcPof.Slab

variable {s : Pool} {N minShift base endAddr i j n sz shift : Nat} {desc : Ref → SlabPage}
  {mem : Mem} {st : State} {blk : Nat → Option Block} {ring : Ref → List Nat} {l : List Nat}
  {full : Bool}

/-! ## 1. Room -/

/-- The least power of two that has room for the request, and is no smaller than `min_size`. -/
def chunkClass (s : Pool) (size : Nat) : Nat := Nat.clog 2 (max size s.minSize)

/-- The live allocation has bytes in page `j`. -/
def Touches (st : State) (j p size : Nat) : Prop :=
  p < st.pool.addr j + 4096 ∧ st.pool.addr j < p + (classOf st.pool size).size

/-- The free list has the blocks `l`, and their pages are those that no allocation touches. -/
structure FreeBlocks (st : State) (N : Nat) (l : List Nat) : Prop where
  list : FreeList st.pool l
  nodup : l.Nodup
  unused : ∀ j, j < N → ((∃ i ∈ l, i ≤ j ∧ j < i + (st.pool.slab (.page i)).toNat) ↔
    ∀ p size, (p, size) ∈ st.live → ¬ Touches st j p size)

/-- Page `i` has a live chunk of this class, and one that is neither live nor taken up by the
bitmap. -/
structure RoomyPage (st : State) (i shift : Nat) : Prop where
  page : ∃ p size, (p, size) ∈ st.live ∧ size < 2048 ∧ chunkClass st.pool size = shift ∧
    st.pool.addr i ≤ p ∧ p < st.pool.addr i + 4096
  chunk : ∃ j, reserved shift ≤ j ∧ j < chunks shift ∧
    st.pool.addr i + j <<< shift ∉ st.live.map Prod.fst

/-- Neither a page of chunks nor a free block has room for the request. -/
def NoRoom (st : State) (l : List Nat) (size : Nat) : Prop :=
  if size < 2048 then
    (∀ i, ¬ RoomyPage st i (chunkClass st.pool size)) ∧
      ∀ i ∈ l, (st.pool.slab (.page i)).toNat = 0
  else ∀ i ∈ l, (st.pool.slab (.page i)).toNat < (size + 4095) / 4096

/-! ## 2. The request -/

/-- The loop over the bits of `size - 1` finds the class. -/
theorem requestShift_eq (hg : Geometry s N) (hsize : sz < 2048) :
    requestShift s sz = chunkClass s sz := by
  have hreq := requestShift_spec hg hsize
  have hmin : s.minSize = 2 ^ s.minShift := Nat.one_shiftLeft _
  apply Nat.le_antisymm
  · have hroom := Nat.le_pow_clog Nat.one_lt_two (max sz s.minSize)
    have hmin' : 2 ^ s.minShift ≤ 2 ^ chunkClass s sz := hmin ▸ (le_max_right _ _).trans hroom
    exact hreq.2.2.2 _ ((Nat.pow_le_pow_iff_right Nat.one_lt_two).mp hmin')
      ((le_max_left _ _).trans hroom)
  · refine (Nat.clog_le_iff_le_pow Nat.one_lt_two).mpr (max_le hreq.2.2.1 ?_)
    rw [hmin]
    exact Nat.pow_le_pow_right Nat.two_pos hreq.1

theorem classOf_chunk (hg : Geometry s N) (hsize : sz < 2048) :
    classOf s sz = .chunk (chunkClass s sz) := by
  rw [classOf, if_neg (by omega), requestShift_eq hg hsize]

/-- The pages of a large request are rounded up. -/
theorem classOf_pages (hsize : 2048 ≤ sz) : classOf s sz = .pages ((sz + 4095) / 4096) := by
  rw [classOf, if_pos hsize, Nat.shiftRight_eq_div_pow]
  congr 1
  split <;> omega

theorem classOf_eq_chunk_iff (hg : Geometry s N) :
    classOf s sz = .chunk shift ↔ sz < 2048 ∧ chunkClass s sz = shift := by
  by_cases hsize : sz < 2048
  · rw [classOf_chunk hg hsize, and_iff_right hsize, Class.chunk.injEq]
  · rw [classOf_pages (by omega)]
    exact iff_of_false nofun fun h => hsize h.1

/-! ## 3. Room, seen from the clients -/

/-- The pages of a block are touched by a live allocation, unless the block is free. -/
theorem Inv.touches_iff (hI : Inv st N blk ring) {b : Block} (hi : blk i = some b) (hij : i ≤ j)
    (hji : j < i + b.len) :
    (∃ p size, (p, size) ∈ st.live ∧ Touches st j p size) ↔ ∀ m, b ≠ .free m := by
  have hS := hI.sound
  have hg := hS.geometry
  constructor
  · rintro ⟨p, size, hmem, hlo, hhi⟩
    obtain ⟨k, c, hk, hat⟩ := hI.holds p size hmem
    obtain ⟨hstart, hend, _, hfree⟩ := hS.at_bounds hk hat
    rw [hg.addr] at hlo hhi
    -- The allocation lies in one block, and both blocks have the first byte of page `j`.
    obtain rfl : i = k := hS.block_unique (p := st.pool.start + 4096 * j) hi hk (by omega) (by omega)
      (by omega) (by omega)
    rw [hi] at hk
    cases hk
    exact hfree
  · intro hfree
    rcases b with m | m | ⟨shift, full⟩
    · exact absurd rfl (hfree m)
    · obtain ⟨size, hmem⟩ := hI.live _ _ ⟨i, _, hi, rfl, rfl⟩
      have hclass := hS.holds_unique (hI.holds _ size hmem) ⟨i, _, hi, rfl, rfl⟩
      refine ⟨_, size, hmem, ?_, ?_⟩
      · rw [hg.addr, hg.addr]
        omega
      · rw [Block.len] at hji
        rw [hclass, Class.size, hg.addr, hg.addr]
        omega
    · -- the page keeps a chunk in use
      obtain ⟨k, hk, hres, hset⟩ := hS.inUse i shift full hi
      have hholds : Holds st.pool blk (st.pool.addr i + k <<< shift) (.chunk shift) :=
        ⟨i, _, hi, rfl, k, hk, hres, hset, rfl⟩
      obtain ⟨size, hmem⟩ := hI.live _ _ hholds
      have hclass := hS.holds_unique (hI.holds _ size hmem) hholds
      have hend := chunk_end (hS.shift_bounds hi).2 hk
      have hpow := Nat.two_pow_pos shift
      rw [Block.len] at hji
      obtain rfl : i = j := by omega
      refine ⟨_, size, hmem, ?_, ?_⟩
      · rw [Nat.shiftLeft_eq]
        omega
      · rw [hclass, Class.size]
        omega

theorem Inv.freeBlocks (hI : Inv st N blk ring) : FreeBlocks st N (ring .free) where
  list := hI.sound.freeList
  nodup := hI.sound.links.ring_nodup (Or.inl rfl)
  unused := by
    intro j hj
    have hS := hI.sound
    have hlt := hS.pages_lt
    obtain ⟨k, b, hk, hkj, hjk⟩ := hS.links.cover j hj
    have hnot : (∀ p size, (p, size) ∈ st.live → ¬ Touches st j p size) ↔ ∃ m, b = .free m := by
      rw [← not_iff_not]
      push Not
      exact hI.touches_iff hk hkj hjk
    rw [hnot]
    constructor
    · rintro ⟨i, hmem, hij, hji⟩
      obtain ⟨m, hm⟩ := hS.mem_free_iff.mp hmem
      rw [hS.links.slab_free (by omega) hm] at hji
      -- Page `j` is in one block only.
      obtain rfl : k = i := by
        by_contra hne
        rcases hS.links.disjoint hk hm hne with hd | hd
        · exact absurd hjk (by omega)
        · rw [Block.len] at hd
          omega
      rw [hk] at hm
      exact ⟨m, Option.some.inj hm⟩
    · rintro ⟨m, rfl⟩
      exact ⟨k, hS.mem_free_iff.mpr ⟨m, hk⟩, hkj, by rwa [hS.links.slab_free (by omega) hk]⟩

/-- A page with a free chunk is in the list of its slot. -/
theorem Inv.slab_of_roomyPage (hI : Inv st N blk ring) (h : RoomyPage st i shift) :
    blk i = some (.slab shift false) := by
  have hS := hI.sound
  have hg := hS.geometry
  obtain ⟨⟨p, size, hmem, hsize, hclass, hlo, hhi⟩, j, hres, hj, hfree⟩ := h
  have hc := (classOf_eq_chunk_iff hg).mpr ⟨hsize, hclass⟩
  obtain ⟨k, b, hk, hat⟩ := hI.holds p size hmem
  obtain ⟨hstart, hend, hpos, _⟩ := hS.at_bounds hk hat
  rw [hc] at hat
  rcases b with m | m | ⟨shift', full⟩
  · exact hat.elim
  · cases hat.1
  · cases hat.1
    rw [hg.addr] at hlo hhi
    rw [Block.len] at hend
    obtain rfl : k = i := by omega
    cases full with
    | false => exact hk
    | true =>
      -- in a full page every chunk is live
      have hset := (hS.chunk k shift true hk).full_iff.mp rfl j hj
      obtain ⟨size', hmem'⟩ := hI.live _ _ ⟨k, _, hk, rfl, j, hj, hres, hset, rfl⟩
      exact absurd (List.mem_map_of_mem hmem') hfree

/-- A page in the list of its slot has a chunk in use, and one that is not. -/
theorem Inv.roomyPage_of_slab (hI : Inv st N blk ring) (hi : blk i = some (.slab shift false)) :
    RoomyPage st i shift := by
  have hS := hI.sound
  have hb := hS.shift_bounds hi
  have hc := hS.chunk i shift false hi
  have hpow := Nat.two_pow_pos shift
  constructor
  · -- A slab page without a chunk in use would have been freed.
    obtain ⟨k, hk, hresk, hsetk⟩ := hS.inUse i shift false hi
    have hholds : Holds st.pool blk (st.pool.addr i + k <<< shift) (.chunk shift) :=
      ⟨i, _, hi, rfl, k, hk, hresk, hsetk, rfl⟩
    obtain ⟨size, hmem⟩ := hI.live _ _ hholds
    have hclass := hS.holds_unique (hI.holds _ size hmem) hholds
    have hend := chunk_end hb.2 hk
    obtain ⟨hsize, hshift⟩ := (classOf_eq_chunk_iff hS.geometry).mp hclass
    refine ⟨_, size, hmem, hsize, hshift, Nat.le_add_right _ _, ?_⟩
    rw [Nat.shiftLeft_eq]
    omega
  · have hnot : ¬ st.pool.Full i shift := fun h => Bool.false_ne_true (hc.full_iff.mpr h)
    unfold Pool.Full at hnot
    push Not at hnot
    obtain ⟨j, hj, hclear⟩ := hnot
    refine ⟨j, ?_, hj, fun hlive => ?_⟩
    · -- the bits of the bitmap's own chunks are set
      by_contra hlt
      exact hclear (hc.reserved j (Nat.lt_of_not_le hlt))
    · -- a live chunk has its bit set
      obtain ⟨⟨p, size'⟩, hmem', hp⟩ := List.mem_map.mp hlive
      dsimp only at hp
      subst hp
      obtain ⟨_, a, _, _, hset, heq⟩ :=
        hS.at_of_holds_chunk hi Nat.one_pos hb.2 hj (hI.holds _ size' hmem')
      obtain rfl : j = a := (chunk_inj _).mp heq
      exact hclear hset

theorem Inv.exhausted_iff (hI : Inv st N blk ring) (size : Nat) :
    Exhausted blk (classOf st.pool size) ↔ NoRoom st (ring .free) size := by
  have hS := hI.sound
  have hlt := hS.pages_lt
  have hblocks (n : Nat) : (∀ i len, blk i = some (.free len) → len < n) ↔
      ∀ i ∈ ring .free, (st.pool.slab (.page i)).toNat < n := by
    constructor
    · intro h i hi
      obtain ⟨len, hlen⟩ := hS.mem_free_iff.mp hi
      rw [hS.links.slab_free (by omega) hlen]
      exact h i len hlen
    · intro h i len hi
      have hslab := h i (hS.mem_free_iff.mpr ⟨len, hi⟩)
      rwa [hS.links.slab_free (by omega) hi] at hslab
  unfold NoRoom
  by_cases hsize : size < 2048
  · have hone := hblocks 1
    simp only [Nat.lt_one_iff] at hone
    rw [if_pos hsize, classOf_chunk hS.geometry hsize, Exhausted, hone]
    exact and_congr_left' (forall_congr' fun i =>
      not_congr ⟨hI.roomyPage_of_slab, hI.slab_of_roomyPage⟩)
  · rw [if_neg hsize, classOf_pages (Nat.le_of_not_lt hsize)]
    exact hblocks _

/-! ## 4. Reachable states -/

/-- **When `ncx_slab_alloc` fails**: just when no page of the class has a free chunk and no free
block has a page, or no free block has as many pages as are asked for; and it changes nothing. -/
theorem alloc_null_iff_noRoom (h : Fits minShift base endAddr desc mem s N)
    (hst : (slabSystem s).Reachable st) :
    ∃ l, FreeBlocks st N l ∧ ∀ size : UInt64,
      ((∃ s', ncxSlabAllocLocked st.pool size.toNat = some (s', 0)) ↔ NoRoom st l size.toNat) ∧
        ∀ s', ncxSlabAllocLocked st.pool size.toNat = some (s', 0) → s' = st.pool := by
  obtain ⟨blk, ring, hI, _⟩ := h.reachable hst
  refine ⟨ring .free, hI.freeBlocks, fun size => ?_⟩
  obtain ⟨hnull, hsame⟩ := hI.sound.alloc_null_iff size.toNat
  exact ⟨hnull.trans (hI.exhausted_iff size.toNat), hsame⟩

theorem alloc_null_iff_noRoom_fourKinds :
    ∃ st, (slabSystem sevenPages).exec (slabSystem sevenPages).init fourKinds = some st ∧
      ∃ l, FreeBlocks st 7 l ∧
        ((∃ s', ncxSlabAllocLocked st.pool (10000 : UInt64).toNat = some (s', 0)) ↔
          NoRoom st l (10000 : UInt64).toNat) := by
  obtain ⟨st, hst, _⟩ := exec_fourKinds
  obtain ⟨l, hl, hnull⟩ :=
    alloc_null_iff_noRoom sevenPages_fits ((slabSystem sevenPages).reachable_of_exec hst)
  exact ⟨st, hst, l, hl, (hnull 10000).1⟩

end CcPof.Slab

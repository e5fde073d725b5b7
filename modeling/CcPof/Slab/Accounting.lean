import CcPof.Lib.Tiling
import CcPof.Slab.Disjoint

/-!
# Page accounting

The descriptors of a pool are tiled by free blocks, live allocations of pages and pages of chunks,
and the list of the free blocks has each of them once.
-/

namespace CcPof.Slab

variable {s : Pool} {N minShift base endAddr i : Nat} {desc : Ref → SlabPage} {mem : Mem}
  {st : State} {blk : Nat → Option Block} {ring : Ref → List Nat} {b : Block}

/-- The number of pages of the block that begins in a page, if one does. -/
def blockLen (blk : Nat → Option Block) (i : Nat) : Nat := ((blk i).map Block.len).getD 0

theorem blockLen_of {blk : Nat → Option Block} {b : Block} {i : Nat} (hi : blk i = some b) :
    blockLen blk i = b.len := by
  rw [blockLen, hi]
  rfl

/-- What the descriptors of a block hold. -/
def Accounted (st : State) (i : Nat) : Block → Prop
  | .free n => st.pool.slab (.page i) = BitVec.ofNat 64 n
  | .busy n => st.pool.slab (.page i) = BitVec.ofNat 64 n ||| pageStart ∧
      (∀ j, i < j → j < i + n → st.pool.slab (.page j) = pageBusy) ∧
      ∃ size, (st.pool.addr i, size) ∈ st.live ∧ classOf st.pool size = .pages n
  | .slab shift _ => st.pool.minShift ≤ shift ∧ shift < 12 ∧ st.pool.tag (.page i) = tagOf shift

/-- `pool->free` is the header of a list of the pages `l`, linked in both directions. -/
structure FreeList (s : Pool) (l : List Nat) : Prop where
  ring : Ring s.next s.prev .free (l.map .page)
  mirror : ∀ i ∈ l, s.next (s.prev (.page i)) = .page i ∧
    (s.next (.page i) ≠ .free → s.prev (s.next (.page i)) = .page i)

theorem Links.tiles (hL : Links s N blk ring) : Tiles N (blockLen blk) := by
  have hlen : ∀ i b, blk i = some b → blockLen blk i = b.len := by
    intro i b hi
    rw [blockLen, hi]
    rfl
  have hnone : ∀ i, blk i = none → blockLen blk i = 0 := by
    intro i hi
    rw [blockLen, hi]
    rfl
  constructor
  · intro i hi
    cases hb : blk i with
    | none =>
      rw [hnone i hb]
      omega
    | some b =>
      rw [hlen i b hb]
      exact hL.bound i b hb
  · -- Some block covers the page, and two blocks that do would overlap.
    intro j hj
    rcases hL.cover j hj with ⟨i, b, hi, hij, hji⟩
    refine ⟨i, ⟨hij, by rw [hlen i b hi]; exact hji⟩, ?_⟩
    rintro k ⟨hkj, hjk⟩
    cases hb : blk k with
    | none =>
      rw [hnone k hb] at hjk
      omega
    | some c =>
      rw [hlen k c hb] at hjk
      by_contra hne
      rcases hL.disjoint hb hi hne with hd | hd <;> omega

theorem Sound.freeList (hS : Sound s N blk ring) : FreeList s (ring .free) where
  ring := hS.links.rings _ (Or.inl rfl)
  mirror _ hi := (hS.links.rings _ (Or.inl rfl)).mirror (List.mem_map_of_mem hi)

theorem Sound.mem_free_iff (hS : Sound s N blk ring) :
    i ∈ ring .free ↔ ∃ n, blk i = some (.free n) := by
  have hh : s.IsHeader .free := Or.inl rfl
  rw [hS.links.mem_ring _ i hh]
  constructor
  · rintro ⟨b, hi, hhome⟩
    rcases b with n | n | ⟨shift, full⟩
    · exact ⟨n, hi⟩
    · cases hhome
    · cases full <;> cases hhome
  · rintro ⟨n, hi⟩
    exact ⟨_, hi, rfl⟩

/-- The descriptors of a block hold what its kind asks for. -/
theorem Inv.accounted (hI : Inv st N blk ring) (hi : blk i = some b) : Accounted st i b := by
  have hS := hI.sound
  have hd := hS.links.desc i b hi
  rcases b with n | n | ⟨shift, full⟩
  · exact hd.1
  · refine ⟨?_, fun j hij hj => ?_, ?_⟩
    · rw [Pool.slab, hd.1]
    · rw [Pool.slab, hd.2 j hij hj]
    · -- The block was given out, so its address is live.
      have hholds : Holds st.pool blk (st.pool.addr i) (.pages n) := ⟨i, _, hi, rfl, rfl⟩
      obtain ⟨size, hmem⟩ := hI.live _ _ hholds
      exact ⟨size, hmem, hS.holds_unique (hI.holds _ size hmem) hholds⟩
  · exact ⟨hd.1, hd.2.1, hd.2.2.1⟩

theorem pages_accounted (h : Fits minShift base endAddr desc mem s N) (hN : 0 < N)
    (hst : (slabSystem s).Reachable st) :
    ∃ blk : Nat → Option Block, Tiles N (blockLen blk) ∧
      (∀ i b, blk i = some b → i < N ∧ Accounted st i b) ∧
      (∃ l, FreeList st.pool l ∧ l.Nodup ∧ ∀ i, i ∈ l ↔ ∃ n, blk i = some (.free n)) ∧
      (∀ p size n, (p, size) ∈ st.live → classOf st.pool size = .pages n →
        ∃ i, p = st.pool.addr i ∧ blk i = some (.busy n)) ∧
      ∑ i ∈ Finset.range N, blockLen blk i = N := by
  rcases h.reachable hst with ⟨blk, ring, hI, -⟩
  have hS := hI.sound
  have hL := hS.links
  have htiles := hL.tiles
  refine ⟨blk, htiles, ?_, ⟨ring .free, hS.freeList, hL.ring_nodup (Or.inl rfl), fun i =>
    hS.mem_free_iff⟩, ?_, htiles.sum⟩
  · intro i b hi
    have hbound := hL.bound i b hi
    refine ⟨?_, hI.accounted hi⟩
    rcases hL.pos i b hi with hpos | ⟨hzero, -⟩ <;> omega
  · intro p size n hp hclass
    rcases hI.holds p size hp with ⟨i, b, hi, hq⟩
    rw [hclass] at hq
    rcases b with m | m | ⟨shift, full⟩
    · exact hq.elim
    · rcases hq with ⟨hm, hq⟩
      cases hm
      exact ⟨i, hq, hi⟩
    · cases hq.1

theorem pages_accounted_fourKinds :
    ∃ st, (slabSystem sevenPages).exec (slabSystem sevenPages).init fourKinds = some st ∧
      ∃ blk, Tiles 7 (blockLen blk) ∧ ∑ i ∈ Finset.range 7, blockLen blk i = 7 := by
  rcases exec_fourKinds with ⟨st, hst, -⟩
  rcases pages_accounted sevenPages_fits (by decide) ((slabSystem sevenPages).reachable_of_exec hst) with
    ⟨blk, htiles, -, -, -, hsum⟩
  exact ⟨st, hst, blk, htiles, hsum⟩

end CcPof.Slab

import CcPof.Slab.Clients

/-!
# Allocations do not overlap

The regions that the clients of a pool hold are apart from each other and from the bitmaps, lie in
the page area and begin at a multiple of their chunk size, in every state of every run.
-/

namespace CcPof.Slab

variable {s : Pool} {N minShift base endAddr p i sz : Nat} {desc : Ref → SlabPage} {mem : Mem}
  {st : State} {blk : Nat → Option Block} {ring : Ref → List Nat}

/-- The bytes of the bitmap at the front of a page with small chunks. -/
def bitmapBytes (s : Pool) (i : Nat) : Nat :=
  8 * ((1 <<< (s.pagesizeShift - (s.slab (.page i) &&& shiftMask).toNat)) / (8 * 8))

/-- The size of a chunk, or of a page, for a request. -/
def grain (s : Pool) (size : Nat) : Nat :=
  if s.maxSize ≤ size then s.pagesize else 1 <<< requestShift s size

theorem grain_eq (hg : Geometry s N) (size : Nat) : grain s size = (classOf s size).align := by
  rw [grain, classOf, hg.maxSize, hg.pagesize]
  split
  · rfl
  · exact Nat.one_shiftLeft _

/-- A page with the tag of small chunks is one. -/
theorem Sound.slab_of_tag (hS : Sound s N blk ring) (hi : i < N) (htag : s.tag (.page i) ≠ .page) :
    ∃ shift full, blk i = some (.slab shift full) ∧ s.tag (.page i) = tagOf shift := by
  rcases hS.links.cover i hi with ⟨k, b, hk, hki, hik⟩
  have hd := hS.links.desc k b hk
  rcases b with n | n | ⟨shift, full⟩
  · refine absurd ?_ htag
    rcases Nat.eq_or_lt_of_le hki with rfl | hlt
    · exact hd.2.1
    · rw [Pool.tag, hd.2.2 i hlt hik]
      rfl
  · refine absurd ?_ htag
    rcases Nat.eq_or_lt_of_le hki with rfl | hlt
    · rw [Pool.tag, hd.1]
    · rw [Pool.tag, hd.2 i hlt hik]
  · rw [Block.len] at hik
    obtain rfl : k = i := by omega
    exact ⟨shift, full, hk, hd.2.2.1⟩

theorem Sound.bitmapBytes_eq (hS : Sound s N blk ring) (hi : i < N)
    (htag : s.tag (.page i) = .small) :
    ∃ shift full, blk i = some (.slab shift full) ∧ shift < 6 ∧
      bitmapBytes s i = chunks shift / 8 := by
  rcases hS.slab_of_tag hi (by rw [htag]; exact nofun) with ⟨shift, full, hblk, hshift⟩
  have hb := hS.shift_bounds hblk
  have h6 : shift < 6 := by
    by_contra hge
    rw [htag, tagOf, if_neg hge] at hshift
    split at hshift <;> cases hshift
  refine ⟨shift, full, hblk, h6, ?_⟩
  have hlow : (s.slab (.page i) &&& shiftMask).toNat = shift := by
    rw [(hS.chunk i shift full hblk).small h6]
    obtain rfl | rfl | rfl : shift = 3 ∨ shift = 4 ∨ shift = 5 := by omega
    all_goals decide
  have hchunks := chunks_small hb.1 h6
  rw [bitmapBytes, hlow, hS.geometry.shift]
  show 8 * (chunks shift / 64) = chunks shift / 8
  omega

theorem allocations_disjoint (h : Fits minShift base endAddr desc mem s N)
    (hst : (slabSystem s).Reachable st) :
    st.live.Pairwise (fun a b => a.1 + a.2 ≤ b.1 ∨ b.1 + b.2 ≤ a.1) ∧
    ∀ p size, (p, size) ∈ st.live →
      (st.pool.start ≤ p ∧ p + size ≤ st.pool.endAddr) ∧ p % grain st.pool size = 0 ∧
      ∀ i, i < N → st.pool.tag (.page i) = .small →
        p + size ≤ st.pool.addr i ∨ st.pool.addr i + bitmapBytes st.pool i ≤ p := by
  rcases h.reachable hst with ⟨blk, ring, hI, -⟩
  have hS := hI.sound
  have hle : ∀ size, size ≤ (classOf st.pool size).size := fun size => size_le_classOf hS.geometry
  constructor
  · -- A request may be smaller than what its class gives.
    have hne : st.live.Pairwise fun a b => a.1 ≠ b.1 := List.pairwise_map.mp hI.nodup
    apply hne.imp_of_mem
    rintro ⟨p, size⟩ ⟨q, size'⟩ hp hq hpq
    have hp' := hle size
    have hq' := hle size'
    rcases hS.holds_disjoint (hI.holds p size hp) (hI.holds q size' hq) hpq with hd | hd
    · left
      dsimp only
      omega
    · right
      dsimp only
      omega
  · intro p size hp
    have hholds := hI.holds p size hp
    have hin := hS.holds_bounds hholds
    have hfit := hS.geometry.fit
    have hsize := hle size
    refine ⟨⟨hin.1, by omega⟩, ?_, ?_⟩
    · rw [grain_eq hS.geometry]
      exact hS.holds_aligned hholds
    · intro i hi htag
      rcases hS.bitmapBytes_eq hi htag with ⟨shift, full, hblk, h6, hbytes⟩
      rw [hbytes]
      rcases hS.holds_bitmap hholds hblk h6 with hd | hd
      · left
        omega
      · exact Or.inr hd

/-- A pool of seven pages, with chunks of three kinds and two pages in a row. -/
def sevenPages : Pool := (ncxSlabInit 12 3 4096 40000 (fun _ => zeroPage) (fun _ => 0)).1

def fourKinds : List Act :=
  [.alloc 8, .alloc 100, .alloc 64, .alloc 5000, .alloc 8, .free 8256, .write 8264 8 3 7]

theorem sevenPages_fits :
    Fits 3 4096 40000 (fun _ => zeroPage) (fun _ => 0) sevenPages 7 where
  init := rfl
  three_le := by decide
  le_eleven := by decide
  fit := by decide +kernel
  bound := by decide

theorem exec_fourKinds :
    ∃ st, (slabSystem sevenPages).exec (slabSystem sevenPages).init fourKinds = some st ∧
      st.live = [(8264, 8), (20480, 5000), (16384, 64), (12288, 100)] := by
  have hexec : ((slabSystem sevenPages).exec (slabSystem sevenPages).init fourKinds).map (·.live) =
      some [(8264, 8), (20480, 5000), (16384, 64), (12288, 100)] := by decide +kernel
  exact Option.map_eq_some_iff.mp hexec

theorem allocations_disjoint_fourKinds :
    ∃ st, (slabSystem sevenPages).exec (slabSystem sevenPages).init fourKinds = some st ∧
      st.live = [(8264, 8), (20480, 5000), (16384, 64), (12288, 100)] ∧
      st.live.Pairwise (fun a b => a.1 + a.2 ≤ b.1 ∨ b.1 + b.2 ≤ a.1) := by
  rcases exec_fourKinds with ⟨st, hst, hlive⟩
  have hreach := (slabSystem sevenPages).reachable_of_exec hst
  exact ⟨st, hst, hlive, (allocations_disjoint sevenPages_fits hreach).1⟩

/-- No request and no release of what a client holds follows a NULL pointer. -/
theorem alloc_free_enabled (h : Fits minShift base endAddr desc mem s N)
    (hst : (slabSystem s).Reachable st) :
    (∀ size, ∃ st', step st (.alloc size) = some st') ∧
      ∀ p size, (p, size) ∈ st.live → ∃ st', step st (.free p) = some st' := by
  rcases h.reachable hst with ⟨blk, ring, hI, -⟩
  constructor
  · intro size
    rcases hI.sound.alloc size.toNat with ⟨s', p, hs, -⟩ | ⟨hs, -⟩
    · exact ⟨_, Option.map_eq_some_iff.mpr ⟨_, hs, rfl⟩⟩
    · exact ⟨_, Option.map_eq_some_iff.mpr ⟨_, hs, rfl⟩⟩
  · intro p size hp
    rcases hI.sound.free (hI.holds p size hp) with ⟨s', -, -, hs, -⟩
    have hmem : p ∈ st.live.map Prod.fst := List.mem_map.mpr ⟨_, hp, rfl⟩
    exact ⟨_, (if_pos hmem).trans (Option.map_eq_some_iff.mpr ⟨_, hs, rfl⟩)⟩

end CcPof.Slab

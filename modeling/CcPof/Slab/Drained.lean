import CcPof.Slab.SlotLists

/-!
# A pool whose allocations were all freed

The pages are free blocks again, but `ncx_slab_free_pages` does not merge them: what a request of
several pages finds depends on the blocks that earlier requests cut out.
-/

namespace CcPof.Slab

variable {s s' : Pool} {N minShift base endAddr i sz : Nat} {desc : Ref → SlabPage} {mem : Mem}
  {st : State} {blk : Nat → Option Block} {ring : Ref → List Nat}

/-- `ncx_slab_alloc` does not return NULL. -/
def Satisfies (s : Pool) (size : Nat) : Prop :=
  ∃ s' p, ncxSlabAllocLocked s size = some (s', p) ∧ p ≠ 0

/-- The pages that a request takes from `pool->free` when there is no page of chunks for it. -/
def pagesFor (s : Pool) (size : Nat) : Nat :=
  if s.maxSize ≤ size then (size >>> s.pagesizeShift) + (if size % s.pagesize ≠ 0 then 1 else 0)
  else 1

/-- There is nothing but free blocks. -/
def OnlyFree (blk : Nat → Option Block) : Prop :=
  ∀ i b, blk i = some b → b = .free b.len

/-- The list of the free blocks has all pages, and the lists of the slots are empty. -/
structure Drained (s : Pool) (N : Nat) (l : List Nat) : Prop where
  list : FreeList s l
  nodup : l.Nodup
  tiles : Tiles N fun i => if i ∈ l then (s.slab (.page i)).toNat else 0
  slots : ∀ k, k + s.minShift < 12 → s.next (.slot k) = .slot k

theorem pagesFor_pos (s : Pool) (hpages : s.pagesizeShift = 12) (size : Nat) : 0 < pagesFor s size := by
  have hsize : s.pagesize = 4096 := by
    unfold Pool.pagesize
    rw [hpages]
    decide
  unfold pagesFor Pool.maxSize
  rw [hsize, hpages, Nat.shiftRight_eq_div_pow]
  split_ifs <;> omega

theorem OnlyFree.ne_slab (h : OnlyFree blk) {shift : Nat} {full : Bool} :
    blk i ≠ some (.slab shift full) := by
  intro hi
  cases h i _ hi

/-- A request is served unless neither list has what it asks for. -/
theorem Sound.satisfies_iff_not_exhausted (hS : Sound s N blk ring) (size : Nat) :
    Satisfies s size ↔ ¬ Exhausted blk (classOf s size) := by
  rw [← (hS.alloc_null_iff size).1]
  rcases hS.alloc size with ⟨s', p, hs, _, _, hp, _⟩ | ⟨hs, _⟩
  · refine iff_of_true ⟨s', p, hs, hp⟩ ?_
    rintro ⟨t, ht⟩
    rw [hs] at ht
    cases ht
    exact hp rfl
  · refine iff_of_false ?_ (not_not.mpr ⟨s, hs⟩)
    rintro ⟨t, p, ht, hp⟩
    rw [hs] at ht
    cases ht
    exact hp rfl

/-- Without pages of chunks a request is served when some free block is long enough. -/
theorem Sound.satisfies_iff (hS : Sound s N blk ring) (hfree : OnlyFree blk) (size : Nat) :
    Satisfies s size ↔ ∃ i n, blk i = some (.free n) ∧ pagesFor s size ≤ n := by
  have hg := hS.geometry
  rw [hS.satisfies_iff_not_exhausted, ← not_iff_not, not_not]
  push Not
  unfold classOf pagesFor
  rw [hg.maxSize, hg.shift, hg.pagesize]
  by_cases hbig : 2048 ≤ size
  · rw [if_pos hbig, if_pos hbig]
    exact Iff.rfl
  · rw [if_neg hbig, if_neg hbig]
    simp only [Exhausted, Nat.lt_one_iff]
    exact and_iff_right fun _ => hfree.ne_slab

/-- A block other than a free one has given something out. -/
theorem Inv.onlyFree (h : Inv st N blk ring) (hlive : st.live = []) : OnlyFree blk := by
  have hnone : ∀ p c, ¬ Holds st.pool blk p c := by
    intro p c hp
    obtain ⟨size, hmem⟩ := h.live p c hp
    rw [hlive] at hmem
    cases hmem
  intro i b hi
  rcases b with n | n | ⟨shift, full⟩
  · rfl
  · exact absurd ⟨i, _, hi, rfl, rfl⟩ (hnone (st.pool.addr i) (.pages n))
  · obtain ⟨j, hj, hres, hset⟩ := h.sound.inUse i shift full hi
    exact absurd ⟨i, _, hi, rfl, j, hj, hres, hset, rfl⟩ (hnone _ (.chunk shift))

theorem Sound.free_len (hS : Sound s N blk ring) {n : Nat} (hi : blk i = some (.free n)) :
    (s.slab (.page i)).toNat = n := by
  have hlt := hS.pages_lt
  exact hS.links.slab_free (by omega) hi

theorem Sound.drained (hS : Sound s N blk ring) (hfree : OnlyFree blk) :
    Drained s N (ring .free) where
  list := hS.freeList
  nodup := hS.links.ring_nodup (Or.inl rfl)
  tiles := by
    have hlen : (fun i => if i ∈ ring .free then (s.slab (.page i)).toNat else 0) = blockLen blk := by
      ext i
      unfold blockLen
      cases hi : blk i with
      | none =>
        rw [if_neg]
        · rfl
        · intro hmem
          obtain ⟨n, hn⟩ := hS.mem_free_iff.mp hmem
          rw [hi] at hn
          cases hn
      | some b =>
        have hb : blk i = some (.free b.len) := by rw [hi, ← hfree i b hi]
        rw [if_pos (hS.mem_free_iff.mpr ⟨_, hb⟩), hS.free_len hb]
        rfl
    rw [hlen]
    exact hS.links.tiles
  slots k hk := by
    have hh : s.IsHeader (.slot k) := Or.inr ⟨k, rfl, hk⟩
    rcases hS.links.first_cases hh with ⟨hnext, -⟩ | ⟨i, r, hring, -⟩
    · exact hnext
    · -- A page in the list of a slot has chunks.
      have hmem : i ∈ ring (.slot (k + s.minShift - s.minShift)) := by
        rw [Nat.add_sub_cancel, hring]
        exact List.mem_cons_self
      exact absurd (hS.links.slab_of_mem (Nat.le_add_left _ k) hmem hk) hfree.ne_slab

/-- When nothing is live every page is in a free block again. A request is served just when one of
these blocks is long enough, which is so for all that the new pool served out of a single page. -/
theorem drained_of_no_live (h : Fits minShift base endAddr desc mem s N)
    (hst : (slabSystem s).Reachable st) (hlive : st.live = []) :
    ∃ l, Drained st.pool N l ∧
      (∀ size, Satisfies st.pool size ↔
        ∃ i ∈ l, pagesFor st.pool size ≤ (st.pool.slab (.page i)).toNat) ∧
      ∀ size, size ≤ 4096 → Satisfies s size → Satisfies st.pool size := by
  obtain ⟨blk, ring, hI, hsite⟩ := h.reachable hst
  obtain ⟨ring₀, hI₀⟩ := h.inv
  have hS := hI.sound
  have hS₀ : Sound s N _ ring₀ := hI₀.sound
  have hfree := hI.onlyFree hlive
  have hfree₀ := hI₀.onlyFree rfl
  refine ⟨ring .free, hS.drained hfree, ?_, ?_⟩
  · intro size
    rw [hS.satisfies_iff hfree]
    constructor
    · rintro ⟨i, n, hi, hle⟩
      exact ⟨i, hS.mem_free_iff.mpr ⟨n, hi⟩, by rwa [hS.free_len hi]⟩
    · rintro ⟨i, hi, hle⟩
      obtain ⟨n, hn⟩ := hS.mem_free_iff.mp hi
      exact ⟨i, n, hn, by rwa [← hS.free_len hn]⟩
  · intro size hsize hfresh
    rw [hS₀.satisfies_iff hfree₀] at hfresh
    obtain ⟨i₀, n, hi₀, hle⟩ := hfresh
    have hbound : i₀ + n ≤ N := hS₀.links.bound i₀ _ hi₀
    have hpos₀ := pagesFor_pos s hS₀.geometry.shift size
    -- The pool has a page, so it has a block, and one page is enough.
    obtain ⟨i, b, hi, -, hlt⟩ := hS.links.cover 0 (by omega)
    have hb : blk i = some (.free b.len) := by rw [hi, ← hfree i b hi]
    have hpos := hS.links.pos i b hi
    have hone : pagesFor st.pool size ≤ 1 := by
      unfold pagesFor
      rw [hS.geometry.maxSize, hS.geometry.shift, hS.geometry.pagesize, Nat.shiftRight_eq_div_pow]
      split_ifs <;> omega
    rw [hS.satisfies_iff hfree]
    exact ⟨i, b.len, hb, by omega⟩

/-! ## Blocks that are not merged -/

theorem satisfies_of_snd {size p : Nat} (hs : (ncxSlabAllocLocked s size).map Prod.snd = some p) :
    Satisfies s size ↔ p ≠ 0 := by
  obtain ⟨⟨s₁, q⟩, hs₁, hq⟩ := Option.map_eq_some_iff.mp hs
  dsimp only at hq
  subst hq
  constructor
  · rintro ⟨s', q', hs', hq'⟩
    rw [hs₁] at hs'
    cases hs'
    exact hq'
  · exact fun hq => ⟨s₁, q, hs₁, hq⟩

def onePageAndBack : List Act := [.alloc 4096, .free 8192]

/-- The run leaves a block of one page and a block of six. -/
theorem exec_onePageAndBack :
    ∃ st, (slabSystem sevenPages).exec (slabSystem sevenPages).init onePageAndBack = some st ∧
      st.live = [] ∧ (ncxSlabAllocLocked st.pool 28672).map Prod.snd = some 0 := by
  have hexec : ((slabSystem sevenPages).exec (slabSystem sevenPages).init onePageAndBack).map
      (fun st => (st.live, (ncxSlabAllocLocked st.pool 28672).map Prod.snd)) =
      some ([], some 0) := by decide +kernel
  obtain ⟨st, hst, heq⟩ := Option.map_eq_some_iff.mp hexec
  rw [Prod.mk.injEq] at heq
  exact ⟨st, hst, heq.1, heq.2⟩

theorem drained_of_no_live_sevenPages :
    ∃ st, (slabSystem sevenPages).exec (slabSystem sevenPages).init onePageAndBack = some st ∧
      ∃ l, Drained st.pool 7 l := by
  obtain ⟨st, hst, hlive, -⟩ := exec_onePageAndBack
  have hreach := (slabSystem sevenPages).reachable_of_exec hst
  obtain ⟨l, hl, -⟩ := drained_of_no_live sevenPages_fits hreach hlive
  exact ⟨st, hst, l, hl⟩

/-- A pool whose only page begins behind its end: the release of the page is refused. -/
def pageBehindEnd : Pool := (ncxSlabInit 12 3 3784 7984 (fun _ => zeroPage) (fun _ => 0)).1

theorem freed_pages_not_merged :
    (∃ st, (slabSystem sevenPages).exec (slabSystem sevenPages).init onePageAndBack = some st ∧
      st.live = [] ∧ Satisfies sevenPages 28672 ∧ ¬ Satisfies st.pool 28672) ∧
    ∃ st, (slabSystem pageBehindEnd).exec (slabSystem pageBehindEnd).init onePageAndBack = some st ∧
      st.live = [] ∧ Satisfies pageBehindEnd 4096 ∧ ¬ Satisfies st.pool 4096 := by
  constructor
  · obtain ⟨st, hst, hlive, hnull⟩ := exec_onePageAndBack
    have hnew : (ncxSlabAllocLocked sevenPages 28672).map Prod.snd = some 8192 := by decide +kernel
    exact ⟨st, hst, hlive, (satisfies_of_snd hnew).mpr (by decide),
      fun hs => (satisfies_of_snd hnull).mp hs rfl⟩
  · have hexec : ((slabSystem pageBehindEnd).exec (slabSystem pageBehindEnd).init onePageAndBack).map
        (fun st => (st.live, (ncxSlabAllocLocked st.pool 4096).map Prod.snd)) =
        some ([], some 0) := by decide +kernel
    obtain ⟨st, hst, heq⟩ := Option.map_eq_some_iff.mp hexec
    rw [Prod.mk.injEq] at heq
    have hnew : (ncxSlabAllocLocked pageBehindEnd 4096).map Prod.snd = some 8192 := by decide +kernel
    exact ⟨st, hst, heq.1, (satisfies_of_snd hnew).mpr (by decide),
      fun hs => (satisfies_of_snd heq.2).mp hs rfl⟩

end CcPof.Slab

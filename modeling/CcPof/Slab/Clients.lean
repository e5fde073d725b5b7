import CcPof.Slab.Free

/-!
# The pool and its clients

The allocations that the clients hold are those that the pool has given out, in every state that
runs from an initialised pool reach.
-/

namespace CcPof.Slab

variable {s s' : Pool} {N : Nat} {blk blk' : Nat → Option Block} {ring ring' : Ref → List Nat}
  {st st' : State} {i j p q sz off shift : Nat} {full : Bool} {c : Class} {v : UInt8}

/-- The pool is in order and has given out what the clients hold. -/
structure Inv (st : State) (N : Nat) (blk : Nat → Option Block) (ring : Ref → List Nat) : Prop where
  sound : Sound st.pool N blk ring
  nodup : (st.live.map Prod.fst).Nodup
  holds : ∀ p size, (p, size) ∈ st.live → Holds st.pool blk p (classOf st.pool size)
  live : ∀ p c, Holds st.pool blk p c → ∃ size, (p, size) ∈ st.live

theorem SameSite.classOf (h : SameSite s s') (sz : Nat) : classOf s' sz = classOf s sz := by
  rw [CcPof.Slab.classOf, CcPof.Slab.classOf, requestShift, requestShift, Pool.minSize, Pool.minSize,
    h.minShift]

/-! ## 1. A write of a client -/

/-- Bytes that are in no bitmap. -/
theorem Sound.write (hS : Sound s N blk ring) (hsite : SameSite s s') (hdesc : s'.desc = s.desc)
    (hmem : ∀ i shift full, blk i = some (.slab shift full) → shift < 6 →
      AgreeOn (s.addr i) (s.addr i + chunks shift / 8) s.mem s'.mem) :
    Sound s' N blk ring ∧ ∀ q d, Holds s' blk q d ↔ Holds s blk q d := by
  have hslab : ∀ x, s'.slab x = s.slab x := fun x => by rw [Pool.slab, Pool.slab, hdesc]
  have hbits : ∀ i shift full j, blk i = some (.slab shift full) → j < chunks shift →
      s'.bit i shift j = s.bit i shift j := by
    intro i shift full j hi hj
    apply Pool.bit_congr (hsite.addr i) (hS.shift_bounds hi).1 _ (fun _ => hslab _) hj
    exact hmem i shift full hi
  have hlinks : Links s' N blk ring := by
    apply hS.links.congr hsite.minShift
    · intro x
      rw [hslab, hdesc]
    · exact fun _ _ => hslab _
  refine ⟨hS.forget hsite hlinks ?_, ?_⟩
  · intro i shift full hi
    exact ⟨hi, hslab _, fun j hj => hbits i shift full j hi hj⟩
  · intro q d
    constructor
    · rintro ⟨i, b, hi, hq⟩
      refine ⟨i, b, hi, (At.congr (hsite.addr i) ?_).mp hq⟩
      rintro shift full j rfl hj
      exact hbits i shift full j hi hj
    · rintro ⟨i, b, hi, hq⟩
      refine ⟨i, b, hi, (At.congr (hsite.addr i) ?_).mpr hq⟩
      rintro shift full j rfl hj
      exact hbits i shift full j hi hj

/-! ## 2. Steps -/

theorem Inv.alloc (h : Inv st N blk ring) {size : UInt64} (hs : step st (.alloc size) = some st') :
    ∃ blk' ring', Inv st' N blk' ring' ∧ SameSite st.pool st'.pool := by
  rw [step, Option.map_eq_some_iff] at hs
  rcases hs with ⟨⟨s', p⟩, hs, hst⟩
  rcases h.sound.alloc size.toNat with ⟨s₁, p₁, h₁, blk', ring', hp, hS', hsite, hadds, hfresh⟩ | ⟨h₁, -⟩
  · rw [h₁] at hs
    cases hs
    have hst' := (if_neg hp).symm.trans hst
    subst hst'
    refine ⟨blk', ring', ⟨hS', ?_, ?_, ?_⟩, hsite⟩
    · rw [List.map_cons, List.nodup_cons]
      refine ⟨fun hmem => ?_, h.nodup⟩
      rcases List.mem_map.mp hmem with ⟨⟨p', size'⟩, hmem', rfl⟩
      exact hfresh _ (h.holds p' size' hmem')
    · intro q size' hq
      rw [hadds, hsite.classOf]
      rcases List.mem_cons.mp hq with hq | hq
      · cases hq
        exact Or.inr ⟨rfl, rfl⟩
      · exact Or.inl (h.holds q size' hq)
    · intro q c hq
      rcases (hadds q c).mp hq with hq | ⟨rfl, rfl⟩
      · rcases h.live q c hq with ⟨size', hmem⟩
        exact ⟨size', List.mem_cons_of_mem _ hmem⟩
      · exact ⟨size.toNat, List.mem_cons_self⟩
  · rw [h₁] at hs
    cases hs
    have hst' := (if_pos rfl).symm.trans hst
    subst hst'
    exact ⟨blk, ring, ⟨h.sound, h.nodup, h.holds, h.live⟩, SameSite.refl _⟩

theorem Inv.free (h : Inv st N blk ring) (hs : step st (.free p) = some st') :
    ∃ blk' ring', Inv st' N blk' ring' ∧ SameSite st.pool st'.pool := by
  rw [step] at hs
  split at hs
  · rename_i hmem
    rw [Option.map_eq_some_iff] at hs
    rcases hs with ⟨s', hs, rfl⟩
    obtain ⟨size, hmem⟩ : ∃ size, (p, size) ∈ st.live := by
      rcases List.mem_map.mp hmem with ⟨⟨p', size⟩, hmem', rfl⟩
      exact ⟨size, hmem'⟩
    rcases h.sound.free (h.holds p size hmem) with ⟨s₁, blk', ring', h₁, hS', hsite, hremoves⟩
    rw [h₁] at hs
    cases hs
    refine ⟨blk', ring', ⟨hS', ?_, ?_, ?_⟩, hsite⟩
    · exact h.nodup.sublist ((List.filter_sublist).map _)
    · intro q size' hq
      rw [List.mem_filter, decide_eq_true_iff] at hq
      rw [hremoves, hsite.classOf]
      exact ⟨h.holds q size' hq.1, hq.2⟩
    · intro q c hq
      rcases (hremoves q c).mp hq with ⟨hq, hne⟩
      rcases h.live q c hq with ⟨size', hmem'⟩
      exact ⟨size', List.mem_filter.mpr ⟨hmem', decide_eq_true hne⟩⟩
  · cases hs

theorem Inv.write (h : Inv st N blk ring) (hs : step st (.write p sz off v) = some st') :
    Inv st' N blk ring ∧ SameSite st.pool st'.pool := by
  rw [step] at hs
  split at hs
  · rename_i hcond
    cases hs
    have hp := h.holds p sz hcond.1
    have hle : sz ≤ (classOf st.pool sz).size := size_le_classOf h.sound.geometry
    have hsite : SameSite st.pool { st.pool with mem := put8 st.pool.mem (p + off) v } :=
      ⟨rfl, rfl, rfl, rfl⟩
    have hagree : ∀ i shift full, blk i = some (.slab shift full) → shift < 6 →
        AgreeOn (st.pool.addr i) (st.pool.addr i + chunks shift / 8) st.pool.mem
          (put8 st.pool.mem (p + off) v) := by
      intro i shift full hi h6 a hlo hhi
      have hout := h.sound.holds_bitmap hp hi h6
      exact (put8_outside (by omega)).symm
    rcases h.sound.write hsite rfl hagree with ⟨hS', hholds⟩
    refine ⟨⟨hS', h.nodup, ?_, ?_⟩, hsite⟩
    · intro q size hq
      rw [hholds, hsite.classOf]
      exact h.holds q size hq
    · intro q c hq
      exact h.live q c ((hholds q c).mp hq)
  · cases hs

/-- Every step of the clients keeps the invariant. -/
theorem Inv.step {a : Act} (h : Inv st N blk ring) (hs : step st a = some st') :
    ∃ blk' ring', Inv st' N blk' ring' ∧ SameSite st.pool st'.pool := by
  cases a with
  | alloc size => exact h.alloc hs
  | free p => exact h.free hs
  | write p size off v => exact ⟨blk, ring, h.write hs⟩

/-! ## 3. The initial pool -/

/-- What `ncx_slab_init` leaves. -/
theorem ncxSlabInit_spec {minShift base endAddr : Nat} {desc : Ref → SlabPage} {mem : Mem}
    (h : ncxSlabInit 12 minShift base endAddr desc mem = (s, N)) :
    (s.pagesizeShift = 12 ∧ s.minShift = minShift ∧ s.endAddr = endAddr) ∧
      (s.start % 4096 = 0 ∧ 0 < s.start) ∧ s.next .free = .page 0 ∧
      (∀ k, k + minShift < 12 → s.next (.slot k) = .slot k) ∧
      s.desc (.page 0) = ⟨BitVec.ofNat 64 N, .free, .free, .page⟩ ∧
      ∀ j, 0 < j → j < N → s.desc (.page j) = zeroPage := by
  have hpool := congrArg Prod.fst h
  have hpages := congrArg Prod.snd h
  dsimp only [ncxSlabInit] at hpool hpages
  subst hpool
  refine ⟨⟨rfl, rfl, rfl⟩, ⟨?_, ?_⟩, rfl, ?_, ?_, ?_⟩
  · exact Nat.mul_mod_left _ _
  · show 0 < (base + sizeofSlabPool + (12 - minShift) * sizeofSlabPage + _ * sizeofSlabPage +
      (1 <<< 12 - 1)) / 1 <<< 12 * 1 <<< 12
    have hle : 1 <<< 12 ≤ base + sizeofSlabPool + (12 - minShift) * sizeofSlabPage +
        (((endAddr : Int) - (base + sizeofSlabPool : Nat)) % 2 ^ 64).toNat /
          (1 <<< 12 + sizeofSlabPage) * sizeofSlabPage + (1 <<< 12 - 1) := by
      rw [sizeofSlabPool]
      omega
    exact Nat.mul_pos (Nat.div_pos hle (by decide)) (by decide)
  · intro k hk
    rw [Pool.next]
    dsimp only
    rw [if_pos (by omega)]
  · dsimp only
    rw [hpages]
  · intro j hj hlt
    obtain ⟨k, rfl⟩ : ∃ k, j = k + 1 := ⟨j - 1, by omega⟩
    dsimp only
    rw [if_pos]
    split at hpages <;> omega

/-- A pool that `ncx_slab_init` set up, with its page area in its memory. -/
structure Fits (minShift base endAddr : Nat) (desc : Ref → SlabPage) (mem : Mem) (s : Pool)
    (pages : Nat) : Prop where
  init : ncxSlabInit 12 minShift base endAddr desc mem = (s, pages)
  three_le : 3 ≤ minShift
  le_eleven : minShift ≤ 11
  fit : s.start + pages * 4096 ≤ endAddr
  bound : endAddr < 2 ^ 64

/-- The pages are one free block, the only one of its list, and the other lists are empty. -/
theorem Fits.inv {minShift base endAddr : Nat} {desc : Ref → SlabPage} {mem : Mem}
    (h : Fits minShift base endAddr desc mem s N) :
    ∃ ring, Inv { pool := s, live := [] } N (fun i => if i = 0 then some (.free N) else none) ring := by
  rcases ncxSlabInit_spec h.init with
    ⟨⟨hshift, hmin, hend⟩, ⟨halign, hpos⟩, hfree, hslots, hpage, hrest⟩
  have hg : Geometry s N := by
    refine ⟨hshift, ?_, ?_, halign, hpos, ?_, ?_⟩
    · rw [hmin]
      exact h.three_le
    · rw [hmin]
      exact h.le_eleven
    · rw [hend, Nat.mul_comm]
      exact h.fit
    · rw [hend]
      exact h.bound
  have hblk : ∀ i b, (if i = 0 then some (Block.free N) else none) = some b →
      i = 0 ∧ b = .free N := by
    intro i b hi
    split at hi
    · exact ⟨‹_›, (Option.some.inj hi).symm⟩
    · cases hi
  have hlinks : Links s N (fun i => if i = 0 then some (.free N) else none)
      (fun h => if h = .free then [0] else []) := by
    refine ⟨?_, ?_, ?_, ?_, ?_, ?_, ?_⟩
    · intro i b hi
      rcases hblk i b hi with ⟨rfl, rfl⟩
      exact le_of_eq (Nat.zero_add N)
    · intro i b hi
      rcases hblk i b hi with ⟨rfl, rfl⟩
      rcases Nat.eq_zero_or_pos N with rfl | hN
      · exact Or.inr ⟨rfl, rfl⟩
      · exact Or.inl hN
    · intro i b j hi hij _
      exact if_neg (by omega)
    · intro j hj
      exact ⟨0, .free N, rfl, Nat.zero_le j, by rw [Block.len]; omega⟩
    · intro i b hi
      rcases hblk i b hi with ⟨rfl, rfl⟩
      refine ⟨?_, ?_, fun j hj hlt => hrest j hj (by omega)⟩
      · rw [Pool.slab, hpage]
      · rw [Pool.tag, hpage]
    · -- The header of the free list and page 0 are each other's neighbours.
      rintro h (rfl | ⟨k, rfl, hk⟩)
      · refine ⟨hfree, ⟨?_, ?_, trivial⟩, by decide⟩
        · show (s.desc (.page 0)).prev = .free
          rw [hpage]
        · show (s.desc (.page 0)).next = .free
          rw [hpage]
      · exact ⟨hslots k (by omega), trivial, List.nodup_singleton _⟩
    · intro h i hh
      constructor
      · intro hi
        split at hi
        · rename_i hfree'
          rw [List.mem_singleton] at hi
          exact ⟨.free N, if_pos hi, by rw [hfree']; rfl⟩
        · cases hi
      · rintro ⟨b, hi, hhome⟩
        rcases hblk i b hi with ⟨rfl, rfl⟩
        cases hhome
        exact List.mem_singleton_self 0
  -- There is no page of chunks yet, and nothing was given out.
  refine ⟨_, ⟨⟨hg, hlinks, ?_, ?_⟩, List.nodup_nil, fun p c hpc => absurd hpc List.not_mem_nil, ?_⟩⟩
  · intro i shift full hi
    cases (hblk i _ hi).2
  · intro i shift full hi
    cases (hblk i _ hi).2
  · rintro p c ⟨i, b, hi, hq⟩
    rcases hblk i b hi with ⟨rfl, rfl⟩
    exact hq.elim

/-- In every state that a run reaches the pool is in order. -/
theorem Fits.reachable {minShift base endAddr : Nat} {desc : Ref → SlabPage} {mem : Mem}
    (h : Fits minShift base endAddr desc mem s N) (hst : (slabSystem s).Reachable st) :
    ∃ blk ring, Inv st N blk ring ∧ SameSite s st.pool := by
  have hinv : (slabSystem s).Invariant fun st =>
      ∃ blk ring, Inv st N blk ring ∧ SameSite s st.pool := by
    refine ⟨?_, ?_⟩
    · rcases h.inv with ⟨ring, hI⟩
      exact ⟨_, ring, hI, SameSite.refl s⟩
    · rintro st st' a ⟨blk, ring, hI, hsite⟩ hs
      rcases hI.step hs with ⟨blk', ring', hI', hsite'⟩
      exact ⟨blk', ring', hI', hsite.trans hsite'⟩
  exact hinv.of_reachable hst

end CcPof.Slab

import CcPof.Slab.Cells

/-!
# Allocation

`ncx_slab_alloc` gives out one more address, of the class of the request, or returns NULL and
changes nothing, when no list has what is asked for.
-/

namespace CcPof.Slab

variable {s s' t : Pool} {N : Nat} {blk blk' : Nat → Option Block} {ring ring' : Ref → List Nat}
  {i j k n p q sz shift : Nat} {full : Bool} {c : Class}

/-- No free block, and no page with a free chunk, serves a request of this class. -/
def Exhausted (blk : Nat → Option Block) : Class → Prop
  | .pages n => ∀ i len, blk i = some (.free len) → len < n
  | .chunk shift => (∀ i, blk i ≠ some (.slab shift false)) ∧
      ∀ i len, blk i = some (.free len) → len = 0

/-- One more address is given out. -/
def Adds (s s' : Pool) (blk blk' : Nat → Option Block) (p : Nat) (c : Class) : Prop :=
  (∀ q d, Holds s' blk' q d ↔ Holds s blk q d ∨ q = p ∧ d = c) ∧ ∀ d, ¬ Holds s blk p d

/-- The result of a request that is served. -/
def Serves (s : Pool) (N : Nat) (blk : Nat → Option Block) (c : Class) (s' : Pool) (p : Nat) : Prop :=
  ∃ blk' ring', p ≠ 0 ∧ Sound s' N blk' ring' ∧ SameSite s s' ∧ Adds s s' blk blk' p c

theorem Sound.addr_ne_zero (hS : Sound s N blk ring) (i off : Nat) : s.addr i + off ≠ 0 := by
  have hpos := hS.geometry.start_pos
  rw [hS.geometry.addr]
  omega

/-- A free block has no address that was given out. -/
theorem Sound.not_holds_free (hS : Sound s N blk ring) {len : Nat} (hi : blk i = some (.free len))
    (hpos : 0 < len) : ∀ d, ¬ Holds s blk (s.addr i) d := by
  intro d hq
  have haddr := hS.geometry.addr i
  exact hS.at_of_holds hi (le_of_eq haddr.symm) (by rw [Block.len]; omega) hq

theorem Sound.allocPages_serves (hS : Sound s N blk ring) (hn : 0 < n) :
    (∃ s' i, ncxSlabAllocPages s n = some (s', some i) ∧ Serves s N blk (.pages n) s' (s'.addr i)) ∨
    (ncxSlabAllocPages s n = some (s, none) ∧ Exhausted blk (.pages n)) := by
  rcases hS.allocPages hn with ⟨i, len, s', ring', hi, hle, hs', hS', hsite, hbits⟩ | ⟨hnone, hs⟩
  · left
    refine ⟨s', i, hs', carve blk i n len, ring', ?_, hS', hsite, ?_, ?_⟩
    · exact hS'.addr_ne_zero i 0
    · intro q d
      rw [holds_iff (carve_self hn), holds_iff hi, HoldsBut.congr hsite]
      · -- What the block at `i` gives out is the new address.
        have hfree : At s i (.free len) q d ↔ False := Iff.rfl
        rw [hfree, or_false, At, and_comm]
      · exact fun k b hki hb => hS.links.carve_iff hi hn hki hb
      · intro k shift full j hki hk hj
        exact hbits k shift full hk j
    · rw [hsite.addr]
      exact hS.not_holds_free hi (by omega)
  · exact Or.inr ⟨hs, hnone⟩

theorem Sound.takeBit_serves (hS : Sound s N blk ring) (hi : blk i = some (.slab shift false))
    (hj : j < chunks shift) (hbit : s.bit i shift j = false) :
    ∃ s', s.takeBit i shift j = some s' ∧
      Serves s N blk (.chunk shift) s' (s.addr i + j <<< shift) := by
  have hb := hS.shift_bounds hi
  have hres : reserved shift ≤ j := by
    by_contra hlt
    rw [(hS.chunk i shift false hi).reserved j (by omega)] at hbit
    cases hbit
  rcases hS.takeBit hi hj hbit with ⟨s', ring', full', hs', hS', hsite, hbits⟩
  refine ⟨s', hs', _, ring', hS.addr_ne_zero i _, hS', hsite, ?_, ?_⟩
  · intro q d
    rw [holds_iff (Function.update_self ..), holds_iff hi, HoldsBut.congr hsite]
    · rw [or_assoc]
      apply or_congr_right
      constructor
      · rintro ⟨rfl, k, hk, hresk, hset, rfl⟩
        rw [hbits i shift false k hi hk] at hset
        by_cases hkj : k = j
        · subst hkj
          exact Or.inr ⟨by rw [hsite.addr], rfl⟩
        · rw [if_neg (fun hboth => hkj hboth.2)] at hset
          exact Or.inl ⟨rfl, k, hk, hresk, hset, by rw [hsite.addr]⟩
      · rintro (⟨rfl, k, hk, hresk, hset, rfl⟩ | ⟨rfl, rfl⟩)
        · refine ⟨rfl, k, hk, hresk, ?_, by rw [hsite.addr]⟩
          rw [hbits i shift false k hi hk]
          split
          · rfl
          · exact hset
        · refine ⟨rfl, j, hj, hres, ?_, by rw [hsite.addr]⟩
          rw [hbits i shift false j hi hj, if_pos ⟨rfl, rfl⟩]
    · intro k b hki _
      rw [Function.update_of_ne hki]
    · intro k shift' full'' j' hki hk hj'
      rw [hbits k shift' full'' j' hk hj', if_neg (fun hboth => hki hboth.1)]
  · -- The chunk was free.
    intro d hq
    rcases hS.at_of_holds_chunk hi Nat.one_pos hb.2 hj hq with ⟨-, a, ha, -, hset, heq⟩
    have haj : a = j := ((chunk_inj _).mp heq).symm
    rw [haj, hbit] at hset
    cases hset

/-- A page that was just allocated becomes the only one of its slot list. -/
theorem Sound.freshSlab (hS : Sound s N blk ring) (hi : blk i = some (.busy 1))
    (hmin : s.minShift ≤ shift) (h12 : shift < 12)
    (hempty : ∀ k, blk k ≠ some (.slab shift false)) :
    ∃ s' ring', freshSlab s shift (shift - s.minShift) i =
        (s', s.addr i + reserved shift <<< shift) ∧
      Sound s' N (Function.update blk i (some (.slab shift false))) ring' ∧ SameSite s s' ∧
      (∀ k, k < chunks shift → s'.bit i shift k = decide (k ≤ reserved shift)) ∧
      ∀ k shift' full j, blk k = some (.slab shift' full) → j < chunks shift' →
        s'.bit k shift' j = s.bit k shift' j := by
  have hg := hS.geometry
  have h3 : 3 ≤ shift := Nat.le_trans hg.three_le hmin
  have hlt := reserved_lt h3 h12
  rcases freshSlab_spec hg h3 h12 (shift - s.minShift) i with ⟨t, w, heq, ht, hmem, hchunk, hbits⟩
  have htdesc : t.desc = s.desc := by rw [ht]
  have htmin : t.minShift = s.minShift := by rw [ht]
  have htsite : SameSite s t := by
    rw [ht]
    exact ⟨rfl, rfl, rfl, rfl⟩
  have htlinks : Links t N blk ring := by
    apply hS.links.congr htmin
    · intro x
      rw [Pool.slab, htdesc]
    · intro k _
      rw [Pool.slab, Pool.slab, htdesc]
  have hslot : t.next (.slot (shift - t.minShift)) = .slot (shift - t.minShift) := by
    have hh : t.IsHeader (.slot (shift - t.minShift)) := Or.inr ⟨_, rfl, by omega⟩
    rcases htlinks.first_cases hh with ⟨hnext, -⟩ | ⟨k, r, hring, -⟩
    · exact hnext
    · have hmemk : k ∈ ring (.slot (shift - t.minShift)) := by
        rw [hring]
        exact List.mem_cons_self
      exact absurd (htlinks.slab_of_mem (htmin ▸ hmin) hmemk h12) (hempty k)
  rcases htlinks.linkFresh (w := w) hi (htmin ▸ hmin) h12 hslot with ⟨ring', hlinks⟩
  rw [htmin] at hlinks
  have hsite : SameSite s (t.linkFresh i (shift - s.minShift) w (tagOf shift)) :=
    htsite.trans ⟨rfl, rfl, rfl, rfl⟩
  have hother : ∀ k shift' full, blk k = some (.slab shift' full) → k ≠ i →
      (t.linkFresh i (shift - s.minShift) w (tagOf shift)).slab (.page k) = s.slab (.page k) ∧
      ∀ j, j < chunks shift' →
        (t.linkFresh i (shift - s.minShift) w (tagOf shift)).bit k shift' j = s.bit k shift' j := by
    intro k shift' full hk hki
    have hslab : (t.linkFresh i (shift - s.minShift) w (tagOf shift)).slab (.page k) =
        s.slab (.page k) := by
      have hpage : Ref.page k ≠ .page i := fun heq => hki (Ref.page.inj heq)
      have hslot' : Ref.page k ≠ .slot (shift - s.minShift) := by simp
      rw [Pool.slab, Pool.linkFresh_of_ne hslot' hpage, htdesc]
    refine ⟨hslab, fun j hj => ?_⟩
    have hb := hS.shift_bounds hk
    apply Pool.bit_congr (hsite.addr k) hb.1 _ (fun _ => hslab) hj
    -- Only bytes of the fresh page are written.
    intro _ a hlo hhi
    have hle := chunks_le hb.1
    have hbytes : reserved shift <<< shift ≤ 4096 := by
      rw [Nat.shiftLeft_eq]
      exact Nat.le_trans (Nat.le_add_right _ _) (chunk_end h12 hlt)
    rw [hg.addr] at hlo hhi
    refine (hmem a ?_).symm
    rw [hg.addr]
    omega
  have hne : ∀ k shift' full, blk k = some (.slab shift' full) → k ≠ i := by
    rintro k shift' full hk rfl
    rw [hi] at hk
    cases hk
  refine ⟨_, ring', heq, ⟨hg.congr hsite, hlinks, ?_, ?_⟩, hsite, hbits, ?_⟩
  · intro k shift' full hk
    by_cases hki : k = i
    · subst hki
      rw [Function.update_self] at hk
      cases hk
      exact hchunk
    · rw [Function.update_of_ne hki] at hk
      have hb := hS.shift_bounds hk
      have ho := hother k shift' full hk hki
      exact (hS.chunk k shift' full hk).congr hb.1 hb.2 ho.1 ho.2
  · intro k shift' full hk
    by_cases hki : k = i
    · subst hki
      rw [Function.update_self] at hk
      cases hk
      exact ⟨reserved shift, hlt, Nat.le_refl _, by rw [hbits _ hlt, decide_eq_true (Nat.le_refl _)]⟩
    · rw [Function.update_of_ne hki] at hk
      exact InUse.congr (hS.inUse k shift' full hk) (hother k shift' full hk hki).2
  · intro k shift' full j hk hj
    exact (hother k shift' full hk (hne k shift' full hk)).2 j hj

/-- The first chunk of a fresh page. -/
theorem Sound.fresh_serves (hS : Sound s N blk ring) (hmin : s.minShift ≤ shift) (h12 : shift < 12)
    (hempty : ∀ k, blk k ≠ some (.slab shift false)) :
    (∃ s₁ i, ncxSlabAllocPages s 1 = some (s₁, some i) ∧
      Serves s N blk (.chunk shift) (CcPof.Slab.freshSlab s₁ shift (shift - s.minShift) i).1
        (CcPof.Slab.freshSlab s₁ shift (shift - s.minShift) i).2) ∨
    (ncxSlabAllocPages s 1 = some (s, none) ∧ Exhausted blk (.chunk shift)) := by
  have h3 : 3 ≤ shift := Nat.le_trans hS.geometry.three_le hmin
  have hlt := reserved_lt h3 h12
  rcases hS.allocPages Nat.one_pos with
    ⟨i, len, s₁, ring₁, hi, hle, hs₁, hS₁, hsite₁, hbits₁⟩ | ⟨hnone, hs⟩
  · left
    -- The page becomes an allocation first, and then a page of chunks.
    have hempty₁ : ∀ k, carve blk i 1 len k ≠ some (.slab shift false) :=
      fun k hk => hempty k (slab_of_carve Nat.one_pos hk)
    rcases hS₁.freshSlab (carve_self Nat.one_pos) (hsite₁.minShift ▸ hmin) h12 hempty₁ with
      ⟨s', ring', heq, hS', hsite', hbits, hother⟩
    rw [hsite₁.minShift] at heq
    refine ⟨s₁, i, hs₁, ?_⟩
    rw [heq]
    refine ⟨_, ring', hS₁.addr_ne_zero i _, hS', hsite₁.trans hsite', ?_, ?_⟩
    · intro q d
      rw [holds_iff (Function.update_self ..), holds_iff hi,
        HoldsBut.congr (hsite₁.trans hsite')]
      · have hfree : At s i (.free len) q d ↔ False := Iff.rfl
        rw [hfree, or_false]
        apply or_congr_right
        constructor
        · rintro ⟨rfl, k, hk, hres, hset, rfl⟩
          rw [hbits k hk, decide_eq_true_iff] at hset
          rw [show k = reserved shift by omega, hsite'.addr]
          exact ⟨rfl, rfl⟩
        · rintro ⟨rfl, rfl⟩
          refine ⟨rfl, reserved shift, hlt, Nat.le_refl _, ?_, by rw [hsite'.addr]⟩
          rw [hbits _ hlt, decide_eq_true (Nat.le_refl _)]
      · intro k b hki hb
        rw [Function.update_of_ne hki]
        exact hS.links.carve_iff hi Nat.one_pos hki hb
      · intro k shift' full j hki hk hj
        have hk₁ : carve blk i 1 len k = some (.slab shift' full) :=
          (hS.links.carve_iff (b := .slab shift' full) hi Nat.one_pos hki nofun).mpr hk
        rw [hother k shift' full j hk₁ hj, hbits₁ k shift' full hk]
    · -- The page was free.
      rw [hsite₁.addr]
      intro d hq
      exact hS.at_of_holds_chunk hi (by rw [Block.len]; omega) h12 hlt hq
  · refine Or.inr ⟨hs, hempty, fun i len hi => ?_⟩
    have hlen := hnone i len hi
    omega

/-- `ncx_slab_alloc` -/
theorem Sound.alloc (hS : Sound s N blk ring) (sz : Nat) :
    (∃ s' p, ncxSlabAllocLocked s sz = some (s', p) ∧ Serves s N blk (classOf s sz) s' p) ∨
    (ncxSlabAllocLocked s sz = some (s, 0) ∧ Exhausted blk (classOf s sz)) := by
  have hg := hS.geometry
  rw [ncxSlabAllocLocked, hg.maxSize, hg.shift, hg.pagesize]
  by_cases hbig : 2048 ≤ sz
  · have hclass : classOf s sz = .pages ((sz >>> 12) + if sz % 4096 ≠ 0 then 1 else 0) := if_pos hbig
    have hpos : 0 < (sz >>> 12) + if sz % 4096 ≠ 0 then 1 else 0 := by
      rw [Nat.shiftRight_eq_div_pow]
      split <;> omega
    rw [hclass, if_pos hbig]
    dsimp only
    rcases hS.allocPages_serves hpos with ⟨s', i, hs', hserves⟩ | ⟨hs, hex⟩
    · refine Or.inl ⟨s', s'.addr i, ?_, hserves⟩
      rw [hs']
      rfl
    · refine Or.inr ⟨?_, hex⟩
      rw [hs]
      rfl
  · have hclass : classOf s sz = .chunk (requestShift s sz) := if_neg hbig
    have hreq := requestShift_spec hg (show sz < 2048 by omega)
    rw [hclass, if_neg hbig]
    dsimp only
    rcases hS.searchSlot hreq.1 hreq.2.1 with ⟨hring, hs⟩ | ⟨i, j, r, -, hi, hj, hbit, hs⟩
    · have hempty : ∀ k, blk k ≠ some (.slab (requestShift s sz) false) := by
        intro k hk
        have hh := hS.links.slot_header hk
        have hmem := (hS.links.mem_ring _ k hh).mpr ⟨_, hk, rfl⟩
        rw [hring] at hmem
        cases hmem
      rw [hs]
      rcases hS.fresh_serves hreq.1 hreq.2.1 hempty with ⟨s₁, i, hs₁, hserves⟩ | ⟨hs₁, hex⟩
      · refine Or.inl ⟨_, _, ?_, hserves⟩
        simp only [Option.bind_eq_bind, Option.bind_some]
        rw [hs₁]
        rfl
      · refine Or.inr ⟨?_, hex⟩
        simp only [Option.bind_eq_bind, Option.bind_some]
        rw [hs₁]
        rfl
    · rcases hS.takeBit_serves hi hj hbit with ⟨s', hs', hserves⟩
      refine Or.inl ⟨s', _, ?_, hserves⟩
      rw [hs, hs']
      rfl

/-- Where neither list has what is asked for, NULL is returned. -/
theorem Sound.alloc_of_exhausted (hS : Sound s N blk ring) (hex : Exhausted blk (classOf s sz)) :
    ncxSlabAllocLocked s sz = some (s, 0) := by
  have hg := hS.geometry
  have hpages (n : Nat) (hn : 0 < n) (hshort : ∀ i len, blk i = some (.free len) → len < n) :
      ncxSlabAllocPages s n = some (s, none) := by
    rcases hS.allocPages hn with ⟨i, len, _, _, hi, hle, _⟩ | ⟨_, hs⟩
    · exact absurd (hshort i len hi) (Nat.not_lt.mpr hle)
    · exact hs
  unfold ncxSlabAllocLocked
  rw [hg.maxSize, hg.shift, hg.pagesize]
  by_cases hbig : 2048 ≤ sz
  · rw [classOf, if_pos hbig] at hex
    have hpos : 0 < (sz >>> 12) + if sz % 4096 ≠ 0 then 1 else 0 := by
      rw [Nat.shiftRight_eq_div_pow]
      split <;> omega
    rw [if_pos hbig]
    dsimp only
    rw [hpages _ hpos hex]
    rfl
  · rw [classOf, if_neg hbig] at hex
    have hreq := requestShift_spec hg (Nat.lt_of_not_le hbig)
    rw [if_neg hbig]
    dsimp only
    rcases hS.searchSlot hreq.1 hreq.2.1 with ⟨_, hs⟩ | ⟨i, _, _, _, hi, _⟩
    · rw [hs]
      simp only [Option.bind_eq_bind, Option.bind_some]
      rw [hpages 1 Nat.one_pos fun i len hi => by rw [hex.2 i len hi]; exact Nat.one_pos]
      rfl
    · exact absurd hi (hex.1 i)

/-- NULL is returned just then, and nothing has changed. -/
theorem Sound.alloc_null_iff (hS : Sound s N blk ring) (sz : Nat) :
    ((∃ s', ncxSlabAllocLocked s sz = some (s', 0)) ↔ Exhausted blk (classOf s sz)) ∧
      ∀ s', ncxSlabAllocLocked s sz = some (s', 0) → s' = s := by
  rcases hS.alloc sz with ⟨s', p, hs, _, _, hp, _⟩ | ⟨hs, hex⟩
  · have hserved : ∀ t, ncxSlabAllocLocked s sz ≠ some (t, 0) := by
      intro t ht
      rw [hs] at ht
      cases ht
      exact hp rfl
    refine ⟨iff_of_false (fun ⟨t, ht⟩ => hserved t ht) fun hex => ?_, fun t ht => absurd ht (hserved t)⟩
    exact hserved s (hS.alloc_of_exhausted hex)
  · refine ⟨iff_of_true ⟨s, hs⟩ hex, fun t ht => ?_⟩
    rw [hs] at ht
    cases ht
    rfl

end CcPof.Slab

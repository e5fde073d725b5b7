import CcPof.Slab.Release

/-!
# Pools in order

The lists and the bits of a pool together. Every page of chunks has a chunk in use, and has left
its list just when all of them are.
-/

namespace CcPof.Slab

variable {s s' t : Pool} {N : Nat} {blk blk' : Nat → Option Block} {ring ring' : Ref → List Nat}
  {h : Ref} {i i' j j' k n shift shift' : Nat} {full full' v : Bool} {b c : Block}

/-- The sizes and addresses of the pool are the same. -/
structure SameSite (s s' : Pool) : Prop where
  pagesizeShift : s'.pagesizeShift = s.pagesizeShift
  minShift : s'.minShift = s.minShift
  start : s'.start = s.start
  endAddr : s'.endAddr = s.endAddr

structure Sound (s : Pool) (N : Nat) (blk : Nat → Option Block) (ring : Ref → List Nat) : Prop where
  geometry : Geometry s N
  links : Links s N blk ring
  chunk : ∀ i shift full, blk i = some (.slab shift full) → ChunkOk s i shift full
  inUse : ∀ i shift full, blk i = some (.slab shift full) → s.InUse i shift

theorem SameSite.refl (s : Pool) : SameSite s s := ⟨rfl, rfl, rfl, rfl⟩

theorem SameSite.trans (h : SameSite s s') (h' : SameSite s' t) : SameSite s t :=
  ⟨h'.1.trans h.1, h'.2.trans h.2, h'.3.trans h.3, h'.4.trans h.4⟩

theorem SameSite.addr (h : SameSite s s') (i : Nat) : s'.addr i = s.addr i := by
  rw [Pool.addr, Pool.addr, h.start, h.pagesizeShift]

theorem Pool.SameButLinks.site (h : s.SameButLinks s') : SameSite s s' := by
  rw [h.1]
  exact ⟨rfl, rfl, rfl, rfl⟩

theorem Kept.site (h : Kept s s' i n) : SameSite s s' := by
  rw [h.1]
  exact ⟨rfl, rfl, rfl, rfl⟩

theorem Pool.writeBit_site (s : Pool) (i shift j : Nat) (v : Bool) :
    SameSite s (s.writeBit i shift j v) := by
  rw [(writeBit_frame s i shift j v).1]
  exact ⟨rfl, rfl, rfl, rfl⟩

theorem Geometry.congr (hg : Geometry s N) (h : SameSite s s') : Geometry s' N where
  shift := by rw [h.pagesizeShift, hg.shift]
  three_le := by rw [h.minShift]; exact hg.three_le
  le_eleven := by rw [h.minShift]; exact hg.le_eleven
  align := by rw [h.start]; exact hg.align
  start_pos := by rw [h.start]; exact hg.start_pos
  fit := by rw [h.start, h.endAddr]; exact hg.fit
  bound := by rw [h.endAddr]; exact hg.bound

/-! ## 1. Pages that a step does not touch -/

theorem Full.congr (hbits : ∀ j, j < chunks shift → s'.bit i shift j = s.bit i shift j) :
    s'.Full i shift ↔ s.Full i shift := by
  constructor <;> intro hfull j hj
  · rw [← hbits j hj]
    exact hfull j hj
  · rw [hbits j hj]
    exact hfull j hj

theorem InUse.congr (hu : s.InUse i shift)
    (hbits : ∀ j, j < chunks shift → s'.bit i shift j = s.bit i shift j) : s'.InUse i shift := by
  rcases hu with ⟨k, hk, hres, hset⟩
  exact ⟨k, hk, hres, (hbits k hk).trans hset⟩

theorem ChunkOk.congr (hc : ChunkOk s i shift full) (h3 : 3 ≤ shift) (h12 : shift < 12)
    (hslab : s'.slab (.page i) = s.slab (.page i))
    (hbits : ∀ j, j < chunks shift → s'.bit i shift j = s.bit i shift j) :
    ChunkOk s' i shift full where
  small h6 := hslab.trans (hc.small h6)
  big h6 k hk hout := by rw [hslab, hc.big h6 k hk hout]
  reserved j hj := by
    rw [hbits j (Nat.lt_trans hj (reserved_lt h3 h12)), hc.reserved j hj]
  full_iff := hc.full_iff.trans (Full.congr hbits).symm

/-- The page of a bit that is written. -/
theorem ChunkOk.writeBit (hc : ChunkOk s i shift full) (hj : j < chunks shift)
    (hv : v = true ∨ CcPof.Slab.reserved shift ≤ j) :
    ChunkOk (s.writeBit i shift j v) i shift (decide ((s.writeBit i shift j v).Full i shift)) where
  small h6 := by
    rw [Pool.slab, Pool.writeBit_slab_small h6]
    exact hc.small h6
  big h6 k hk hout := (Pool.writeBit_slab_rest h6 hj hk hout).trans (hc.big h6 k hk hout)
  reserved k hk := by
    rw [Pool.writeBit_same hj]
    split
    · rename_i hkj
      rcases hv with hv | hv
      · exact hv
      · omega
    · exact hc.reserved k hk
  full_iff := decide_eq_true_iff

theorem Sound.shift_bounds (hS : Sound s N blk ring) (hi : blk i = some (.slab shift full)) :
    3 ≤ shift ∧ shift < 12 := by
  have hd := hS.links.desc i _ hi
  have hmin : s.minShift ≤ shift := hd.1
  have h3 := hS.geometry.three_le
  exact ⟨by omega, hd.2.1⟩

theorem Sound.next_null_iff (hS : Sound s N blk ring) (hi : blk i = some (.slab shift full)) :
    s.next (.page i) = .null ↔ full = true := by
  cases full with
  | true => exact ⟨fun _ => rfl, fun _ => ((hS.links.desc i _ hi).2.2.2 rfl).1⟩
  | false =>
    have hh := hS.links.slot_header hi
    have hmem : i ∈ ring _ := (hS.links.mem_ring _ i hh).mpr ⟨_, hi, rfl⟩
    exact ⟨fun hnull => absurd hnull (hS.links.neighbours hh hmem).2.1, nofun⟩

/-! ## 2. Taking a chunk -/

/-- One bit is written and the page linked accordingly. -/
theorem Sound.ofBit (hS : Sound s N blk ring) (hi : blk i = some (.slab shift full))
    (hj : j < chunks shift) (hv : v = true ∨ reserved shift ≤ j)
    (hsame : (s.writeBit i shift j v).SameButLinks s')
    (hfull : full' = true ↔ (s.writeBit i shift j v).Full i shift) (huse : s'.InUse i shift)
    (hlinks : Links s' N (Function.update blk i (some (.slab shift full'))) ring') :
    Sound s' N (Function.update blk i (some (.slab shift full'))) ring' ∧ SameSite s s' ∧
      ∀ i' shift' full' j', blk i' = some (.slab shift' full') → j' < chunks shift' →
        s'.bit i' shift' j' = if i' = i ∧ j' = j then v else s.bit i' shift' j' := by
  have hb := hS.shift_bounds hi
  have hsite : SameSite s s' := (Pool.writeBit_site s i shift j v).trans hsame.site
  have hbits : ∀ i' shift' full' j', blk i' = some (.slab shift' full') → j' < chunks shift' →
      s'.bit i' shift' j' = if i' = i ∧ j' = j then v else s.bit i' shift' j' := by
    intro i' shift' full'' j' hi' hj'
    rw [hsame.bit]
    by_cases hii : i' = i
    · subst hii
      rw [hi] at hi'
      cases hi'
      rw [Pool.writeBit_same hj]
      simp only [true_and]
    · rw [Pool.writeBit_other hS.geometry hb.1 hj (hS.shift_bounds hi').1 hj' hii,
        if_neg (fun hboth => hii hboth.1)]
  refine ⟨⟨hS.geometry.congr hsite, hlinks, ?_, ?_⟩, hsite, hbits⟩
  -- Both remaining parts: the page of the bit, and a page that nothing was written to.
  · intro i' shift' full'' hi'
    by_cases hii : i' = i
    · subst hii
      rw [Function.update_self] at hi'
      cases hi'
      have hc := (hS.chunk i' shift full hi).writeBit hj hv
      have hfull_eq : decide ((s.writeBit i' shift j v).Full i' shift) = full' := by
        rw [Bool.eq_iff_iff, hfull, decide_eq_true_iff]
      rw [hfull_eq] at hc
      exact hc.congr hb.1 hb.2 (hsame.2 _) fun k _ => hsame.bit i' shift k
    · rw [Function.update_of_ne hii] at hi'
      have hb' := hS.shift_bounds hi'
      apply (hS.chunk i' shift' full'' hi').congr hb'.1 hb'.2
      · rw [hsame.2, Pool.slab, Pool.writeBit_slab_of_ne (fun heq => hii (Ref.page.inj heq))]
      · intro k hk
        rw [hbits i' shift' full'' k hi' hk, if_neg (fun hboth => hii hboth.1)]
  · intro i' shift' full'' hi'
    by_cases hii : i' = i
    · subst hii
      rw [Function.update_self] at hi'
      cases hi'
      exact huse
    · rw [Function.update_of_ne hii] at hi'
      refine InUse.congr (hS.inUse i' shift' full'' hi') fun k hk => ?_
      rw [hbits i' shift' full'' k hi' hk, if_neg (fun hboth => hii hboth.1)]

theorem Sound.takeBit (hS : Sound s N blk ring) (hi : blk i = some (.slab shift false))
    (hj : j < chunks shift) (hbit : s.bit i shift j = false) :
    ∃ s' ring' full', s.takeBit i shift j = some s' ∧
      Sound s' N (Function.update blk i (some (.slab shift full'))) ring' ∧ SameSite s s' ∧
      ∀ i' shift' full j', blk i' = some (.slab shift' full) → j' < chunks shift' →
        s'.bit i' shift' j' = if i' = i ∧ j' = j then true else s.bit i' shift' j' := by
  have hc := hS.chunk i shift false hi
  have hres : reserved shift ≤ j := by
    by_contra hlt
    rw [hc.reserved j (by omega)] at hbit
    cases hbit
  have hlinks := hS.links.writeBit (j := j) (v := true) hi
  have huse : (s.writeBit i shift j true).InUse i shift := by
    refine ⟨j, hj, hres, ?_⟩
    rw [Pool.writeBit_same hj, if_pos rfl]
  rw [Pool.takeBit]
  -- The page leaves its list with its last free chunk.
  by_cases hfull : (s.writeBit i shift j true).Full i shift
  · rcases hlinks.unlinkFull hi with ⟨s', ring', hs', hsame, hlinks'⟩
    refine ⟨s', ring', true, (if_pos hfull).trans hs', ?_⟩
    exact hS.ofBit hi hj (Or.inl rfl) hsame ⟨fun _ => hfull, fun _ => rfl⟩
      (InUse.congr huse fun k _ => hsame.bit i shift k) hlinks'
  · refine ⟨s.writeBit i shift j true, ring, false, if_neg hfull, ?_⟩
    refine hS.ofBit hi hj (Or.inl rfl) ⟨rfl, fun _ => rfl⟩
      (iff_of_false Bool.false_ne_true hfull) huse ?_
    rw [Function.update_eq_self_iff.mpr hi.symm]
    exact hlinks

/-- The search of a slot takes a chunk of the first page of its list. -/
theorem Sound.searchSlot (hS : Sound s N blk ring) (hmin : s.minShift ≤ shift) (h12 : shift < 12) :
    (ring (.slot (shift - s.minShift)) = [] ∧
      searchSlot s shift (shift - s.minShift) = some (s, none)) ∨
    ∃ i j r, ring (.slot (shift - s.minShift)) = i :: r ∧ blk i = some (.slab shift false) ∧
      j < chunks shift ∧ s.bit i shift j = false ∧
      searchSlot s shift (shift - s.minShift) =
        (s.takeBit i shift j).map fun s' => (s', some (s.addr i + j <<< shift)) := by
  have hh : s.IsHeader (.slot (shift - s.minShift)) := Or.inr ⟨_, rfl, by omega⟩
  have h3 : 3 ≤ shift := Nat.le_trans hS.geometry.three_le hmin
  rcases hS.links.first_cases hh with ⟨hnext, hring⟩ | ⟨i, r, hring, hnext⟩
  · left
    have hnext' : (s.desc (.slot (shift - s.minShift))).next = .slot (shift - s.minShift) := hnext
    refine ⟨hring, ?_⟩
    rw [CcPof.Slab.searchSlot, hnext', if_neg nofun, hnext', if_pos rfl]
  · right
    have hmem : i ∈ ring (.slot (shift - s.minShift)) := by
      rw [hring]
      exact List.mem_cons_self
    have hi := hS.links.slab_of_mem hmin hmem h12
    have hc := hS.chunk i shift false hi
    have hfree : ¬ s.Full i shift := fun hfull => absurd (hc.full_iff.mpr hfull) nofun
    have hself : (s.desc (.page i)).next ≠ .page i := hS.links.next_ne_self hh hmem
    have hnext' : (s.desc (.slot (shift - s.minShift))).next = .page i := hnext
    -- The first page of the search gives a chunk.
    have hfirst : ∀ take fuel j, Takes take s i shift j →
        searchPages take (fuel + 1) s (.page i) =
          (s.takeBit i shift j).map fun s' => (s', some (s.addr i + j <<< shift)) := by
      intro take fuel j ht
      rw [searchPages, ht.2.2]
      cases s.takeBit i shift j <;> rfl
    have hgoal : ∃ j, (j < chunks shift ∧ s.bit i shift j = false) ∧
        CcPof.Slab.searchSlot s shift (shift - s.minShift) =
          (s.takeBit i shift j).map fun s' => (s', some (s.addr i + j <<< shift)) := by
      rw [CcPof.Slab.searchSlot, hnext', if_neg nofun, if_neg hself, hS.geometry.exactShift]
      -- The three loops of the code, one for each kind of page.
      by_cases h6 : shift < 6
      · rcases takeSmall_takes hS.geometry h3 h6 hfree with ⟨j, ht⟩
        exact ⟨j, ⟨ht.1, ht.2.1⟩, (if_pos h6).trans (hfirst _ _ j ht)⟩
      · by_cases h6' : shift = 6
        · subst h6'
          rcases takeExact_takes hfree with ⟨j, ht⟩
          exact ⟨j, ⟨ht.1, ht.2.1⟩, ((if_neg h6).trans (if_pos rfl)).trans (hfirst _ _ j ht)⟩
        · have hbig : 6 < shift := by omega
          rcases takeBig_takes hbig h12 (bigMask_isMask hS.geometry hbig h12 hc) hc hfree with ⟨j, ht⟩
          exact ⟨j, ⟨ht.1, ht.2.1⟩, ((if_neg h6).trans (if_neg h6')).trans (hfirst _ _ j ht)⟩
    rcases hgoal with ⟨j, hj, hs⟩
    exact ⟨i, j, r, hring, hi, hj.1, hj.2, hs⟩

/-! ## 3. Pages -/

/-- A step that keeps the pages of chunks that remain. -/
theorem Sound.forget (hS : Sound s N blk ring) (hsite : SameSite s s') (hlinks : Links s' N blk' ring')
    (hkeep : ∀ i shift full, blk' i = some (.slab shift full) → blk i = some (.slab shift full) ∧
      s'.slab (.page i) = s.slab (.page i) ∧
      ∀ j, j < chunks shift → s'.bit i shift j = s.bit i shift j) : Sound s' N blk' ring' := by
  refine ⟨hS.geometry.congr hsite, hlinks, ?_, ?_⟩
  · intro i shift full hi
    have hk := hkeep i shift full hi
    have hb := hS.shift_bounds hk.1
    exact (hS.chunk i shift full hk.1).congr hb.1 hb.2 hk.2.1 hk.2.2
  · intro i shift full hi
    have hk := hkeep i shift full hi
    exact InUse.congr (hS.inUse i shift full hk.1) hk.2.2

/-- The bits of a page that was not written to. -/
theorem Kept.bit (hk : Kept s s' i n) (hj : j < i ∨ i + n ≤ j) (shift k : Nat) :
    s'.bit j shift k = s.bit j shift k := by
  have hslab := hk.2 j hj
  rw [Pool.bit, Pool.bit, hslab, hk.1]
  rfl

/-- The pages of chunks are not among those that a step on another block writes. -/
theorem Sound.bit_of_kept (hS : Sound s N blk ring) (hi : blk i = some b)
    (hk : Kept s s' i b.len) (hj : blk j = some (.slab shift full)) (hne : j ≠ i) :
    s'.slab (.page j) = s.slab (.page j) ∧ ∀ k, s'.bit j shift k = s.bit j shift k := by
  have hout : j < i ∨ i + b.len ≤ j := by
    rcases hS.links.disjoint hi hj hne.symm with hd | hd
    · exact Or.inr hd
    · exact Or.inl (by omega)
  exact ⟨hk.2 j hout, fun k => hk.bit hout shift k⟩

theorem Sound.allocPages (hS : Sound s N blk ring) (hn : 0 < n) :
    (∃ i len s' ring', blk i = some (.free len) ∧ n ≤ len ∧
      ncxSlabAllocPages s n = some (s', some i) ∧ Sound s' N (carve blk i n len) ring' ∧
      SameSite s s' ∧ ∀ j shift full, blk j = some (.slab shift full) →
        ∀ k, s'.bit j shift k = s.bit j shift k) ∨
    ((∀ i len, blk i = some (.free len) → len < n) ∧ ncxSlabAllocPages s n = some (s, none)) := by
  have hg := hS.geometry
  have hfit := hg.fit
  have hbound := hg.bound
  rcases hS.links.allocPages (by omega) hn (by rw [hg.pagesize]; omega) with
    ⟨i, len, s', ring', hi, hle, hkept, hs', hlinks⟩ | hnone
  · left
    have hother : ∀ j shift full, blk j = some (.slab shift full) → j ≠ i := by
      rintro j shift full hj rfl
      rw [hi] at hj
      cases hj
    refine ⟨i, len, s', ring', hi, hle, hs', ?_, hkept.site, ?_⟩
    · apply hS.forget hkept.site hlinks
      intro j shift full hj
      have hj' := slab_of_carve hn hj
      have hb := hS.bit_of_kept hi hkept hj' (hother j _ _ hj')
      exact ⟨hj', hb.1, fun k _ => hb.2 k⟩
    · intro j shift full hj
      exact (hS.bit_of_kept hi hkept hj (hother j _ _ hj)).2
  · exact Or.inr hnone

/-- An allocation of pages, or a free block, is made a free block. -/
theorem Sound.freePages (hS : Sound s N blk ring) (hi : blk i = some b) (hpos : 0 < b.len)
    (hb : b = .busy b.len ∨ b = .free b.len) :
    ∃ s' ring', ncxSlabFreePages s i b.len = some s' ∧
      Sound s' N (Function.update blk i (some (.free b.len))) ring' ∧ SameSite s s' ∧
      ∀ j shift full, blk j = some (.slab shift full) → ∀ k, s'.bit j shift k = s.bit j shift k := by
  have hhome : b = .busy b.len ∨ ∃ h, s.IsHeader h ∧ b.home s.minShift = some h := by
    rcases hb with hbusy | hfree
    · exact Or.inl hbusy
    · refine Or.inr ⟨.free, Or.inl rfl, ?_⟩
      rw [hfree]
      rfl
  have hother : ∀ j shift full, blk j = some (.slab shift full) → j ≠ i := by
    rintro j shift full hj rfl
    rw [hi] at hj
    cases hj
    rcases hb with hb | hb <;> cases hb
  rcases hS.links.freePages hi hpos hhome with ⟨s', ring', hs', hkept, hlinks⟩
  refine ⟨s', ring', hs', hS.forget hkept.site hlinks ?_, hkept.site, ?_⟩
  · intro j shift full hj
    have hji : j ≠ i := by
      rintro rfl
      rw [Function.update_self] at hj
      cases hj
    rw [Function.update_of_ne hji] at hj
    have hbits := hS.bit_of_kept hi hkept hj hji
    exact ⟨hj, hbits.1, fun k _ => hbits.2 k⟩
  · intro j shift full hj
    exact (hS.bit_of_kept hi hkept hj (hother j _ _ hj)).2

/-! ## 4. Releasing a chunk -/

theorem Pool.SameButLinks.writeBit (hs : s.SameButLinks s') (i shift j : Nat) (v : Bool) :
    (s.writeBit i shift j v).SameButLinks (s'.writeBit i shift j v) := by
  have haddr : s'.addr i = s.addr i := hs.site.addr i
  have hword : ∀ n, s'.word (s.addr i) n = s.word (s.addr i) n := by
    intro n
    rw [hs.1]
    rfl
  by_cases h6 : shift < 6
  · rw [Pool.writeBit, Pool.writeBit, if_pos h6, if_pos h6, haddr, hword]
    refine ⟨?_, hs.2⟩
    rw [Pool.setWord, Pool.setWord, hs.1]
  · rw [Pool.writeBit, Pool.writeBit, if_neg h6, if_neg h6]
    refine ⟨?_, fun x => ?_⟩
    · rw [Pool.modify, Pool.modify, hs.1]
    · by_cases hx : x = .page i
      · have hslab : (s'.desc (.page i)).slab = (s.desc (.page i)).slab := hs.2 _
        rw [hx, Pool.slab, Pool.slab, Pool.desc_modify_self, Pool.desc_modify_self, hslab]
      · rw [Pool.slab, Pool.slab, Pool.desc_modify_of_ne hx, Pool.desc_modify_of_ne hx]
        exact hs.2 x

/-- The page is in its list before the bit is cleared. -/
theorem Sound.relinked (hS : Sound s N blk ring) (hi : blk i = some (.slab shift full)) :
    ∃ s₁ ring₁, (if full = true then s.relink i (shift - s.minShift) (tagOf shift)
      else some s) = some s₁ ∧ s.SameButLinks s₁ ∧
      Links s₁ N (Function.update blk i (some (.slab shift false))) ring₁ := by
  cases full with
  | true =>
    rcases hS.links.relink hi with ⟨s₁, ring₁, h₁, hsame, hlinks⟩
    exact ⟨s₁, ring₁, (if_pos rfl).trans h₁, hsame, hlinks⟩
  | false =>
    refine ⟨s, ring, if_neg nofun, ⟨rfl, fun _ => rfl⟩, ?_⟩
    rw [Function.update_eq_self_iff.mpr hi.symm]
    exact hS.links

/-- A page of chunks becomes a free block, whatever its bits are. -/
theorem Sound.freeSlabPage (hS : Sound s N blk ring) (hi : blk i = some (.slab shift full))
    (hj : j < chunks shift) {s₁ : Pool} {ring₁ : Ref → List Nat} (hsame₁ : s.SameButLinks s₁)
    (hlinks : Links (s₁.writeBit i shift j false) N
      (Function.update blk i (some (.slab shift false))) ring₁) :
    ∃ s' ring', ncxSlabFreePages (s₁.writeBit i shift j false) i 1 = some s' ∧
      Sound s' N (Function.update blk i (some (.free 1))) ring' ∧ SameSite s s' ∧
      ∀ i' shift' full' j', blk i' = some (.slab shift' full') → i' ≠ i → j' < chunks shift' →
        s'.bit i' shift' j' = s.bit i' shift' j' := by
  have hself : Function.update blk i (some (.slab shift false)) i = some (.slab shift false) :=
    Function.update_self ..
  have hb := hS.shift_bounds hi
  have hsite : SameSite s (s₁.writeBit i shift j false) :=
    hsame₁.site.trans (Pool.writeBit_site ..)
  rcases hlinks.freePages hself Nat.one_pos (Or.inr ⟨_, hlinks.slot_header hself, rfl⟩) with
    ⟨s', ring', hs', hkept, hlinks'⟩
  rw [Function.update_idem] at hlinks'
  have hother : ∀ i' shift' full', blk i' = some (.slab shift' full') → i' ≠ i →
      s'.slab (.page i') = s.slab (.page i') ∧
      ∀ j', j' < chunks shift' → s'.bit i' shift' j' = s.bit i' shift' j' := by
    intro i' shift' full' hi' hne
    have hout : i' < i ∨ i + 1 ≤ i' := by omega
    constructor
    · rw [hkept.2 i' hout, Pool.slab, Pool.writeBit_slab_of_ne (fun heq => hne (Ref.page.inj heq))]
      exact hsame₁.2 _
    · intro j' hj'
      rw [hkept.bit hout, Pool.writeBit_other (hS.geometry.congr hsame₁.site) hb.1 hj
        (hS.shift_bounds hi').1 hj' hne, hsame₁.bit]
  refine ⟨s', ring', hs', ?_, hsite.trans hkept.site, ?_⟩
  · apply hS.forget (hsite.trans hkept.site) hlinks'
    intro i' shift' full' hi'
    have hne : i' ≠ i := by
      rintro rfl
      rw [Function.update_self] at hi'
      cases hi'
    rw [Function.update_of_ne hne] at hi'
    exact ⟨hi', hother i' shift' full' hi' hne⟩
  · intro i' shift' full' j' hi' hne hj'
    exact (hother i' shift' full' hi' hne).2 j' hj'

/-- A page is back in its list, or free. -/
theorem Sound.releaseBit (hS : Sound s N blk ring) (hi : blk i = some (.slab shift full))
    (hj : j < chunks shift) (hres : reserved shift ≤ j) :
    ∃ s' ring' b, s.releaseBit i shift j full = some s' ∧
      Sound s' N (Function.update blk i (some b)) ring' ∧ SameSite s s' ∧
      (∀ i' shift' full' j', blk i' = some (.slab shift' full') → i' ≠ i → j' < chunks shift' →
        s'.bit i' shift' j' = s.bit i' shift' j') ∧
      ((b = .slab shift false ∧ ∀ k, k < chunks shift →
          s'.bit i shift k = if k = j then false else s.bit i shift k) ∨
        (b = .free 1 ∧ ∀ k, k < chunks shift → reserved shift ≤ k → k ≠ j →
          s.bit i shift k = false)) := by
  rcases hS.relinked hi with ⟨s₁, ring₁, h₁, hsame₁, hlinks₁⟩
  have hself : Function.update blk i (some (.slab shift false)) i = some (.slab shift false) :=
    Function.update_self ..
  have hlinks₂ := hlinks₁.writeBit (j := j) (v := false) hself
  have hsame₂ := hsame₁.writeBit i shift j false
  rw [Pool.releaseBit, h₁]
  dsimp only [Option.bind_some]
  by_cases huse : (s₁.writeBit i shift j false).InUse i shift
  · rw [if_pos huse]
    have hnot : ¬ (s.writeBit i shift j false).Full i shift := by
      intro hfull
      have hset := hfull j hj
      rw [Pool.writeBit_same hj, if_pos rfl] at hset
      cases hset
    have hfull : false = true ↔ (s.writeBit i shift j false).Full i shift :=
      iff_of_false Bool.false_ne_true hnot
    rcases hS.ofBit hi hj (Or.inr hres) hsame₂ hfull huse hlinks₂ with ⟨hsound, hsite, hbits⟩
    refine ⟨_, ring₁, .slab shift false, rfl, hsound, hsite, ?_, Or.inl ⟨rfl, ?_⟩⟩
    · intro i' shift' full' j' hi' hne hj'
      rw [hbits i' shift' full' j' hi' hj', if_neg (fun hboth => hne hboth.1)]
    · intro k hk
      rw [hbits i shift full k hi hk]
      simp only [true_and]
  · rw [if_neg huse]
    rcases hS.freeSlabPage hi hj hsame₁ hlinks₂ with ⟨s', ring', hs', hsound, hsite, hother⟩
    refine ⟨s', ring', .free 1, hs', hsound, hsite, hother, Or.inr ⟨rfl, ?_⟩⟩
    intro k hk hresk hkj
    by_contra hset
    apply huse
    refine ⟨k, hk, hresk, ?_⟩
    rw [Pool.writeBit_same hj, if_neg hkj, hsame₁.bit]
    exact Bool.eq_true_of_not_eq_false hset

end CcPof.Slab

import CcPof.Slab.Alloc

/-!
# Release

`ncx_slab_free` on an address that was given out takes it back. On any other address in the pages
of the pool, apart from the chunks of a bitmap, it changes nothing but the order of a list.
-/

namespace CcPof.Slab

variable {s s' t : Pool} {N : Nat} {blk blk' : Nat → Option Block} {ring ring' : Ref → List Nat}
  {i j k n p q off shift : Nat} {full : Bool} {b : Block} {c : Class}

/-! ## 1. The branch that is taken -/

/-- The page of an address. -/
theorem Sound.free_page (hS : Sound s N blk ring) (hi : i < N) (hoff : off < 4096) :
    ncxSlabFreeLocked s (s.addr i + off) =
      match (s.desc (.page i)).tag with
      | .small => freeSmall s i (s.addr i + off)
      | .exact => freeExact s i (s.addr i + off)
      | .big => freeBig s i (s.addr i + off)
      | .page => freePage s i (s.addr i + off) := by
  have hg := hS.geometry
  have hfit := hg.fit
  have haddr := hg.addr i
  have hpage : (s.addr i + off - s.start) >>> s.pagesizeShift = i := by
    rw [hg.shift, Nat.shiftRight_eq_div_pow]
    omega
  have hin : ¬ (s.addr i + off < s.start ∨ s.endAddr < s.addr i + off) := by omega
  rewrite [ncxSlabFreeLocked, if_neg hin, hpage]
  rfl

theorem Sound.free_slab (hS : Sound s N blk ring) (hi : blk i = some (.slab shift full))
    (hoff : off < 4096) :
    ncxSlabFreeLocked s (s.addr i + off) =
      if off % 2 ^ shift = 0 ∧ s.bit i shift (off / 2 ^ shift) = true then
        s.releaseBit i shift (off / 2 ^ shift) full
      else some s := by
  have hb := hS.shift_bounds hi
  have hbound := hS.links.bound i _ hi
  have htag : (s.desc (.page i)).tag = tagOf shift := (hS.links.desc i _ hi).2.2.1
  have hc := hS.chunk i shift full hi
  rw [hS.free_page hbound hoff, htag]
  by_cases h6 : shift < 6
  · rw [show tagOf shift = .small from if_pos h6]
    exact freeSmall_eq hS.geometry hb.1 h6 hc (hS.next_null_iff hi) hoff
  · by_cases h6' : shift = 6
    · subst h6'
      exact freeExact_eq hS.geometry hc hoff
    · rw [tagOf_big (by omega)]
      exact freeBig_eq hS.geometry (by omega) hb.2 hc (hS.next_null_iff hi) hoff

theorem Sound.free_whole (hS : Sound s N blk ring) (hi : i < N) (hoff : off < 4096)
    (htag : s.tag (.page i) = .page) :
    ncxSlabFreeLocked s (s.addr i + off) =
      if off ≠ 0 ∨ s.slab (.page i) = 0#64 ∨ s.slab (.page i) = pageBusy then some s
      else ncxSlabFreePages s i (s.slab (.page i) &&& ~~~pageStart).toNat := by
  have hmask : (s.addr i + off) &&& (s.pagesize - 1) = off := hS.geometry.page_offset hoff
  rw [hS.free_page hi hoff, show (s.desc (.page i)).tag = .page from htag]
  show freePage s i (s.addr i + off) = _
  rw [freePage, hmask]
  by_cases h0 : off ≠ 0
  · rw [if_pos h0, if_pos (Or.inl h0)]
  · rw [if_neg h0]
    by_cases hz : s.slab (.page i) = 0#64
    · rw [if_pos (Or.inr (Or.inl hz))]
      exact if_pos hz
    · by_cases hbusy : s.slab (.page i) = pageBusy
      · rw [if_pos (Or.inr (Or.inr hbusy))]
        exact (if_neg hz).trans (if_pos hbusy)
      · have hnone : ¬ (off ≠ 0 ∨ s.slab (.page i) = 0#64 ∨ s.slab (.page i) = pageBusy) := by
          rintro (h | h | h)
          · exact h0 h
          · exact hz h
          · exact hbusy h
        rw [if_neg hnone]
        exact (if_neg hz).trans (if_neg hbusy)

theorem pageStart_getLsbD : ∀ k, k < 64 → pageStart.getLsbD k = decide (k = 63) := by decide

/-- A length has no flag to lose. -/
theorem and_not_pageStart (hn : n < 2 ^ 63) : (BitVec.ofNat 64 n &&& ~~~pageStart).toNat = n := by
  have heq : BitVec.ofNat 64 n &&& ~~~pageStart = BitVec.ofNat 64 n := by
    apply word_ext
    intro k hk
    rw [BitVec.getLsbD_and, BitVec.getLsbD_not, pageStart_getLsbD k hk, BitVec.getLsbD_ofNat]
    by_cases h63 : k = 63
    · rw [h63, Nat.testBit_lt_two_pow hn]
      rfl
    · rw [decide_eq_false h63, decide_eq_true hk]
      exact Bool.and_true _
  rw [heq, BitVec.toNat_ofNat, Nat.mod_eq_of_lt (by omega)]

/-- The length in the first descriptor of an allocation. -/
theorem head_word (hn : n < 2 ^ 63) :
    ((BitVec.ofNat 64 n ||| pageStart) &&& ~~~pageStart).toNat = n ∧
      BitVec.ofNat 64 n ||| pageStart ≠ 0#64 ∧
      (n < 2 ^ 62 → BitVec.ofNat 64 n ||| pageStart ≠ pageBusy) := by
  refine ⟨?_, ?_, ?_⟩
  · have hflag : (BitVec.ofNat 64 n ||| pageStart) &&& ~~~pageStart =
        BitVec.ofNat 64 n &&& ~~~pageStart := by
      apply word_ext
      intro k hk
      rw [BitVec.getLsbD_and, BitVec.getLsbD_and, BitVec.getLsbD_or, BitVec.getLsbD_not]
      cases pageStart.getLsbD k with
      | false => rw [Bool.or_false]
      | true => simp
    rw [hflag, and_not_pageStart hn]
  · rw [Ne, eq_zero_iff_bits]
    intro hall
    have hset := hall 63 (by decide)
    rw [BitVec.getLsbD_or, pageStart_getLsbD 63 (by decide), decide_eq_true rfl, Bool.or_true] at hset
    cases hset
  · intro hn' heq
    have hset : (BitVec.ofNat 64 n ||| pageStart).getLsbD 62 = pageBusy.getLsbD 62 := by rw [heq]
    rw [BitVec.getLsbD_or, pageStart_getLsbD 62 (by decide), BitVec.getLsbD_ofNat,
      Nat.testBit_lt_two_pow hn'] at hset
    revert hset
    decide

/-! ## 2. Addresses that were given out -/

/-- One address is taken back. -/
def Removes (s s' : Pool) (blk blk' : Nat → Option Block) (p : Nat) : Prop :=
  ∀ q d, Holds s' blk' q d ↔ Holds s blk q d ∧ q ≠ p

/-- The other blocks give out addresses elsewhere. -/
theorem Sound.holdsBut_ne (hS : Sound s N blk ring) (hi : blk i = some b) {d : Class}
    (hlo : s.start + 4096 * i ≤ p) (hhi : p < s.start + 4096 * (i + b.len))
    (hq : HoldsBut s blk i q d) : q ≠ p := by
  rintro rfl
  rcases hq with ⟨k, b', hki, hk, hq⟩
  have hkb := hS.at_bounds hk hq
  exact hki (hS.block_unique hk hi hkb.1 (by omega) hlo hhi)

/-- Only the block at page `i` changes, and there only `p` is taken back. -/
theorem Sound.removes (hS : Sound s N blk ring) (hi : blk i = some b) (hsite : SameSite s s')
    (hlo : s.start + 4096 * i ≤ p) (hhi : p < s.start + 4096 * (i + b.len)) {b' : Block}
    (hbits : ∀ k shift full j, k ≠ i → blk k = some (.slab shift full) → j < chunks shift →
      s'.bit k shift j = s.bit k shift j)
    (hat : ∀ q d, At s' i b' q d ↔ At s i b q d ∧ q ≠ p) :
    Removes s s' blk (Function.update blk i (some b')) p := by
  intro q d
  have hbut : HoldsBut s' (Function.update blk i (some b')) i q d ↔ HoldsBut s blk i q d := by
    apply HoldsBut.congr hsite _ hbits
    intro k c hki _
    rw [Function.update_of_ne hki]
  rw [holds_iff (Function.update_self ..), holds_iff hi, hbut, hat]
  constructor
  · rintro (hq | hq)
    · exact ⟨Or.inl hq, hS.holdsBut_ne hi hlo hhi hq⟩
    · exact ⟨Or.inr hq.1, hq.2⟩
  · rintro ⟨hq | hq, hne⟩
    · exact Or.inl hq
    · exact Or.inr ⟨hq, hne⟩

theorem Sound.pages_lt (hS : Sound s N blk ring) : N < 2 ^ 52 := by
  have hfit := hS.geometry.fit
  have hbound := hS.geometry.bound
  omega

theorem Sound.busy_pos (hS : Sound s N blk ring) {n : Nat} (hi : blk i = some (.busy n)) : 0 < n := by
  rcases hS.links.pos i _ hi with hpos | ⟨-, hfree⟩
  · exact hpos
  · cases hfree

/-- The descriptor has the length of an allocation of pages. -/
theorem Sound.free_busy (hS : Sound s N blk ring) {n : Nat} (hi : blk i = some (.busy n)) :
    ncxSlabFreeLocked s (s.addr i) = ncxSlabFreePages s i n := by
  have hbound : i + n ≤ N := hS.links.bound i _ hi
  have hlt := hS.pages_lt
  have hd := (hS.links.desc i _ hi).1
  have hslab : s.slab (.page i) = BitVec.ofNat 64 n ||| pageStart := by rw [Pool.slab, hd]
  have htag : s.tag (.page i) = .page := by rw [Pool.tag, hd]
  have hn := hS.busy_pos hi
  -- The word of the first page is neither free nor inside an allocation.
  have hword := head_word (show n < 2 ^ 63 by omega)
  have hcond : ¬ (0 ≠ 0 ∨ s.slab (.page i) = 0#64 ∨ s.slab (.page i) = pageBusy) := by
    rw [hslab]
    rintro (h | h | h)
    · exact h rfl
    · exact hword.2.1 h
    · exact hword.2.2 (by omega) h
  have hwhole := hS.free_whole (by omega) (show 0 < 4096 by decide) htag
  rwa [Nat.add_zero, if_neg hcond, hslab, hword.1] at hwhole

/-- An allocation of pages. -/
theorem Sound.freeBusy (hS : Sound s N blk ring) {n : Nat} (hi : blk i = some (.busy n)) :
    ∃ s' ring', ncxSlabFreeLocked s (s.addr i) = some s' ∧
      Sound s' N (Function.update blk i (some (.free n))) ring' ∧ SameSite s s' ∧
      Removes s s' blk (Function.update blk i (some (.free n))) (s.addr i) := by
  have hfree := hS.free_busy hi
  have hn := hS.busy_pos hi
  rcases hS.freePages hi hn (Or.inl rfl) with ⟨s', ring', hs', hS', hsite, hbits⟩
  refine ⟨s', ring', hfree.trans hs', hS', hsite, ?_⟩
  have haddr := hS.geometry.addr i
  apply hS.removes hi hsite (Nat.le_of_eq haddr.symm) (by rw [Block.len]; omega)
  · intro k shift full j _ hk _
    exact hbits k shift full hk j
  · intro q d
    constructor
    · exact False.elim
    · rintro ⟨⟨-, hq⟩, hne⟩
      exact hne hq

/-- A chunk. -/
theorem Sound.freeChunk (hS : Sound s N blk ring) {j : Nat}
    (hi : blk i = some (.slab shift full)) (hj : j < chunks shift) (hres : reserved shift ≤ j)
    (hset : s.bit i shift j = true) :
    ∃ s' b ring', ncxSlabFreeLocked s (s.addr i + j <<< shift) = some s' ∧
      Sound s' N (Function.update blk i (some b)) ring' ∧ SameSite s s' ∧
      Removes s s' blk (Function.update blk i (some b)) (s.addr i + j <<< shift) := by
  have hb := hS.shift_bounds hi
  have hend := chunk_end hb.2 hj
  have hpow := Nat.two_pow_pos shift
  have haddr := hS.geometry.addr i
  have hmod : j <<< shift % 2 ^ shift = 0 := by rw [Nat.shiftLeft_eq, Nat.mul_mod_left]
  have hdiv : j <<< shift / 2 ^ shift = j := by rw [Nat.shiftLeft_eq, Nat.mul_div_cancel _ hpow]
  have hoff : j <<< shift < 4096 := by
    rw [Nat.shiftLeft_eq]
    omega
  -- The address is the start of chunk `j`, and its bit is set.
  have hfree : ncxSlabFreeLocked s (s.addr i + j <<< shift) = s.releaseBit i shift j full := by
    rw [hS.free_slab hi hoff, hmod, hdiv, if_pos ⟨rfl, hset⟩]
  have hchunk : ∀ k, s.addr i + k <<< shift = s.addr i + j <<< shift ↔ k = j :=
    fun _ => chunk_inj _
  rcases hS.releaseBit hi hj hres with ⟨s', ring', b, hs', hS', hsite, hother, hcase⟩
  refine ⟨s', b, ring', hfree.trans hs', hS', hsite, ?_⟩
  apply hS.removes hi hsite (by omega) (by rw [Block.len]; omega)
  · intro k shift' full' j' hki hk hj'
    exact hother k shift' full' j' hk hki hj'
  · intro q d
    rcases hcase with ⟨rfl, hbits⟩ | ⟨rfl, hclear⟩
    · constructor
      · rintro ⟨rfl, k, hk, hresk, hsetk, rfl⟩
        rw [hbits k hk] at hsetk
        split at hsetk
        · cases hsetk
        · rename_i hkj
          rw [hsite.addr]
          exact ⟨⟨rfl, k, hk, hresk, hsetk, rfl⟩, fun heq => hkj ((hchunk k).mp heq)⟩
      · rintro ⟨⟨rfl, k, hk, hresk, hsetk, rfl⟩, hne⟩
        refine ⟨rfl, k, hk, hresk, ?_, by rw [hsite.addr]⟩
        rw [hbits k hk, if_neg (fun hkj => hne ((hchunk k).mpr hkj))]
        exact hsetk
    · -- It was the last one of its page.
      constructor
      · exact False.elim
      · rintro ⟨⟨rfl, k, hk, hresk, hsetk, rfl⟩, hne⟩
        rw [hclear k hk hresk (fun hkj => hne ((hchunk k).mpr hkj))] at hsetk
        cases hsetk

/-- `ncx_slab_free` on a live address -/
theorem Sound.free (hS : Sound s N blk ring) (hp : Holds s blk p c) :
    ∃ s' blk' ring', ncxSlabFreeLocked s p = some s' ∧ Sound s' N blk' ring' ∧ SameSite s s' ∧
      Removes s s' blk blk' p := by
  rcases hp with ⟨i, b, hi, hp⟩
  rcases b with n | n | ⟨shift, full⟩
  · exact hp.elim
  · rcases hp with ⟨rfl, rfl⟩
    rcases hS.freeBusy hi with ⟨s', ring', hs', hS', hsite, hremoves⟩
    exact ⟨s', _, ring', hs', hS', hsite, hremoves⟩
  · rcases hp with ⟨rfl, j, hj, hres, hset, rfl⟩
    rcases hS.freeChunk hi hj hres hset with ⟨s', b, ring', hs', hS', hsite, hremoves⟩
    exact ⟨s', _, ring', hs', hS', hsite, hremoves⟩

end CcPof.Slab

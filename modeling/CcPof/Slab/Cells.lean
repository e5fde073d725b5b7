import CcPof.Slab.Sound

/-!
# What a pool has given out

To its clients a pool is a set of addresses, each with a class: a number of pages, or a chunk of
some size. An allocation adds one address, a release takes one away, and no two regions overlap.
-/

namespace CcPof.Slab

variable {s s' t : Pool} {N : Nat} {blk blk' : Nat → Option Block} {ring ring' : Ref → List Nat}
  {h : Ref} {i i' j j' k n p q sz shift shift' : Nat} {full full' v : Bool} {b b' : Block}

inductive Class
  | pages (n : Nat)
  | chunk (shift : Nat)
  deriving DecidableEq, Repr

def Class.size : Class → Nat
  | pages n => 4096 * n
  | chunk shift => 2 ^ shift

def Class.align : Class → Nat
  | pages _ => 4096
  | chunk shift => 2 ^ shift

/-- The class of a request. -/
def classOf (s : Pool) (size : Nat) : Class :=
  if 2048 ≤ size then .pages ((size >>> 12) + (if size % 4096 ≠ 0 then 1 else 0))
  else .chunk (requestShift s size)

/-- The block `b` at page `i` has given out the address `q` for the class `c`. -/
def At (s : Pool) (i : Nat) (b : Block) (q : Nat) (c : Class) : Prop :=
  match b with
  | .free _ => False
  | .busy n => c = .pages n ∧ q = s.addr i
  | .slab shift _ => c = .chunk shift ∧
      ∃ j, j < chunks shift ∧ reserved shift ≤ j ∧ s.bit i shift j = true ∧
        q = s.addr i + j <<< shift

/-- The pool has given out the address `q` for the class `c`. -/
def Holds (s : Pool) (blk : Nat → Option Block) (q : Nat) (c : Class) : Prop :=
  ∃ i b, blk i = some b ∧ At s i b q c

/-- The same, outside the block at page `i`. -/
def HoldsBut (s : Pool) (blk : Nat → Option Block) (i q : Nat) (c : Class) : Prop :=
  ∃ k b, k ≠ i ∧ blk k = some b ∧ At s k b q c

variable {c d : Class}

/-! ## 1. Classes -/

theorem countShift_eq (fuel m : Nat) (hm : m < 2 ^ fuel) : countShift fuel m = m.log2 := by
  induction fuel generalizing m with
  | zero =>
    have hzero : m = 0 := by omega
    rw [hzero]
    rfl
  | succ fuel ih =>
    rw [countShift, Nat.shiftRight_eq_div_pow, pow_one]
    by_cases hz : m / 2 = 0
    · rw [if_pos hz]
      obtain rfl | rfl : m = 0 ∨ m = 1 := by omega
      all_goals rfl
    · rw [if_neg hz, ih (m / 2) (by rw [pow_succ] at hm; omega), Nat.log2_def m,
        if_pos (by omega)]

theorem requestShift_spec (hg : Geometry s N) (hsize : sz < 2048) :
    s.minShift ≤ requestShift s sz ∧ requestShift s sz < 12 ∧ sz ≤ 2 ^ requestShift s sz ∧
      ∀ k, s.minShift ≤ k → sz ≤ 2 ^ k → requestShift s sz ≤ k := by
  have hmin : s.minSize = 2 ^ s.minShift := Nat.one_shiftLeft _
  have hle := hg.le_eleven
  rw [requestShift, hmin]
  by_cases hlt : 2 ^ s.minShift < sz
  · have hpos : 0 < 2 ^ s.minShift := Nat.two_pow_pos _
    have hne : sz - 1 ≠ 0 := by omega
    -- The loop leaves the logarithm of `size - 1`, and the shift is one more.
    rw [if_pos hlt, countShift_eq 64 _ (by omega)]
    have hlow := Nat.log2_self_le hne
    have hhigh := Nat.lt_log2_self (n := sz - 1)
    have hmono : 2 ^ s.minShift ≤ sz - 1 := by omega
    have hminlog : s.minShift ≤ (sz - 1).log2 := (Nat.le_log2 hne).mpr hmono
    refine ⟨by omega, ?_, ?_, ?_⟩
    · have h11 : (sz - 1).log2 < 11 := (Nat.log2_lt hne).mpr (by omega)
      omega
    · rw [Nat.add_comm]
      omega
    · intro k _ hk
      have hlog : (sz - 1).log2 < k := (Nat.log2_lt hne).mpr (by omega)
      omega
  · rw [if_neg hlt]
    exact ⟨Nat.le_refl _, by omega, by omega, fun k hk _ => hk⟩

theorem size_le_classOf (hg : Geometry s N) : sz ≤ (classOf s sz).size := by
  rw [classOf]
  by_cases hbig : 2048 ≤ sz
  · rw [if_pos hbig, Class.size, Nat.shiftRight_eq_div_pow]
    split <;> omega
  · rw [if_neg hbig]
    exact (requestShift_spec hg (by omega)).2.2.1

/-! ## 2. Where an address is -/

theorem Geometry.chunk_addr (hg : Geometry s N) (j : Nat) :
    s.addr i + j <<< shift = s.start + 4096 * i + j * 2 ^ shift := by
  rw [hg.addr, Nat.shiftLeft_eq]

theorem chunk_end (h12 : shift < 12) (hj : j < chunks shift) : j * 2 ^ shift + 2 ^ shift ≤ 4096 := by
  rw [← chunks_mul (show shift ≤ 12 by omega), ← Nat.succ_mul]
  exact Nat.mul_le_mul_right _ hj

/-- A region lies in the pages of its block. -/
theorem Sound.at_bounds (hS : Sound s N blk ring) (hi : blk i = some b) (hq : At s i b q c) :
    s.start + 4096 * i ≤ q ∧ q + c.size ≤ s.start + 4096 * (i + b.len) ∧ 0 < c.size ∧
      ∀ m, b ≠ .free m := by
  have hg := hS.geometry
  rcases b with m | m | ⟨shift, full⟩
  · exact hq.elim
  · rcases hq with ⟨rfl, rfl⟩
    have hd := (hS.links.desc i _ hi)
    have hpos : 0 < m := by
      rcases hS.links.pos i _ hi with hpos | ⟨-, hfree⟩
      · exact hpos
      · cases hfree
    rw [hg.addr, Class.size, Block.len]
    exact ⟨Nat.le_refl _, by omega, by omega, fun m => by simp⟩
  · rcases hq with ⟨rfl, j, hj, -, -, rfl⟩
    have hb := hS.shift_bounds hi
    have hend := chunk_end hb.2 hj
    rw [hg.chunk_addr, Class.size, Block.len]
    exact ⟨by omega, by omega, Nat.two_pow_pos _, fun m => by simp⟩

/-- Blocks have their own addresses. -/
theorem Sound.block_unique (hS : Sound s N blk ring) (hi : blk i = some b) (hj : blk j = some b')
    (hli : s.start + 4096 * i ≤ p) (hpi : p < s.start + 4096 * (i + b.len))
    (hlj : s.start + 4096 * j ≤ p) (hpj : p < s.start + 4096 * (j + b'.len)) : i = j := by
  by_contra hne
  rcases hS.links.disjoint hi hj hne with hd | hd <;> omega

/-- An address in the pages of a block was given out by that block. -/
theorem Sound.at_of_holds (hS : Sound s N blk ring) (hi : blk i = some b)
    (hlo : s.start + 4096 * i ≤ q) (hhi : q < s.start + 4096 * (i + b.len))
    (hq : Holds s blk q c) : At s i b q c := by
  rcases hq with ⟨k, b', hk, hq⟩
  have hkb := hS.at_bounds hk hq
  obtain rfl : k = i := hS.block_unique hk hi hkb.1 (by omega) hlo hhi
  rw [hi] at hk
  cases hk
  exact hq

theorem Sound.at_of_holds_chunk (hS : Sound s N blk ring) (hi : blk i = some b) (hpos : 0 < b.len)
    (h12 : shift < 12) (hj : j < chunks shift) (hq : Holds s blk (s.addr i + j <<< shift) c) :
    At s i b (s.addr i + j <<< shift) c := by
  have hend := chunk_end h12 hj
  have haddr : s.addr i + j <<< shift = s.start + 4096 * i + j * 2 ^ shift :=
    hS.geometry.chunk_addr j
  have hpow := Nat.two_pow_pos shift
  exact hS.at_of_holds hi (by omega) (by omega) hq

theorem Sound.holds_disjoint (hS : Sound s N blk ring) (hp : Holds s blk p c) (hq : Holds s blk q d)
    (hne : p ≠ q) : p + c.size ≤ q ∨ q + d.size ≤ p := by
  rcases hp with ⟨i, b, hi, hp⟩
  rcases hq with ⟨j, b', hj, hq⟩
  have hpb := hS.at_bounds hi hp
  have hqb := hS.at_bounds hj hq
  by_cases hij : i = j
  · subst hij
    rw [hi] at hj
    cases hj
    rcases b with m | m | ⟨shift, full⟩
    · exact hp.elim
    · exact absurd (hp.2.trans hq.2.symm) hne
    · -- Two chunks of one page have different numbers.
      rcases hp with ⟨rfl, a, ha, -, -, rfl⟩
      rcases hq with ⟨rfl, a', ha', -, -, rfl⟩
      have hg := hS.geometry
      rw [hg.chunk_addr, hg.chunk_addr] at hne ⊢
      have haa : a ≠ a' := fun heq => hne (by rw [heq])
      rw [Class.size]
      rcases Nat.lt_or_gt_of_ne haa with hlt | hlt
      · have hmul : (a + 1) * 2 ^ shift ≤ a' * 2 ^ shift := Nat.mul_le_mul_right _ hlt
        rw [Nat.succ_mul] at hmul
        omega
      · have hmul : (a' + 1) * 2 ^ shift ≤ a * 2 ^ shift := Nat.mul_le_mul_right _ hlt
        rw [Nat.succ_mul] at hmul
        omega
  · rcases hS.links.disjoint hi hj hij with hd | hd
    · left
      omega
    · right
      omega

theorem Sound.holds_unique (hS : Sound s N blk ring) (hp : Holds s blk p c) (hq : Holds s blk p d) :
    c = d := by
  rcases hp with ⟨i, b, hi, hp⟩
  rcases hq with ⟨j, b', hj, hq⟩
  have hpb := hS.at_bounds hi hp
  have hqb := hS.at_bounds hj hq
  obtain rfl : i = j := hS.block_unique hi hj hpb.1 (by omega) hqb.1 (by omega)
  rw [hi] at hj
  cases hj
  rcases b with m | m | ⟨shift, full⟩
  · exact hp.elim
  · exact hp.1.trans hq.1.symm
  · exact hp.1.trans hq.1.symm

theorem Sound.holds_bounds (hS : Sound s N blk ring) (hq : Holds s blk q c) :
    s.start ≤ q ∧ q + c.size ≤ s.start + 4096 * N := by
  rcases hq with ⟨i, b, hi, hq⟩
  have hb := hS.at_bounds hi hq
  have hbound := hS.links.bound i b hi
  omega

theorem Sound.holds_aligned (hS : Sound s N blk ring) (hq : Holds s blk q c) : q % c.align = 0 := by
  have hg := hS.geometry
  have halign := hg.align
  rcases hq with ⟨i, b, hi, hq⟩
  rcases b with m | m | ⟨shift, full⟩
  · exact hq.elim
  · rcases hq with ⟨rfl, rfl⟩
    rw [hg.addr, Class.align]
    omega
  · rcases hq with ⟨rfl, j, -, -, -, rfl⟩
    have hb := hS.shift_bounds hi
    -- Pages are aligned and their size is a multiple of the chunk size.
    have hdvd : 2 ^ shift ∣ 4096 := ⟨chunks shift, by rw [Nat.mul_comm, chunks_mul (by omega)]⟩
    have haddr : 2 ^ shift ∣ s.start + 4096 * i :=
      Nat.dvd_add (hdvd.trans (Nat.dvd_of_mod_eq_zero halign)) (hdvd.trans ⟨i, rfl⟩)
    rw [hg.chunk_addr, Class.align]
    exact Nat.mod_eq_zero_of_dvd (Nat.dvd_add haddr ⟨j, Nat.mul_comm ..⟩)

/-- No region has bytes of a bitmap. -/
theorem Sound.holds_bitmap (hS : Sound s N blk ring) (hq : Holds s blk q c)
    (hi : blk i = some (.slab shift full)) (h6 : shift < 6) :
    q + c.size ≤ s.addr i ∨ s.addr i + chunks shift / 8 ≤ q := by
  have hg := hS.geometry
  have hsmall := reserved_small (hS.shift_bounds hi).1 h6
  rcases hq with ⟨j, b, hj, hq⟩
  have hb := hS.at_bounds hj hq
  rw [hg.addr]
  by_cases hij : i = j
  · subst hij
    rw [hi] at hj
    cases hj
    -- The chunks of the page itself begin behind the reserved ones.
    rcases hq with ⟨rfl, a, -, hres, -, rfl⟩
    right
    have hmul : reserved shift * 2 ^ shift ≤ a * 2 ^ shift := Nat.mul_le_mul_right _ hres
    rw [hg.chunk_addr]
    omega
  · have hbytes : chunks shift / 8 ≤ 4096 := by
      have hle := chunks_le (hS.shift_bounds hi).1
      omega
    rcases hS.links.disjoint hi hj hij with hd | hd
    · right
      rw [Block.len] at hd
      omega
    · left
      omega

/-! ## 3. Changes -/

theorem holds_iff (hi : blk i = some b) : Holds s blk q c ↔ HoldsBut s blk i q c ∨ At s i b q c := by
  constructor
  · rintro ⟨k, b', hk, hq⟩
    by_cases hki : k = i
    · subst hki
      rw [hi] at hk
      cases hk
      exact Or.inr hq
    · exact Or.inl ⟨k, b', hki, hk, hq⟩
  · rintro (⟨k, b', -, hk, hq⟩ | hq)
    · exact ⟨k, b', hk, hq⟩
    · exact ⟨i, b, hi, hq⟩

theorem At.congr (haddr : s'.addr i = s.addr i)
    (hbits : ∀ shift full j, b = .slab shift full → j < chunks shift →
      s'.bit i shift j = s.bit i shift j) : At s' i b q c ↔ At s i b q c := by
  rcases b with m | m | ⟨shift, full⟩
  · exact Iff.rfl
  · rw [At, At, haddr]
  · rw [At, At, haddr]
    apply and_congr_right
    intro _
    constructor
    · rintro ⟨j, hj, hres, hset, hq⟩
      exact ⟨j, hj, hres, (hbits shift full j rfl hj) ▸ hset, hq⟩
    · rintro ⟨j, hj, hres, hset, hq⟩
      exact ⟨j, hj, hres, (hbits shift full j rfl hj).symm ▸ hset, hq⟩

/-- Blocks that are the same have given out the same; a free block has given out nothing. -/
theorem HoldsBut.congr (hsite : SameSite s s')
    (hblk : ∀ k b, k ≠ i → (∀ m, b ≠ .free m) → (blk' k = some b ↔ blk k = some b))
    (hbits : ∀ k shift full j, k ≠ i → blk k = some (.slab shift full) → j < chunks shift →
      s'.bit k shift j = s.bit k shift j) : HoldsBut s' blk' i q c ↔ HoldsBut s blk i q c := by
  constructor
  · rintro ⟨k, b, hki, hk, hq⟩
    have hb : ∀ m, b ≠ .free m := by
      rintro m rfl
      exact hq
    have hk' := (hblk k b hki hb).mp hk
    refine ⟨k, b, hki, hk', (At.congr (hsite.addr k) ?_).mp hq⟩
    rintro shift full j rfl hj
    exact hbits k shift full j hki hk' hj
  · rintro ⟨k, b, hki, hk, hq⟩
    have hb : ∀ m, b ≠ .free m := by
      rintro m rfl
      exact hq
    refine ⟨k, b, hki, (hblk k b hki hb).mpr hk, (At.congr (hsite.addr k) ?_).mpr hq⟩
    rintro shift full j rfl hj
    exact hbits k shift full j hki hk hj

end CcPof.Slab

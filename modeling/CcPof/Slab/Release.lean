import CcPof.Slab.Take

/-!
# Releasing a chunk

The three branches of `ncx_slab_free` for pages of chunks come down to one bit that is cleared: a
full page goes back to its list, and a page whose last chunk was freed becomes a free page.
-/

namespace CcPof.Slab

variable {s s' : Pool} {N : Nat} {blk : Nat → Option Block} {ring : Ref → List Nat}
  {i j k p off shift : Nat} {full : Bool} {r x : Ref} {tag : Tag}

/-- A chunk of the page is in use, apart from those of the bitmap. -/
def Pool.InUse (s : Pool) (i shift : Nat) : Prop :=
  ∃ k, k < chunks shift ∧ reserved shift ≤ k ∧ s.bit i shift k = true

instance (s : Pool) (i shift : Nat) : Decidable (s.InUse i shift) :=
  decidable_of_iff (∃ k ∈ List.range (chunks shift), reserved shift ≤ k ∧ s.bit i shift k = true)
    (by simp only [List.mem_range, Pool.InUse])

/-- Clear the bit of a chunk of a page that is full or not. -/
def Pool.releaseBit (s : Pool) (i shift j : Nat) (full : Bool) : Option Pool :=
  (if full then s.relink i (shift - s.minShift) (tagOf shift) else some s).bind fun s =>
    let s := s.writeBit i shift j false
    if s.InUse i shift then some s else ncxSlabFreePages s i 1

namespace Pool

theorem setNext_same (h : s.setNext r x = some s') : s.SameButLinks s' := by
  by_cases hr : r = .null
  · rw [setNext, if_pos hr] at h
    cases h
  · rcases setNext_spec hr x with ⟨t, ht, hsame, -⟩
    rw [ht] at h
    cases h
    exact hsame

theorem setPrev_same (h : s.setPrev r x tag = some s') : s.SameButLinks s' := by
  by_cases hr : r = .null
  · rw [setPrev, if_pos hr] at h
    cases h
  · rcases setPrev_spec hr x tag with ⟨t, ht, hsame, -⟩
    rw [ht] at h
    cases h
    exact hsame

theorem modify_same {f : SlabPage → SlabPage} (hf : ∀ d, (f d).slab = d.slab) :
    s.SameButLinks (s.modify r f) := by
  refine ⟨rfl, fun x => ?_⟩
  by_cases hx : x = r
  · subst hx
    rw [Pool.slab, desc_modify_self]
    exact hf _
  · rw [Pool.slab, desc_modify_of_ne hx]

theorem relink_same {slot : Nat} (h : s.relink i slot tag = some s') : s.SameButLinks s' := by
  simp only [relink, Option.bind_eq_bind, Option.bind_eq_some_iff] at h
  rcases h with ⟨s₂, h₂, h₃⟩
  have h₁ : s.SameButLinks (s.modify (.page i) fun d => { d with next := (s.desc (.slot slot)).next }) :=
    modify_same fun _ => rfl
  have h₃' : s₂.SameButLinks (s₂.modify (.page i) fun d => { d with prev := .slot slot, tag := tag }) :=
    modify_same fun _ => rfl
  exact ((h₁.trans (setNext_same h₂)).trans h₃').trans (setPrev_same h₃)

theorem unlinkFull_same (h : s.unlinkFull i tag = some s') : s.SameButLinks s' := by
  simp only [unlinkFull, unlink, Option.bind_eq_bind, Option.bind_eq_some_iff] at h
  obtain ⟨s₂, ⟨s₁, h₁, h₂⟩, h⟩ := h
  cases h
  exact ((setNext_same h₁).trans (setPrev_same h₂)).trans (modify_same fun _ => rfl)

/-- The shift in the descriptor of a page with small chunks. -/
def smallShift (s : Pool) (i : Nat) : Nat := ((s.desc (.page i)).slab &&& shiftMask).toNat

/-- The page and the chunk of an address. -/
def pageOf (s : Pool) (p : Nat) : Nat := p - (p &&& (s.pagesize - 1))
def chunkOf (s : Pool) (shift p : Nat) : Nat := (p &&& (s.pagesize - 1)) >>> shift

/-- The address is that of a chunk, and its bit is set. -/
def Accepts (s : Pool) (shift p : Nat) : Prop :=
  p &&& ((1 <<< shift) - 1) = 0 ∧
    s.word (s.pageOf p) (s.chunkOf shift p / (8 * 8)) &&&
      bitAt (s.chunkOf shift p &&& (8 * 8 - 1)) ≠ 0#64

def clearChunk (s : Pool) (shift p : Nat) : Pool :=
  let n := s.chunkOf shift p / (8 * 8)
  s.setWord (s.pageOf p) n
    (s.word (s.pageOf p) n &&& ~~~bitAt (s.chunkOf shift p &&& (8 * 8 - 1)))

/-- The test for a page without a chunk in use. -/
def NoneLeft (s : Pool) (shift bitmap : Nat) : Prop :=
  s.word bitmap 0 &&& ~~~(bitAt (bitmapChunks s shift) - 1#64) = 0#64 ∧
    ¬ (List.range' 1 ((1 <<< (s.pagesizeShift - shift)) / (8 * 8) - 1)).any
      fun k => s.word bitmap k ≠ 0#64

instance (s : Pool) (shift p : Nat) : Decidable (s.Accepts shift p) :=
  inferInstanceAs (Decidable (_ ∧ _))

instance (s : Pool) (shift bitmap : Nat) : Decidable (s.NoneLeft shift bitmap) :=
  inferInstanceAs (Decidable (_ ∧ _))

end Pool

/-! ## 1. Addresses in a page -/

theorem and_low (p n : Nat) : p &&& (1 <<< n - 1) = p % 2 ^ n := by
  rw [Nat.one_shiftLeft, Nat.and_two_pow_sub_one_eq_mod]

/-- The pages of the pool have `2 ^ k` bytes and begin at multiples of that. -/
structure Paged (s : Pool) (k : Nat) : Prop where
  shift : s.pagesizeShift = k
  align : s.start % 2 ^ k = 0

theorem Paged.congr (hs : Paged s k) (hshift : s'.pagesizeShift = s.pagesizeShift)
    (hstart : s'.start = s.start) : Paged s' k :=
  ⟨hshift.trans hs.shift, hstart ▸ hs.align⟩

theorem Geometry.paged (hg : Geometry s N) : Paged s 12 := ⟨hg.shift, hg.align⟩

namespace Paged

theorem addr_dvd (hs : Paged s k) (h : shift ≤ k) (i : Nat) : 2 ^ shift ∣ s.addr i := by
  have hpage : 2 ^ k ∣ s.addr i := by
    rw [Pool.addr, hs.shift, Nat.shiftLeft_eq]
    exact Nat.dvd_add (Nat.dvd_of_mod_eq_zero hs.align) (Nat.dvd_mul_left _ i)
  exact (pow_dvd_pow 2 h).trans hpage

theorem page_offset (hs : Paged s k) (hoff : off < 2 ^ k) :
    (s.addr i + off) &&& (s.pagesize - 1) = off := by
  rw [Pool.pagesize, hs.shift, and_low, Nat.add_mod,
    Nat.mod_eq_zero_of_dvd (hs.addr_dvd (Nat.le_refl k) i), Nat.zero_add, Nat.mod_mod,
    Nat.mod_eq_of_lt hoff]

theorem chunk_aligned (hs : Paged s k) (h : shift ≤ k) :
    (s.addr i + off) &&& (1 <<< shift - 1) = off % 2 ^ shift := by
  rw [and_low, Nat.add_mod, Nat.mod_eq_zero_of_dvd (hs.addr_dvd h i), Nat.zero_add, Nat.mod_mod]

theorem pageOf_eq (hs : Paged s k) (hoff : off < 2 ^ k) : s.pageOf (s.addr i + off) = s.addr i := by
  rw [Pool.pageOf, hs.page_offset hoff, Nat.add_sub_cancel]

theorem chunkOf_eq (hs : Paged s k) (hoff : off < 2 ^ k) :
    s.chunkOf shift (s.addr i + off) = off / 2 ^ shift := by
  rw [Pool.chunkOf, hs.page_offset hoff, Nat.shiftRight_eq_div_pow]

end Paged

namespace Geometry

theorem page_offset (hg : Geometry s N) (hoff : off < 4096) :
    (s.addr i + off) &&& (s.pagesize - 1) = off :=
  hg.paged.page_offset hoff

theorem chunk_aligned (hg : Geometry s N) (h12 : shift ≤ 12) :
    (s.addr i + off) &&& (1 <<< shift - 1) = off % 2 ^ shift :=
  hg.paged.chunk_aligned h12

end Geometry

theorem div_lt_chunks (h12 : shift ≤ 12) (hoff : off < 4096) : off / 2 ^ shift < chunks shift := by
  rw [Nat.div_lt_iff_lt_mul (Nat.two_pow_pos _), chunks_mul h12]
  exact hoff

/-! ## 2. Small chunks -/

/-- The two tests of a bitmap, one after the other. -/
theorem noneLeft_ite (s : Pool) (shift bitmap : Nat) (y z : Option Pool) :
    (if s.word bitmap 0 &&& ~~~(bitAt (bitmapChunks s shift) - 1#64) ≠ 0#64 then y
      else if (List.range' 1 ((1 <<< (s.pagesizeShift - shift)) / (8 * 8) - 1)).any
        fun k => s.word bitmap k ≠ 0#64 then y else z) =
      if s.NoneLeft shift bitmap then z else y := by
  by_cases hfirst : s.word bitmap 0 &&& ~~~(bitAt (bitmapChunks s shift) - 1#64) = 0#64
  · rw [if_neg (not_not.mpr hfirst)]
    by_cases hrest : (List.range' 1 ((1 <<< (s.pagesizeShift - shift)) / (8 * 8) - 1)).any
        fun k => s.word bitmap k ≠ 0#64
    · rw [if_pos hrest, if_neg (fun h : s.NoneLeft shift bitmap => h.2 hrest)]
    · rw [if_neg hrest, if_pos (show s.NoneLeft shift bitmap from ⟨hfirst, hrest⟩)]
  · rw [if_pos hfirst, if_neg (fun h : s.NoneLeft shift bitmap => hfirst h.1)]

/-- The branch for small chunks, by its tests. -/
theorem freeSmall_tests (s : Pool) (i p : Nat) :
    freeSmall s i p =
      if s.Accepts (s.smallShift i) p then
        (if (s.desc (.page i)).next = .null then
          s.relink i (s.smallShift i - s.minShift) .small else some s).bind fun t =>
            let u := t.clearChunk (s.smallShift i) p
            if u.NoneLeft (s.smallShift i) (s.pageOf p) then ncxSlabFreePages u i 1 else some u
      else some s := by
  unfold freeSmall
  dsimp only
  rw [show ((s.desc (.page i)).slab &&& shiftMask).toNat = s.smallShift i from rfl]
  generalize s.smallShift i = shift
  by_cases hacc : s.Accepts shift p
  · rw [if_neg (not_not.mpr hacc.1), if_pos hacc]
    refine (if_pos hacc.2).trans ?_
    -- A page that was full is relinked, which its bitmap does not notice.
    by_cases hnext : (s.desc (.page i)).next = .null
    · rw [if_pos hnext, if_pos hnext]
      cases ht : s.relink i (shift - s.minShift) .small with
      | none => rfl
      | some t =>
        obtain ⟨d, rfl⟩ : ∃ d, t = { s with desc := d } := ⟨_, (Pool.relink_same ht).1⟩
        exact noneLeft_ite (Pool.clearChunk { s with desc := d } shift p) shift (s.pageOf p) ..
    · rw [if_neg hnext, if_neg hnext]
      exact noneLeft_ite (s.clearChunk shift p) shift (s.pageOf p) ..
  · rw [if_neg hacc]
    by_cases halign : p &&& ((1 <<< shift) - 1) = 0
    · rw [if_neg (not_not.mpr halign)]
      exact if_neg fun hset => hacc ⟨halign, hset⟩
    · exact if_pos halign

namespace Paged

theorem low_bits (n : Nat) : n &&& (8 * 8 - 1) = n % 64 := and_low n 6

theorem accepts_iff (hs : Paged s k) (h : shift ≤ k) (hoff : off < 2 ^ k) :
    s.Accepts shift (s.addr i + off) ↔ off % 2 ^ shift = 0 ∧ s.mapBit i (off / 2 ^ shift) = true := by
  unfold Pool.Accepts
  rw [hs.chunk_aligned h, hs.pageOf_eq hoff, hs.chunkOf_eq hoff, low_bits, bitAt, Ne,
    and_bit_eq_zero (Nat.mod_lt _ (by decide)), Bool.not_eq_false]
  exact Iff.rfl

theorem clearChunk_eq (hs : Paged s k) (hoff : off < 2 ^ k) :
    s.clearChunk shift (s.addr i + off) = s.writeMap i (off / 2 ^ shift) false := by
  unfold Pool.clearChunk
  rw [hs.pageOf_eq hoff, hs.chunkOf_eq hoff, low_bits]
  rfl

end Paged

/-- The tests look at all chunks behind those of the bitmap, which are in the first word. -/
theorem noneLeft_iff {m : Nat} (hm : 1 <<< (s.pagesizeShift - shift) = 64 * m) (hpos : 0 < m)
    (hfew : bitmapChunks s shift < 64) :
    s.NoneLeft shift (s.addr i) ↔
      ∀ j, bitmapChunks s shift ≤ j → j < 64 * m → s.mapBit i j = false := by
  have hfirst : ∀ j, j < 64 → (s.word (s.addr i) 0 &&& ~~~(bitAt (bitmapChunks s shift) - 1#64)).getLsbD j
      = (decide (bitmapChunks s shift ≤ j) && s.mapBit i j) := by
    intro j hj
    rw [BitVec.getLsbD_and, BitVec.getLsbD_not, bitAt, getLsbD_lowMask hfew, decide_eq_true hj,
      Bool.true_and, ← decide_not, Bool.and_comm, Pool.mapBit, Nat.div_eq_of_lt hj,
      Nat.mod_eq_of_lt hj]
    simp only [Nat.not_lt]
  have hword : ∀ n, s.word (s.addr i) n = 0#64 ↔ ∀ b, b < 64 → s.mapBit i (64 * n + b) = false := by
    intro n
    rw [eq_zero_iff_bits]
    refine forall₂_congr fun b hb => ?_
    rw [Pool.mapBit, show (64 * n + b) / 64 = n by omega, show (64 * n + b) % 64 = b by omega]
  -- The loop of the second test, which the first word is not part of.
  have hrest : (List.range' 1 (m - 1)).any (fun n => s.word (s.addr i) n ≠ 0#64) = true ↔
      ∃ n, 1 ≤ n ∧ n < m ∧ s.word (s.addr i) n ≠ 0#64 := by
    rw [List.any_eq_true]
    constructor
    · rintro ⟨n, hn, hne⟩
      rw [List.mem_range'_1] at hn
      exact ⟨n, hn.1, by omega, of_decide_eq_true hne⟩
    · rintro ⟨n, hn, hlt, hne⟩
      exact ⟨n, List.mem_range'_1.mpr (by omega), decide_eq_true hne⟩
  unfold Pool.NoneLeft
  rw [hm, show 64 * m / (8 * 8) = m by omega, hrest, eq_zero_iff_bits]
  push Not
  constructor
  · -- The first word is tested without the bits of the bitmap, the others as they are.
    rintro ⟨hzero, hwords⟩ j hres hj
    by_cases h64 : j < 64
    · have hbit := hzero j h64
      rwa [hfirst j h64, decide_eq_true hres, Bool.true_and] at hbit
    · have hbit := (hword (j / 64)).mp (hwords (j / 64) (by omega) (by omega)) (j % 64) (by omega)
      rwa [show 64 * (j / 64) + j % 64 = j by omega] at hbit
  · intro hnone
    refine ⟨fun j hj => ?_, fun n hn hlt => (hword n).mpr fun b hb => hnone _ (by omega) (by omega)⟩
    rw [hfirst j hj]
    by_cases hres : bitmapChunks s shift ≤ j
    · rw [hnone j hres (by omega), Bool.and_false]
    · rw [decide_eq_false hres, Bool.false_and]

/-- A chunk stays in use just when the tests find one. -/
theorem inUse_small_iff (hs : s.pagesizeShift = 12) (h3 : 3 ≤ shift) (h6 : shift < 6) :
    s.InUse i shift ↔ ¬ s.NoneLeft shift (s.addr i) := by
  have hsmall := reserved_small h3 h6
  have hchunks := chunks_small h3 h6
  have hm : 1 <<< (s.pagesizeShift - shift) = 64 * (chunks shift / 64) := by
    rw [hs]
    exact hchunks
  rw [noneLeft_iff hm (by omega) (by rw [bitmapChunks_eq hs h3 h6]; omega), bitmapChunks_eq hs h3 h6,
    ← hchunks]
  unfold Pool.InUse
  push Not
  refine exists_congr fun j => ?_
  rw [Pool.bit_small h6, Bool.ne_false_iff, and_left_comm]
  exact Iff.rfl

theorem freeSmall_eq (hg : Geometry s N) (h3 : 3 ≤ shift) (h6 : shift < 6)
    (hc : ChunkOk s i shift full) (hlink : s.next (.page i) = .null ↔ full = true)
    (hoff : off < 4096) :
    freeSmall s i (s.addr i + off) =
      if off % 2 ^ shift = 0 ∧ s.bit i shift (off / 2 ^ shift) = true then
        s.releaseBit i shift (off / 2 ^ shift) full
      else some s := by
  have hlow : s.smallShift i = shift := by
    rw [Pool.smallShift, show (s.desc (.page i)).slab = BitVec.ofNat 64 shift from hc.small h6]
    obtain rfl | rfl | rfl : shift = 3 ∨ shift = 4 ∨ shift = 5 := by omega
    all_goals decide
  have hacc : s.Accepts shift (s.addr i + off) ↔
      off % 2 ^ shift = 0 ∧ s.bit i shift (off / 2 ^ shift) = true := by
    rw [hg.paged.accepts_iff (by omega) hoff, Pool.bit_small h6]
    rfl
  -- The rest of the branch, for the pool `t` that has the page in its list.
  have htail : ∀ t, s.SameButLinks t →
      (if (t.clearChunk shift (s.addr i + off)).NoneLeft shift (s.pageOf (s.addr i + off)) then
        ncxSlabFreePages (t.clearChunk shift (s.addr i + off)) i 1
      else some (t.clearChunk shift (s.addr i + off))) =
        if (t.writeBit i shift (off / 2 ^ shift) false).InUse i shift then
          some (t.writeBit i shift (off / 2 ^ shift) false)
        else ncxSlabFreePages (t.writeBit i shift (off / 2 ^ shift) false) i 1 := by
    intro t ht
    obtain ⟨d, rfl⟩ : ∃ d, t = { s with desc := d } := ⟨_, ht.1⟩
    have hclear : Pool.clearChunk { s with desc := d } shift (s.addr i + off) =
        Pool.writeBit { s with desc := d } i shift (off / 2 ^ shift) false := by
      have hpaged : Paged { s with desc := d } 12 := ⟨hg.shift, hg.align⟩
      exact (hpaged.clearChunk_eq hoff).trans (if_pos h6).symm
    have haddr : (Pool.writeBit { s with desc := d } i shift (off / 2 ^ shift) false).addr i =
        s.addr i := by
      rw [(Pool.writeBit_frame ..).1]
      rfl
    have hshift : (Pool.writeBit { s with desc := d } i shift (off / 2 ^ shift) false).pagesizeShift =
        12 := by
      rw [(Pool.writeBit_frame ..).1]
      exact hg.shift
    rw [hclear, hg.paged.pageOf_eq hoff, ← haddr]
    simp only [inUse_small_iff hshift h3 h6, ite_not]
  rw [freeSmall_tests, hlow]
  by_cases hset : off % 2 ^ shift = 0 ∧ s.bit i shift (off / 2 ^ shift) = true
  · rw [if_pos (hacc.mpr hset), if_pos hset, Pool.releaseBit,
      show tagOf shift = .small from if_pos h6]
    -- A full page, which is in no list, is relinked first.
    by_cases hfull : full = true
    · rw [if_pos hfull, if_pos (hlink.mpr hfull)]
      cases hr : s.relink i (shift - s.minShift) .small with
      | none => rfl
      | some t => exact htail t (Pool.relink_same hr)
    · rw [if_neg hfull, if_neg (fun hnull => hfull (hlink.mp hnull))]
      exact htail s ⟨rfl, fun _ => rfl⟩
  · rw [if_neg (fun h => hset (hacc.mp h)), if_neg hset]

/-! ## 3. Exact chunks -/

theorem inUse_exact_iff : s.InUse i 6 ↔ s.slab (.page i) ≠ 0#64 := by
  rw [Ne, eq_zero_iff_bits]
  simp only [not_forall, Bool.not_eq_false, exists_prop]
  constructor
  · rintro ⟨k, hk, -, hset⟩
    exact ⟨k, hk, hset⟩
  · rintro ⟨k, hk, hset⟩
    exact ⟨k, hk, Nat.zero_le k, hset⟩

theorem freeExact_eq (hg : Geometry s N) (hc : ChunkOk s i 6 full) (hoff : off < 4096) :
    freeExact s i (s.addr i + off) =
      if off % 2 ^ 6 = 0 ∧ s.bit i 6 (off / 2 ^ 6) = true then s.releaseBit i 6 (off / 2 ^ 6) full
      else some s := by
  have hj := div_lt_chunks (show 6 ≤ 12 by decide) hoff
  have hsize : s.exactSize - 1 = 1 <<< 6 - 1 := by
    rw [hg.exactSize]
    rfl
  rw [freeExact]
  dsimp only
  rw [hsize, hg.chunk_aligned (by decide), hg.page_offset hoff, hg.exactShift,
    Nat.shiftRight_eq_div_pow]
  generalize off / 2 ^ 6 = j at hj ⊢
  by_cases halign : off % 2 ^ 6 = 0
  · have hset : s.slab (.page i) &&& bitAt j ≠ 0#64 ↔ s.bit i 6 j = true := by
      have hj64 : j < 64 := hj
      rw [bitAt, Ne, and_bit_eq_zero hj64]
      exact Bool.ne_false_iff
    rw [if_neg (not_not.mpr halign)]
    by_cases hbit : s.bit i 6 j = true
    · have htail : ∀ t u : Pool, u = (t.modify (.page i) fun d => { d with slab := d.slab &&& ~~~bitAt j }) →
          (if (u.desc (.page i)).slab ≠ 0#64 then some u else ncxSlabFreePages u i 1) =
          if (t.writeBit i 6 j false).InUse i 6 then some (t.writeBit i 6 j false)
          else ncxSlabFreePages (t.writeBit i 6 j false) i 1 := by
        rintro t u rfl
        simp only [inUse_exact_iff]
        rfl
      -- This branch of the code looks at the word, not at `next`.
      have hfull_iff : s.slab (.page i) = slabBusy ↔ full = true :=
        full_exact_iff.symm.trans hc.full_iff.symm
      rw [if_pos (⟨halign, hbit⟩ : _ ∧ _), if_pos (hset.mpr hbit), Pool.releaseBit,
        show tagOf 6 = .exact from rfl]
      by_cases hfull : full = true
      · rw [if_pos hfull, if_pos (hfull_iff.mpr hfull)]
        cases hr : s.relink i (6 - s.minShift) .exact with
        | none => rfl
        | some t => exact htail t _ rfl
      · rw [if_neg hfull, if_neg (fun hbusy => hfull (hfull_iff.mp hbusy))]
        exact htail s _ rfl
    · have hnot : ¬ (off % 2 ^ 6 = 0 ∧ s.bit i 6 j = true) := fun hboth => hbit hboth.2
      rw [if_neg hnot]
      exact if_neg (fun hne => hbit (hset.mp hne))
  · rw [if_pos halign, if_neg (fun hboth => halign hboth.1)]

/-! ## 4. Big chunks -/

theorem inUse_big_iff (h6 : 6 < shift) (h12 : shift < 12)
    (hbig : ∀ k, k < 64 → k < 32 ∨ 32 + chunks shift ≤ k →
      (s.slab (.page i)).getLsbD k = (BitVec.ofNat 64 shift).getLsbD k) :
    s.InUse i shift ↔ s.slab (.page i) &&& mapMask ≠ 0#64 := by
  have hle := chunks_le_of_big h6
  have hbit := Pool.bit_big h6 s i
  rw [Ne, eq_zero_iff_bits]
  simp only [not_forall, Bool.not_eq_false, exists_prop]
  constructor
  · rintro ⟨k, hk, -, hset⟩
    -- The map is the upper half of the word.
    refine ⟨32 + k, by omega, ?_⟩
    rw [BitVec.getLsbD_and, ← hbit, hset, mapMask_bit, decide_eq_true (by omega)]
    rfl
  · rintro ⟨k, hk, hset⟩
    rw [BitVec.getLsbD_and, mapMask_bit, Bool.and_eq_true, decide_eq_true_eq] at hset
    -- Above the map the word is zero.
    by_cases hlt : k < 32 + chunks shift
    · refine ⟨k - 32, by omega, ?_, ?_⟩
      · rw [reserved_of_le (by omega)]
        exact Nat.zero_le _
      · rw [hbit, show 32 + (k - 32) = k by omega]
        exact hset.1
    · rw [hbig k hk (by omega), low_bits_zero h12 hk (by omega)] at hset
      cases hset.1

theorem freeBig_eq (hg : Geometry s N) (h6 : 6 < shift) (h12 : shift < 12)
    (hc : ChunkOk s i shift full) (hlink : s.next (.page i) = .null ↔ full = true)
    (hoff : off < 4096) :
    freeBig s i (s.addr i + off) =
      if off % 2 ^ shift = 0 ∧ s.bit i shift (off / 2 ^ shift) = true then
        s.releaseBit i shift (off / 2 ^ shift) full
      else some s := by
  have hle := chunks_le_of_big h6
  have hlow := hc.shift_eq h6 h12
  have hj := div_lt_chunks (show shift ≤ 12 by omega) hoff
  rw [freeBig]
  dsimp only
  rw [hlow, hg.chunk_aligned (by omega), hg.page_offset hoff, Nat.shiftRight_eq_div_pow]
  generalize off / 2 ^ shift = j at hj ⊢
  by_cases halign : off % 2 ^ shift = 0
  · have hpos : slabPos shift j = j + mapShift := (slabPos_big h6 j).trans (Nat.add_comm ..)
    have hset : s.slab (.page i) &&& bitAt (j + mapShift) ≠ 0#64 ↔ s.bit i shift j = true := by
      rw [Pool.bit, if_neg (by omega), hpos, bitAt, Ne, and_bit_eq_zero (by rw [mapShift]; omega)]
      exact Bool.ne_false_iff
    rw [if_neg (not_not.mpr halign)]
    by_cases hbit : s.bit i shift j = true
    · -- Once the page is linked, the bit is cleared and the map is tested.
      have htail : ∀ t u, s.SameButLinks t →
          u = (t.modify (.page i) fun d => { d with slab := d.slab &&& ~~~bitAt (j + mapShift) }) →
          (if (u.desc (.page i)).slab &&& mapMask ≠ 0#64 then some u else ncxSlabFreePages u i 1) =
          if (t.writeBit i shift j false).InUse i shift then some (t.writeBit i shift j false)
          else ncxSlabFreePages (t.writeBit i shift j false) i 1 := by
        rintro t u ht rfl
        have hwrite : (t.modify (.page i) fun d =>
            { d with slab := d.slab &&& ~~~bitAt (j + mapShift) }) = t.writeBit i shift j false := by
          rw [Pool.writeBit, if_neg (by omega), hpos]
          rfl
        have hiff := inUse_big_iff (s := t.writeBit i shift j false) (i := i) h6 h12 (by
          intro k hk hout
          rw [Pool.writeBit_slab_rest h6 hj hk hout, ht.2]
          exact hc.big h6 k hk hout)
        rw [hwrite]
        by_cases huse : (t.writeBit i shift j false).InUse i shift
        · rw [if_pos huse]
          exact if_pos (hiff.mp huse)
        · rw [if_neg huse]
          exact if_neg (fun hne => huse (hiff.mpr hne))
      rw [if_pos (⟨halign, hbit⟩ : _ ∧ _), if_pos (hset.mpr hbit), Pool.releaseBit,
        tagOf_big h6]
      by_cases hfull : full = true
      · rw [if_pos hfull, if_pos (hlink.mpr hfull)]
        cases hr : s.relink i (shift - s.minShift) .big with
        | none => rfl
        | some t => exact htail t _ (Pool.relink_same hr) rfl
      · rw [if_neg hfull, if_neg (fun hnull => hfull (hlink.mp hnull))]
        exact htail s _ ⟨rfl, fun _ => rfl⟩ rfl
    · have hnot : ¬ (off % 2 ^ shift = 0 ∧ s.bit i shift j = true) := fun hboth => hbit hboth.2
      rw [if_neg hnot]
      exact if_neg (fun hne => hbit (hset.mp hne))
  · rw [if_pos halign, if_neg (fun hboth => halign hboth.1)]

end CcPof.Slab

import CcPof.Lib.WordBits
import CcPof.Slab.Clients

/-!
# The layout of a pool

`ncx_slab_init` estimates the number of pages before it knows where they begin, and corrects it by a
difference that C computes without a sign: when the first page would begin behind the end of the
memory, the estimate stays.
-/

namespace CcPof.Slab

variable {minShift : Nat} {base endAddr : Word}

/-! ## 1. The arithmetic of `ncx_slab_init` -/

/-- `ncx_align_ptr` -/
def ncxAlignPtr (p a : Word) : Word := (p + (a - 1#64)) &&& ~~~(a - 1#64)

/-- Where the slots, the descriptors and the pages begin, and the length of the first free block. -/
structure Layout where
  slots : Word
  pages : Word
  start : Word
  length : Word

/-- `ncx_slab_init` with pages of 4096 bytes, as far as addresses and sizes go. -/
def slabLayout (minShift : Nat) (base endAddr : Word) : Layout :=
  let pagesize := 4096#64
  let slots := base + BitVec.ofNat 64 sizeofSlabPool
  let size := endAddr - slots
  let n := BitVec.ofNat 64 (12 - minShift)
  let p := slots + n * BitVec.ofNat 64 sizeofSlabPage
  let pages := size / (pagesize + BitVec.ofNat 64 sizeofSlabPage)
  let start := ncxAlignPtr (p + pages * BitVec.ofNat 64 sizeofSlabPage) pagesize
  -- the division is unsigned, the comparison is signed
  let m := pages - (endAddr - start) / pagesize
  { slots, pages := p, start, length := if (0#64).slt m then pages - m else pages }

/-- The three parts follow each other, and the pages are in the memory of the pool. -/
structure LaidOut (minShift : Nat) (base endAddr : Word) (l : Layout) : Prop where
  slots : base.toNat + sizeofSlabPool ≤ l.slots.toNat
  descriptors : l.slots.toNat + (12 - minShift) * sizeofSlabPage ≤ l.pages.toNat
  pages : l.pages.toNat + l.length.toNat * sizeofSlabPage ≤ l.start.toNat
  aligned : l.start.toNat % 4096 = 0
  inside : 0 < l.length.toNat →
    base.toNat ≤ l.start.toNat ∧ l.start.toNat + l.length.toNat * 4096 ≤ endAddr.toNat

/-! ## 2. Its values -/

def alignUp (x : Nat) : Nat := (x + 4095) / 4096 * 4096

theorem toNat_ncxAlignPtr (p : Word) :
    (ncxAlignPtr p 4096#64).toNat = if p.toNat + 4095 < 2 ^ 64 then alignUp p.toNat else 0 := by
  have hmask (x : Word) : (x &&& ~~~(4096#64 - 1#64)).toNat = x.toNat / 4096 * 4096 := by
    have hshift : x &&& ~~~(4096#64 - 1#64) = x >>> 12 <<< 12 := by
      apply word_ext
      intro i hi
      rw [show 4096#64 - 1#64 = 1#64 <<< 12 - 1#64 by decide, BitVec.getLsbD_and,
        BitVec.getLsbD_not, getLsbD_lowMask (by decide), BitVec.getLsbD_shiftLeft,
        BitVec.getLsbD_ushiftRight]
      by_cases h12 : i < 12
      · simp [h12]
      · simp [h12, hi, show 12 + (i - 12) = i by omega]
    have hlt := x.isLt
    rw [hshift, BitVec.toNat_shiftLeft, BitVec.toNat_ushiftRight, Nat.shiftRight_eq_div_pow,
      Nat.shiftLeft_eq]
    omega
  have hp := p.isLt
  have hsum : (p + (4096#64 - 1#64)).toNat = (p.toNat + 4095) % 2 ^ 64 := BitVec.toNat_add _ _
  rw [ncxAlignPtr, hmask, hsum, alignUp]
  split <;> omega

/-- The number of pages that is estimated first. -/
def estimate (base endAddr : Word) : Nat := (endAddr.toNat - (base.toNat + sizeofSlabPool)) / 4120

/-- Where the descriptors of that many pages end. -/
def descriptorsEnd (minShift : Nat) (base endAddr : Word) : Nat :=
  base.toNat + sizeofSlabPool + (12 - minShift) * sizeofSlabPage +
    estimate base endAddr * sizeofSlabPage

/-- The memory holds the slots of the pool. -/
structure HoldsSlots (minShift : Nat) (base endAddr : Word) : Prop where
  three_le : 3 ≤ minShift
  le_eleven : minShift ≤ 11
  room : base.toNat + sizeofSlabPool + (12 - minShift) * sizeofSlabPage ≤ endAddr.toNat

/-- Two pages and more leave enough room for the alignment. -/
theorem HoldsSlots.descriptorsEnd_le (h : HoldsSlots minShift base endAddr) :
    descriptorsEnd minShift base endAddr ≤ endAddr.toNat ∧
      (2 ≤ estimate base endAddr →
        descriptorsEnd minShift base endAddr + 4095 ≤ endAddr.toNat) := by
  have hmin := h.three_le
  have hroom := h.room
  unfold descriptorsEnd estimate
  simp only [sizeofSlabPool, sizeofSlabPage] at hroom ⊢
  omega

theorem HoldsSlots.layout (h : HoldsSlots minShift base endAddr) :
    (slabLayout minShift base endAddr).slots.toNat = base.toNat + sizeofSlabPool ∧
      (slabLayout minShift base endAddr).pages.toNat =
        base.toNat + sizeofSlabPool + (12 - minShift) * sizeofSlabPage ∧
      (slabLayout minShift base endAddr).start.toNat =
        if descriptorsEnd minShift base endAddr + 4095 < 2 ^ 64 then
          alignUp (descriptorsEnd minShift base endAddr) else 0 := by
  have hend := endAddr.isLt
  have hroom := h.room
  have hle := h.descriptorsEnd_le.1
  have hslots : (base + BitVec.ofNat 64 sizeofSlabPool).toNat = base.toNat + sizeofSlabPool := by
    simp only [BitVec.toNat_add, BitVec.toNat_ofNat, sizeofSlabPool, sizeofSlabPage] at hroom ⊢
    omega
  have hn : (BitVec.ofNat 64 (12 - minShift) * BitVec.ofNat 64 sizeofSlabPage).toNat =
      (12 - minShift) * sizeofSlabPage := by
    simp only [BitVec.toNat_mul, BitVec.toNat_ofNat, sizeofSlabPage]
    omega
  -- None of the sums goes beyond `endAddr`, so none of them wraps.
  have hpages : (base + BitVec.ofNat 64 sizeofSlabPool + BitVec.ofNat 64 (12 - minShift) *
      BitVec.ofNat 64 sizeofSlabPage).toNat =
      base.toNat + sizeofSlabPool + (12 - minShift) * sizeofSlabPage := by
    rw [BitVec.toNat_add, hslots, hn]
    omega
  refine ⟨hslots, hpages, ?_⟩
  have hsize : ((endAddr - (base + BitVec.ofNat 64 sizeofSlabPool)) /
      (4096#64 + BitVec.ofNat 64 sizeofSlabPage)).toNat = estimate base endAddr := by
    have hdivisor : (4096#64 + BitVec.ofNat 64 sizeofSlabPage).toNat = 4120 := by decide
    have hle : (base + BitVec.ofNat 64 sizeofSlabPool).toNat ≤ endAddr.toNat := by omega
    rw [BitVec.toNat_udiv, hdivisor, BitVec.toNat_sub_of_le hle, hslots, estimate]
  have hdesc : (base + BitVec.ofNat 64 sizeofSlabPool + BitVec.ofNat 64 (12 - minShift) *
      BitVec.ofNat 64 sizeofSlabPage + (endAddr - (base + BitVec.ofNat 64 sizeofSlabPool)) /
      (4096#64 + BitVec.ofNat 64 sizeofSlabPage) * BitVec.ofNat 64 sizeofSlabPage).toNat =
      descriptorsEnd minShift base endAddr := by
    rw [BitVec.toNat_add, hpages, BitVec.toNat_mul, hsize]
    unfold descriptorsEnd at hle ⊢
    simp only [BitVec.toNat_ofNat, sizeofSlabPool, sizeofSlabPage] at hle ⊢
    omega
  show (ncxAlignPtr _ _).toNat = _
  rw [toNat_ncxAlignPtr, hdesc]

theorem zero_slt_iff (m : Word) : (0#64).slt m = true ↔ 0 < m.toNat ∧ m.toNat < 2 ^ 63 := by
  have hm := m.isLt
  rw [BitVec.slt, decide_eq_true_eq, BitVec.toInt_zero, BitVec.toInt_eq_toNat_cond]
  split <;> omega

/-- The difference of two page counts, as a signed number, is positive just when it should be. -/
theorem corrected (pages fits : Word) (hpages : pages.toNat < 2 ^ 53) (hfits : fits.toNat < 2 ^ 53) :
    (if (0#64).slt (pages - fits) then pages - (pages - fits) else pages).toNat =
      min pages.toNat fits.toNat := by
  by_cases hle : fits.toNat ≤ pages.toNat
  · have hm : (pages - fits).toNat = pages.toNat - fits.toNat := BitVec.toNat_sub_of_le hle
    rw [Nat.min_eq_right hle]
    by_cases hpos : 0 < pages.toNat - fits.toNat
    · have hback : (pages - fits).toNat ≤ pages.toNat := by omega
      rw [if_pos ((zero_slt_iff _).mpr (by omega)), BitVec.toNat_sub_of_le hback, hm]
      omega
    · rw [if_neg fun h => hpos (hm ▸ ((zero_slt_iff _).mp h).1)]
      omega
  · -- The difference wraps, and is negative as a signed number.
    have hm : (pages - fits).toNat = 2 ^ 64 - (fits.toNat - pages.toNat) := by
      rw [BitVec.toNat_sub]
      omega
    rw [Nat.min_eq_left (by omega), if_neg fun h => ?_]
    have hneg := ((zero_slt_iff _).mp h).2
    omega

/-- The length of the first free block: what fits behind the start, and the estimate where the start
is behind the end. -/
theorem HoldsSlots.length (h : HoldsSlots minShift base endAddr) :
    (slabLayout minShift base endAddr).length.toNat =
      if (slabLayout minShift base endAddr).start.toNat ≤ endAddr.toNat then
        min (estimate base endAddr)
          ((endAddr.toNat - (slabLayout minShift base endAddr).start.toNat) / 4096)
      else estimate base endAddr := by
  have hend := endAddr.isLt
  have hdesc := h.descriptorsEnd_le.1
  obtain ⟨hslots, _, hstart⟩ := h.layout
  have hroom := h.room
  have hestimate : ((endAddr - (slabLayout minShift base endAddr).slots) /
      (4096#64 + BitVec.ofNat 64 sizeofSlabPage)).toNat = estimate base endAddr := by
    have hdivisor : (4096#64 + BitVec.ofNat 64 sizeofSlabPage).toNat = 4120 := by decide
    have hle : (slabLayout minShift base endAddr).slots.toNat ≤ endAddr.toNat := by omega
    rw [BitVec.toNat_udiv, hdivisor, BitVec.toNat_sub_of_le hle, hslots, estimate]
  have hsmall : estimate base endAddr < 2 ^ 52 := by
    unfold estimate
    omega
  have hfits (x : Word) : (x / 4096#64).toNat = x.toNat / 4096 := BitVec.toNat_udiv
  -- Both counts are quotients of words, so their difference has a sign.
  have hlength := corrected ((endAddr - (slabLayout minShift base endAddr).slots) /
    (4096#64 + BitVec.ofNat 64 sizeofSlabPage))
    ((endAddr - (slabLayout minShift base endAddr).start) / 4096#64) (by omega)
    (by have hlt := (endAddr - (slabLayout minShift base endAddr).start).isLt; rw [hfits]; omega)
  apply Eq.trans hlength
  rw [hestimate, hfits]
  by_cases hle : (slabLayout minShift base endAddr).start.toNat ≤ endAddr.toNat
  · rw [if_pos hle, BitVec.toNat_sub_of_le hle]
  · -- an unsigned quotient of almost 2 ^ 52
    rw [if_neg hle, BitVec.toNat_sub]
    apply Nat.min_eq_left
    have hnear : (slabLayout minShift base endAddr).start.toNat ≤ endAddr.toNat + 4095 := by
      rw [hstart]
      unfold alignUp
      split <;> omega
    unfold estimate
    omega

/-! ## 3. When the layout is right -/

/-- No page is estimated, and the end of the slots can be rounded up to an address; or the first page
boundary behind the slots and one descriptor is in the memory. -/
def RoomForPage (minShift : Nat) (base endAddr : Word) : Prop :=
  let slotsEnd := base.toNat + sizeofSlabPool + (12 - minShift) * sizeofSlabPage
  endAddr.toNat < base.toNat + sizeofSlabPool + 4120 ∧ alignUp slotsEnd < 2 ^ 64 ∨
    base.toNat + sizeofSlabPool + 4120 ≤ endAddr.toNat ∧
      alignUp (slotsEnd + sizeofSlabPage) ≤ endAddr.toNat

/-- The same, said of the start: the rounding does not wrap, and with a page the start is in the
memory. -/
theorem HoldsSlots.roomForPage_iff (h : HoldsSlots minShift base endAddr) :
    RoomForPage minShift base endAddr ↔ descriptorsEnd minShift base endAddr + 4095 < 2 ^ 64 ∧
      (0 < estimate base endAddr → alignUp (descriptorsEnd minShift base endAddr) ≤ endAddr.toNat) := by
  have hend := endAddr.isLt
  have hmin := h.three_le
  have hroom := h.room
  unfold RoomForPage descriptorsEnd estimate alignUp
  simp only [sizeofSlabPool, sizeofSlabPage] at hroom ⊢
  omega

/-- A wrapped start is before the descriptors, and a page behind the end is recorded all the same. -/
theorem HoldsSlots.roomForPage_of_laidOut (h : HoldsSlots minShift base endAddr)
    (hlaid : LaidOut minShift base endAddr (slabLayout minShift base endAddr)) :
    RoomForPage minShift base endAddr := by
  obtain ⟨_, hpages, hstart⟩ := h.layout
  have hlength := h.length
  have hbehind := hlaid.pages
  have hnowrap : descriptorsEnd minShift base endAddr + 4095 < 2 ^ 64 := by
    by_contra hwrap
    rw [hstart, if_neg hwrap, hpages, sizeofSlabPool] at hbehind
    omega
  refine h.roomForPage_iff.mpr ⟨hnowrap, fun hpos => ?_⟩
  rw [if_pos hnowrap] at hstart
  rw [← hstart]
  -- Behind the end the estimate is not corrected, so there is a page to be inside.
  by_contra hout
  rw [if_neg hout] at hlength
  have hinside := (hlaid.inside (hlength ▸ hpos)).2
  omega

theorem HoldsSlots.laidOut (h : HoldsSlots minShift base endAddr)
    (hroom : RoomForPage minShift base endAddr) :
    LaidOut minShift base endAddr (slabLayout minShift base endAddr) := by
  obtain ⟨hslots, hpages, hstart⟩ := h.layout
  obtain ⟨hnowrap, hin⟩ := h.roomForPage_iff.mp hroom
  have hlength := h.length
  have hestimate : descriptorsEnd minShift base endAddr =
      (slabLayout minShift base endAddr).pages.toNat + estimate base endAddr * sizeofSlabPage := by
    rw [hpages, descriptorsEnd]
  rw [if_pos hnowrap] at hstart
  have hup : descriptorsEnd minShift base endAddr ≤ alignUp (descriptorsEnd minShift base endAddr) ∧
      alignUp (descriptorsEnd minShift base endAddr) % 4096 = 0 := by
    unfold alignUp
    omega
  have hshort : (slabLayout minShift base endAddr).length.toNat ≤ estimate base endAddr := by
    rw [hlength]
    split <;> omega
  refine ⟨hslots.ge, by rw [hslots, hpages], ?_, by rw [hstart]; exact hup.2, fun hpos => ?_⟩
  · -- There is a descriptor for every page of the estimate.
    have hmul := Nat.mul_le_mul_right sizeofSlabPage hshort
    omega
  · -- With a page the length is what fits between the start and the end.
    have hle : (slabLayout minShift base endAddr).start.toNat ≤ endAddr.toNat := by
      rw [hstart]
      exact hin (Nat.lt_of_lt_of_le hpos hshort)
    rw [if_pos hle] at hlength
    constructor
    · rw [hstart]
      refine le_trans ?_ hup.1
      unfold descriptorsEnd
      omega
    · rw [hlength]
      omega

/-- **When `ncx_slab_init` lays the pool out inside its memory.** That `pages[0].slab` is written
even where no page is estimated, and the array has no place for it, is left out of this. -/
theorem laidOut_iff_roomForPage (h : HoldsSlots minShift base endAddr) :
    LaidOut minShift base endAddr (slabLayout minShift base endAddr) ↔
      RoomForPage minShift base endAddr :=
  ⟨h.roomForPage_of_laidOut, h.laidOut⟩

/-- Memory of 4200 bytes, in which the first page boundary behind one descriptor is behind the end. -/
def shortBase : Word := 3784#64

def shortEnd : Word := 7984#64

/-- The free block of one page is recorded there all the same. -/
theorem pageBehindEnd_recorded :
    HoldsSlots 3 shortBase shortEnd ∧ ¬ LaidOut 3 shortBase shortEnd (slabLayout 3 shortBase shortEnd) := by
  have hstart : (slabLayout 3 shortBase shortEnd).start = 8192#64 := by decide
  have hlength : (slabLayout 3 shortBase shortEnd).length = 1#64 := by decide
  refine ⟨⟨by decide, by decide, by decide⟩, fun h => ?_⟩
  have hinside := h.inside
  rw [hstart, hlength] at hinside
  exact absurd (hinside (by decide)).2 (by decide)

theorem laidOut_iff_roomForPage_short :
    LaidOut 3 shortBase shortEnd (slabLayout 3 shortBase shortEnd) ↔
      RoomForPage 3 shortBase shortEnd :=
  laidOut_iff_roomForPage ⟨by decide, by decide, by decide⟩

/-! ## 4. The pools of the other results -/

/-- Where the alignment does not wrap, these are the addresses and sizes of `ncxSlabInit`. -/
theorem HoldsSlots.init_eq (h : HoldsSlots minShift base endAddr)
    (hnowrap : descriptorsEnd minShift base endAddr + 4095 < 2 ^ 64) (desc : Ref → SlabPage)
    (mem : Mem) :
    (ncxSlabInit 12 minShift base.toNat endAddr.toNat desc mem).1.start =
        (slabLayout minShift base endAddr).start.toNat ∧
      (ncxSlabInit 12 minShift base.toNat endAddr.toNat desc mem).2 =
        (slabLayout minShift base endAddr).length.toNat := by
  have hend := endAddr.isLt
  have hroom := h.room
  have hdesc := h.descriptorsEnd_le.1
  obtain ⟨_, _, hstart⟩ := h.layout
  have hlength := h.length
  rw [if_pos hnowrap] at hstart
  have hsize : (((endAddr.toNat : Int) - (base.toNat + sizeofSlabPool : Nat)) % 2 ^ 64).toNat /
      (1 <<< 12 + sizeofSlabPage) = estimate base endAddr := by
    have hdivisor : 1 <<< 12 + sizeofSlabPage = 4120 := by decide
    rw [hdivisor, estimate]
    omega
  have hinit : (ncxSlabInit 12 minShift base.toNat endAddr.toNat desc mem).1.start =
      alignUp (descriptorsEnd minShift base endAddr) := by
    show (_ + _ * sizeofSlabPage + (1 <<< 12 - 1)) / 1 <<< 12 * 1 <<< 12 = _
    rw [hsize]
    rfl
  refine ⟨hinit.trans hstart.symm, ?_⟩
  -- There `m` is an integer, and only the quotient is taken of a word.
  have hsecond : (ncxSlabInit 12 minShift base.toNat endAddr.toNat desc mem).2 =
      if 0 < (estimate base endAddr : Int) - ((((endAddr.toNat : Int) -
          (alignUp (descriptorsEnd minShift base endAddr) : Nat)) % 2 ^ 64).toNat / 4096 : Nat) then
        (((endAddr.toNat : Int) - (alignUp (descriptorsEnd minShift base endAddr) : Nat)) %
          2 ^ 64).toNat / 4096
      else estimate base endAddr := by
    rw [← hinit, ← hsize]
    rfl
  have hsmall : estimate base endAddr ≤ endAddr.toNat / 4120 := by
    unfold estimate
    exact Nat.div_le_div_right (Nat.sub_le _ _)
  have hnear : alignUp (descriptorsEnd minShift base endAddr) ≤ endAddr.toNat + 4095 := by
    unfold alignUp
    omega
  rw [hsecond, hlength, hstart]
  split <;> split <;> omega

/-- A pool with room for a page is one that the other results are about. -/
theorem HoldsSlots.fits (h : HoldsSlots minShift base endAddr)
    (hroom : RoomForPage minShift base endAddr) (hpage : 0 < estimate base endAddr)
    (desc : Ref → SlabPage) (mem : Mem) :
    Fits minShift base.toNat endAddr.toNat desc mem
      (ncxSlabInit 12 minShift base.toNat endAddr.toNat desc mem).1
      (ncxSlabInit 12 minShift base.toNat endAddr.toNat desc mem).2 := by
  obtain ⟨hnowrap, hin⟩ := h.roomForPage_iff.mp hroom
  obtain ⟨hstart, hpages⟩ := h.init_eq hnowrap desc mem
  obtain ⟨_, _, hvalue⟩ := h.layout
  have hlength := h.length
  rw [if_pos hnowrap] at hvalue
  have hle := hin hpage
  rw [← hvalue] at hle
  rw [if_pos hle] at hlength
  refine ⟨rfl, h.three_le, h.le_eleven, ?_, endAddr.isLt⟩
  rw [hstart, hpages, hlength]
  omega

end CcPof.Slab

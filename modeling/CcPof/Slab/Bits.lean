import CcPof.Lib.WordBits
import CcPof.Slab.Pages

/-!
# The chunks of a page

A page of chunks has one bit for each chunk: in a bitmap at the front of the page where the chunks
are small, in the descriptor otherwise. The first chunks of a page with a bitmap are taken up by
the bitmap.
-/

namespace CcPof.Slab

/-- The pools of the file: pages of 4096 bytes, the page area in the memory of the pool. -/
structure Geometry (s : Pool) (N : Nat) : Prop where
  shift : s.pagesizeShift = 12
  three_le : 3 ≤ s.minShift
  le_eleven : s.minShift ≤ 11
  align : s.start % 4096 = 0
  start_pos : 0 < s.start
  fit : s.start + 4096 * N ≤ s.endAddr
  bound : s.endAddr < 2 ^ 64

/-- The number of chunks of a page. -/
def chunks (shift : Nat) : Nat := 1 <<< (12 - shift)

/-- The number of chunks that have bytes of the bitmap. -/
def reserved (shift : Nat) : Nat :=
  if shift < 6 then (chunks shift / 8 + (1 <<< shift - 1)) / (1 <<< shift) else 0

/-- The bit of a chunk in the descriptor. -/
def slabPos (shift j : Nat) : Nat := if shift = 6 then j else mapShift + j

namespace Pool

/-- The chunk `j` of page `i` is in use. -/
def bit (s : Pool) (i shift j : Nat) : Bool :=
  if shift < 6 then (s.word (s.addr i) (j / 64)).getLsbD (j % 64)
  else (s.slab (.page i)).getLsbD (slabPos shift j)

def writeBit (s : Pool) (i shift j : Nat) (v : Bool) : Pool :=
  if shift < 6 then s.setWord (s.addr i) (j / 64) (putBit (s.word (s.addr i) (j / 64)) (j % 64) v)
  else s.modify (.page i) fun d => { d with slab := putBit d.slab (slabPos shift j) v }

/-- Chunk `j` in the bitmap at the front of page `i`. -/
def mapBit (s : Pool) (i j : Nat) : Bool := (s.word (s.addr i) (j / 64)).getLsbD (j % 64)

def writeMap (s : Pool) (i j : Nat) (v : Bool) : Pool :=
  s.setWord (s.addr i) (j / 64) (putBit (s.word (s.addr i) (j / 64)) (j % 64) v)

/-- No chunk of the page is free. -/
def Full (s : Pool) (i shift : Nat) : Prop := ∀ j, j < chunks shift → s.bit i shift j = true

instance (s : Pool) (i shift : Nat) : Decidable (s.Full i shift) :=
  decidable_of_iff (∀ j ∈ List.range (chunks shift), s.bit i shift j = true)
    (by simp only [List.mem_range, Full])

end Pool

/-- What the bits of a page of chunks say, and what else its descriptor holds. -/
structure ChunkOk (s : Pool) (i shift : Nat) (full : Bool) : Prop where
  small : shift < 6 → s.slab (.page i) = BitVec.ofNat 64 shift
  big : 6 < shift → ∀ k, k < 64 → k < 32 ∨ 32 + chunks shift ≤ k →
    (s.slab (.page i)).getLsbD k = (BitVec.ofNat 64 shift).getLsbD k
  reserved : ∀ j, j < reserved shift → s.bit i shift j = true
  full_iff : full = true ↔ s.Full i shift

variable {s s' : Pool} {N : Nat} {blk : Nat → Option Block} {ring : Ref → List Nat}
  {i i' j j' k shift shift' : Nat} {full : Bool}

/-! ## 1. Sizes -/

theorem chunks_le (h : 3 ≤ shift) : chunks shift ≤ 512 := by
  have hle : 12 - shift ≤ 9 := by omega
  rw [chunks, Nat.one_shiftLeft]
  exact Nat.pow_le_pow_right (by decide) hle

theorem chunks_le_of_big (h : 6 < shift) : chunks shift ≤ 32 := by
  have hle : 12 - shift ≤ 5 := by omega
  rw [chunks, Nat.one_shiftLeft]
  exact Nat.pow_le_pow_right (by decide) hle

theorem one_lt_chunks (h : shift < 12) : 1 < chunks shift := by
  have hle : 1 ≤ 12 - shift := by omega
  rw [chunks, Nat.one_shiftLeft]
  exact Nat.lt_of_lt_of_le (by decide) (Nat.pow_le_pow_right (by decide) hle)

theorem slabPos_lt (h : 6 ≤ shift) (hj : j < chunks shift) : slabPos shift j < 64 := by
  by_cases h6 : shift = 6
  · subst h6
    rw [slabPos, if_pos rfl]
    exact hj
  · have hle := chunks_le_of_big (show 6 < shift by omega)
    rw [slabPos, if_neg h6, mapShift]
    omega

theorem slabPos_inj (h : slabPos shift j = slabPos shift j') : j = j' := by
  rw [slabPos, slabPos] at h
  split at h <;> omega

theorem chunks_small (h3 : 3 ≤ shift) (h6 : shift < 6) : chunks shift = 64 * (chunks shift / 64) := by
  obtain rfl | rfl | rfl : shift = 3 ∨ shift = 4 ∨ shift = 5 := by omega
  all_goals decide

theorem reserved_small (h3 : 3 ≤ shift) (h6 : shift < 6) :
    0 < reserved shift ∧ reserved shift ≤ 8 ∧ reserved shift + 1 < chunks shift ∧
      chunks shift / 8 ≤ reserved shift * 2 ^ shift ∧
      (reserved shift - 1) * 2 ^ shift < chunks shift / 8 := by
  obtain rfl | rfl | rfl : shift = 3 ∨ shift = 4 ∨ shift = 5 := by omega
  all_goals decide

theorem reserved_of_le (h : 6 ≤ shift) : reserved shift = 0 := if_neg (by omega)

theorem reserved_lt (h3 : 3 ≤ shift) (h12 : shift < 12) : reserved shift < chunks shift := by
  by_cases h6 : shift < 6
  · have hsmall := reserved_small h3 h6
    omega
  · rw [reserved_of_le (by omega), chunks, Nat.one_shiftLeft]
    exact Nat.two_pow_pos _

theorem chunks_mul (h : shift ≤ 12) : chunks shift * 2 ^ shift = 4096 := by
  rw [chunks, Nat.one_shiftLeft, ← pow_add, Nat.sub_add_cancel h]
  rfl

/-- Chunks of a page have different addresses. -/
theorem chunk_inj (a : Nat) : a + j <<< shift = a + j' <<< shift ↔ j = j' := by
  rw [Nat.add_left_cancel_iff, Nat.shiftLeft_eq, Nat.shiftLeft_eq]
  exact ⟨Nat.eq_of_mul_eq_mul_right (Nat.two_pow_pos shift), fun heq => by rw [heq]⟩

theorem bitmapChunks_eq (hs : s.pagesizeShift = 12) (h3 : 3 ≤ shift) (h6 : shift < 6) :
    bitmapChunks s shift = reserved shift := by
  rw [bitmapChunks, hs]
  obtain rfl | rfl | rfl : shift = 3 ∨ shift = 4 ∨ shift = 5 := by omega
  all_goals decide

/-- The number of words of the bitmap of a page. -/
theorem mapWords_eq (hs : s.pagesizeShift = 12) :
    (1 <<< (s.pagesizeShift - shift)) / (8 * 8) = chunks shift / 64 := by
  rw [hs]
  rfl

theorem tagOf_big (h6 : 6 < shift) : tagOf shift = .big := by
  rw [tagOf, if_neg (by omega), if_neg (by omega)]

theorem slabPos_big (h6 : 6 < shift) (j : Nat) : slabPos shift j = mapShift + j := if_neg (by omega)

namespace Geometry

theorem pagesize (hg : Geometry s N) : s.pagesize = 4096 := by
  rw [Pool.pagesize, hg.shift]
  rfl

theorem maxSize (hg : Geometry s N) : s.maxSize = 2048 := by
  rw [Pool.maxSize, hg.pagesize]

theorem exactSize (hg : Geometry s N) : s.exactSize = 64 := by
  rw [Pool.exactSize, hg.pagesize]

theorem exactShift (hg : Geometry s N) : s.exactShift = 6 := by
  rw [Pool.exactShift, hg.exactSize]
  decide

theorem addr (hg : Geometry s N) (i : Nat) : s.addr i = s.start + 4096 * i := by
  rw [Pool.addr, hg.shift, Nat.shiftLeft_eq, Nat.mul_comm]

end Geometry

/-! ## 2. Reading and writing bits -/

namespace Pool

theorem bit_small (h6 : shift < 6) (s : Pool) (i j : Nat) :
    s.bit i shift j = (s.word (s.addr i) (j / 64)).getLsbD (j % 64) := if_pos h6

theorem bit_big (h6 : 6 < shift) (s : Pool) (i j : Nat) :
    s.bit i shift j = (s.slab (.page i)).getLsbD (32 + j) := by
  rw [bit, if_neg (by omega), slabPos_big h6, mapShift]

/-- A bit depends on the bitmap of its page, or on its descriptor. -/
theorem bit_congr (haddr : s'.addr i = s.addr i) (h3 : 3 ≤ shift)
    (hmem : shift < 6 → AgreeOn (s.addr i) (s.addr i + chunks shift / 8) s.mem s'.mem)
    (hslab : 6 ≤ shift → s'.slab (.page i) = s.slab (.page i)) (hj : j < chunks shift) :
    s'.bit i shift j = s.bit i shift j := by
  rw [bit, bit]
  by_cases h6 : shift < 6
  · rw [if_pos h6, if_pos h6, word, word, haddr]
    have hchunks := chunks_small h3 h6
    rw [(hmem h6).get64 (by omega) (by omega)]
  · rw [if_neg h6, if_neg h6, hslab (by omega)]

theorem SameButLinks.bit (hs : s.SameButLinks s') (i shift j : Nat) :
    s'.bit i shift j = s.bit i shift j := by
  have hslab := hs.2 (.page i)
  rw [Pool.bit, Pool.bit, hslab, hs.1]
  rfl

theorem word_setWord_same (s : Pool) (bitmap n : Nat) (w : Word) :
    (s.setWord bitmap n w).word bitmap n = w := by
  rw [word, setWord, get64_put64]

theorem word_setWord_of_ne {a b m n : Nat} (h : a + 8 * m + 8 ≤ b + 8 * n ∨ b + 8 * n + 8 ≤ a + 8 * m)
    (s : Pool) (w : Word) : (s.setWord b n w).word a m = s.word a m := by
  rw [word, setWord, put64, get64_store_disjoint]
  · rfl
  · rw [length_toLE]
    exact h

theorem word_setWord_other (s : Pool) (w : Word) {bitmap m n : Nat} (h : m ≠ n) :
    (s.setWord bitmap n w).word bitmap m = s.word bitmap m :=
  word_setWord_of_ne (by omega) s w

variable {v : Bool}

theorem mapBit_writeMap (s : Pool) (i j k : Nat) :
    (s.writeMap i j v).mapBit i k = if k = j then v else s.mapBit i k := by
  unfold mapBit writeMap
  show ((s.setWord (s.addr i) (j / 64) _).word (s.addr i) (k / 64)).getLsbD (k % 64) = _
  by_cases hword : k / 64 = j / 64
  · rw [hword, word_setWord_same, getLsbD_putBit (by omega)]
    have hiff : k % 64 = j % 64 ↔ k = j := by omega
    simp only [hiff]
  · rw [word_setWord_other s _ hword, if_neg (fun heq => hword (by rw [heq]))]

theorem writeBit_same (hj : j < chunks shift) (k : Nat) :
    (s.writeBit i shift j v).bit i shift k = if k = j then v else s.bit i shift k := by
  rw [bit, bit, writeBit]
  by_cases h6 : shift < 6
  · rw [if_pos h6, if_pos h6, if_pos h6]
    exact mapBit_writeMap s i j k
  · rw [if_neg h6, if_neg h6, if_neg h6]
    have hslab : (s.modify (.page i) fun d => { d with slab := putBit d.slab (slabPos shift j) v }).slab
        (.page i) = putBit (s.slab (.page i)) (slabPos shift j) v := by
      rw [Pool.slab, desc_modify_self]
    rw [hslab, getLsbD_putBit (slabPos_lt (by omega) hj)]
    have hiff : slabPos shift k = slabPos shift j ↔ k = j := ⟨slabPos_inj, fun heq => by rw [heq]⟩
    simp only [hiff]

theorem writeBit_mem (h6 : 6 ≤ shift) : (s.writeBit i shift j v).mem = s.mem := by
  rw [writeBit, if_neg (by omega)]
  rfl

/-- The bitmap words stay inside the bitmap. -/
theorem writeBit_changed (h3 : 3 ≤ shift) (h6 : shift < 6) (hj : j < chunks shift) :
    ChangedWithin (s.addr i) (s.addr i + chunks shift / 8) s.mem (s.writeBit i shift j v).mem := by
  have hchunks := chunks_small h3 h6
  rw [writeBit, if_pos h6]
  apply (ChangedWithin.refl _ _ _).store (by omega)
  rw [length_toLE]
  omega

theorem writeBit_slab_of_ne {x : Ref} (hx : x ≠ .page i) :
    (s.writeBit i shift j v).desc x = s.desc x := by
  rw [writeBit]
  split
  · rfl
  · exact desc_modify_of_ne hx ..

theorem writeBit_slab_small (h6 : shift < 6) : (s.writeBit i shift j v).desc = s.desc := by
  rw [writeBit, if_pos h6]
  rfl

theorem writeBit_slab (h6 : 6 ≤ shift) :
    (s.writeBit i shift j v).slab (.page i) = putBit (s.slab (.page i)) (slabPos shift j) v := by
  rw [writeBit, if_neg (by omega), Pool.slab, desc_modify_self]

/-- Outside the map the descriptor of a page of big chunks is left alone. -/
theorem writeBit_slab_rest (h6 : 6 < shift) (hj : j < chunks shift) (hk : k < 64)
    (hout : k < 32 ∨ 32 + chunks shift ≤ k) :
    ((s.writeBit i shift j v).slab (.page i)).getLsbD k = (s.slab (.page i)).getLsbD k := by
  have hle := chunks_le_of_big h6
  rw [writeBit_slab (by omega), slabPos_big h6, mapShift, getLsbD_putBit (by omega),
    if_neg (by omega)]

/-- Only a slab word and bytes of the page are written. -/
theorem writeBit_frame (s : Pool) (i shift j : Nat) (v : Bool) :
    s.writeBit i shift j v = { s with
      desc := (s.writeBit i shift j v).desc, mem := (s.writeBit i shift j v).mem } ∧
    ∀ x, (s.writeBit i shift j v).desc x =
      { s.desc x with slab := (s.writeBit i shift j v).slab x } := by
  rw [writeBit]
  split
  · exact ⟨rfl, fun _ => rfl⟩
  · refine ⟨rfl, fun x => ?_⟩
    by_cases hx : x = .page i
    · rw [hx, Pool.slab, desc_modify_self]
    · rw [Pool.slab, desc_modify_of_ne hx]

theorem writeBit_other (hg : Geometry s N) (h3 : 3 ≤ shift) (hj : j < chunks shift)
    (h3' : 3 ≤ shift') (hj' : j' < chunks shift') (hne : i' ≠ i) :
    (s.writeBit i shift j v).bit i' shift' j' = s.bit i' shift' j' := by
  have hframe := (writeBit_frame s i shift j v).1
  apply bit_congr _ h3' _ _ hj'
  · rw [hframe]
    rfl
  · intro h6' a hlo hhi
    by_cases h6 : shift < 6
    · have hle := chunks_le h3
      have hle' := chunks_le h3'
      rw [hg.addr] at hlo hhi
      refine (writeBit_changed h3 h6 hj a ?_).symm
      rw [hg.addr]
      omega
    · rw [writeBit_mem (by omega)]
  · intro _
    rw [Pool.slab, writeBit_slab_of_ne (fun heq => hne (Ref.page.inj heq))]

end Pool

/-- A change of slab words of pages of chunks, and of bytes. -/
theorem Links.congr (hL : Links s N blk ring) (hmin : s'.minShift = s.minShift)
    (hdesc : ∀ x, s'.desc x = { s.desc x with slab := s'.slab x })
    (hslab : ∀ j, (∀ shift full, blk j ≠ some (.slab shift full)) →
      s'.slab (.page j) = s.slab (.page j)) : Links s' N blk ring := by
  have hheader : ∀ h, s'.IsHeader h → s.IsHeader h := by
    rintro h (hh | ⟨p, hp, hlt⟩)
    · exact Or.inl hh
    · exact Or.inr ⟨p, hp, hmin ▸ hlt⟩
  have hsame : ∀ j, (∀ shift full, blk j ≠ some (.slab shift full)) →
      s'.desc (.page j) = s.desc (.page j) := by
    intro j hj
    rw [hdesc, hslab j hj]
  refine ⟨hL.bound, hL.pos, hL.apart, hL.cover, ?_, ?_, ?_⟩
  · intro j c hj
    have hd := hL.desc j c hj
    have hin : ∀ k, j < k → k < j + c.len → s'.desc (.page k) = s.desc (.page k) := by
      intro k hjk hk
      apply hsame k
      intro shift full
      rw [hL.apart j c k hj hjk hk]
      exact nofun
    rcases c with n | n | ⟨shift, full⟩
    · exact hd.congr hmin (hsame j (by rw [hj]; exact nofun)) hin
    · exact hd.congr hmin (hsame j (by rw [hj]; exact nofun)) hin
    · refine ⟨hmin.symm ▸ hd.1, hd.2.1, ?_, ?_⟩
      · rw [Pool.tag, hdesc]
        exact hd.2.2.1
      · rw [Pool.next, Pool.prev, hdesc]
        exact hd.2.2.2
  · intro h hh
    apply (hL.rings h (hheader h hh)).congr
    · intro x _
      rw [Pool.next, hdesc]
    · intro x _
      rw [Pool.prev, hdesc]
  · intro h j hh
    rw [hmin]
    exact hL.mem_ring h j (hheader h hh)

theorem Links.writeBit {v : Bool} (hL : Links s N blk ring)
    (hi : blk i = some (.slab shift full)) : Links (s.writeBit i shift j v) N blk ring := by
  have hframe := Pool.writeBit_frame s i shift j v
  apply hL.congr
  · rw [hframe.1]
  · exact hframe.2
  · intro k hk
    rw [Pool.slab, Pool.writeBit_slab_of_ne]
    intro heq
    cases heq
    exact hk shift full hi

end CcPof.Slab

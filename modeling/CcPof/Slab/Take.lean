import CcPof.Slab.Bits

/-!
# Taking a chunk

The three searches of `ncx_slab_alloc` in the pages of a slot, and the first chunk of a fresh page,
come down to one bit that is set.
-/

namespace CcPof.Slab

variable {s s' : Pool} {N : Nat} {blk : Nat → Option Block} {ring : Ref → List Nat}
  {i j k shift : Nat} {full : Bool}

/-- Set the bit of a chunk; a page that is full now leaves its list. -/
def Pool.takeBit (s : Pool) (i shift j : Nat) : Option Pool :=
  let s := s.writeBit i shift j true
  if s.Full i shift then s.unlinkFull i (tagOf shift) else some s

/-- The chunk that a search of page `i` gives. -/
def Takes (take : Pool → Nat → Option (Pool × Option Nat)) (s : Pool) (i shift j : Nat) : Prop :=
  j < chunks shift ∧ s.bit i shift j = false ∧
    take s i = (s.takeBit i shift j).map fun s' => (s', some (s.addr i + j <<< shift))

theorem slabBusy_eq : slabBusy = BitVec.allOnes 64 := by decide

/-! ## 1. Small chunks -/

theorem findSome_range_eq_some {β : Type} {f : Nat → Option β} {m : Nat} {b : β}
    (h : (List.range m).findSome? f = some b) : ∃ n, n < m ∧ f n = some b ∧ ∀ k, k < n → f k = none := by
  induction m with
  | zero => cases h
  | succ m ih =>
    rw [List.range_succ, List.findSome?_append] at h
    cases hm : (List.range m).findSome? f with
    | some c =>
      rw [hm, Option.some_or] at h
      cases h
      rcases ih hm with ⟨n, hn, hrest⟩
      exact ⟨n, by omega, hrest⟩
    | none =>
      rw [hm, Option.none_or, List.findSome?_singleton] at h
      refine ⟨m, by omega, h, fun k hk => ?_⟩
      exact List.findSome?_eq_none_iff.mp hm k (List.mem_range.mpr hk)

theorem full_small_iff (h3 : 3 ≤ shift) (h6 : shift < 6) :
    s.Full i shift ↔ ∀ n, n < chunks shift / 64 → s.word (s.addr i) n = slabBusy := by
  have hchunks := chunks_small h3 h6
  have hbit := Pool.bit_small h6 s i
  rw [slabBusy_eq]
  constructor
  · intro hfull n hn
    rw [eq_allOnes_iff_bits]
    intro k hk
    have hk' := hfull (64 * n + k) (by omega)
    rwa [hbit, show (64 * n + k) / 64 = n by omega, show (64 * n + k) % 64 = k by omega] at hk'
  · intro hwords j hj
    rw [hbit]
    exact eq_allOnes_iff_bits.mp (hwords (j / 64) (by omega)) _ (by omega)

/-- After the first word with a zero bit was written to, only the words from there on can be other
than full. -/
theorem full_writeBit_small_iff {n b : Nat} (h3 : 3 ≤ shift) (h6 : shift < 6)
    (hn : n < chunks shift / 64) (hb : b < 64)
    (hbefore : ∀ k, k < n → s.word (s.addr i) k = slabBusy) :
    (s.writeBit i shift (64 * n + b) true).Full i shift ↔
      (s.writeBit i shift (64 * n + b) true).word (s.addr i) n = slabBusy ∧
      (List.range' (n + 1) (chunks shift / 64 - (n + 1))).all fun k =>
        (s.writeBit i shift (64 * n + b) true).word (s.addr i) k = slabBusy := by
  have haddr : (s.writeBit i shift (64 * n + b) true).addr i = s.addr i := by
    rw [Pool.writeBit, if_pos h6]
    rfl
  rw [full_small_iff h3 h6, haddr, List.all_eq_true]
  constructor
  · intro hall
    refine ⟨hall n hn, fun k hk => ?_⟩
    rw [List.mem_range'_1] at hk
    exact decide_eq_true (hall k (by omega))
  · rintro ⟨hself, hafter⟩ k hk
    rcases Nat.lt_trichotomy k n with hlt | rfl | hgt
    · rw [Pool.writeBit, if_pos h6, Pool.word_setWord_other s _ (by omega)]
      exact hbefore k hlt
    · exact hself
    · exact of_decide_eq_true (hafter k (List.mem_range'_1.mpr (by omega)))

/-- A zero bit of a word of the bitmap. -/
def zeroBit (s : Pool) (bitmap n : Nat) : Option (Nat × Nat) :=
  if s.word bitmap n ≠ slabBusy then
    ((List.range 64).find? fun j => s.word bitmap n &&& bitAt j = 0#64).map fun j => (n, j)
  else none

theorem zeroBit_eq_none {bitmap n : Nat} (h : zeroBit s bitmap n = none) :
    s.word bitmap n = slabBusy := by
  by_contra hne
  unfold zeroBit at h
  rw [if_pos hne, Option.map_eq_none_iff] at h
  exact hne (slabBusy_eq.symm ▸ find_zero_bit_eq_none.mp h)

theorem zeroBit_eq_some {bitmap n : Nat} {found : Nat × Nat} (h : zeroBit s bitmap n = some found) :
    found.1 = n ∧ found.2 < 64 ∧ (s.word bitmap n).getLsbD found.2 = false := by
  unfold zeroBit at h
  split at h
  · obtain ⟨b, hb, rfl⟩ := Option.map_eq_some_iff.mp h
    exact ⟨rfl, find_zero_bit_eq_some hb⟩
  · cases h

/-- The search of a page finds the first zero bit of its bitmap, unless all words are full. -/
theorem takeSmall_cases (shift : Nat) (s : Pool) (i : Nat) :
    ((∀ n, n < (1 <<< (s.pagesizeShift - shift)) / 64 → s.word (s.addr i) n = slabBusy) ∧
      takeSmall shift s i = some (s, none)) ∨
    ∃ n b t, n < (1 <<< (s.pagesizeShift - shift)) / 64 ∧ b < 64 ∧
      s.mapBit i (64 * n + b) = false ∧ (∀ k, k < n → s.word (s.addr i) k = slabBusy) ∧
      t = s.writeMap i (64 * n + b) true ∧
      takeSmall shift s i =
        (if t.word (s.addr i) n = slabBusy ∧
            (List.range' (n + 1) ((1 <<< (s.pagesizeShift - shift)) / 64 - (n + 1))).all fun k =>
              t.word (s.addr i) k = slabBusy then
          t.unlinkFull i .small
        else some t).map fun s' => (s', some (s.addr i + (64 * n + b) <<< shift)) := by
  have hsearch : (fun n => if s.word (s.addr i) n ≠ slabBusy then
      ((List.range 64).find? fun j => s.word (s.addr i) n &&& bitAt j = 0#64).map fun j => (n, j)
      else none) = zeroBit s (s.addr i) := rfl
  unfold takeSmall
  dsimp only
  rw [hsearch]
  cases hfound : (List.range ((1 <<< (s.pagesizeShift - shift)) / (8 * 8))).findSome?
      (zeroBit s (s.addr i)) with
  | none =>
    refine Or.inl ⟨fun n hn => ?_, rfl⟩
    exact zeroBit_eq_none (List.findSome?_eq_none_iff.mp hfound n (List.mem_range.mpr hn))
  | some found =>
    obtain ⟨n, hn, hbit, hbefore⟩ := findSome_range_eq_some hfound
    obtain ⟨hfst, hb, hzero⟩ := zeroBit_eq_some hbit
    obtain ⟨m, b⟩ := found
    dsimp only at hfst hb hzero
    subst hfst
    have hword : (64 * m + b) / 64 = m := by omega
    have hmod : (64 * m + b) % 64 = b := by omega
    have hwrite : s.writeMap i (64 * m + b) true =
        s.setWord (s.addr i) m (s.word (s.addr i) m ||| bitAt b) := by
      rw [Pool.writeMap, hword, hmod]
      rfl
    -- The code shifts the bits of the words before and the bit in the word apart.
    have hp : s.addr i + ((m * 8 * 8) <<< shift + b <<< shift) =
        s.addr i + (64 * m + b) <<< shift := by
      simp only [Nat.shiftLeft_eq]
      ring
    refine Or.inr ⟨m, b, _, hn, hb, ?_, fun k hk => zeroBit_eq_none (hbefore k hk), rfl, ?_⟩
    · rw [Pool.mapBit, hword, hmod]
      exact hzero
    · dsimp only
      rw [hp, ← hwrite]
      split
      · rw [Option.map_eq_bind]
        rfl
      · rfl

theorem takeSmall_takes (hg : Geometry s N) (h3 : 3 ≤ shift) (h6 : shift < 6)
    (hfree : ¬ s.Full i shift) : ∃ j, Takes (takeSmall shift) s i shift j := by
  have hchunks := chunks_small h3 h6
  have hmap : (1 <<< (s.pagesizeShift - shift)) / 64 = chunks shift / 64 := mapWords_eq hg.shift
  rcases takeSmall_cases shift s i with ⟨hbusy, _⟩ | ⟨n, b, t, hn, hb, hzero, hbefore, ht, htake⟩
  · rw [hmap] at hbusy
    exact absurd ((full_small_iff h3 h6).mpr hbusy) hfree
  · rw [hmap] at hn htake
    have hwrite : s.writeBit i shift (64 * n + b) true = t := by
      rw [Pool.writeBit, if_pos h6, ht]
      rfl
    have htag : tagOf shift = .small := if_pos h6
    have hfull := full_writeBit_small_iff h3 h6 hn hb hbefore
    rw [hwrite] at hfull
    refine ⟨64 * n + b, by omega, ?_, ?_⟩
    · rw [Pool.bit_small h6]
      exact hzero
    · rw [htake, Pool.takeBit, htag, hwrite]
      by_cases hcond : t.Full i shift
      · rw [if_pos (hfull.mp hcond), if_pos hcond]
      · rw [if_neg (fun hc => hcond (hfull.mpr hc)), if_neg hcond]

/-! ## 2. Exact chunks -/

theorem setNext_addr {r x : Ref} (h : s.setNext r x = some s') (i : Nat) : s'.addr i = s.addr i := by
  rw [Pool.setNext] at h
  split at h
  · cases h
  · cases h
    rfl

theorem setPrev_addr {r x : Ref} {tag : Tag} (h : s.setPrev r x tag = some s') (i : Nat) :
    s'.addr i = s.addr i := by
  rw [Pool.setPrev] at h
  split at h
  · cases h
  · cases h
    rfl

theorem unlinkFull_addr {tag : Tag} (h : s.unlinkFull i tag = some s') (j : Nat) :
    s'.addr j = s.addr j := by
  simp only [Pool.unlinkFull, Pool.unlink, Option.bind_eq_bind, Option.bind_eq_some_iff] at h
  rcases h with ⟨s₂, ⟨s₁, h₁, h₂⟩, h⟩
  cases h
  exact (setPrev_addr h₂ j).trans (setNext_addr h₁ j)

/-- The address that a search computes after it relinked the page. -/
theorem unlinkFull_bind {tag : Tag} (s : Pool) (i off : Nat) :
    ((s.unlinkFull i tag).bind fun s' => some (s', some (s'.addr i + off))) =
      (s.unlinkFull i tag).map fun s' => (s', some (s.addr i + off)) := by
  cases h : s.unlinkFull i tag with
  | none => rfl
  | some s' =>
    show some (s', some (s'.addr i + off)) = some (s', some (s.addr i + off))
    rw [unlinkFull_addr h]

theorem full_exact_iff : s.Full i 6 ↔ s.slab (.page i) = slabBusy := by
  rw [slabBusy_eq, eq_allOnes_iff_bits]
  rfl

theorem takeExact_takes (hfree : ¬ s.Full i 6) : ∃ j, Takes (takeExact 6) s i 6 j := by
  rw [full_exact_iff] at hfree
  cases hb : (List.range 64).find? fun j => s.slab (.page i) &&& bitAt j = 0#64 with
  | none => exact absurd (find_zero_bit_eq_none.mp hb) (slabBusy_eq ▸ hfree)
  | some b =>
    have hzero := find_zero_bit_eq_some hb
    refine ⟨b, hzero.1, hzero.2, ?_⟩
    have hslab : (s.writeBit i 6 b true).slab (.page i) = s.slab (.page i) ||| bitAt b :=
      Pool.writeBit_slab (Nat.le_refl 6)
    have hwrite : s.writeBit i 6 b true =
        s.modify (.page i) fun d => { d with slab := s.slab (.page i) ||| bitAt b } := rfl
    have htag : tagOf 6 = .exact := rfl
    rw [takeExact]
    dsimp only
    rw [if_pos hfree, show (List.range 64).find? _ = some b from hb, Pool.takeBit, htag]
    dsimp only
    rw [← hwrite]
    by_cases hcond : (s.writeBit i 6 b true).Full i 6
    · rw [if_pos hcond, if_pos (hslab ▸ full_exact_iff.mp hcond)]
      exact unlinkFull_bind ..
    · rw [if_neg hcond, if_neg (fun hc => hcond (full_exact_iff.mpr (hslab.trans hc)))]
      rfl

/-! ## 3. Big chunks -/

theorem takeWhile_range {p : Nat → Bool} {c n : Nat} (hcn : c < n) (hlt : ∀ j, j < c → p j = true)
    (hc : p c = false) : (List.range n).takeWhile p = List.range c := by
  obtain ⟨m, rfl⟩ : ∃ m, n = c + (m + 1) := ⟨n - c - 1, by omega⟩
  rw [List.range_add, List.takeWhile_append_of_pos fun j hj => hlt j (List.mem_range.mp hj),
    List.range_succ_eq_map, List.map_cons, List.takeWhile_cons_of_neg, List.append_nil]
  rw [Nat.add_zero, hc]
  exact nofun

theorem mapMask_bit (k : Nat) : mapMask.getLsbD k = decide (32 ≤ k ∧ k < 64) := by
  by_cases hk : k < 64
  · have hall : ∀ k, k < 64 → mapMask.getLsbD k = decide (32 ≤ k ∧ k < 64) := by decide
    exact hall k hk
  · rw [BitVec.getLsbD_of_ge _ _ (by omega), decide_eq_false (by omega)]

/-- A shift takes up the four low bits of the descriptor. -/
theorem low_bits_zero (h12 : shift < 12) (hk : k < 64) (h4 : 4 ≤ k) :
    (BitVec.ofNat 64 shift).getLsbD k = false := by
  have hall : ∀ a, a < 12 → ∀ k, k < 64 → 4 ≤ k → (BitVec.ofNat 64 a).getLsbD k = false := by decide
  exact hall shift h12 k hk h4

/-- The bits of the chunks in the descriptor. -/
def IsMask (shift : Nat) (mask : Word) : Prop :=
  ∀ k, mask.getLsbD k = decide (32 ≤ k ∧ k < 32 + chunks shift)

theorem full_big_iff {mask : Word} (h6 : 6 < shift) (h12 : shift < 12) (hmask : IsMask shift mask)
    (hbig : ∀ k, k < 64 → k < 32 ∨ 32 + chunks shift ≤ k →
      (s.slab (.page i)).getLsbD k = (BitVec.ofNat 64 shift).getLsbD k) :
    s.Full i shift ↔ s.slab (.page i) &&& mapMask = mask := by
  have hle := chunks_le_of_big h6
  have hbit := Pool.bit_big h6 s i
  constructor
  · intro hfull
    apply word_ext
    intro k hk
    rw [BitVec.getLsbD_and, mapMask_bit, hmask]
    by_cases hin : 32 ≤ k ∧ k < 32 + chunks shift
    · have hset := hfull (k - 32) (by omega)
      rw [hbit, show 32 + (k - 32) = k by omega] at hset
      rw [hset, decide_eq_true (show 32 ≤ k ∧ k < 64 by omega), decide_eq_true hin]
      rfl
    · rw [decide_eq_false hin]
      by_cases hlow : k < 32
      · rw [decide_eq_false (show ¬ (32 ≤ k ∧ k < 64) by omega), Bool.and_false]
      · rw [hbig k hk (by omega)]
        rw [low_bits_zero h12 hk (by omega), Bool.false_and]
  · intro heq j hj
    have hset := hmask (32 + j)
    rw [← heq, BitVec.getLsbD_and, decide_eq_true (by omega), Bool.and_eq_true] at hset
    rw [hbit]
    exact hset.1

/-- The loops over the map go on for as many rounds as there are chunks. -/
theorem takeWhile_mask {mask : Word} (h6 : 6 < shift) (hmask : IsMask shift mask) :
    ((List.range 64).takeWhile fun j => bitAt (mapShift + j) &&& mask ≠ 0#64) =
      List.range (chunks shift) := by
  have hle := chunks_le_of_big h6
  apply takeWhile_range (by omega)
  · intro j hj
    rw [decide_eq_true_eq, BitVec.and_comm, mapShift, bitAt, Ne, and_bit_eq_zero (by omega), hmask,
      decide_eq_true (by omega)]
    exact Bool.noConfusion
  · rw [decide_eq_false_iff_not, not_not, BitVec.and_comm, mapShift, bitAt]
    by_cases h32 : chunks shift < 32
    · rw [and_bit_eq_zero (by omega), hmask, decide_eq_false (by omega)]
    · rw [BitVec.shiftLeft_eq_zero (by omega), BitVec.and_zero]

theorem takeBig_takes {mask : Word} (h6 : 6 < shift) (h12 : shift < 12)
    (hmask : IsMask shift mask) (hc : ChunkOk s i shift full) (hfree : ¬ s.Full i shift) :
    ∃ j, Takes (takeBig shift mask) s i shift j := by
  have hle := chunks_le_of_big h6
  have hbit := Pool.bit_big h6 s i
  have hfull := full_big_iff h6 h12 hmask (hc.big h6)
  have hrange := takeWhile_mask h6 hmask
  have hzero : ∀ j, j < chunks shift →
      (s.slab (.page i) &&& bitAt (mapShift + j) = 0#64 ↔ s.bit i shift j = false) := by
    intro j hj
    rw [hbit, mapShift, bitAt, and_bit_eq_zero (by omega)]
  cases hb : (List.range (chunks shift)).find?
      fun j => s.slab (.page i) &&& bitAt (mapShift + j) = 0#64 with
  | none =>
    refine absurd (fun j hj => ?_) hfree
    have hset := List.find?_eq_none.mp hb j (List.mem_range.mpr hj)
    rw [decide_eq_true_eq, hzero j hj] at hset
    exact Bool.eq_true_of_not_eq_false hset
  | some b =>
    have hlt := List.mem_range.mp (List.mem_of_find?_eq_some hb)
    have hclear := List.find?_some hb
    rw [decide_eq_true_eq, hzero b hlt] at hclear
    refine ⟨b, hlt, hclear, ?_⟩
    have hpos := slabPos_big h6 b
    have hwrite : s.writeBit i shift b true = s.modify (.page i) fun d =>
        { d with slab := s.slab (.page i) ||| bitAt (mapShift + b) } := by
      rw [Pool.writeBit, if_neg (by omega), hpos]
      rfl
    have hslab : (s.writeBit i shift b true).slab (.page i) =
        s.slab (.page i) ||| bitAt (mapShift + b) := by
      rw [Pool.writeBit_slab (by omega), hpos]
      rfl
    have haddr : (s.writeBit i shift b true).addr i = s.addr i := by
      rw [hwrite]
      rfl
    have htag := tagOf_big h6
    -- The new bit is one of the map.
    have hfull' := full_big_iff (s := s.writeBit i shift b true) (i := i) h6 h12 hmask
      fun k hk hout => (Pool.writeBit_slab_rest h6 hlt hk hout).trans (hc.big h6 k hk hout)
    rw [hslab] at hfull'
    rw [takeBig]
    dsimp only
    rw [if_pos (fun heq => hfree (hfull.mpr heq)), hrange,
      show (List.range (chunks shift)).find? _ = some b from hb, Pool.takeBit, htag]
    dsimp only
    rw [← hwrite]
    by_cases hcond : (s.writeBit i shift b true).Full i shift
    · rw [if_pos hcond, if_pos (hfull'.mp hcond), Option.bind_eq_bind, unlinkFull_bind, haddr]
    · rw [if_neg hcond, if_neg (fun hcase => hcond (hfull'.mpr hcase))]
      show some (_, some ((s.writeBit i shift b true).addr i + _)) = _
      rw [haddr]
      rfl

theorem ChunkOk.shift_eq (hc : ChunkOk s i shift full) (h6 : 6 < shift) (h12 : shift < 12) :
    ((s.desc (.page i)).slab &&& shiftMask).toNat = shift := by
  have heq : s.slab (.page i) &&& shiftMask = BitVec.ofNat 64 shift := by
    apply word_ext
    intro k hk
    have hmask : ∀ k, k < 64 → shiftMask.getLsbD k = decide (k < 4) := by decide
    rw [BitVec.getLsbD_and, hmask k hk]
    by_cases hk4 : k < 4
    · rw [decide_eq_true hk4, Bool.and_true]
      exact hc.big h6 k hk (Or.inl (by omega))
    · rw [decide_eq_false hk4, Bool.and_false, low_bits_zero h12 hk (by omega)]
  rw [heq, BitVec.toNat_ofNat, Nat.mod_eq_of_lt (by omega)]

theorem bigMask_isMask (hg : Geometry s N) (h6 : 6 < shift) (h12 : shift < 12)
    (hc : ChunkOk s i shift full) : IsMask shift (bigMask s i) := by
  have hle := chunks_le_of_big h6
  intro k
  rw [bigMask, hc.shift_eq h6 h12, hg.shift]
  show (((1#64 <<< chunks shift) - 1#64) <<< mapShift).getLsbD k = _
  rw [BitVec.getLsbD_shiftLeft, getLsbD_lowMask (by omega), mapShift]
  by_cases hin : 32 ≤ k ∧ k < 32 + chunks shift
  · rw [decide_eq_true hin, decide_eq_true (show k < 64 by omega),
      decide_eq_false (show ¬ k < 32 by omega), decide_eq_true (show k - 32 < chunks shift by omega)]
    rfl
  · rw [decide_eq_false hin]
    by_cases hk : k < 32
    · rw [decide_eq_true hk, Bool.not_true, Bool.and_false, Bool.false_and]
    · rw [decide_eq_false (show ¬ k - 32 < chunks shift by omega), Bool.and_false]

/-! ## 4. The first chunk of a page -/

theorem zeroWords (s : Pool) (bitmap a m : Nat) :
    ∃ t, (List.range' a m).foldl (fun s k => s.setWord bitmap k 0#64) s = t ∧
      t = { s with mem := t.mem } ∧
      ChangedWithin (bitmap + 8 * a) (bitmap + 8 * (a + m)) s.mem t.mem ∧
      ∀ n, t.word bitmap n = if a ≤ n ∧ n < a + m then 0#64 else s.word bitmap n := by
  induction m generalizing s a with
  | zero =>
    refine ⟨s, rfl, rfl, ChangedWithin.refl _ _ _, fun n => ?_⟩
    rw [if_neg (by omega)]
  | succ m ih =>
    -- The loop counts up, so the first word is done and the others are left.
    rcases ih (s.setWord bitmap a 0#64) (a + 1) with ⟨t, ht, hframe, hmem, hword⟩
    refine ⟨t, ?_, hframe, ?_, fun n => ?_⟩
    · rw [List.range'_succ, List.foldl_cons]
      exact ht
    · have hset : ChangedWithin (bitmap + 8 * a) (bitmap + 8 * (a + (m + 1))) s.mem
          (s.setWord bitmap a 0#64).mem := by
        apply (ChangedWithin.refl _ _ _).store (Nat.le_refl _)
        rw [length_toLE]
        omega
      exact hset.trans (hmem.mono (by omega) (by omega))
    · rw [hword]
      by_cases hna : n = a
      · subst hna
        rw [if_neg (by omega), if_pos (by omega), Pool.word_setWord_same]
      · rw [Pool.word_setWord_other s _ hna]
        by_cases hin : a + 1 ≤ n ∧ n < a + 1 + m
        · rw [if_pos hin, if_pos (by omega)]
        · rw [if_neg hin, if_neg (by omega)]

/-- A fresh page: the chunks of its bitmap and the one that is returned are in use. -/
structure Fresh (s t : Pool) (shift slot i : Nat) (w : Word) : Prop where
  run : freshSlab s shift slot i =
    (t.linkFresh i slot w (tagOf shift), s.addr i + reserved shift <<< shift)
  frame : t = { s with mem := t.mem }
  mem : ChangedWithin (s.addr i) (s.addr i + reserved shift <<< shift) s.mem t.mem
  chunk : ChunkOk (t.linkFresh i slot w (tagOf shift)) i shift false
  bits : ∀ k, k < chunks shift →
    (t.linkFresh i slot w (tagOf shift)).bit i shift k = decide (k ≤ reserved shift)

/-- A page with a free chunk is not full. -/
theorem not_full_of_bits {u : Pool} (hlt : reserved shift + 1 < chunks shift)
    (hu : ∀ k, k < chunks shift → u.bit i shift k = decide (k ≤ reserved shift)) :
    false = true ↔ u.Full i shift := by
  refine ⟨nofun, fun hall => ?_⟩
  have hset := hall (reserved shift + 1) hlt
  rw [hu _ hlt, decide_eq_false (by omega)] at hset
  cases hset

theorem freshSlab_small (hg : Geometry s N) (h3 : 3 ≤ shift) (h6 : shift < 6) (slot i : Nat) :
    ∃ t, Fresh s t shift slot i (BitVec.ofNat 64 shift) := by
  have hsmall := reserved_small h3 h6
  have hchunks := chunks_small h3 h6
  have htag : tagOf shift = .small := if_pos h6
  have hbytes : chunks shift / 8 ≤ reserved shift <<< shift := by
    rw [Nat.shiftLeft_eq]
    exact hsmall.2.2.2.1
  -- The first word has the chunks in use, the other words of the bitmap are cleared.
  let s₁ := s.setWord (s.addr i) 0 (((2#32 <<< reserved shift) - 1#32).signExtend 64)
  rcases zeroWords s₁ (s.addr i) 1 (chunks shift / 64 - 1) with ⟨t, ht, hframe, hmem, hword⟩
  have hpool : t = { s with mem := t.mem } := by
    rw [hframe]
    rfl
  have haddr : t.addr i = s.addr i := by
    rw [hpool]
    rfl
  have hbits : ∀ k, k < chunks shift → (t.linkFresh i slot (BitVec.ofNat 64 shift) .small).bit i
      shift k = decide (k ≤ reserved shift) := by
    intro k hk
    rw [Pool.bit_small h6]
    show (t.word (t.addr i) (k / 64)).getLsbD (k % 64) = _
    rw [haddr, hword]
    by_cases h64 : k < 64
    · rw [if_neg (by omega), show k / 64 = 0 by omega, show k % 64 = k by omega,
        Pool.word_setWord_same]
      obtain rfl | rfl | rfl : shift = 3 ∨ shift = 4 ∨ shift = 5 := by omega
      all_goals
        revert k
        decide
    · rw [if_pos (by omega), BitVec.getLsbD_zero, decide_eq_false (by omega)]
  refine ⟨t, ?_, hpool, ?_, ⟨?_, ?_, ?_, ?_⟩, ?_⟩
  · have hmul : (1 <<< shift) * reserved shift = reserved shift <<< shift := by
      rw [Nat.one_shiftLeft, Nat.shiftLeft_eq, Nat.mul_comm]
    rw [freshSlab, hg.exactShift, if_pos h6, bitmapChunks_eq hg.shift h3 h6, htag]
    dsimp only
    rw [show (1 <<< ((s.setWord (s.addr i) 0 _).pagesizeShift - shift)) / (8 * 8) =
      chunks shift / 64 from mapWords_eq hg.shift, show (List.range' 1 _).foldl _ _ = t from ht, haddr, hmul]
  · have hfirst : ChangedWithin (s.addr i) (s.addr i + reserved shift <<< shift) s.mem s₁.mem := by
      apply (ChangedWithin.refl _ _ _).store (by omega)
      rw [length_toLE]
      omega
    exact hfirst.trans (hmem.mono (by omega) (by omega))
  · intro _
    rw [Pool.slab, Pool.linkFresh_page]
  · intro hbig
    omega
  · intro j hj
    rw [htag, hbits j (by omega), decide_eq_true (by omega)]
  · rw [htag]
    exact not_full_of_bits (by omega) hbits
  · rw [htag]
    exact hbits

theorem freshSlab_exact (hg : Geometry s N) (slot i : Nat) : Fresh s s 6 slot i 1#64 := by
  have hself : (s.linkFresh i slot 1#64 (tagOf 6)).slab (.page i) = 1#64 := by
    rw [Pool.slab, Pool.linkFresh_page]
  have hbits : ∀ k, k < chunks 6 →
      (s.linkFresh i slot 1#64 (tagOf 6)).bit i 6 k = decide (k ≤ reserved 6) := by
    intro k hk
    rw [Pool.bit, if_neg (by decide), hself]
    revert k
    decide
  refine ⟨?_, rfl, ?_, ⟨fun h => absurd h (by decide), fun h => absurd h (by decide), fun k h => absurd h (Nat.not_lt_zero k),
    not_full_of_bits (by decide) hbits⟩, hbits⟩
  · rw [freshSlab, hg.exactShift, if_neg (by decide), if_pos rfl]
    rfl
  · exact ChangedWithin.refl _ _ _

theorem freshSlab_big (hg : Geometry s N) (h6 : 6 < shift) (h12 : shift < 12) (slot i : Nat) :
    Fresh s s shift slot i (bitAt mapShift ||| BitVec.ofNat 64 shift) := by
  have hsmall : ¬ shift < 6 := by omega
  have hexact : shift ≠ 6 := by omega
  have hres : reserved shift = 0 := reserved_of_le (by omega)
  have hone := one_lt_chunks h12
  have htag := tagOf_big h6
  have hself : (s.linkFresh i slot (bitAt mapShift ||| BitVec.ofNat 64 shift) (tagOf shift)).slab
      (.page i) = bitAt mapShift ||| BitVec.ofNat 64 shift := by
    rw [Pool.slab, Pool.linkFresh_page]
  have hbits : ∀ k, k < chunks shift →
      (s.linkFresh i slot (bitAt mapShift ||| BitVec.ofNat 64 shift) (tagOf shift)).bit i shift k =
        decide (k ≤ reserved shift) := by
    intro k hk
    rw [Pool.bit, if_neg hsmall, hself, slabPos, if_neg hexact, hres]
    -- The shift shares the word with the map, so each class is looked at by itself.
    obtain rfl | rfl | rfl | rfl | rfl :
      shift = 7 ∨ shift = 8 ∨ shift = 9 ∨ shift = 10 ∨ shift = 11 := by omega
    all_goals
      revert k
      decide
  refine ⟨?_, rfl, ChangedWithin.refl _ _ _, ⟨fun hlt6 => absurd hlt6 hsmall, ?_, ?_, ?_⟩, hbits⟩
  · rw [freshSlab, hg.exactShift, if_neg hsmall, if_neg hexact, htag, hres, Nat.zero_shiftLeft]
    rfl
  · -- Outside the map the word is the shift.
    intro hbig k hk hout
    rw [hself, bitAt, BitVec.getLsbD_or, getLsbD_bit (by decide)]
    have hne : k ≠ mapShift := by
      rw [mapShift]
      omega
    rw [decide_eq_false hne, Bool.false_or]
  · rw [hres]
    intro k hk
    exact absurd hk (Nat.not_lt_zero k)
  · exact not_full_of_bits (by omega) hbits

theorem freshSlab_spec (hg : Geometry s N) (h3 : 3 ≤ shift) (h12 : shift < 12) (slot i : Nat) :
    ∃ (t : Pool) (w : Word), Fresh s t shift slot i w := by
  rcases Nat.lt_trichotomy shift 6 with h6 | rfl | h6
  · rcases freshSlab_small hg h3 h6 slot i with ⟨t, hfresh⟩
    exact ⟨t, _, hfresh⟩
  · exact ⟨s, _, freshSlab_exact hg slot i⟩
  · exact ⟨s, _, freshSlab_big hg h6 h12 slot i⟩

end CcPof.Slab

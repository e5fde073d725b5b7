import CcPof.Slab.Release

/-!
# Other page sizes

The bitmap of a page with small chunks and the chunks that it takes up, for every page size that
`getpagesize` may return. The bits of these chunks come from a shift of an `int`.
-/

namespace CcPof.Slab

variable {s s' : Pool} {shl : Nat → BitVec 32} {k shift slot i j p off : Nat} {live : List Nat}

/-! ## 1. A fresh page -/

/-- `2 << n`, an `int`: nothing is known of it where it does not fit. -/
def IntShift (shl : Nat → BitVec 32) : Prop := ∀ n, n < 30 → shl n = 2#32 <<< n

/-- The branch of `freshSlab` for small chunks. -/
def freshSmall (shl : Nat → BitVec 32) (s : Pool) (shift slot i : Nat) : Pool × Nat :=
  let bitmap := s.addr i
  let n := bitmapChunks s shift
  let s := s.setWord bitmap 0 ((shl n - 1#32).signExtend 64)
  let map := (1 <<< (s.pagesizeShift - shift)) / (8 * 8)
  let s := (List.range' 1 (map - 1)).foldl (fun s k => s.setWord bitmap k 0#64) s
  (s.linkFresh i slot (BitVec.ofNat 64 shift) .small, s.addr i + (1 <<< shift) * n)

/-- The size of the bitmap in bytes. -/
def bitmapSize (k shift : Nat) : Nat := (1 <<< (k - shift)) / 8

/-- The chunk has bytes of the bitmap. -/
def InBitmap (k shift j : Nat) : Prop := j <<< shift < bitmapSize k shift

/-- What others do leaves the descriptor of the page and its bitmap alone. -/
structure SamePage (k shift i : Nat) (s s' : Pool) : Prop where
  pagesizeShift : s'.pagesizeShift = s.pagesizeShift
  start : s'.start = s.start
  slab : s'.slab (.page i) = s.slab (.page i)
  bitmap : AgreeOn (s.addr i) (s.addr i + bitmapSize k shift) s.mem s'.mem

/-- A page with small chunks and the addresses in it that are live, from the time that
`ncx_slab_alloc_locked` sets it up until the last of them is freed. -/
inductive PageRun (shl : Nat → BitVec 32) (k shift i : Nat) : Pool → List Nat → Prop
  | fresh {s : Pool} (slot : Nat) : Paged s k →
      PageRun shl k shift i (freshSmall shl s shift slot i).1 [(freshSmall shl s shift slot i).2]
  | take {s s' : Pool} {live : List Nat} {p : Nat} : PageRun shl k shift i s live →
      takeSmall shift s i = some (s', some p) → PageRun shl k shift i s' (p :: live)
  | free {s s' : Pool} {live : List Nat} {p : Nat} : PageRun shl k shift i s live → p ∈ live →
      live.filter (· ≠ p) ≠ [] → freeSmall s i p = some s' →
      PageRun shl k shift i s' (live.filter (· ≠ p))
  | other {s s' : Pool} {live : List Nat} : PageRun shl k shift i s live → SamePage k shift i s s' →
      PageRun shl k shift i s' live

/-- The bitmap of every page protects itself. -/
structure BitmapProtected (shl : Nat → BitVec 32) (k shift : Nat) : Prop where
  fresh : ∀ (s : Pool) (slot i : Nat), Paged s k → ∃ c,
    (freshSmall shl s shift slot i).2 = s.addr i + c <<< shift ∧ ¬ InBitmap k shift c ∧
    ∀ j, j < 1 <<< (k - shift) →
      ((freshSmall shl s shift slot i).1.mapBit i j = true ↔ InBitmap k shift j ∨ j = c)
  take : ∀ (s s' : Pool) (i p : Nat) (live : List Nat), PageRun shl k shift i s live →
    takeSmall shift s i = some (s', some p) → s.addr i + bitmapSize k shift ≤ p
  free : ∀ (s : Pool) (i p : Nat) (live : List Nat), PageRun shl k shift i s live → p ∈ live →
    s.Accepts (s.smallShift i) p ∧
      ((s.clearChunk (s.smallShift i) p).NoneLeft (s.smallShift i) (s.pageOf p) ↔
        live.filter (· ≠ p) = [])

theorem Paged.exactShift (hs : Paged s k) (h6 : 6 ≤ k) : s.exactShift = k - 6 := by
  have hsize : s.exactSize = 2 ^ (k - 6) := by
    rw [Pool.exactSize, Pool.pagesize, hs.shift, Nat.one_shiftLeft]
    exact Nat.pow_div h6 Nat.two_pos
  rw [Pool.exactShift, hsize, Nat.log2_two_pow]

/-- Where `2 << n` fits, this is what `freshSlab` does. -/
theorem freshSlab_eq (hs : Paged s k) (hk : shift < k - 6) (hshl : IntShift shl)
    (hn : bitmapChunks s shift < 30) : freshSlab s shift slot i = freshSmall shl s shift slot i := by
  unfold freshSlab freshSmall
  dsimp only
  rw [hs.exactShift (by omega), if_pos hk, hshl _ hn]

/-! ## 2. Sizes -/

theorem bitmapSize_eq (hk : shift < k - 6) : bitmapSize k shift = 2 ^ (k - shift - 3) := by
  rw [bitmapSize, Nat.one_shiftLeft]
  exact Nat.pow_div (by omega : 3 ≤ k - shift) Nat.two_pos

/-- The words of the bitmap are full. -/
theorem chunks_eq_words (hk : shift < k - 6) : 1 <<< (k - shift) = 64 * 2 ^ (k - shift - 6) := by
  rw [Nat.one_shiftLeft, show 64 = 2 ^ 6 by decide, ← pow_add, Nat.add_sub_cancel' (by omega)]

theorem Paged.bitmapChunks_eq (hs : Paged s k) (hk : shift < k - 6) :
    bitmapChunks s shift = 2 ^ (k - 3 - 2 * shift) := by
  unfold bitmapChunks
  dsimp only
  rw [hs.shift, show 1 <<< (k - shift) / 8 = 2 ^ (k - shift - 3) from bitmapSize_eq hk,
    Nat.one_shiftLeft]
  by_cases hle : shift ≤ k - shift - 3
  · rw [Nat.pow_div hle Nat.two_pos, if_neg (Nat.two_pow_pos _).ne',
      show k - shift - 3 - shift = k - 3 - 2 * shift by omega]
  · have hlt : 2 ^ (k - shift - 3) < 2 ^ shift := Nat.pow_lt_pow_right (by decide) (by omega)
    rw [Nat.div_eq_of_lt hlt, if_pos rfl, show k - 3 - 2 * shift = 0 by omega, pow_zero]

/-- The chunks of the bitmap are the first of the page, rounded up to a whole chunk. -/
theorem inBitmap_iff (hk : shift < k - 6) : InBitmap k shift j ↔ j < 2 ^ (k - 3 - 2 * shift) := by
  unfold InBitmap
  rw [bitmapSize_eq hk, Nat.shiftLeft_eq]
  by_cases hle : shift ≤ k - shift - 3
  · rw [show k - shift - 3 = (k - 3 - 2 * shift) + shift by omega, pow_add]
    exact Nat.mul_lt_mul_right (Nat.two_pow_pos shift)
  · have hlt : 2 ^ (k - shift - 3) < 2 ^ shift := Nat.pow_lt_pow_right (by decide) (by omega)
    rw [show k - 3 - 2 * shift = 0 by omega, pow_zero, Nat.lt_one_iff]
    constructor
    · intro hj
      by_contra hne
      have hmul := Nat.le_mul_of_pos_left (2 ^ shift) (Nat.pos_of_ne_zero hne)
      omega
    · rintro rfl
      rw [Nat.zero_mul]
      exact Nat.two_pow_pos _

theorem count_lt (hk : shift < k - 6) : 2 ^ (k - 3 - 2 * shift) < 1 <<< (k - shift) := by
  rw [Nat.one_shiftLeft]
  exact Nat.pow_lt_pow_right (by decide) (by omega)

/-! ## 3. The bits of a page -/

/-- The descriptor is that of a page with small chunks, and the bits are those of the bitmap and of
the live chunks. -/
structure PageOk (k shift i : Nat) (s : Pool) (live : List Nat) : Prop where
  paged : Paged s k
  slab : s.slab (.page i) = BitVec.ofNat 64 shift
  bits : ∀ j, j < 1 <<< (k - shift) →
    (s.mapBit i j = true ↔ InBitmap k shift j ∨ s.addr i + j <<< shift ∈ live)
  live : ∀ p, p ∈ live →
    ∃ j, ¬ InBitmap k shift j ∧ j < 1 <<< (k - shift) ∧ p = s.addr i + j <<< shift

/-- The words of the bitmap of a fresh page. -/
theorem freshSmall_spec (shl : Nat → BitVec 32) (hs : Paged s k) (hk : shift < k - 6) (slot i : Nat) :
    ∃ t : Pool, t = { s with mem := t.mem } ∧
      freshSmall shl s shift slot i = (t.linkFresh i slot (BitVec.ofNat 64 shift) .small,
        s.addr i + 2 ^ (k - 3 - 2 * shift) <<< shift) ∧
      ∀ n, t.word (s.addr i) n = if n = 0 then
        ((shl (2 ^ (k - 3 - 2 * shift)) - 1#32).signExtend 64)
        else if n < 2 ^ (k - shift - 6) then 0#64 else s.word (s.addr i) n := by
  have hpos := Nat.two_pow_pos (k - shift - 6)
  have hwords : (1 <<< (s.pagesizeShift - shift)) / (8 * 8) = 2 ^ (k - shift - 6) := by
    rw [hs.shift, chunks_eq_words hk]
    exact Nat.mul_div_cancel_left _ (by decide)
  -- The loop starts behind the first word, which keeps the mask.
  let s₁ := s.setWord (s.addr i) 0 ((shl (2 ^ (k - 3 - 2 * shift)) - 1#32).signExtend 64)
  obtain ⟨t, ht, hframe, _, hword⟩ := zeroWords s₁ (s.addr i) 1 (2 ^ (k - shift - 6) - 1)
  have hpool : t = { s with mem := t.mem } := by
    rw [hframe]
    rfl
  refine ⟨t, hpool, ?_, fun n => ?_⟩
  · have hp : s.addr i + 1 <<< shift * 2 ^ (k - 3 - 2 * shift) =
        s.addr i + 2 ^ (k - 3 - 2 * shift) <<< shift := by
      rw [Nat.one_shiftLeft, Nat.shiftLeft_eq, Nat.mul_comm]
    have haddr : t.addr i = s.addr i := by
      rw [hpool]
      rfl
    unfold freshSmall
    dsimp only
    rw [hs.bitmapChunks_eq hk, show (1 <<< ((s.setWord (s.addr i) 0 _).pagesizeShift - shift)) /
      (8 * 8) = 2 ^ (k - shift - 6) from hwords, show (List.range' 1 _).foldl _ _ = t from ht, haddr, hp]
  · rw [hword]
    by_cases hn : n = 0
    · subst hn
      rw [if_neg (by omega), if_pos rfl, Pool.word_setWord_same]
    · rw [if_neg hn, Pool.word_setWord_other s _ hn]
      by_cases hlt : n < 2 ^ (k - shift - 6)
      · rw [if_pos (by omega), if_pos hlt]
      · rw [if_neg (by omega), if_neg hlt]

/-- The bits of a fresh page. -/
theorem freshSmall_bits (shl : Nat → BitVec 32) (hs : Paged s k) (hk : shift < k - 6) (slot i j : Nat)
    (hj : j < 1 <<< (k - shift)) :
    (freshSmall shl s shift slot i).1.mapBit i j =
      (decide (j < 64) && ((shl (2 ^ (k - 3 - 2 * shift)) - 1#32).signExtend 64).getLsbD j) := by
  obtain ⟨t, hpool, hfresh, hword⟩ := freshSmall_spec shl hs hk slot i
  have haddr : (t.linkFresh i slot (BitVec.ofNat 64 shift) .small).addr i = s.addr i := by
    rw [hpool]
    rfl
  rw [chunks_eq_words hk] at hj
  rw [hfresh, Pool.mapBit, haddr]
  show (t.word (s.addr i) (j / 64)).getLsbD (j % 64) = _
  rw [hword]
  by_cases h64 : j < 64
  · rw [if_pos (by omega), decide_eq_true h64, Bool.true_and, Nat.mod_eq_of_lt h64]
  · rw [if_neg (by omega), if_pos (by omega), BitVec.getLsbD_zero, decide_eq_false h64, Bool.false_and]

/-- Up to 16 chunks of the bitmap the `int` has the bits that it should have. -/
theorem freshWord_bits (hshl : IntShift shl) {n : Nat} (hn : n < 30) (hj : j < 64) :
    ((shl n - 1#32).signExtend 64).getLsbD j = decide (j ≤ n) := by
  have hmask : shl n - 1#32 = 1#32 <<< (n + 1) - 1#32 := by
    rw [hshl n hn, show (2#32 : BitVec 32) = 1#32 <<< 1 by decide, ← BitVec.shiftLeft_add,
      Nat.add_comm]
  rw [hmask, BitVec.getLsbD_signExtend, decide_eq_true hj, Bool.true_and, BitVec.msb_eq_getLsbD_last,
    getLsbD_lowMask (by omega), getLsbD_lowMask (by omega)]
  split
  · exact decide_eq_decide.mpr Nat.lt_succ_iff
  · exact decide_eq_decide.mpr (by omega)

theorem PageOk.fresh (hshl : IntShift shl) (hs : Paged s k) (hk : shift < k - 6)
    (hfew : 2 ^ (k - 3 - 2 * shift) < 30) (slot i : Nat) :
    PageOk k shift i (freshSmall shl s shift slot i).1 [(freshSmall shl s shift slot i).2] := by
  obtain ⟨t, hpool, hfresh, _⟩ := freshSmall_spec shl hs hk slot i
  have hbits := freshSmall_bits shl hs hk slot i
  have hcount := count_lt hk
  rw [hfresh] at hbits ⊢
  have haddr : (t.linkFresh i slot (BitVec.ofNat 64 shift) .small).addr i = s.addr i := by
    rw [hpool]
    rfl
  refine ⟨?_, ?_, ?_, ?_⟩
  · rw [hpool]
    exact hs.congr rfl rfl
  · rw [Pool.slab, Pool.linkFresh_page]
  · intro j hj
    rw [hbits j hj, haddr, List.mem_singleton, inBitmap_iff hk]
    have hchunk : s.addr i + j <<< shift = s.addr i + 2 ^ (k - 3 - 2 * shift) <<< shift ↔
        j = 2 ^ (k - 3 - 2 * shift) := chunk_inj _
    rw [hchunk, Bool.and_eq_true, decide_eq_true_eq]
    constructor
    · rintro ⟨h64, hset⟩
      rw [freshWord_bits hshl hfew h64, decide_eq_true_eq] at hset
      exact Nat.lt_or_eq_of_le hset
    · -- All of these bits are in the first word.
      intro hle
      have h64 : j < 64 := by omega
      rw [freshWord_bits hshl hfew h64, decide_eq_true_eq]
      exact ⟨h64, Nat.le_of_lt_succ (by omega)⟩
  · intro p hp
    rw [List.mem_singleton] at hp
    refine ⟨_, fun hin => ?_, hcount, ?_⟩
    · exact absurd ((inBitmap_iff hk).mp hin) (Nat.lt_irrefl _)
    · rw [haddr]
      exact hp

/-- The links of a page do not matter. -/
theorem PageOk.congr (h : PageOk k shift i s live) (hsame : s.SameButLinks s') :
    PageOk k shift i s' live := by
  obtain ⟨d, rfl⟩ : ∃ d, s' = { s with desc := d } := ⟨_, hsame.1⟩
  exact ⟨h.paged.congr rfl rfl, (hsame.2 _).trans h.slab, h.bits, h.live⟩

/-- One bit is written, for a chunk that comes or goes. -/
theorem PageOk.write {live' : List Nat} {v : Bool} (h : PageOk k shift i s live)
    (hout : ¬ InBitmap k shift j) (hj : j < 1 <<< (k - shift))
    (hmem : ∀ p, p ∈ live' ↔ if p = s.addr i + j <<< shift then v = true else p ∈ live) :
    PageOk k shift i (s.writeMap i j v) live' where
  paged := h.paged.congr rfl rfl
  slab := h.slab
  bits := by
    intro m hm
    show _ ↔ _ ∨ s.addr i + m <<< shift ∈ live'
    rw [Pool.mapBit_writeMap, hmem]
    by_cases hmj : m = j
    · subst hmj
      rw [if_pos rfl, if_pos rfl, or_iff_right hout]
    · rw [if_neg hmj, if_neg (fun heq => hmj ((chunk_inj _).mp heq))]
      exact h.bits m hm
  live := by
    intro p hp
    rw [hmem] at hp
    -- A pointer that is still live, or the one that came.
    by_cases hpj : p = s.addr i + j <<< shift
    · exact ⟨j, hout, hj, hpj⟩
    · rw [if_neg hpj] at hp
      exact h.live p hp

/-- A search of the page finds a chunk that is not live and has no byte of the bitmap. -/
theorem PageOk.take (h : PageOk k shift i s live) (hk : shift < k - 6)
    (hs : takeSmall shift s i = some (s', some p)) :
    PageOk k shift i s' (p :: live) ∧ s.addr i + bitmapSize k shift ≤ p := by
  have hwords : (1 <<< (s.pagesizeShift - shift)) / 64 = 2 ^ (k - shift - 6) := by
    rw [h.paged.shift, chunks_eq_words hk]
    exact Nat.mul_div_cancel_left _ (by decide)
  rcases takeSmall_cases shift s i with ⟨_, hnone⟩ | ⟨n, b, t, hn, hb, hzero, _, ht, htake⟩
  · rw [hnone] at hs
    cases hs
  · -- The bit was zero, and those of the bitmap are not.
    rw [hwords] at hn
    rw [htake, Option.map_eq_some_iff] at hs
    obtain ⟨u, hu, heq⟩ := hs
    cases heq
    have hj : 64 * n + b < 1 <<< (k - shift) := by
      rw [chunks_eq_words hk]
      omega
    have hout : ¬ InBitmap k shift (64 * n + b) := fun hin =>
      Bool.false_ne_true (hzero.symm.trans ((h.bits _ hj).mpr (Or.inl hin)))
    have hwrite : PageOk k shift i t ((s.addr i + (64 * n + b) <<< shift) :: live) := by
      rw [ht]
      refine h.write hout hj fun p => ?_
      rw [List.mem_cons]
      by_cases hp : p = s.addr i + (64 * n + b) <<< shift
      · rw [if_pos hp]
        exact iff_of_true (Or.inl hp) rfl
      · rw [if_neg hp, or_iff_right hp]
    refine ⟨?_, Nat.add_le_add_left (Nat.le_of_not_lt hout) _⟩
    -- A page that got full leaves its list.
    split at hu
    · exact hwrite.congr (Pool.unlinkFull_same hu)
    · cases hu
      exact hwrite

/-! ## 4. Release -/

theorem PageOk.smallShift_eq (h : PageOk k shift i s live) (hshift : shift < 16) :
    s.smallShift i = shift := by
  have hmask : shiftMask.toNat = 2 ^ 4 - 1 := by decide
  rw [Pool.smallShift, show (s.desc (.page i)).slab = BitVec.ofNat 64 shift from h.slab,
    BitVec.toNat_and, BitVec.toNat_ofNat, hmask, Nat.and_two_pow_sub_one_eq_mod,
    Nat.mod_eq_of_lt (by omega : shift < 2 ^ 64), Nat.mod_eq_of_lt hshift]

theorem chunk_lt_page (hk : shift ≤ k) (hj : j < 1 <<< (k - shift)) : j <<< shift < 2 ^ k := by
  rw [Nat.one_shiftLeft] at hj
  rw [Nat.shiftLeft_eq, ← Nat.sub_add_cancel hk, pow_add]
  exact Nat.mul_lt_mul_of_pos_right hj (Nat.two_pow_pos shift)

/-- The tests find no chunk when none is live. -/
theorem PageOk.noneLeft_iff (h : PageOk k shift i s live) (hk : shift < k - 6)
    (hfew : 2 ^ (k - 3 - 2 * shift) < 30) : s.NoneLeft shift (s.addr i) ↔ live = [] := by
  have hcount := h.paged.bitmapChunks_eq hk
  have hwords : 1 <<< (s.pagesizeShift - shift) = 64 * 2 ^ (k - shift - 6) := by
    rw [h.paged.shift, chunks_eq_words hk]
  have hnone := CcPof.Slab.noneLeft_iff (i := i) hwords (Nat.two_pow_pos _) (by omega)
  apply hnone.trans
  rw [hcount, ← chunks_eq_words hk, List.eq_nil_iff_forall_not_mem]
  constructor
  · -- The bit of a live chunk is set.
    intro hclear q hq
    obtain ⟨m, hm, hlt, rfl⟩ := h.live q hq
    have hset := (h.bits m hlt).mpr (Or.inr hq)
    rw [hclear m (Nat.le_of_not_lt fun hin => hm ((inBitmap_iff hk).mpr hin)) hlt] at hset
    cases hset
  · intro hempty m hm hlt
    rw [← Bool.not_eq_true, h.bits m hlt, inBitmap_iff hk]
    rintro (hin | hmem)
    · omega
    · exact hempty _ hmem

/-- A live chunk is accepted, and the page is found empty when it was the last one. -/
theorem PageOk.free (h : PageOk k shift i s live) (hk : shift < k - 6)
    (hfew : 2 ^ (k - 3 - 2 * shift) < 30) (hp : p ∈ live) :
    s.Accepts shift p ∧ PageOk k shift i (s.clearChunk shift p) (live.filter (· ≠ p)) ∧
      ((s.clearChunk shift p).NoneLeft shift (s.pageOf p) ↔ live.filter (· ≠ p) = []) := by
  obtain ⟨j, hout, hj, rfl⟩ := h.live p hp
  have hoff := chunk_lt_page (by omega) hj
  have hmod : j <<< shift % 2 ^ shift = 0 := by
    rw [Nat.shiftLeft_eq]
    exact Nat.mul_mod_left _ _
  have hdiv : j <<< shift / 2 ^ shift = j := by
    rw [Nat.shiftLeft_eq]
    exact Nat.mul_div_cancel _ (Nat.two_pow_pos shift)
  have hclear : s.clearChunk shift (s.addr i + j <<< shift) = s.writeMap i j false := by
    rw [h.paged.clearChunk_eq hoff, hdiv]
  have hwrite : PageOk k shift i (s.writeMap i j false)
      (live.filter (· ≠ s.addr i + j <<< shift)) := by
    refine h.write hout hj fun q => ?_
    rw [List.mem_filter, decide_eq_true_eq]
    by_cases hq : q = s.addr i + j <<< shift
    · rw [if_pos hq]
      exact iff_of_false (fun hboth => hboth.2 hq) Bool.false_ne_true
    · rw [if_neg hq, and_iff_left hq]
  rw [hclear, h.paged.pageOf_eq hoff]
  refine ⟨?_, hwrite, hwrite.noneLeft_iff hk hfew⟩
  rw [h.paged.accepts_iff (by omega) hoff, hdiv]
  exact ⟨hmod, (h.bits j hj).mpr (Or.inr hp)⟩

/-- Until the last chunk is freed the page stays what it is. -/
theorem PageOk.freeSmall (h : PageOk k shift i s live) (hk : shift < k - 6) (hshift : shift < 16)
    (hfew : 2 ^ (k - 3 - 2 * shift) < 30) (hp : p ∈ live) (hmore : live.filter (· ≠ p) ≠ [])
    (hs : freeSmall s i p = some s') : PageOk k shift i s' (live.filter (· ≠ p)) := by
  obtain ⟨hacc, _, _⟩ := h.free hk hfew hp
  rw [freeSmall_tests, h.smallShift_eq hshift, if_pos hacc, Option.bind_eq_some_iff] at hs
  obtain ⟨t, ht, hs⟩ := hs
  -- A full page is put back into its list before the bit is cleared.
  have hsame : s.SameButLinks t := by
    split at ht
    · exact Pool.relink_same ht
    · cases ht
      exact ⟨rfl, fun _ => rfl⟩
  have hpage : t.pageOf p = s.pageOf p := by
    rw [Pool.pageOf, Pool.pageOf, Pool.pagesize, hsame.1]
    rfl
  obtain ⟨_, hok, hnone⟩ := (h.congr hsame).free hk hfew hp
  rw [hpage] at hnone
  dsimp only at hs
  rw [if_neg (fun hleft => hmore (hnone.mp hleft))] at hs
  cases hs
  exact hok

/-! ## 5. Runs -/

theorem PageOk.other (h : PageOk k shift i s live) (hk : shift < k - 6)
    (hsame : SamePage k shift i s s') : PageOk k shift i s' live := by
  have haddr : s'.addr i = s.addr i := by
    rw [Pool.addr, Pool.addr, hsame.start, hsame.pagesizeShift]
  have hbit : ∀ j, j < 1 <<< (k - shift) → s'.mapBit i j = s.mapBit i j := by
    intro j hj
    -- The bits of all chunks fill the bitmap.
    have hsize : 8 * (bitmapSize k shift) = 1 <<< (k - shift) := by
      unfold bitmapSize
      rw [chunks_eq_words hk]
      omega
    have hwords := chunks_eq_words hk
    rw [Pool.mapBit, Pool.mapBit, Pool.word, Pool.word, haddr,
      hsame.bitmap.get64 (by omega) (by omega)]
  refine ⟨h.paged.congr hsame.pagesizeShift hsame.start, hsame.slab.trans h.slab, fun j hj => ?_, ?_⟩
  · rw [hbit j hj, haddr]
    exact h.bits j hj
  · rw [haddr]
    exact h.live

theorem PageRun.ok (hshl : IntShift shl) (hk : shift < k - 6) (hshift : shift < 16)
    (hfew : 2 ^ (k - 3 - 2 * shift) < 30) (h : PageRun shl k shift i s live) :
    PageOk k shift i s live := by
  induction h with
  | fresh slot hs => exact PageOk.fresh hshl hs hk hfew slot i
  | take _ hs ih => exact (ih.take hk hs).1
  | free _ hp hmore hs ih => exact ih.freeSmall hk hshift hfew hp hmore hs
  | other _ hsame ih => exact ih.other hk hsame

/-- A pool with one page, all zero. -/
def onePage (k : Nat) : Pool := ⟨k, 3, 2 ^ k, 2 ^ k + 2 ^ k, fun _ => zeroPage, fun _ => 0⟩

theorem onePage_word (k bitmap n : Nat) : (onePage k).word bitmap n = 0#64 := by
  have hload : load (fun _ => 0) (bitmap + 8 * n) 8 = List.replicate 8 0 := by
    rw [load, List.map_const', List.length_range]
  rw [Pool.word, get64, show (onePage k).mem = fun _ => 0 from rfl, hload]
  rfl

theorem onePage_paged (k : Nat) : Paged (onePage k) k := ⟨rfl, Nat.mod_self _⟩

/-- From 32 chunks on the bitmap does not fit the `int`: its upper bits are all alike, and the other
words are zero. -/
theorem BitmapProtected.narrow (h : BitmapProtected shl k shift) (hk : shift < k - 6) :
    k ≤ 2 * shift + 7 := by
  by_contra hwide
  have hs := onePage_paged k
  have hcount := count_lt hk
  obtain ⟨c, hp, _, hbits⟩ := h.fresh (onePage k) 0 0 hs
  obtain ⟨_, _, hfresh, _⟩ := freshSmall_spec shl hs hk 0 0
  rw [hfresh] at hp
  obtain rfl : 2 ^ (k - 3 - 2 * shift) = c := (chunk_inj _).mp hp
  have hset : ∀ j, j < 1 <<< (k - shift) →
      ((j < 64 ∧ ((shl (2 ^ (k - 3 - 2 * shift)) - 1#32).signExtend 64).getLsbD j = true) ↔
        j ≤ 2 ^ (k - 3 - 2 * shift)) := by
    intro j hj
    have hbit := hbits j hj
    rw [freshSmall_bits shl hs hk 0 0 j hj, Bool.and_eq_true, decide_eq_true_eq, inBitmap_iff hk,
      ← Nat.le_iff_lt_or_eq] at hbit
    exact hbit
  have hchunks : 2 * 2 ^ (k - 3 - 2 * shift) ≤ 1 <<< (k - shift) := by
    rw [Nat.one_shiftLeft, ← pow_succ']
    exact Nat.pow_le_pow_right Nat.two_pos (by omega)
  rcases Nat.lt_or_ge 5 (k - 3 - 2 * shift) with hmany | hfew
  · -- Bit 64 is in the second word.
    have hle : 2 ^ 6 ≤ 2 ^ (k - 3 - 2 * shift) := Nat.pow_le_pow_right Nat.two_pos hmany
    exact absurd ((hset 64 (by omega)).mpr hle).1 (Nat.lt_irrefl 64)
  · -- Bits 32 and 33 are both copies of the sign.
    have h32 : 2 ^ (k - 3 - 2 * shift) = 32 := by rw [show k - 3 - 2 * shift = 5 by omega]; rfl
    rw [h32] at hset hchunks
    have hsign : ∀ j, 32 ≤ j → j < 64 → ((shl 32 - 1#32).signExtend 64).getLsbD j =
        (shl 32 - 1#32).msb := by
      intro j hj h64
      rw [BitVec.getLsbD_signExtend, decide_eq_true h64, Bool.true_and, if_neg (by omega)]
    have htrue := ((hset 32 (by omega)).mpr (Nat.le_refl 32)).2
    rw [hsign 32 (by omega) (by omega)] at htrue
    have hfalse := (hset 33 (by omega)).mp ⟨by omega, (hsign 33 (by omega) (by omega)).trans htrue⟩
    omega

/-- `NCX_SLAB_SHIFT_MASK` has four bits: the release of a greater chunk looks for its bit elsewhere. -/
theorem BitmapProtected.lt_sixteen (h : BitmapProtected shl k shift) (hk : shift < k - 6)
    (hk30 : k ≤ 30) : shift < 16 := by
  by_contra hge
  have hs := onePage_paged k
  obtain ⟨t, hpool, hfresh, hword⟩ := freshSmall_spec shl hs hk 0 0
  have hrun : PageRun shl k shift 0 _ _ := PageRun.fresh 0 hs
  have hacc := (h.free _ 0 _ _ hrun (List.mem_singleton_self _)).1
  rw [hfresh] at hacc
  have hcount : k - 3 - 2 * shift = 0 := by omega
  rw [hcount, pow_zero] at hacc
  have hshift : (t.linkFresh 0 0 (BitVec.ofNat 64 shift) .small).smallShift 0 = shift - 16 := by
    have hmask : shiftMask.toNat = 2 ^ 4 - 1 := by decide
    rw [Pool.smallShift, Pool.linkFresh_page, BitVec.toNat_and, BitVec.toNat_ofNat, hmask,
      Nat.and_two_pow_sub_one_eq_mod]
    omega
  -- With the shorter shift the first chunk has number 65536, whose bit is in word 1024.
  have haddr : (t.linkFresh 0 0 (BitVec.ofNat 64 shift) .small).addr 0 = (onePage k).addr 0 := by
    rw [hpool]
    rfl
  have hpaged : Paged (t.linkFresh 0 0 (BitVec.ofNat 64 shift) .small) k := by
    rw [hpool]
    exact hs.congr rfl rfl
  have hoff : 1 <<< shift < 2 ^ k := by
    rw [Nat.one_shiftLeft]
    exact Nat.pow_lt_pow_right (by decide) (by omega)
  have hchunk : 1 <<< shift / 2 ^ (shift - 16) = 65536 := by
    rw [Nat.one_shiftLeft, Nat.pow_div (Nat.sub_le _ _) Nat.two_pos, Nat.sub_sub_self (by omega)]
  have hbehind : 2 ^ (k - shift - 6) ≤ 2 ^ 8 := Nat.pow_le_pow_right Nat.two_pos (by omega)
  rw [hshift, ← haddr, hpaged.accepts_iff (by omega) hoff, hchunk, Pool.mapBit, haddr] at hacc
  have hset : (t.word ((onePage k).addr 0) 1024).getLsbD 0 = true := hacc.2
  rw [hword, if_neg (by decide), if_neg (by omega), onePage_word] at hset
  cases hset

/-- **Page sizes and chunk sizes for which the bitmap protects itself**: it takes up 16 chunks at
most, and the shift has four bits. -/
theorem bitmapProtected_iff (hk30 : k ≤ 30) (hsmall : shift < k - 6) (hshl : IntShift shl) :
    BitmapProtected shl k shift ↔ k ≤ 2 * shift + 7 ∧ shift ≤ 15 := by
  constructor
  · intro h
    exact ⟨h.narrow hsmall, Nat.le_of_lt_succ (h.lt_sixteen hsmall hk30)⟩
  · rintro ⟨hnarrow, hshift⟩
    have hfew : 2 ^ (k - 3 - 2 * shift) < 30 :=
      (Nat.pow_le_pow_right Nat.two_pos (by omega : k - 3 - 2 * shift ≤ 4)).trans_lt (by decide)
    have h16 : shift < 16 := Nat.lt_succ_of_le hshift
    constructor
    · intro s slot i hs
      have hok := PageOk.fresh hshl hs hsmall hfew slot i
      have haddr : (freshSmall shl s shift slot i).1.addr i = s.addr i := by
        obtain ⟨t, hpool, hfresh, _⟩ := freshSmall_spec shl hs hsmall slot i
        rw [hfresh, hpool]
        rfl
      -- The chunk that is returned is the only live one.
      obtain ⟨c, hout, _, hp⟩ := hok.live _ (List.mem_singleton_self _)
      rw [haddr] at hp
      refine ⟨c, hp, hout, fun j hj => (hok.bits j hj).trans (or_congr_right ?_)⟩
      rw [haddr, List.mem_singleton, hp]
      exact chunk_inj _
    · intro s s' i p live hrun hs
      exact ((hrun.ok hshl hsmall h16 hfew).take hsmall hs).2
    · intro s i p live hrun hp
      have hok := hrun.ok hshl hsmall h16 hfew
      obtain ⟨hacc, _, hnone⟩ := hok.free hsmall hfew hp
      rw [hok.smallShift_eq h16]
      exact ⟨hacc, hnone⟩

theorem bitmapProtected_fourKilobytes :
    BitmapProtected (fun n => 2#32 <<< n) 12 3 ↔ 12 ≤ 2 * 3 + 7 ∧ 3 ≤ 15 :=
  bitmapProtected_iff (by decide) (by decide) fun _ _ => rfl

/-- The shift of a processor that takes the count modulo 32. -/
def shlMod32 (n : Nat) : BitVec 32 := 2#32 <<< (n % 32)

/-- Pages of 64 kilobytes with chunks of 8 bytes: of the 129 bits that should be set the code sets
one. -/
theorem bitmap_unprotected_64K : IntShift shlMod32 ∧ ¬ BitmapProtected shlMod32 16 3 := by
  refine ⟨fun n hn => ?_, fun h => ?_⟩
  · rw [shlMod32, Nat.mod_eq_of_lt (by omega)]
  · exact absurd (h.narrow (by decide)) (by decide)

end CcPof.Slab

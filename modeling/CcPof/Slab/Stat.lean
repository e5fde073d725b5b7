import CcPof.Slab.Drained
import CcPof.Slab.Exhaustion

/-!
# The statistics of a pool

`ncx_slab_stat` goes from one block to the next and tells from the tag bits and the slab words what
each of them is, with its own copies of the arithmetic of the allocator.
-/

namespace CcPof.Slab

variable {s : Pool} {N minShift base endAddr i j n shift : Nat} {desc : Ref → SlabPage} {mem : Mem}
  {st : State} {blk : Nat → Option Block} {ring : Ref → List Nat} {full : Bool} {b : Block}

/-! ## 1. The function -/

/-- `ncx_slab_stat_t` -/
structure SlabStat where
  poolSize : Nat := 0
  usedSize : Nat := 0
  usedPct : Nat := 0
  pages : Nat := 0
  freePage : Nat := 0
  pSmall : Nat := 0
  pExact : Nat := 0
  pBig : Nat := 0
  pPage : Nat := 0
  bSmall : Nat := 0
  bExact : Nat := 0
  bBig : Nat := 0
  bPage : Nat := 0
  maxFreePages : Nat := 0

/-- `for (m = 1; m; m <<= 1)`, counting the bits of the word. -/
def ones (w : Word) : Nat := (List.range 64).countP fun j => w &&& bitAt j ≠ 0#64

/-- The bytes that the loops count in a page of chunks. -/
def statUsed (s : Pool) (i : Nat) : Nat :=
  let slab := (s.desc (.page i)).slab
  match (s.desc (.page i)).tag with
  | .small =>
      let objSize := 1 <<< slab.toNat
      let map := (1 <<< (s.pagesizeShift - slab.toNat)) / (8 * 8)
      ((List.range map).map fun j => ones (s.word (s.addr i) j) * objSize).sum
  | .exact => if slab = slabBusy then 8 * 8 * s.exactSize else ones slab * s.exactSize
  | .big =>
      let objSize := 1 <<< (slab &&& shiftMask).toNat
      (((List.range 64).takeWhile fun j => bitAt (mapShift + j) &&& bigMask s i ≠ 0#64).countP
        fun j => slab &&& bitAt (mapShift + j) ≠ 0#64) * objSize
  | .page => 0

/-- The pages of the block, from its word. -/
def statPages (s : Pool) (i : Nat) : Nat :=
  let page := s.desc (.page i)
  if page.prev = .null then (page.slab &&& ~~~pageStart).toNat else page.slab.toNat

/-- The body of the loop. -/
def statPage (s : Pool) (stat : SlabStat) (i : Nat) : SlabStat :=
  let page := s.desc (.page i)
  let used := statUsed s i
  let pages := statPages s i
  match page.tag with
  | .small =>
      { stat with
        usedSize := stat.usedSize + used
        bSmall := stat.bSmall + used
        pSmall := stat.pSmall + 1 }
  | .exact =>
      { stat with
        usedSize := stat.usedSize + used
        bExact := stat.bExact + used
        pExact := stat.pExact + 1 }
  | .big =>
      { stat with
        usedSize := stat.usedSize + used
        bBig := stat.bBig + used
        pBig := stat.pBig + 1 }
  | .page =>
      -- `page->prev == NCX_SLAB_PAGE`: no pointer and no tag, else the block is free
      if page.prev = .null then
        { stat with
          usedSize := stat.usedSize + pages * s.pagesize
          bPage := stat.bPage + pages * s.pagesize
          pPage := stat.pPage + pages }
      else
        { stat with
          maxFreePages := if stat.maxFreePages < pages then pages else stat.maxFreePages
          freePage := stat.freePage + pages }

/-- `i += (slab - 1)` where the block has more pages, and `i++`. -/
def statNext (s : Pool) (i : Nat) : Nat :=
  match (s.desc (.page i)).tag with
  | .small | .exact | .big => i + 1
  | .page => (i + statPages s i) % 2 ^ 64

/-- `for (i = 0; i < stat->pages; i++)`, for at most `fuel` rounds. -/
def statFrom (s : Pool) (pages : Nat) : (fuel i : Nat) → SlabStat → Option SlabStat
  | 0, _, _ => none
  | fuel + 1, i, stat =>
      if i < pages then statFrom s pages fuel (statNext s i) (statPage s stat i) else some stat

/-- `pool->end - pool->start` -/
def Pool.size (s : Pool) : Nat := (((s.endAddr : Int) - s.start) % 2 ^ 64).toNat

/-- `ncx_slab_stat`. Every round goes on by a page at least, unless the loop never ends. -/
def ncxSlabStat (s : Pool) : Option SlabStat := do
  let pages := s.size / s.pagesize
  let stat ← statFrom s pages (pages + 1) 0 { pages }
  -- `used_pct` divides by the size of the pool.
  if s.size = 0 then none
  else
    some { stat with
      poolSize := s.size
      usedPct := stat.usedSize * 100 % 2 ^ 64 / s.size }

/-- The descriptors that the loop looks at. -/
def statVisits (s : Pool) : Option (List Nat) :=
  let pages := s.size / s.pagesize
  walk (statNext s) pages (pages + 1) 0

theorem statFrom_eq (s : Pool) (pages fuel i : Nat) (stat : SlabStat) :
    statFrom s pages fuel i stat = (walk (statNext s) pages fuel i).map (·.foldl (statPage s) stat) := by
  induction fuel generalizing i stat with
  | zero => rfl
  | succ fuel ih =>
    rw [statFrom, walk]
    by_cases hlt : i < pages
    · rw [if_pos hlt, if_pos hlt, ih, Option.map_map]
      rfl
    · rw [if_neg hlt, if_neg hlt]
      rfl

/-! ## 2. Pages of chunks -/

/-- The chunks in use, with those of the bitmap. -/
def usedChunks (s : Pool) (i shift : Nat) : Nat := (List.range (chunks shift)).countP (s.bit i shift)

theorem and_bitAt_ne_zero_iff {w : Word} (hj : j < 64) :
    decide (w &&& bitAt j ≠ 0#64) = true ↔ w.getLsbD j = true := by
  rw [decide_eq_true_eq, bitAt, Ne, and_bit_eq_zero hj, Bool.not_eq_false]

theorem ones_eq (w : Word) : ones w = (List.range 64).countP w.getLsbD :=
  List.countP_congr fun _ hj => and_bitAt_ne_zero_iff (List.mem_range.mp hj)

/-- Counting word by word. -/
theorem countP_words (p : Nat → Bool) (w m : Nat) :
    (List.range (w * m)).countP p =
      ((List.range m).map fun n => (List.range w).countP fun j => p (w * n + j)).sum := by
  induction m with
  | zero => rfl
  | succ m ih =>
    rw [Nat.mul_succ, List.range_add, List.countP_append, ih, List.range_succ, List.map_append,
      List.sum_append, List.countP_map]
    simp only [List.map_cons, List.map_nil, List.sum_cons, List.sum_nil, Nat.add_zero]
    rfl

theorem sum_map_mul (f : Nat → Nat) (l : List Nat) (c : Nat) :
    (l.map fun n => f n * c).sum = (l.map f).sum * c := by
  induction l with
  | nil => exact (Nat.zero_mul c).symm
  | cons a l ih => rw [List.map_cons, List.sum_cons, ih, List.map_cons, List.sum_cons, Nat.add_mul]

/-- The two loops over the bitmap of a page with small chunks. -/
theorem Sound.statUsed_small (hS : Sound s N blk ring) (hi : blk i = some (.slab shift full))
    (h6 : shift < 6) : statUsed s i = usedChunks s i shift * 2 ^ shift := by
  have hb := hS.shift_bounds hi
  have htag : (s.desc (.page i)).tag = tagOf shift := (hS.links.desc i _ hi).2.2.1
  have hslab : (s.desc (.page i)).slab.toNat = shift :=
    (congrArg BitVec.toNat ((hS.chunk i shift full hi).small h6)).trans
      (Nat.mod_eq_of_lt (by omega))
  unfold statUsed usedChunks
  rw [htag, tagOf, if_pos h6]
  dsimp only
  -- A bit of a word is a chunk of the page.
  rw [hslab, mapWords_eq hS.geometry.shift, Nat.one_shiftLeft,
    sum_map_mul (fun j => ones (s.word (s.addr i) j)), chunks_small hb.1 h6, countP_words,
    ← chunks_small hb.1 h6]
  congr 2
  refine List.map_congr_left fun n _ => ?_
  rw [ones_eq]
  refine List.countP_congr fun j hj => ?_
  rw [List.mem_range] at hj
  rw [Pool.bit_small h6, show (64 * n + j) / 64 = n by omega, show (64 * n + j) % 64 = j by omega]

/-- A full page of exact chunks is counted at once. -/
theorem Sound.statUsed_exact (hS : Sound s N blk ring) (hi : blk i = some (.slab 6 full)) :
    statUsed s i = usedChunks s i 6 * 2 ^ 6 := by
  have htag : (s.desc (.page i)).tag = .exact := (hS.links.desc i _ hi).2.2.1
  unfold statUsed usedChunks
  rw [htag, hS.geometry.exactSize]
  dsimp only
  split
  · next hbusy =>
    have hall : (List.range (chunks 6)).countP (s.bit i 6) = (List.range (chunks 6)).length :=
      List.countP_eq_length.mpr fun j hj => full_exact_iff.mpr hbusy j (List.mem_range.mp hj)
    rw [hall, List.length_range]
    rfl
  · rw [ones_eq]
    rfl

/-- The loop over the map of a page with big chunks ends where the mask does. -/
theorem Sound.statUsed_big (hS : Sound s N blk ring) (hi : blk i = some (.slab shift full))
    (hbig : 6 < shift) : statUsed s i = usedChunks s i shift * 2 ^ shift := by
  have hb := hS.shift_bounds hi
  have hc := hS.chunk i shift full hi
  have hle := chunks_le_of_big hbig
  have htag : (s.desc (.page i)).tag = tagOf shift := (hS.links.desc i _ hi).2.2.1
  unfold statUsed usedChunks
  rw [htag, tagOf_big hbig]
  dsimp only
  rw [takeWhile_mask hbig (bigMask_isMask hS.geometry hbig hb.2 hc), hc.shift_eq hbig hb.2,
    Nat.one_shiftLeft]
  congr 1
  refine List.countP_congr fun j hj => ?_
  rw [List.mem_range] at hj
  rw [and_bitAt_ne_zero_iff (by rw [mapShift]; omega), Pool.bit_big hbig]
  rfl

theorem Sound.statUsed_eq (hS : Sound s N blk ring) (hi : blk i = some (.slab shift full)) :
    statUsed s i = usedChunks s i shift * 2 ^ shift := by
  rcases Nat.lt_trichotomy shift 6 with hsmall | rfl | hbig
  · exact hS.statUsed_small hi hsmall
  · exact hS.statUsed_exact hi
  · exact hS.statUsed_big hi hbig

/-! ## 3. A round -/

/-- The bytes that a block counts for. -/
def usedBytes (s : Pool) (i : Nat) : Block → Nat
  | .free _ => 0
  | .busy n => n * 4096
  | .slab shift _ => usedChunks s i shift * 2 ^ shift

/-- The pages of a block, if it is free. -/
def Block.room : Block → Nat
  | .free n => n
  | .busy _ | .slab _ _ => 0

/-- The pages of a block, unless it is free. -/
def Block.taken : Block → Nat
  | .free _ => 0
  | .busy n => n
  | .slab _ _ => 1

theorem Block.taken_add_room (b : Block) : b.taken + b.room = b.len := by
  cases b with
  | free n => exact Nat.zero_add n
  | busy n => rfl
  | slab shift full => rfl

/-- The pages of the four kinds that were counted so far, their bytes, and all pages. -/
def SlabStat.takenPages (r : SlabStat) : Nat := r.pSmall + r.pExact + r.pBig + r.pPage
def SlabStat.takenBytes (r : SlabStat) : Nat := r.bSmall + r.bExact + r.bBig + r.bPage
def SlabStat.countedPages (r : SlabStat) : Nat := r.takenPages + r.freePage

/-- What one round does, for a block `b`. -/
structure Counts (s : Pool) (i : Nat) (b : Block) (r r' : SlabStat) : Prop where
  pages : r'.pages = r.pages
  taken : r'.takenPages = r.takenPages + b.taken
  free : r'.freePage = r.freePage + b.room
  used : r'.usedSize = r.usedSize + usedBytes s i b
  bytes : r'.takenBytes = r.takenBytes + usedBytes s i b
  room : r'.maxFreePages = max r.maxFreePages b.room

theorem tagOf_cases (shift : Nat) : tagOf shift = .small ∨ tagOf shift = .exact ∨ tagOf shift = .big := by
  unfold tagOf
  by_cases h6 : shift < 6
  · exact Or.inl (if_pos h6)
  · rw [if_neg h6]
    by_cases h6' : shift = 6
    · exact Or.inr (Or.inl (if_pos h6'))
    · exact Or.inr (Or.inr (if_neg h6'))

/-- The length of a block, from the word of its first page. -/
theorem Sound.statPages_eq (hS : Sound s N blk ring) (hi : blk i = some b)
    (htag : b.tag = .page) : statPages s i = b.len := by
  have hlt := hS.pages_lt
  have hbound := hS.links.bound i b hi
  have hd := hS.links.desc i b hi
  unfold statPages
  rcases b with n | n | ⟨shift, full⟩
  · have hh : s.IsHeader .free := Or.inl rfl
    have hprev := (hS.links.neighbours hh (hS.mem_free_iff.mpr ⟨n, hi⟩)).1
    dsimp only
    rw [if_neg hprev]
    exact hS.links.slab_free (by omega) hi
  · rw [Block.len] at hbound
    dsimp only
    rw [hd.1, if_pos rfl]
    exact (head_word (by omega)).1
  · exact absurd htag (tagOf_ne_page shift)

/-- The loop goes on behind the block. -/
theorem Sound.statNext_eq (hS : Sound s N blk ring) (hi : blk i = some b) :
    statNext s i = i + b.len := by
  have hlt := hS.pages_lt
  have hbound := hS.links.bound i b hi
  have htag : (s.desc (.page i)).tag = b.tag := (hS.links.desc i b hi).tag_eq
  unfold statNext
  rw [htag]
  by_cases hpage : b.tag = .page
  · rw [hpage, hS.statPages_eq hi hpage]
    exact Nat.mod_eq_of_lt (by omega)
  · cases b with
    | free n => exact absurd rfl hpage
    | busy n => exact absurd rfl hpage
    | slab shift full =>
      rcases tagOf_cases shift with h | h | h <;> rw [Block.tag, h] <;> rfl

theorem Sound.counts (hS : Sound s N blk ring) (hi : blk i = some b) (r : SlabStat) :
    Counts s i b r (statPage s r i) := by
  have hg := hS.geometry
  have htag : (s.desc (.page i)).tag = b.tag := (hS.links.desc i b hi).tag_eq
  have hroom : ∀ m n : Nat, (if m < n then n else m) = max m n := by
    intro m n
    split <;> omega
  unfold statPage
  dsimp only
  rw [htag]
  rcases b with n | n | ⟨shift, full⟩
  · -- a free block is in the list, so its `prev` is no null pointer
    have hprev := (hS.links.neighbours (Or.inl rfl) (hS.mem_free_iff.mpr ⟨n, hi⟩)).1
    rw [Block.tag, hS.statPages_eq hi rfl]
    dsimp only
    rw [if_neg hprev]
    exact ⟨rfl, rfl, rfl, rfl, rfl, hroom _ _⟩
  · -- the descriptor of pages in use has none
    have hprev : (s.desc (.page i)).prev = .null := by rw [(hS.links.desc i _ hi).1]
    rw [Block.tag, hS.statPages_eq hi rfl, hg.pagesize]
    dsimp only
    rw [if_pos hprev]
    exact ⟨rfl, (Nat.add_assoc ..).symm, rfl, rfl, (Nat.add_assoc ..).symm, (Nat.max_zero _).symm⟩
  · -- the three kinds of pages differ in the fields that they add to
    rw [hS.statUsed_eq hi]
    rcases tagOf_cases shift with h | h | h
    all_goals
      rw [Block.tag, h]
      dsimp only
      constructor <;>
        simp only [SlabStat.takenPages, SlabStat.takenBytes, usedBytes, Block.taken, Block.room] <;>
        omega

/-! ## 4. The walk -/

theorem Sound.mem_starts_iff (hS : Sound s N blk ring) (hN : 0 < N) :
    i ∈ starts N (blockLen blk) ↔ ∃ b, blk i = some b := by
  rw [mem_starts]
  constructor
  · rintro ⟨_, hpos⟩
    cases hi : blk i with
    | some b => exact ⟨b, rfl⟩
    | none =>
      unfold blockLen at hpos
      rw [hi] at hpos
      exact absurd hpos (Nat.lt_irrefl 0)
  · rintro ⟨b, hi⟩
    have hbound := hS.links.bound i b hi
    rw [blockLen_of hi]
    rcases hS.links.pos i b hi with hpos | ⟨hzero, _⟩ <;> omega

theorem Geometry.size_eq (hg : Geometry s N) : s.size = s.endAddr - s.start := by
  have hfit := hg.fit
  have hbound := hg.bound
  unfold Pool.size
  omega

/-- The pages that `ncx_slab_stat` counts with are those that `ncx_slab_init` has set up. -/
theorem Fits.pages_eq (h : Fits minShift base endAddr desc mem s N) (hg : Geometry s N) :
    s.size / s.pagesize = N := by
  have hfit := hg.fit
  have hbound := hg.bound
  rw [hg.size_eq, hg.pagesize]
  have hpow : 1 <<< 12 = 4096 := by decide
  have hinit := h.init
  unfold ncxSlabInit at hinit
  rw [Prod.mk.injEq] at hinit
  obtain ⟨hs, hpages⟩ := hinit
  have hstart := congrArg Pool.start hs
  have hend := congrArg Pool.endAddr hs
  have h11 := h.le_eleven
  dsimp only [sizeofSlabPool, sizeofSlabPage] at hstart hend hpages
  simp only [hpow] at hstart hpages
  rw [hstart] at hpages
  -- The estimate is never short by a page, so the count of the whole pages decides.
  split at hpages <;> omega

theorem Sound.statVisits_eq (hS : Sound s N blk ring) (hpages : s.size / s.pagesize = N) :
    statVisits s = some (starts N (blockLen blk)) := by
  unfold statVisits
  dsimp only
  rw [hpages]
  refine hS.links.tiles.walk_eq fun i hi hpos => ?_
  obtain ⟨b, hb⟩ := (hS.mem_starts_iff (Nat.zero_lt_of_lt hi)).mp (mem_starts.mpr ⟨hi, hpos⟩)
  rw [blockLen_of hb]
  exact hS.statNext_eq hb

/-- A number for every block. -/
def perBlock (blk : Nat → Option Block) (f : Nat → Block → Nat) (i : Nat) : Nat :=
  ((blk i).map (f i)).getD 0

theorem perBlock_of (f : Nat → Block → Nat) (hi : blk i = some b) : perBlock blk f i = f i b := by
  unfold perBlock
  rw [hi]
  rfl

/-- The rounds of the loop, one for every block. -/
def tally (s : Pool) (N : Nat) (blk : Nat → Option Block) : SlabStat :=
  (starts N (blockLen blk)).foldl (statPage s) { pages := N }

/-- What the rounds add to a number of the statistics. -/
theorem Sound.tally_add (hS : Sound s N blk ring) (hN : 0 < N) {proj : SlabStat → Nat}
    {f : Nat → Block → Nat}
    (h : ∀ i b r r', Counts s i b r r' → proj r' = proj r + f i b) :
    proj (tally s N blk) =
      proj { pages := N } + ((starts N (blockLen blk)).map (perBlock blk f)).sum := by
  have hround : ∀ i ∈ starts N (blockLen blk), ∀ r : SlabStat,
      proj (statPage s r i) = proj r + perBlock blk f i := by
    intro i hi r
    obtain ⟨b, hb⟩ := (hS.mem_starts_iff hN).mp hi
    rw [perBlock_of f hb]
    exact h i b r _ (hS.counts hb r)
  exact foldl_add hround { pages := N }

theorem Sound.stat_eq (hS : Sound s N blk ring) (hN : 0 < N) (hpages : s.size / s.pagesize = N) :
    ncxSlabStat s = some { tally s N blk with
      poolSize := s.size
      usedPct := (tally s N blk).usedSize * 100 % 2 ^ 64 / s.size } := by
  have hvisits := hS.statVisits_eq hpages
  have hsize : s.size ≠ 0 := by
    intro hzero
    rw [hzero, Nat.zero_div] at hpages
    omega
  unfold statVisits at hvisits
  unfold ncxSlabStat
  dsimp only at hvisits ⊢
  rw [statFrom_eq, hvisits, hpages, Option.map_some, Option.bind_eq_bind, Option.bind_some,
    if_neg hsize]
  rfl

/-! ## 5. What is counted -/

/-- The bytes of the chunks that the bitmap of a page takes up. -/
def bitmapReserve (s : Pool) (i : Nat) : Nat :=
  let slab := (s.slab (.page i)).toNat
  if s.tag (.page i) = .small then bitmapChunks s slab <<< slab else 0

/-- What a block has given out. -/
def given (s : Pool) (i : Nat) : Block → List (Nat × Class)
  | .free _ => []
  | .busy n => [(s.addr i, .pages n)]
  | .slab shift _ =>
      ((List.range (chunks shift)).filter fun j => reserved shift ≤ j ∧ s.bit i shift j = true).map
        fun j => (s.addr i + j <<< shift, .chunk shift)

theorem mem_given {a : Nat × Class} : a ∈ given s i b ↔ At s i b a.1 a.2 := by
  obtain ⟨p, c⟩ := a
  rcases b with n | n | ⟨shift, full⟩
  · exact iff_of_false List.not_mem_nil id
  · rw [given, List.mem_singleton, Prod.mk.injEq, At, and_comm]
  · unfold given At
    simp only [List.mem_map, List.mem_filter, List.mem_range, decide_eq_true_eq, Prod.mk.injEq]
    constructor
    · rintro ⟨j, ⟨hj, hres, hset⟩, hp, hc⟩
      exact ⟨hc.symm, j, hj, hres, hset, hp.symm⟩
    · rintro ⟨hc, j, hj, hres, hset, hp⟩
      exact ⟨j, ⟨hj, hres, hset⟩, hp.symm, hc.symm⟩

/-- The same for the block that begins in a page, if one does. -/
def givenAt (s : Pool) (blk : Nat → Option Block) (i : Nat) : List (Nat × Class) :=
  ((blk i).map (given s i)).getD []

theorem givenAt_of (hi : blk i = some b) : givenAt s blk i = given s i b := by
  unfold givenAt
  rw [hi]
  rfl

theorem nodup_given : (given s i b).Nodup := by
  rcases b with n | n | ⟨shift, full⟩
  · exact List.nodup_nil
  · exact List.nodup_singleton _
  · refine (List.nodup_range.filter _).map fun j k hjk => ?_
    exact (chunk_inj _).mp (Prod.mk.injEq .. ▸ hjk).1

/-- The chunks in use are those of the bitmap and those that were given out. -/
theorem Sound.usedChunks_eq (hS : Sound s N blk ring) (hi : blk i = some (.slab shift full)) :
    usedChunks s i shift = reserved shift +
      ((List.range (chunks shift)).filter fun j => reserved shift ≤ j ∧ s.bit i shift j = true).length := by
  have hb := hS.shift_bounds hi
  have hc := hS.chunk i shift full hi
  have hlt := reserved_lt hb.1 hb.2
  obtain ⟨m, hm⟩ : ∃ m, chunks shift = reserved shift + m := ⟨chunks shift - reserved shift, by omega⟩
  -- The chunks of the bitmap come first, and all their bits are set.
  have hfront : (List.range (reserved shift)).countP (s.bit i shift) = reserved shift := by
    rw [List.countP_eq_length.mpr fun j hj => hc.reserved j (List.mem_range.mp hj), List.length_range]
  have hnone : (List.range (reserved shift)).countP
      (fun j => reserved shift ≤ j ∧ s.bit i shift j = true) = 0 := by
    refine List.countP_eq_zero.mpr fun j hj => ?_
    rw [decide_eq_true_eq]
    rintro ⟨hres, _⟩
    exact absurd (List.mem_range.mp hj) (Nat.not_lt.mpr hres)
  unfold usedChunks
  rw [← List.countP_eq_length_filter, hm, List.range_add, List.countP_append, List.countP_append,
    hfront, hnone, Nat.zero_add, List.countP_map, List.countP_map]
  congr 1
  refine List.countP_congr fun j _ => ?_
  rw [Function.comp_apply, Function.comp_apply, decide_eq_true_eq]
  exact (and_iff_right (Nat.le_add_right _ j)).symm

theorem Sound.bitmapReserve_eq (hS : Sound s N blk ring) (hi : blk i = some (.slab shift full)) :
    bitmapReserve s i = reserved shift * 2 ^ shift := by
  have hb := hS.shift_bounds hi
  have htag : s.tag (.page i) = tagOf shift := (hS.links.desc i _ hi).2.2.1
  unfold bitmapReserve
  rw [htag]
  by_cases h6 : shift < 6
  · have hslab : (s.slab (.page i)).toNat = shift :=
      (congrArg BitVec.toNat ((hS.chunk i shift full hi).small h6)).trans
        (Nat.mod_eq_of_lt (by omega))
    dsimp only
    rw [hslab, bitmapChunks_eq hS.geometry.shift hb.1 h6, Nat.shiftLeft_eq,
      show tagOf shift = .small from if_pos h6, if_pos rfl]
  · have hsmall : tagOf shift ≠ .small := by
      unfold tagOf
      rw [if_neg h6]
      split <;> decide
    dsimp only
    rw [if_neg hsmall, reserved_of_le (Nat.le_of_not_lt h6), Nat.zero_mul]

theorem Sound.usedBytes_eq (hS : Sound s N blk ring) (hi : blk i = some b) :
    usedBytes s i b = ((given s i b).map fun a => a.2.size).sum + bitmapReserve s i := by
  have htag : s.tag (.page i) = b.tag := (hS.links.desc i b hi).tag_eq
  rcases b with n | n | ⟨shift, full⟩
  · unfold bitmapReserve
    rw [htag]
    rfl
  · unfold bitmapReserve
    rw [htag]
    exact Nat.mul_comm n 4096
  · have hconst (l : List Nat) :
        ((l.map fun j => (s.addr i + j <<< shift, Class.chunk shift)).map fun a => a.2.size).sum =
          l.length * 2 ^ shift := by
      rw [List.map_map]
      exact (congrArg List.sum List.map_const').trans List.sum_replicate_nat
    rw [usedBytes, given, hconst, hS.usedChunks_eq hi, hS.bitmapReserve_eq hi, Nat.add_mul,
      Nat.add_comm]

/-- The live allocations are what the blocks have given out. -/
theorem Inv.live_perm (hI : Inv st N blk ring) (hN : 0 < N) :
    (st.live.map fun a => (a.1, classOf st.pool a.2)).Perm
      ((starts N (blockLen blk)).flatMap (givenAt st.pool blk)) := by
  have hS := hI.sound
  have hmem {i : Nat} {a : Nat × Class} (hi : i ∈ starts N (blockLen blk))
      (ha : a ∈ givenAt st.pool blk i) : ∃ b, blk i = some b ∧ At st.pool i b a.1 a.2 := by
    obtain ⟨b, hb⟩ := (hS.mem_starts_iff hN).mp hi
    rw [givenAt_of hb, mem_given] at ha
    exact ⟨b, hb, ha⟩
  refine (List.perm_ext_iff_of_nodup ?_ ?_).mpr ?_
  · apply List.Nodup.of_map Prod.fst
    rw [List.map_map]
    exact hI.nodup
  · refine List.nodup_flatMap.mpr ⟨fun i hi => ?_, nodup_starts.imp_of_mem ?_⟩
    · obtain ⟨b, hb⟩ := (hS.mem_starts_iff hN).mp hi
      rw [givenAt_of hb]
      exact nodup_given
    · intro i k hi hk hne a ha ha'
      obtain ⟨b, hb, hat⟩ := hmem hi ha
      obtain ⟨c, hc, hat'⟩ := hmem hk ha'
      -- two blocks do not give out one address
      obtain ⟨hlo, hhi, hpos, _⟩ := hS.at_bounds hb hat
      obtain ⟨hlo', hhi', _, _⟩ := hS.at_bounds hc hat'
      exact hne (hS.block_unique hb hc hlo (by omega) hlo' (by omega))
  · rintro ⟨p, c⟩
    rw [List.mem_map, List.mem_flatMap]
    constructor
    · rintro ⟨⟨q, size⟩, hlive, heq⟩
      cases heq
      obtain ⟨i, b, hi, hat⟩ := hI.holds q size hlive
      refine ⟨i, (hS.mem_starts_iff hN).mpr ⟨b, hi⟩, ?_⟩
      rw [givenAt_of hi]
      exact mem_given.mpr hat
    · rintro ⟨i, hi, ha⟩
      obtain ⟨b, hb, hat⟩ := hmem hi ha
      obtain ⟨size, hlive⟩ := hI.live p c ⟨i, b, hb, hat⟩
      refine ⟨(p, size), hlive, ?_⟩
      rw [hS.holds_unique (hI.holds p size hlive) ⟨i, b, hb, hat⟩]

/-- The sizes of the classes of the live allocations. -/
def liveBytes (st : State) : Nat := (st.live.map fun a => (classOf st.pool a.2).size).sum

theorem Inv.liveBytes_eq (hI : Inv st N blk ring) (hN : 0 < N) :
    liveBytes st = ((starts N (blockLen blk)).map (perBlock blk fun i b =>
      ((given st.pool i b).map fun a => a.2.size).sum)).sum := by
  have hsum := ((hI.live_perm hN).map fun a => a.2.size).sum_eq
  rw [List.map_map, List.map_flatMap, List.flatMap_def, List.sum_flatten, List.map_map] at hsum
  refine hsum.trans (congrArg List.sum (List.map_congr_left fun i _ => ?_))
  unfold perBlock givenAt
  rw [Function.comp_apply]
  cases blk i <;> rfl

/-- The bytes that the blocks count for. -/
theorem Inv.usedBytes_sum (hI : Inv st N blk ring) (hN : 0 < N) :
    ((starts N (blockLen blk)).map (perBlock blk (usedBytes st.pool))).sum =
      liveBytes st + ∑ i ∈ Finset.range N, bitmapReserve st.pool i := by
  have hS := hI.sound
  have hreserve : ((starts N (blockLen blk)).map (bitmapReserve st.pool)).sum =
      ∑ i ∈ Finset.range N, bitmapReserve st.pool i := by
    refine sum_starts _ fun i hi hzero => ?_
    -- a page with chunks is a block of its own
    refine if_neg fun htag => ?_
    obtain ⟨shift, full, hblk, _⟩ := hS.slab_of_tag hi (by rw [htag]; decide)
    rw [blockLen_of hblk] at hzero
    exact absurd hzero Nat.one_ne_zero
  rw [← hreserve, hI.liveBytes_eq hN, ← List.sum_map_add]
  refine congrArg List.sum (List.map_congr_left fun i hi => ?_)
  obtain ⟨b, hb⟩ := (hS.mem_starts_iff hN).mp hi
  rw [perBlock_of _ hb, perBlock_of _ hb]
  exact hS.usedBytes_eq hb

/-! ## 6. Reachable states -/

/-- The loop looks at the first descriptor of every block once, and at no other. -/
structure VisitsHeads (st : State) (N : Nat) (visited : List Nat) : Prop where
  nodup : visited.Nodup
  bound : ∀ i ∈ visited, i < N
  heads : ∃ blk : Nat → Option Block, Tiles N (blockLen blk) ∧
    (∀ i b, blk i = some b → Accounted st i b) ∧ ∀ i, i ∈ visited ↔ ∃ b, blk i = some b

/-- The numbers are those of the pool. -/
structure StatAgrees (st : State) (N : Nat) (stat : SlabStat) : Prop where
  pages : stat.pages = N
  total : stat.pSmall + stat.pExact + stat.pBig + stat.pPage + stat.freePage = N
  bytes : stat.usedSize = stat.bSmall + stat.bExact + stat.bBig + stat.bPage
  used : stat.usedSize = liveBytes st + ∑ i ∈ Finset.range N, bitmapReserve st.pool i
  room : ∀ n, 0 < n →
    ((∃ s' i, ncxSlabAllocPages st.pool n = some (s', some i)) ↔ n ≤ stat.maxFreePages)
  request : ∀ size : UInt64, 2048 ≤ size.toNat →
    (Satisfies st.pool size.toNat ↔ (size.toNat + 4095) / 4096 ≤ stat.maxFreePages)

/-- The greatest length is that of a free block. -/
theorem Sound.le_maxFreePages_iff (hS : Sound s N blk ring) (hN : 0 < N) (hn : 0 < n) :
    n ≤ (tally s N blk).maxFreePages ↔ ∃ i len, blk i = some (.free len) ∧ n ≤ len := by
  have hround : ∀ i ∈ starts N (blockLen blk), ∀ r : SlabStat,
      (statPage s r i).maxFreePages = max r.maxFreePages (perBlock blk (fun _ => Block.room) i) := by
    intro i hi r
    obtain ⟨b, hb⟩ := (hS.mem_starts_iff hN).mp hi
    rw [perBlock_of _ hb]
    exact (hS.counts hb r).room
  have hmax := le_foldl_max_iff hround { pages := N } n
  refine hmax.trans ⟨?_, ?_⟩
  · rintro (hzero | ⟨i, hi, hle⟩)
    · exact absurd hzero (Nat.not_le.mpr hn)
    · obtain ⟨b, hb⟩ := (hS.mem_starts_iff hN).mp hi
      rw [perBlock_of _ hb] at hle
      cases b with
      | free len => exact ⟨i, len, hb, hle⟩
      | busy len => exact absurd hle (Nat.not_le.mpr hn)
      | slab shift full => exact absurd hle (Nat.not_le.mpr hn)
  · rintro ⟨i, len, hi, hle⟩
    refine Or.inr ⟨i, (hS.mem_starts_iff hN).mpr ⟨_, hi⟩, ?_⟩
    rw [perBlock_of _ hi]
    exact hle

theorem Sound.allocPages_iff (hS : Sound s N blk ring) (hn : 0 < n) :
    (∃ s' i, ncxSlabAllocPages s n = some (s', some i)) ↔
      ∃ i len, blk i = some (.free len) ∧ n ≤ len := by
  rcases hS.allocPages hn with ⟨i, len, s', _, hi, hle, hs, _⟩ | ⟨hshort, hs⟩
  · exact iff_of_true ⟨s', i, hs⟩ ⟨i, len, hi, hle⟩
  · apply iff_of_false
    · rintro ⟨s', i, hs'⟩
      rw [hs] at hs'
      cases hs'
    · rintro ⟨i, len, hi, hle⟩
      exact absurd (hshort i len hi) (Nat.not_lt.mpr hle)

/-- A request of pages is served when some free block is long enough. -/
theorem Sound.satisfies_pages_iff (hS : Sound s N blk ring) {size : Nat} (hsize : 2048 ≤ size) :
    Satisfies s size ↔ ∃ i len, blk i = some (.free len) ∧ (size + 4095) / 4096 ≤ len := by
  rw [hS.satisfies_iff_not_exhausted, classOf_pages hsize, Exhausted]
  push Not
  rfl

theorem Inv.statAgrees (hI : Inv st N blk ring) (hN : 0 < N) (poolSize usedPct : Nat) :
    StatAgrees st N { tally st.pool N blk with poolSize, usedPct } := by
  have hS := hI.sound
  have hused : (tally st.pool N blk).usedSize = 0 + _ :=
    hS.tally_add (f := usedBytes st.pool) hN fun _ _ _ _ hc => hc.used
  have hbytes : (tally st.pool N blk).takenBytes = 0 + _ :=
    hS.tally_add (f := usedBytes st.pool) hN fun _ _ _ _ hc => hc.bytes
  constructor
  · -- No page adds to `pages`.
    have hpages : (tally st.pool N blk).pages = N + _ :=
      hS.tally_add (f := fun _ _ => 0) hN fun _ _ _ _ hc => hc.pages
    have hzero : perBlock blk (fun _ _ => 0) = fun _ => 0 := by
      funext i
      unfold perBlock
      cases blk i <;> rfl
    rw [hzero, List.map_const', List.sum_replicate_nat, Nat.mul_zero] at hpages
    exact hpages
  · -- What a block adds to the five counts is its length, and the blocks tile the pages.
    have htotal : (tally st.pool N blk).countedPages =
        0 + ((starts N (blockLen blk)).map (blockLen blk)).sum := by
      refine hS.tally_add (f := fun _ => Block.len) hN fun i b r r' hc => ?_
      rw [SlabStat.countedPages, SlabStat.countedPages, hc.taken, hc.free, ← b.taken_add_room]
      omega
    exact htotal.trans ((Nat.zero_add _).trans hS.links.tiles.sum_starts)
  · exact hused.trans hbytes.symm
  · rw [Nat.zero_add, hI.usedBytes_sum hN] at hused
    exact hused
  · intro n hn
    exact (hS.allocPages_iff hn).trans (hS.le_maxFreePages_iff hN hn).symm
  · intro size hsize
    exact (hS.satisfies_pages_iff hsize).trans (hS.le_maxFreePages_iff hN (by omega)).symm

/-- **`ncx_slab_stat` agrees with the allocator**, in every state of every run. -/
theorem stat_agrees (h : Fits minShift base endAddr desc mem s N) (hN : 0 < N)
    (hst : (slabSystem s).Reachable st) :
    (∃ visited, statVisits st.pool = some visited ∧ VisitsHeads st N visited) ∧
      ∃ stat, ncxSlabStat st.pool = some stat ∧ StatAgrees st N stat := by
  obtain ⟨blk, ring, hI, hsite⟩ := h.reachable hst
  obtain ⟨_, hI₀⟩ := h.inv
  have hS := hI.sound
  have hpages : st.pool.size / st.pool.pagesize = N := by
    have hsize : st.pool.size / st.pool.pagesize = s.size / s.pagesize := by
      unfold Pool.size Pool.pagesize
      rw [hsite.start, hsite.endAddr, hsite.pagesizeShift]
    exact hsize.trans (h.pages_eq hI₀.sound.geometry)
  refine ⟨⟨_, hS.statVisits_eq hpages, nodup_starts, fun i hi => (mem_starts.mp hi).1, blk,
    hS.links.tiles, fun i b hi => hI.accounted hi, fun i => hS.mem_starts_iff hN⟩, ?_⟩
  exact ⟨_, hS.stat_eq hN hpages, hI.statAgrees hN _ _⟩

theorem stat_agrees_fourKinds :
    ∃ st, (slabSystem sevenPages).exec (slabSystem sevenPages).init fourKinds = some st ∧
      ∃ stat, ncxSlabStat st.pool = some stat ∧ StatAgrees st 7 stat := by
  obtain ⟨st, hst, _⟩ := exec_fourKinds
  obtain ⟨_, hstat⟩ :=
    stat_agrees sevenPages_fits (by decide) ((slabSystem sevenPages).reachable_of_exec hst)
  exact ⟨st, hst, hstat⟩

end CcPof.Slab

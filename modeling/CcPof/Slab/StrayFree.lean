import CcPof.Slab.Drained
import CcPof.Slab.Tail

/-!
# Releasing what was not given out

`ncx_slab_free` refuses an address that no allocation begins at, with two exceptions: the chunks of
a bitmap look like chunks in use, and the range test lets addresses behind the last page pass. For
those it reads one more descriptor than the pool has pages, which is there only if `ncx_slab_init`
has estimated too many.
-/

namespace CcPof.Slab

variable {s s' : Pool} {N E minShift base endAddr i j k n off p shift : Nat}
  {desc : Ref → SlabPage} {mem : Mem} {st st' : State} {blk : Nat → Option Block}
  {ring ring' : Ref → List Nat} {full : Bool}

/-- The number of descriptors that `ncx_slab_init` zeroes: the pages that it estimates at first. -/
def descriptors (base endAddr : Nat) : Nat :=
  (((endAddr : Int) - (base + sizeofSlabPool : Nat)) % 2 ^ 64).toNat / (1 <<< 12 + sizeofSlabPage)

/-- The number of the descriptor that `ncx_slab_free` reads. -/
def pageIndex (s : Pool) (p : Nat) : Nat := (p - s.start) >>> s.pagesizeShift

instance (s : Pool) (shift i : Nat) : Decidable (s.IsSlab shift i) :=
  inferInstanceAs (Decidable (_ ∧ (_ → _)))

/-- `p` is the start of a chunk that the bitmap of a page with small chunks stands in. -/
def BitmapChunk (s : Pool) (N p : Nat) : Prop :=
  ∃ i, i < N ∧ ∃ shift, shift < 6 ∧ ∃ j, j < reserved shift ∧
    s.IsSlab shift i ∧ p = s.addr i + j <<< shift

instance (s : Pool) (N p : Nat) : Decidable (BitmapChunk s N p) :=
  inferInstanceAs (Decidable (∃ i, i < N ∧ ∃ shift, shift < 6 ∧ ∃ j, j < reserved shift ∧
    s.IsSlab shift i ∧ p = s.addr i + j <<< shift))

/-- The addresses that `ncx_slab_free` can be trusted with, apart from those it gave out. Behind the
`N` pages it depends on whether `E` descriptors are more than the pages. -/
def Harmless (s : Pool) (N E p : Nat) : Prop :=
  p < s.start ∨ s.endAddr < p ∨ (p < s.start + N * s.pagesize ∧ ¬ BitmapChunk s N p) ∨
    (s.start + N * s.pagesize ≤ p ∧ N < E)

instance (s : Pool) (N E p : Nat) : Decidable (Harmless s N E p) :=
  inferInstanceAs (Decidable (_ ∨ _ ∨ (_ ∧ ¬ _) ∨ (_ ∧ _)))

/-- The descriptors or the bit of an allocation say that it is in use. -/
def Marked (s : Pool) (p size : Nat) : Prop :=
  match classOf s size with
  | .pages n => ∃ i, p = s.addr i ∧ s.tag (.page i) = .page ∧
      s.slab (.page i) = BitVec.ofNat 64 n ||| pageStart ∧
      ∀ j, i < j → j < i + n → s.slab (.page j) = pageBusy
  | .chunk shift => ∃ i j, p = s.addr i + j <<< shift ∧ s.IsSlab shift i ∧ j < chunks shift ∧
      s.bit i shift j = true

def FreeChunk (s : Pool) (i shift j : Nat) : Prop :=
  s.IsSlab shift i ∧ j < chunks shift ∧ s.bit i shift j = false

/-- Page `j` is one of a block in the list behind `pool->free`. -/
def FreePage (s : Pool) (j : Nat) : Prop :=
  ∃ l, FreeList s l ∧ ∃ i ∈ l, i ≤ j ∧ j < i + (s.slab (.page i)).toNat

/-- `ncx_slab_free` on `p` reads one of the `E` descriptors, and takes nothing away from the clients
and the bitmaps. -/
structure NoDamage (s : Pool) (N E : Nat) (live : List (Nat × Nat)) (p : Nat) : Prop where
  index : p < s.start ∨ s.endAddr < p ∨ pageIndex s p < E
  kept : ∃ s', ncxSlabFreeLocked s p = some s' ∧
    (∀ q size, (q, size) ∈ live → Marked s' q size) ∧
    (∀ i shift j, i < N → s.IsSlab shift i → j < reserved shift →
      s'.IsSlab shift i ∧ s'.bit i shift j = true) ∧
    (∀ i shift j, i < N → (FreeChunk s' i shift j ↔ FreeChunk s i shift j)) ∧
    ∀ j, FreePage s' j ↔ FreePage s j

/-! ## 1. Pools with the same blocks -/

theorem Sound.marked (hS : Sound s N blk ring) {size : Nat}
    (hp : Holds s blk p (classOf s size)) : Marked s p size := by
  unfold Marked
  obtain ⟨i, b, hi, hp⟩ := hp
  rcases b with n | n | ⟨shift, full⟩
  · exact hp.elim
  · obtain ⟨hclass, hp⟩ := hp
    have hd := hS.links.desc i _ hi
    rw [hclass]
    refine ⟨i, hp, ?_, ?_, fun j hij hj => ?_⟩
    · rw [Pool.tag, hd.1]
    · rw [Pool.slab, hd.1]
    · rw [Pool.slab, hd.2 j hij hj]
  · obtain ⟨hclass, j, hj, -, hset, hp⟩ := hp
    rw [hclass]
    exact ⟨i, j, hp, (hS.isSlab_iff (hS.lt_of_block hi)).mpr ⟨full, hi⟩, hj, hset⟩

theorem Sound.freePage_iff (hS : Sound s N blk ring) :
    FreePage s j ↔ ∃ i n, blk i = some (.free n) ∧ i ≤ j ∧ j < i + n := by
  constructor
  · rintro ⟨l, hl, i, hi, hij, hji⟩
    -- The links leave no choice: `l` is the list of the free blocks.
    have heq : l.map Ref.page = (ring .free).map .page := hl.ring.unique hS.freeList.ring
    have hmem : i ∈ ring .free := by
      rw [← List.map_injective_iff.mpr page_injective heq]
      exact hi
    obtain ⟨n, hn⟩ := hS.mem_free_iff.mp hmem
    rw [hS.free_len hn] at hji
    exact ⟨i, n, hn, hij, hji⟩
  · rintro ⟨i, n, hi, hij, hji⟩
    refine ⟨ring .free, hS.freeList, i, hS.mem_free_iff.mpr ⟨n, hi⟩, hij, ?_⟩
    rw [hS.free_len hi]
    exact hji

/-- Pools with the same blocks and bits are the same to the clients. -/
theorem Sound.same_blocks (hS : Sound s N blk ring) (hS' : Sound s' N blk ring')
    (hsite : SameSite s s')
    (hbits : ∀ i shift full, blk i = some (.slab shift full) →
      ∀ j, s'.bit i shift j = s.bit i shift j) :
    (∀ p c, Holds s' blk p c ↔ Holds s blk p c) ∧
    (∀ i shift j, i < N → s.IsSlab shift i → j < reserved shift →
      s'.IsSlab shift i ∧ s'.bit i shift j = true) ∧
    (∀ i shift j, i < N → (FreeChunk s' i shift j ↔ FreeChunk s i shift j)) ∧
    ∀ j, FreePage s' j ↔ FreePage s j := by
  have hslab : ∀ i shift, i < N → (s'.IsSlab shift i ↔ s.IsSlab shift i) := by
    intro i shift hi
    rw [hS.isSlab_iff hi, hS'.isSlab_iff hi]
  refine ⟨fun p c => ?_, fun i shift j hi hs hj => ?_, fun i shift j hi => ?_, fun j => ?_⟩
  · have hat : ∀ i b, blk i = some b → (At s' i b p c ↔ At s i b p c) := by
      intro i b hi
      apply At.congr (hsite.addr i)
      rintro shift full j rfl _
      exact hbits i shift full hi j
    exact exists_congr fun i => exists_congr fun b => and_congr_right (hat i b)
  · obtain ⟨full, hblk⟩ := (hS.isSlab_iff hi).mp hs
    exact ⟨(hslab i shift hi).mpr hs, (hS'.chunk i shift full hblk).reserved j hj⟩
  · unfold FreeChunk
    rw [hslab i shift hi]
    apply and_congr_right
    intro hs
    obtain ⟨full, hblk⟩ := (hS.isSlab_iff hi).mp hs
    rw [hbits i shift full hblk]
  · rw [hS.freePage_iff, hS'.freePage_iff]

/-! ## 2. Addresses that were not given out -/

/-- The order of the free blocks may change, and nothing else does. -/
def FreesQuietly (s : Pool) (N : Nat) (blk : Nat → Option Block) (p : Nat) : Prop :=
  ∃ s' ring', ncxSlabFreeLocked s p = some s' ∧ Sound s' N blk ring' ∧ SameSite s s' ∧
    ∀ j shift full, blk j = some (.slab shift full) → ∀ k, s'.bit j shift k = s.bit j shift k

theorem Sound.freesQuietly (hS : Sound s N blk ring) (h : ncxSlabFreeLocked s p = some s) :
    FreesQuietly s N blk p :=
  ⟨s, ring, h, hS, SameSite.refl s, fun _ _ _ _ _ => rfl⟩

/-- At the first page of a free block. -/
theorem Sound.free_headOfFree (hS : Sound s N blk ring) (hk : blk i = some (.free n)) (hn : 0 < n)
    (hoff : off < 4096) : FreesQuietly s N blk (s.addr i + off) := by
  have hlt := hS.pages_lt
  have hbound : i + n ≤ N := hS.links.bound i _ hk
  have hd := hS.links.desc i _ hk
  have hword := and_not_pageStart (show n < 2 ^ 63 by omega)
  have hslab : s.slab (.page i) = BitVec.ofNat 64 n := hd.1
  have hne : s.slab (.page i) ≠ 0#64 ∧ s.slab (.page i) ≠ pageBusy := by
    constructor <;> intro heq <;> have hnat := congrArg BitVec.toNat heq
    · rw [hS.free_len hk] at hnat
      exact hn.ne' hnat
    · rw [hS.free_len hk, pageBusy] at hnat
      have hbusy : (0xffffffffffffffff#64 : Word).toNat = 2 ^ 64 - 1 := by decide
      omega
  have hwhole := hS.free_whole (show i < N by omega) hoff hd.2.1
  by_cases hzero : off ≠ 0
  · rw [if_pos (Or.inl hzero)] at hwhole
    exact hS.freesQuietly hwhole
  · have hcond : ¬ (off ≠ 0 ∨ s.slab (.page i) = 0#64 ∨ s.slab (.page i) = pageBusy) :=
      fun h => h.elim hzero fun h => h.elim hne.1 hne.2
    rw [if_neg hcond, hslab, hword] at hwhole
    obtain ⟨s', ring', hs', hS', hsite, hbits⟩ := hS.freePages hk hn (Or.inr rfl)
    rw [Block.len, Function.update_eq_self_iff.mpr hk.symm] at hS'
    exact ⟨s', ring', hwhole.trans hs', hS', hsite, hbits⟩

/-- Behind the first page of a free block, where the descriptors are zero. -/
theorem Sound.free_insideFree (hS : Sound s N blk ring) (hk : blk k = some (.free n)) (hki : k < i)
    (hik : i < k + n) (hoff : off < 4096) : FreesQuietly s N blk (s.addr i + off) := by
  have hbound : k + n ≤ N := hS.links.bound k _ hk
  have hd := hS.links.desc k _ hk
  have hzero : s.desc (.page i) = zeroPage := hd.2.2 i hki hik
  have htag : s.tag (.page i) = .page := by rw [Pool.tag, hzero]; rfl
  have hslab : s.slab (.page i) = 0#64 := by rw [Pool.slab, hzero]; rfl
  apply hS.freesQuietly
  rw [hS.free_whole (by omega) hoff htag, if_pos (Or.inr (Or.inl hslab))]

/-- In a run of whole pages, but not at its start, which was given out. -/
theorem Sound.free_insideRun (hS : Sound s N blk ring) (hk : blk k = some (.busy n)) (hki : k ≤ i)
    (hik : i < k + n) (hoff : off < 4096)
    (hnot : ∀ c, ¬ Holds s blk (s.addr i + off) c) : FreesQuietly s N blk (s.addr i + off) := by
  have hbound : k + n ≤ N := hS.links.bound k _ hk
  have hd := hS.links.desc k _ hk
  apply hS.freesQuietly
  rcases Nat.eq_or_lt_of_le hki with rfl | hlt
  · have hzero : off ≠ 0 := by
      rintro rfl
      exact hnot (.pages n) ⟨k, _, hk, rfl, rfl⟩
    have htag : s.tag (.page k) = .page := by rw [Pool.tag, hd.1]
    rw [hS.free_whole (by omega) hoff htag, if_pos (Or.inl hzero)]
  · -- The pages behind the first are marked as busy.
    have hbusy := hd.2 i hlt hik
    have htag : s.tag (.page i) = .page := by rw [Pool.tag, hbusy]
    have hslab : s.slab (.page i) = pageBusy := by rw [Pool.slab, hbusy]
    rw [hS.free_whole (by omega) hoff htag, if_pos (Or.inr (Or.inr hslab))]

/-- In a page of chunks, but not at a chunk in use. -/
theorem Sound.free_insideChunks (hS : Sound s N blk ring) (hi : blk i = some (.slab shift full))
    (hoff : off < 4096) (hnot : ∀ c, ¬ Holds s blk (s.addr i + off) c)
    (hbitmap : off % 2 ^ shift = 0 → reserved shift ≤ off / 2 ^ shift) :
    FreesQuietly s N blk (s.addr i + off) := by
  have hb := hS.shift_bounds hi
  have hcond : ¬ (off % 2 ^ shift = 0 ∧ s.bit i shift (off / 2 ^ shift) = true) := by
    rintro ⟨hmod, hset⟩
    -- A chunk whose bit is set was given out, or the bitmap stands in it.
    apply hnot (.chunk shift)
    have hmul : (off / 2 ^ shift) <<< shift = off := by
      rw [Nat.shiftLeft_eq]
      exact Nat.div_mul_cancel (Nat.dvd_of_mod_eq_zero hmod)
    exact ⟨i, _, hi, rfl, _, div_lt_chunks (by omega) hoff, hbitmap hmod, hset, by rw [hmul]⟩
  apply hS.freesQuietly
  rw [hS.free_slab hi hoff, if_neg hcond]

theorem Sound.free_stray (hS : Sound s N blk ring) (hi : i < N) (hoff : off < 4096)
    (hnot : ∀ c, ¬ Holds s blk (s.addr i + off) c)
    (hbitmap : ∀ shift full, blk i = some (.slab shift full) → off % 2 ^ shift = 0 →
      reserved shift ≤ off / 2 ^ shift) : FreesQuietly s N blk (s.addr i + off) := by
  obtain ⟨k, b, hk, hki, hik⟩ := hS.links.cover i hi
  rcases b with n | n | ⟨shift, full⟩
  · rcases Nat.eq_or_lt_of_le hki with rfl | hlt
    · exact hS.free_headOfFree hk (Nat.lt_add_right_iff_pos.mp hik) hoff
    · exact hS.free_insideFree hk hlt hik hoff
  · exact hS.free_insideRun hk hki hik hoff hnot
  · rw [Block.len] at hik
    obtain rfl : k = i := by omega
    exact hS.free_insideChunks hk hoff hnot (hbitmap shift full hk)

/-! ## 3. The two exceptions -/

/-- The first chunks of a page with small chunks lose their bit like others. -/
theorem Sound.free_bitmap (hS : Sound s N blk ring) (hi : blk i = some (.slab shift full))
    (hj : j < reserved shift) :
    ∃ s', ncxSlabFreeLocked s (s.addr i + j <<< shift) = some s' ∧ s'.bit i shift j = false := by
  have hb := hS.shift_bounds hi
  have hjc : j < chunks shift := Nat.lt_trans hj (reserved_lt hb.1 hb.2)
  have hend := chunk_end hb.2 hjc
  have hpow := Nat.two_pow_pos shift
  have hset := (hS.chunk i shift full hi).reserved j hj
  have hoff : j <<< shift < 4096 := by
    rw [Nat.shiftLeft_eq]
    omega
  obtain ⟨s₁, -, h₁, hsame, -⟩ := hS.relinked hi
  -- The page has a chunk in use behind the bitmap, so it stays a page of chunks.
  have huse : (s₁.writeBit i shift j false).InUse i shift := by
    obtain ⟨k, hk, hres, hsetk⟩ := hS.inUse i shift full hi
    refine ⟨k, hk, hres, ?_⟩
    rw [Pool.writeBit_same hjc, if_neg (by omega), hsame.bit]
    exact hsetk
  refine ⟨s₁.writeBit i shift j false, ?_, ?_⟩
  · rw [hS.free_slab hi hoff, Nat.shiftLeft_eq, Nat.mul_mod_left, Nat.mul_div_cancel _ hpow,
      if_pos ⟨rfl, hset⟩]
    unfold Pool.releaseBit
    rw [h₁]
    exact if_pos huse
  · rw [Pool.writeBit_same hjc, if_pos rfl]

/-- What is in the pages, not live and no bitmap chunk changes only the order of the free list. -/
theorem Sound.free_inside (hS : Sound s N blk ring) (hnot : ∀ c, ¬ Holds s blk p c)
    (hlo : s.start ≤ p) (hhi : p < s.start + N * s.pagesize) (hbitmap : ¬ BitmapChunk s N p) :
    FreesQuietly s N blk p := by
  rw [hS.geometry.pagesize] at hhi
  obtain ⟨i, off, hi, hoff, rfl⟩ := hS.geometry.exists_offset hlo hhi
  apply hS.free_stray hi hoff hnot
  intro shift full hblk hmod
  by_contra hlt
  -- The offset is that of a chunk of the bitmap.
  have h6 : shift < 6 := by
    by_contra hge
    rw [reserved_of_le (by omega)] at hlt
    exact hlt (Nat.zero_le _)
  have hslab : s.IsSlab shift i := (hS.isSlab_iff hi).mpr ⟨full, hblk⟩
  refine hbitmap ⟨i, hi, shift, h6, off / 2 ^ shift, by omega, hslab, ?_⟩
  rw [Nat.shiftLeft_eq, Nat.div_mul_cancel (Nat.dvd_of_mod_eq_zero hmod)]

/-! ## 4. Behind the last page -/

/-- The descriptor behind those of the pages, where there is one, is that of a free page. -/
structure TailOk (s : Pool) (N : Nat) : Prop where
  room : (s.endAddr - s.start) / 4096 = N
  tag : s.tag (.page N) = .page
  slab : s.slab (.page N) = 0#64

theorem TailOk.congr (h : TailOk s N) (hsite : SameSite s s')
    (hdesc : s'.desc (.page N) = s.desc (.page N)) : TailOk s' N where
  room := by rw [hsite.start, hsite.endAddr, h.room]
  tag := (congrArg SlabPage.tag hdesc).trans h.tag
  slab := (congrArg SlabPage.slab hdesc).trans h.slab

/-- The estimate stays, unless fewer pages fit behind the start. -/
theorem Fits.corrected_pages (h : Fits minShift base endAddr desc mem s N) :
    N = if (endAddr - s.start) / 4096 < descriptors base endAddr then (endAddr - s.start) / 4096
      else descriptors base endAddr := by
  have hfit := h.fit
  have hbound := h.bound
  have hpages := congrArg Prod.snd h.init
  have hstart := congrArg (fun r => r.1.start) h.init
  dsimp only [ncxSlabInit] at hpages hstart
  rw [hstart] at hpages
  have hroom : (((endAddr : Int) - s.start) % 2 ^ 64).toNat / 1 <<< 12 =
      (endAddr - s.start) / 4096 := by
    rw [show 1 <<< 12 = 4096 from rfl, Int.emod_eq_of_lt (by omega) (by omega)]
    congr 1
    omega
  rw [hroom] at hpages
  change (if 0 < (descriptors base endAddr : Int) - _ then _ else descriptors base endAddr) = N
    at hpages
  rw [← hpages]
  exact if_congr (by omega) rfl rfl

theorem Fits.le_descriptors (h : Fits minShift base endAddr desc mem s N) :
    N ≤ descriptors base endAddr := by
  rw [h.corrected_pages]
  split <;> omega

/-- Where the estimate was corrected, one descriptor more was zeroed, or it is the only one. -/
theorem Fits.tailOk (h : Fits minShift base endAddr desc mem s N)
    (hlt : N < descriptors base endAddr) : TailOk s N := by
  obtain ⟨⟨-, -, hend⟩, -, -, -, hfirst, -⟩ := ncxSlabInit_spec h.init
  have hroom : (s.endAddr - s.start) / 4096 = N := by
    have hpages := h.corrected_pages
    rw [hend]
    split at hpages <;> omega
  rcases Nat.eq_zero_or_pos N with rfl | hN
  · refine ⟨hroom, ?_, ?_⟩
    · rw [Pool.tag, hfirst]
    · rw [Pool.slab, hfirst]
  · have hzero : s.desc (.page N) = zeroPage := by
      obtain ⟨k, rfl⟩ : ∃ k, N = k + 1 := ⟨N - 1, by omega⟩
      have hdesc := congrArg (fun r => r.1.desc (.page (k + 1))) h.init
      rw [← hdesc]
      exact if_pos hlt
    refine ⟨hroom, ?_, ?_⟩
    · rw [Pool.tag, hzero]
      rfl
    · rw [Pool.slab, hzero]
      rfl

/-- The page that the code takes it for is free already. -/
theorem TailOk.free (h : TailOk s N) (hg : Geometry s N) (hlo : s.start + N * 4096 ≤ p)
    (hhi : p ≤ s.endAddr) : pageIndex s p = N ∧ ncxSlabFreeLocked s p = some s := by
  have hroom := h.room
  have hindex : pageIndex s p = N := by
    rw [pageIndex, hg.shift, Nat.shiftRight_eq_div_pow]
    omega
  refine ⟨hindex, ?_⟩
  have hin : ¬ (p < s.start ∨ s.endAddr < p) := by omega
  have htag : (s.desc (.page N)).tag = .page := h.tag
  have hslab : (s.desc (.page N)).slab = 0#64 := h.slab
  rw [pageIndex] at hindex
  rw [ncxSlabFreeLocked, if_neg hin]
  dsimp only
  rw [hindex, htag]
  dsimp only
  rw [freePage, hslab, if_pos rfl]
  exact ite_self _

/-! ## 5. What is harmless -/

/-- A harmless release changes nothing but the order of the free list. -/
theorem Sound.free_harmless (hS : Sound s N blk ring) (htail : N < E → TailOk s N)
    (hnot : ∀ c, ¬ Holds s blk p c) (hp : Harmless s N E p) : FreesQuietly s N blk p := by
  by_cases hout : p < s.start ∨ s.endAddr < p
  · exact hS.freesQuietly (if_pos hout)
  · rw [not_or, Nat.not_lt, Nat.not_lt] at hout
    rcases hp with hp | hp | hp | hp
    · omega
    · omega
    · exact hS.free_inside hnot hout.1 hp.1 hp.2
    · rw [hS.geometry.pagesize] at hp
      exact hS.freesQuietly ((htail hp.2).free hS.geometry hp.1 hout.2).2

theorem Inv.not_holds (h : Inv st N blk ring) (hp : p ∉ st.live.map Prod.fst) (c : Class) :
    ¬ Holds st.pool blk p c := by
  intro hc
  obtain ⟨size, hmem⟩ := h.live p c hc
  exact hp (List.mem_map_of_mem hmem)

/-- The descriptor that is read is one of those laid out. -/
theorem Sound.index_of_harmless (hS : Sound s N blk ring) (htail : N < E → TailOk s N) (hle : N ≤ E)
    (hp : Harmless s N E p) : p < s.start ∨ s.endAddr < p ∨ pageIndex s p < E := by
  by_cases hout : p < s.start ∨ s.endAddr < p
  · exact hout.imp_right Or.inl
  · rw [not_or, Nat.not_lt, Nat.not_lt] at hout
    right
    right
    rw [Harmless, hS.geometry.pagesize] at hp
    rcases hp with hp | hp | hp | hp
    · omega
    · omega
    · rw [pageIndex, hS.geometry.shift, Nat.shiftRight_eq_div_pow]
      omega
    · rw [((htail hp.2).free hS.geometry hp.1 hout.2).1]
      exact hp.2

/-- A release of what is not live is harmless just where it says so. -/
theorem Inv.noDamage_iff (h : Inv st N blk ring) (htail : N < E → TailOk st.pool N) (hle : N ≤ E)
    (hp : p ∉ st.live.map Prod.fst) :
    NoDamage st.pool N E st.live p ↔ Harmless st.pool N E p := by
  have hS := h.sound
  have hg := hS.geometry
  have hnot := h.not_holds hp
  constructor
  · rintro ⟨hindex, s', hs', -, hres, -⟩
    by_cases hout : p < st.pool.start ∨ st.pool.endAddr < p
    · exact hout.imp_right Or.inl
    · have hindex := (or_assoc.mpr hindex).resolve_left hout
      rw [not_or, Nat.not_lt, Nat.not_lt] at hout
      right
      right
      by_cases hin : p < st.pool.start + N * st.pool.pagesize
      · -- The release of a chunk of the bitmap clears a reserved bit.
        refine Or.inl ⟨hin, ?_⟩
        rintro ⟨i, hi, shift, -, j, hj, hslab, rfl⟩
        obtain ⟨full, hblk⟩ := (hS.isSlab_iff hi).mp hslab
        obtain ⟨s₁, hs₁, hclear⟩ := hS.free_bitmap hblk hj
        obtain rfl : s' = s₁ := Option.some.inj (hs'.symm.trans hs₁)
        rw [(hres i shift j hi hslab hj).2] at hclear
        cases hclear
      · -- Behind the pages no descriptor below `N` is read.
        refine Or.inr ⟨Nat.le_of_not_lt hin, ?_⟩
        rw [hg.pagesize] at hin
        rw [pageIndex, hg.shift, Nat.shiftRight_eq_div_pow] at hindex
        omega
  · intro hharm
    obtain ⟨s', ring', hs', hS', hsite, hbits⟩ := hS.free_harmless htail hnot hharm
    obtain ⟨hholds, hres, hchunk, hpage⟩ := hS.same_blocks hS' hsite hbits
    refine ⟨hS.index_of_harmless htail hle hharm, s', hs', fun q size hq => ?_, hres, hchunk, hpage⟩
    apply hS'.marked
    rw [hsite.classOf, hholds]
    exact h.holds q size hq

/-! ## 6. Runs -/

inductive StrayAct
  | client (a : Act)
  | stray (p : Nat)

/-- Besides what it has, a client may free what is not live, as long as that is harmless. -/
def strayStep (N E : Nat) (st : State) : StrayAct → Option State
  | .client a => step st a
  | .stray p =>
      if p ∉ st.live.map Prod.fst ∧ Harmless st.pool N E p then
        (ncxSlabFreeLocked st.pool p).map fun pool => { st with pool }
      else none

def straySystem (pool : Pool) (N E : Nat) : TransitionSystem State StrayAct where
  init := { pool, live := [] }
  step := strayStep N E

theorem Inv.stray (h : Inv st N blk ring) (htail : N < E → TailOk st.pool N)
    (hs : strayStep N E st (.stray p) = some st') :
    ∃ ring', Inv st' N blk ring' ∧ SameSite st.pool st'.pool := by
  simp only [strayStep] at hs
  split at hs
  · rename_i hcond
    obtain ⟨s₁, hs₁, rfl⟩ := Option.map_eq_some_iff.mp hs
    have hnot := h.not_holds hcond.1
    obtain ⟨s', ring', hs', hS', hsite, hbits⟩ := h.sound.free_harmless htail hnot hcond.2
    obtain rfl : s₁ = s' := Option.some.inj (hs₁.symm.trans hs')
    obtain ⟨hholds, -⟩ := h.sound.same_blocks hS' hsite hbits
    refine ⟨ring', ⟨hS', h.nodup, fun q size hq => ?_, fun q c hq => ?_⟩, hsite⟩
    · rw [hsite.classOf, hholds]
      exact h.holds q size hq
    · exact h.live q c ((hholds q c).mp hq)
  · cases hs

/-- A harmless release does not write to the descriptors behind the last page. -/
theorem Inv.stray_tail (h : Inv st N blk ring) (htail : N < E → TailOk st.pool N)
    (hs : strayStep N E st (.stray p) = some st') :
    st'.pool.desc (.page N) = st.pool.desc (.page N) := by
  have hg := h.sound.geometry
  simp only [strayStep] at hs
  split at hs
  · rename_i hcond
    obtain ⟨s₁, hs₁, rfl⟩ := Option.map_eq_some_iff.mp hs
    by_cases hout : p < st.pool.start ∨ st.pool.endAddr < p
    · rw [ncxSlabFreeLocked, if_pos hout] at hs₁
      cases hs₁
      rfl
    · rw [not_or, Nat.not_lt, Nat.not_lt] at hout
      have hharm := hcond.2
      rw [Harmless, hg.pagesize] at hharm
      rcases hharm with hp | hp | hp | hp
      · omega
      · omega
      · exact h.sound.free_tail hout.1 hp.1 hs₁ le_rfl
      · rw [((htail hp.2).free hg hp.1 hout.2).2] at hs₁
        cases hs₁
        rfl
  · cases hs

theorem Fits.stray_reachable (h : Fits minShift base endAddr desc mem s N)
    (hst : (straySystem s N (descriptors base endAddr)).Reachable st) :
    (∃ blk ring, Inv st N blk ring) ∧ (N < descriptors base endAddr → TailOk st.pool N) := by
  have hinv : (straySystem s N (descriptors base endAddr)).Invariant fun st =>
      (∃ blk ring, Inv st N blk ring) ∧ (N < descriptors base endAddr → TailOk st.pool N) := by
    refine ⟨?_, ?_⟩
    · obtain ⟨ring, hI⟩ := h.inv
      exact ⟨⟨_, ring, hI⟩, h.tailOk⟩
    · rintro st st' (a | p) ⟨⟨blk, ring, hI⟩, htail⟩ hs
      · obtain ⟨blk', ring', hI', hsite⟩ := hI.step hs
        exact ⟨⟨blk', ring', hI'⟩, fun hlt => (htail hlt).congr hsite (hI.desc_tail hs le_rfl)⟩
      · obtain ⟨ring', hI', hsite⟩ := hI.stray htail hs
        exact ⟨⟨blk, ring', hI'⟩, fun hlt => (htail hlt).congr hsite (hI.stray_tail htail hs)⟩
  exact hinv.of_reachable hst

/-- In every state of a run whose stray releases are harmless. -/
theorem stray_free_iff (h : Fits minShift base endAddr desc mem s N)
    (hst : (straySystem s N (descriptors base endAddr)).Reachable st)
    (hp : p ∉ st.live.map Prod.fst) :
    NoDamage st.pool N (descriptors base endAddr) st.live p ↔
      Harmless st.pool N (descriptors base endAddr) p := by
  obtain ⟨⟨blk, ring, hI⟩, htail⟩ := h.stray_reachable hst
  exact hI.noDamage_iff htail h.le_descriptors hp

/-- A release inside a chunk, of a chunk that was freed before, of a page behind the first, and of
the address behind the last page, for which there is one more descriptor. -/
def straysBetween : List StrayAct :=
  [.client (.alloc 8), .client (.alloc 5000), .stray 8257, .client (.free 8256), .stray 8256,
    .stray 16384, .stray 36864]

theorem stray_free_iff_straysBetween :
    ∃ st, (straySystem sevenPages 7 8).exec (straySystem sevenPages 7 8).init straysBetween =
        some st ∧ (NoDamage st.pool 7 8 st.live 36864 ↔ Harmless st.pool 7 8 36864) := by
  have hexec : ((straySystem sevenPages 7 8).exec (straySystem sevenPages 7 8).init
      straysBetween).map (·.live) = some [(12288, 5000)] := by decide +kernel
  obtain ⟨st, hst, hlive⟩ := Option.map_eq_some_iff.mp hexec
  have hnot : 36864 ∉ st.live.map Prod.fst := by
    rw [hlive]
    decide
  have hreach := (straySystem sevenPages 7 8).reachable_of_exec hst
  exact ⟨st, hst, stray_free_iff sevenPages_fits hreach hnot⟩

/-- A pool of seven pages that were estimated right. -/
def sevenEstimated : Pool := (ncxSlabInit 12 3 4096 37000 (fun _ => zeroPage) (fun _ => 0)).1

theorem sevenEstimated_fits :
    Fits 3 4096 37000 (fun _ => zeroPage) (fun _ => 0) sevenEstimated 7 where
  init := rfl
  three_le := by decide
  le_eleven := by decide
  fit := by decide +kernel
  bound := by decide

/-- The first chunk of a bitmap is given back, and a descriptor behind the seven is looked at. -/
theorem stray_free_damages :
    (∃ st, (slabSystem sevenPages).exec (slabSystem sevenPages).init [.alloc 8] = some st ∧
      8192 ∉ st.live.map Prod.fst ∧
      ¬ NoDamage st.pool 7 (descriptors 4096 40000) st.live 8192) ∧
    Fits 3 4096 37000 (fun _ => zeroPage) (fun _ => 0) sevenEstimated 7 ∧
    ¬ NoDamage sevenEstimated 7 (descriptors 4096 37000) [] 36864 := by
  refine ⟨?_, sevenEstimated_fits, ?_⟩
  · have hexec : ((slabSystem sevenPages).exec (slabSystem sevenPages).init [.alloc 8]).map
        (fun st => (st.live, decide (st.pool.IsSlab 3 0),
          (ncxSlabFreeLocked st.pool 8192).map fun s' => s'.bit 0 3 0)) =
        some ([(8256, 8)], true, some false) := by decide +kernel
    obtain ⟨st, hst, heq⟩ := Option.map_eq_some_iff.mp hexec
    simp only [Prod.mk.injEq, decide_eq_true_eq] at heq
    obtain ⟨hlive, hslab, hfree⟩ := heq
    refine ⟨st, hst, ?_, ?_⟩
    · rw [hlive]
      decide
    · rintro ⟨-, s', hs', -, hres, -⟩
      rw [hs', Option.map_some, (hres 0 3 0 (by decide) hslab (by decide)).2] at hfree
      cases hfree
  · intro hdamage
    have hindex : ¬ (36864 < sevenEstimated.start ∨ sevenEstimated.endAddr < 36864 ∨
        pageIndex sevenEstimated 36864 < descriptors 4096 37000) := by decide +kernel
    exact hindex hdamage.index

end CcPof.Slab

import CcPof.Slab.Contents
import CcPof.Slab.Exhaustion

/-!
# Fragmentation

`ncx_slab_free_pages` makes the pages a block of their own and joins it to no neighbour. The blocks
of a pool only ever get smaller, so a request for more pages than any block has is not served again,
whatever is freed. What was freed, on the other hand, can be had again at once.
-/

namespace CcPof.Slab

variable {s s' : Pool} {N minShift base endAddr i j m n p sz shift shift' : Nat}
  {desc : Ref → SlabPage} {mem : Mem} {blk blk' : Nat → Option Block} {ring ring' : Ref → List Nat}
  {st st' : State} {a : Act} {l : List Act} {full full' : Bool} {b b' : Block} {c : Class}

/-- The pages that an allocation takes up, or shares with others of its class. -/
def pageCount (size : Nat) : Nat := max 1 ((size + 4095) / 4096)

/-! ## 1. The blocks can be read off the descriptors -/

theorem ofNat_ne_head (hn : n < 2 ^ 63) : BitVec.ofNat 64 n ≠ BitVec.ofNat 64 m ||| pageStart := by
  intro heq
  -- The highest bit tells the first page of a run.
  have hbit : (BitVec.ofNat 64 n).getLsbD 63 = (BitVec.ofNat 64 m ||| pageStart).getLsbD 63 := by
    rw [heq]
  rw [BitVec.getLsbD_or, pageStart_getLsbD 63 (by decide), decide_eq_true rfl, Bool.or_true,
    BitVec.getLsbD_ofNat, Nat.testBit_lt_two_pow hn, Bool.and_false] at hbit
  cases hbit

theorem Sound.shift_unique (hS : Sound s N blk ring) (hS' : Sound s N blk' ring')
    (hi : blk i = some (.slab shift full)) (hi' : blk' i = some (.slab shift' full')) :
    shift = shift' := by
  have hb := hS.shift_bounds hi
  have hb' := hS'.shift_bounds hi'
  have hc := hS.chunk i shift full hi
  have hc' := hS'.chunk i shift' full' hi'
  have htag : tagOf shift = tagOf shift' :=
    (hS.links.desc i _ hi).tag_eq.symm.trans (hS'.links.desc i _ hi').tag_eq
  rcases Nat.lt_trichotomy shift 6 with h6 | rfl | h6
  · -- The page type tells the three kinds of chunks apart; within one the word has the shift.
    have h6' : shift' < 6 := by
      by_contra hge
      rw [tagOf, if_pos h6, tagOf, if_neg hge] at htag
      split at htag <;> cases htag
    have heq := congrArg BitVec.toNat ((hc.small h6).symm.trans (hc'.small h6'))
    rw [BitVec.toNat_ofNat, BitVec.toNat_ofNat, Nat.mod_eq_of_lt (by omega),
      Nat.mod_eq_of_lt (by omega)] at heq
    exact heq
  · by_contra hne
    -- Chunks of 64 bytes have the type to themselves.
    rw [show tagOf 6 = .exact from rfl, tagOf, if_neg (Ne.symm hne)] at htag
    split at htag <;> cases htag
  · have h6' : 6 < shift' := by
      by_contra hle
      rw [tagOf_big h6, tagOf] at htag
      split at htag
      · cases htag
      · rw [if_pos (by omega)] at htag
        cases htag
    rw [← hc.shift_eq h6 hb.2, ← hc'.shift_eq h6' hb'.2]

theorem Sound.block_at (hS : Sound s N blk ring) (hS' : Sound s N blk' ring')
    (hi : blk i = some b) (hi' : blk' i = some b') : b = b' := by
  have hlt := hS.pages_lt
  have hd := hS.links.desc i _ hi
  have hd' := hS'.links.desc i _ hi'
  have hbound := hS.links.bound i b hi
  have hbound' := hS'.links.bound i b' hi'
  have htag : b.tag = b'.tag := hd.tag_eq.symm.trans hd'.tag_eq
  have hchunk : ∀ shift, tagOf shift ≠ .page := by
    intro shift hpage
    rw [tagOf] at hpage
    split at hpage
    · cases hpage
    · split at hpage <;> cases hpage
  cases b with
  | free n =>
    cases b' with
    | free n' =>
      rw [← hS.links.slab_free (by omega) hi, ← hS'.links.slab_free (by omega) hi']
    | busy n' =>
      rw [Block.len] at hbound
      -- Free pages have no mark in their descriptor.
      have hhead : s.slab (.page i) = BitVec.ofNat 64 n' ||| pageStart := by rw [Pool.slab, hd'.1]
      exact absurd (hd.1.symm.trans hhead) (ofNat_ne_head (by omega))
    | slab shift' full' => exact absurd htag.symm (hchunk shift')
  | busy n =>
    have hhead : s.slab (.page i) = BitVec.ofNat 64 n ||| pageStart := by rw [Pool.slab, hd.1]
    cases b' with
    | free n' =>
      rw [Block.len] at hbound'
      exact absurd (hd'.1.symm.trans hhead) (ofNat_ne_head (by omega))
    | busy n' =>
      have hhead' : s.slab (.page i) = BitVec.ofNat 64 n' ||| pageStart := by rw [Pool.slab, hd'.1]
      rw [Block.len] at hbound hbound'
      have hn := (head_word (show n < 2 ^ 63 by omega)).1
      have hn' := (head_word (show n' < 2 ^ 63 by omega)).1
      rw [← hhead] at hn
      rw [← hhead', hn] at hn'
      rw [hn']
    | slab shift' full' => exact absurd htag.symm (hchunk shift')
  | slab shift full =>
    cases b' with
    | free n' => exact absurd htag (hchunk shift)
    | busy n' => exact absurd htag (hchunk shift)
    | slab shift' full' =>
      obtain rfl := hS.shift_unique hS' hi hi'
      -- A full page is in no list.
      have hfull : full = full' := by
        rw [Bool.eq_iff_iff, ← hS.next_null_iff hi, ← hS'.next_null_iff hi']
      rw [hfull]

/-- A walk from page 0 on meets the same blocks. -/
theorem Sound.blk_eq (hS : Sound s N blk ring) (hS' : Sound s N blk' ring') (hi : i < N) :
    blk i = blk' i := by
  induction i using Nat.strong_induction_on with
  | _ i ih =>
    -- Where one of the two has a block, the other one cannot be inside another block.
    have hstart : ∀ {blk₁ blk₂ : Nat → Option Block} {ring₁ ring₂ : Ref → List Nat} {b : Block},
        Sound s N blk₁ ring₁ → Sound s N blk₂ ring₂ → (∀ k, k < i → blk₁ k = blk₂ k) →
        blk₁ i = some b → blk₂ i = some b := by
      intro blk₁ blk₂ ring₁ ring₂ b h₁ h₂ hbefore hb
      obtain ⟨k, c, hk, hki, hik⟩ := h₂.links.cover i hi
      rcases Nat.eq_or_lt_of_le hki with rfl | hlt
      · rw [hk, h₁.block_at h₂ hb hk]
      · have hnone := h₁.links.apart k c i ((hbefore k hlt).trans hk) hlt hik
        rw [hb] at hnone
        cases hnone
    have hbefore : ∀ k, k < i → blk k = blk' k := fun k hk => ih k hk (by omega)
    cases hb : blk i with
    | some b => exact (hstart hS hS' hbefore hb).symm
    | none =>
      cases hb' : blk' i with
      | none => rfl
      | some b' =>
        rw [hstart hS' hS (fun k hk => (hbefore k hk).symm) hb'] at hb
        cases hb

/-! ## 2. Blocks only get smaller -/

theorem exists_of_blockLen_pos (h : 0 < blockLen blk i) : ∃ b, blk i = some b := by
  cases hb : blk i with
  | none =>
    rw [blockLen, hb] at h
    exact absurd h (Nat.lt_irrefl 0)
  | some b => exact ⟨b, rfl⟩

theorem finer_update (hpos : 0 < b.len) :
    Finer (blockLen blk) (blockLen (Function.update blk i (some b))) := by
  intro j hj
  by_cases hji : j = i
  · rw [hji, blockLen_of (Function.update_self ..)]
    exact hpos
  · rw [blockLen, Function.update_of_ne hji]
    exact hj

theorem finer_carve (hn : 0 < n) : Finer (blockLen blk) (blockLen (carve blk i n m)) := by
  rw [carve]
  by_cases hlt : n < m
  · rw [if_pos hlt]
    apply (finer_update (b := .busy n) hn).trans
    exact finer_update (b := .free (m - n)) (Nat.sub_pos_of_lt hlt)
  · rw [if_neg hlt]
    exact finer_update (b := .busy n) hn

theorem AllocEffect.finer (h : AllocEffect blk c blk') : Finer (blockLen blk) (blockLen blk') := by
  cases h with
  | null => exact Finer.refl _
  | pages _ hn _ => exact finer_carve hn
  | chunk full _ => exact finer_update Nat.one_pos
  | fresh shift _ _ => exact (finer_carve Nat.one_pos).trans (finer_update Nat.one_pos)

theorem FreeEffect.finer (h : FreeEffect blk c blk') (hS : Sound s N blk ring) :
    Finer (blockLen blk) (blockLen blk') := by
  cases h with
  | pages hi => exact finer_update (hS.busy_pos hi)
  | chunk => exact finer_update Nat.one_pos
  | last => exact finer_update Nat.one_pos

/-- Two readings of one pool have the same blocks. -/
theorem Sound.finer_of_same (hS : Sound s N blk ring) (hS' : Sound s N blk' ring') :
    Finer (blockLen blk) (blockLen blk') := by
  intro i hi
  obtain ⟨b, hb⟩ := exists_of_blockLen_pos hi
  have hbound := hS.links.bound i b hb
  rw [blockLen_of hb] at hi
  rw [blockLen, ← hS.blk_eq hS' (by omega), hb]
  exact hi

theorem Inv.step_finer (hI : Inv st N blk ring)
    (hs : CcPof.Slab.step st a = some st') :
    ∃ blk' ring', Inv st' N blk' ring' ∧ Finer (blockLen blk) (blockLen blk') := by
  cases a with
  | write p size off v => exact ⟨blk, ring, (hI.write hs).1, Finer.refl _⟩
  | alloc size =>
    obtain ⟨blk', ring', hI', _⟩ := hI.alloc hs
    refine ⟨blk', ring', hI', ?_⟩
    obtain ⟨⟨s', p⟩, hres, hst⟩ := Option.map_eq_some_iff.mp hs
    -- The new state is read in two ways, which agree on the blocks.
    obtain ⟨blk₁, ring₁, heffect, hS₁, _⟩ := hI.sound.alloc_effect hres
    have hpool : st'.pool = s' := by
      rw [← hst]
      dsimp only
      split <;> rfl
    rw [← hpool] at hS₁
    exact heffect.finer.trans (hS₁.finer_of_same hI'.sound)
  | free p =>
    obtain ⟨blk', ring', hI', _⟩ := hI.free hs
    refine ⟨blk', ring', hI', ?_⟩
    rw [CcPof.Slab.step] at hs
    by_cases hmem : p ∈ st.live.map Prod.fst
    · rw [if_pos hmem, Option.map_eq_some_iff] at hs
      obtain ⟨s', hpool, rfl⟩ := hs
      obtain ⟨⟨p, size⟩, hp, rfl⟩ := List.mem_map.mp hmem
      obtain ⟨blk₁, ring₁, heffect, hS₁, _⟩ := hI.sound.free_effect (hI.holds p size hp) hpool
      exact (heffect.finer hI.sound).trans (hS₁.finer_of_same hI'.sound)
    · rw [if_neg hmem] at hs
      cases hs

theorem Inv.exec_finer (hI : Inv st N blk ring) (hs : (slabSystem s).exec st l = some st') :
    ∃ blk' ring', Inv st' N blk' ring' ∧ Finer (blockLen blk) (blockLen blk') := by
  induction l generalizing st blk ring with
  | nil =>
    cases hs
    exact ⟨blk, ring, hI, Finer.refl _⟩
  | cons a l ih =>
    rw [TransitionSystem.exec, Option.bind_eq_some_iff] at hs
    obtain ⟨st₁, hstep, hs⟩ := hs
    obtain ⟨blk₁, ring₁, hI₁, hfiner⟩ := hI.step_finer hstep
    obtain ⟨blk', ring', hI', hfiner'⟩ := ih hI₁ hs
    exact ⟨blk', ring', hI', hfiner.trans hfiner'⟩

/-! ## 3. Requests for pages -/

theorem classOf_pageCount (hsize : 2048 ≤ sz) : classOf s sz = .pages (pageCount sz) := by
  rw [classOf_pages hsize, pageCount]
  congr 1
  omega

/-- A block that is not free belongs to a live allocation with as many pages. -/
theorem Inv.live_of_block (hI : Inv st N blk ring) (hi : blk i = some b) (hfree : ∀ m, b ≠ .free m) :
    ∃ p size, (p, size) ∈ st.live ∧ b.len ≤ pageCount size := by
  have hS := hI.sound
  cases b with
  | free m => exact absurd rfl (hfree m)
  | busy m =>
    obtain ⟨size, hmem⟩ := hI.live _ (.pages m) ⟨i, _, hi, rfl, rfl⟩
    refine ⟨_, size, hmem, ?_⟩
    -- The address has one class, so the size that the client asked for is of it.
    have hclass := hS.holds_unique (hI.holds _ size hmem) ⟨i, _, hi, rfl, rfl⟩
    by_cases hsize : 2048 ≤ size
    · rw [classOf_pageCount hsize] at hclass
      cases hclass
      exact Nat.le_refl _
    · rw [classOf_chunk hS.geometry (Nat.lt_of_not_le hsize)] at hclass
      cases hclass
  | slab shift full =>
    -- A page of chunks has at least one in use.
    obtain ⟨k, hk, hres, hset⟩ := hS.inUse i shift full hi
    obtain ⟨size, hmem⟩ := hI.live _ (.chunk shift) ⟨i, _, hi, rfl, k, hk, hres, hset, rfl⟩
    exact ⟨_, size, hmem, le_max_left 1 _⟩

/-- **Fragmentation is for good**: where no free block has the pages of a request and no live
allocation has as many, the request fails in every later state, whatever is freed. -/
theorem fragmented_forever (h : Fits minShift base endAddr desc mem s N)
    (hst : (slabSystem s).Reachable st) {size : UInt64} (hsize : 2048 ≤ size.toNat)
    (hnull : ∃ t, ncxSlabAllocLocked st.pool size.toNat = some (t, 0))
    (hlive : ∀ p sz, (p, sz) ∈ st.live → pageCount sz < pageCount size.toNat)
    (hlater : (slabSystem s).exec st l = some st') :
    ncxSlabAllocLocked st'.pool size.toNat = some (st'.pool, 0) := by
  obtain ⟨blk, ring, hI, _⟩ := h.reachable hst
  obtain ⟨blk', ring', hI', hfiner⟩ := hI.exec_finer hlater
  have hnone := (hI.sound.alloc_null_iff size.toNat).1.mp hnull
  apply hI'.sound.alloc_of_exhausted
  rw [classOf_pageCount hsize] at hnone ⊢
  intro j len hj
  by_contra hge
  -- The block that would serve the request lies in one block of the earlier state.
  have hlen : blockLen blk' j = len := blockLen_of hj
  have hcount : 1 ≤ pageCount size.toNat := le_max_left _ _
  have hbound : j + len ≤ N := hI'.sound.links.bound j _ hj
  obtain ⟨i, _, hji, hwithin⟩ :=
    hI.sound.links.tiles.within_of_finer hI'.sound.links.tiles hfiner (show j < N by omega)
  obtain ⟨b, hi⟩ := exists_of_blockLen_pos (show 0 < blockLen blk i by omega)
  rw [blockLen_of hi, hlen] at hwithin
  by_cases hfree : ∃ m, b = .free m
  · obtain ⟨m, rfl⟩ := hfree
    have hm := hnone i m hi
    rw [Block.len] at hwithin
    omega
  · obtain ⟨p, sz, hmem, hle⟩ := hI.live_of_block hi fun m hm => hfree ⟨m, hm⟩
    have hlt := hlive p sz hmem
    omega

/-- Three allocations of two pages fill the pool up, but for one page. -/
def threePairs : List Act := [Act.alloc 8192, .alloc 8192, .alloc 8192]

theorem exec_threePairs :
    ∃ st, (slabSystem sevenPages).exec (slabSystem sevenPages).init threePairs = some st ∧
      st.live = [(24576, 8192), (16384, 8192), (8192, 8192)] ∧
      ∃ t, ncxSlabAllocLocked st.pool (12288 : UInt64).toNat = some (t, 0) := by
  have hexec : ((slabSystem sevenPages).exec (slabSystem sevenPages).init threePairs).map
      (fun st => (st.live, (ncxSlabAllocLocked st.pool (12288 : UInt64).toNat).map Prod.snd)) =
      some ([(24576, 8192), (16384, 8192), (8192, 8192)], some 0) := by decide +kernel
  obtain ⟨st, hst, heq⟩ := Option.map_eq_some_iff.mp hexec
  obtain ⟨⟨t, p⟩, ht, hp⟩ := Option.map_eq_some_iff.mp (congrArg Prod.snd heq)
  dsimp only at hp
  exact ⟨st, hst, congrArg Prod.fst heq, t, by rw [ht, hp]⟩

/-- All is freed, and three pages in a row are not to be had. -/
theorem fragmented_forever_threePairs :
    ∃ st st', (slabSystem sevenPages).exec (slabSystem sevenPages).init threePairs = some st ∧
      (slabSystem sevenPages).exec st [Act.free 8192, .free 16384, .free 24576] = some st' ∧
      ncxSlabAllocLocked st'.pool (12288 : UInt64).toNat = some (st'.pool, 0) := by
  obtain ⟨st, hst, hlive, hnull⟩ := exec_threePairs
  have hsome : (((slabSystem sevenPages).exec (slabSystem sevenPages).init threePairs).bind
      ((slabSystem sevenPages).exec · [Act.free 8192, .free 16384, .free 24576])).isSome := by
    decide +kernel
  rw [hst, Option.bind_some] at hsome
  obtain ⟨st', hst'⟩ := Option.isSome_iff_exists.mp hsome
  have hreach := (slabSystem sevenPages).reachable_of_exec hst
  refine ⟨st, st', hst, hst', ?_⟩
  apply fragmented_forever sevenPages_fits hreach (by decide) hnull _ hst'
  intro p sz hmem
  rw [hlive] at hmem
  simp only [List.mem_cons, Prod.mk.injEq, List.not_mem_nil, or_false] at hmem
  rcases hmem with ⟨_, rfl⟩ | ⟨_, rfl⟩ | ⟨_, rfl⟩ <;> decide

/-! ## 4. What was freed can be had again -/

theorem setNext_next {r x : Ref} (h : s.setNext r x = some s') : s'.next r = x := by
  rw [Pool.setNext] at h
  split at h
  · cases h
  · cases h
    rw [Pool.next, Pool.desc_modify_self]

/-- The pages are the first block of the free list. -/
theorem ncxSlabFreePages_next (h : ncxSlabFreePages s i n = some s') : s'.next .free = .page i := by
  by_cases hn : n = 0
  · rw [ncxSlabFreePages, if_pos hn] at h
    cases h
  · rw [ncxSlabFreePages_eq hn, Option.bind_eq_some_iff] at h
    obtain ⟨t, _, h⟩ := h
    simp only [Pool.push, Option.bind_eq_bind, Option.bind_eq_some_iff] at h
    obtain ⟨_, _, h⟩ := h
    exact setNext_next h

/-- Room for the request in what the allocation of `sz` bytes gives back. -/
def Reuses (s : Pool) (sz size : Nat) : Prop :=
  if sz < 2048 then size < 2048 ∧ chunkClass s size = chunkClass s sz
  else pageCount size ≤ pageCount sz

theorem FreeEffect.not_exhausted (h : FreeEffect blk (classOf s sz) blk') (hS : Sound s N blk ring)
    (hfits : Reuses s sz n) : ¬ Exhausted blk' (classOf s n) := by
  intro hex
  have hg := hS.geometry
  by_cases hsize : sz < 2048
  · rw [Reuses, if_pos hsize] at hfits
    rw [classOf_chunk hg hfits.1, hfits.2] at hex
    rw [classOf_chunk hg hsize] at h
    -- The page that the chunk was in has a free one, or is free itself.
    generalize chunkClass s sz = k at h hex
    cases h with
    | chunk hi => exact hex.1 _ (Function.update_self ..)
    | last hi => exact absurd (hex.2 _ 1 (Function.update_self ..)) Nat.one_ne_zero
  · rw [Reuses, if_neg hsize] at hfits
    rw [classOf_pageCount (Nat.le_of_not_lt hsize)] at h
    generalize pageCount sz = k at h hfits
    cases h with
    | pages hi =>
      have hk := hS.busy_pos hi
      -- A chunk needs one page, which the freed ones have.
      by_cases hn : n < 2048
      · rw [classOf_chunk hg hn] at hex
        exact absurd (hex.2 _ k (Function.update_self ..)) hk.ne'
      · rw [classOf_pageCount (Nat.le_of_not_lt hn)] at hex
        exact absurd (hex _ k (Function.update_self ..)) (Nat.not_lt.mpr hfits)

/-- The free list gives the pages that were freed last. -/
theorem Sound.alloc_of_first (hS : Sound s N blk ring) (hnext : s.next .free = .page i)
    (hi : blk i = some (.free n)) (hsize : 2048 ≤ sz) (hle : pageCount sz ≤ n) :
    ∃ t, ncxSlabAllocLocked s sz = some (t, s.addr i) := by
  have hg := hS.geometry
  have hlt := hS.pages_lt
  have hcount : (sz >>> 12) + (if sz % 4096 ≠ 0 then 1 else 0) = pageCount sz := by
    have hclass := classOf_pageCount (s := s) hsize
    rw [classOf, if_pos hsize] at hclass
    exact Class.pages.inj hclass
  -- The search of the free list stops at its first block.
  obtain ⟨t, _, ht, hkept, _⟩ := hS.links.allocHere (n := pageCount sz) (by omega) hi
    (show 0 < pageCount sz from le_max_left 1 _) hle ((s.endAddr - s.start) / s.pagesize + 1)
  have hpages : ncxSlabAllocPages s (pageCount sz) = some (t, some i) := by
    unfold ncxSlabAllocPages
    rw [show (s.desc .free).next = .page i from hnext]
    exact ht
  refine ⟨t, ?_⟩
  rw [ncxSlabAllocLocked, hg.maxSize, if_pos hsize, hg.shift, hg.pagesize, hcount]
  dsimp only
  rw [hpages, ← hkept.site.addr]
  rfl

theorem Inv.free_pages (hI : Inv st N blk ring) (hp : (p, sz) ∈ st.live) (hsize : 2048 ≤ sz)
    (h : ncxSlabFreeLocked st.pool p = some s') :
    ∃ i blk' ring', p = s'.addr i ∧ s'.next .free = .page i ∧ Sound s' N blk' ring' ∧
      blk' i = some (.free (pageCount sz)) := by
  obtain ⟨i, b, hi, hat⟩ := hI.holds p sz hp
  rw [classOf_pageCount hsize] at hat
  cases b with
  | free m => exact hat.elim
  | slab shift full => cases hat.1
  | busy m =>
    obtain ⟨hclass, rfl⟩ := hat
    cases hclass
    obtain ⟨t, ring', ht, hS', hsite, _⟩ := hI.sound.freeBusy hi
    rw [h] at ht
    cases ht
    rw [hI.sound.free_busy hi] at h
    exact ⟨i, _, ring', (hsite.addr i).symm, ncxSlabFreePages_next h, hS', Function.update_self ..⟩

/-- **Freeing makes room**: after an allocation was freed, a request of its chunk class, or for no
more pages, is served; and a request for pages gets the address that was freed. -/
theorem alloc_after_free (h : Fits minShift base endAddr desc mem s N)
    (hst : (slabSystem s).Reachable st) {size : UInt64} (hp : (p, sz) ∈ st.live)
    (hs : step st (.free p) = some st') (hfits : Reuses st.pool sz size.toNat) :
    (∃ t q, ncxSlabAllocLocked st'.pool size.toNat = some (t, q) ∧ q ≠ 0) ∧
      (2048 ≤ sz → 2048 ≤ size.toNat → ∃ t, ncxSlabAllocLocked st'.pool size.toNat = some (t, p)) := by
  obtain ⟨blk, ring, hI, _⟩ := h.reachable hst
  obtain ⟨_, _, hI', hsite⟩ := hI.free hs
  rw [step, if_pos (List.mem_map.mpr ⟨_, hp, rfl⟩), Option.map_eq_some_iff] at hs
  obtain ⟨s', hfree, rfl⟩ := hs
  constructor
  · obtain ⟨blk', ring', heffect, hS', _⟩ := hI.sound.free_effect (hI.holds p sz hp) hfree
    have hroom := heffect.not_exhausted hI.sound hfits
    rcases hS'.alloc size.toNat with ⟨t, q, ht, _, _, hq, _⟩ | ⟨_, hex⟩
    · exact ⟨t, q, ht, hq⟩
    · rw [hsite.classOf] at hex
      exact absurd hex hroom
  · intro hsz hsize
    obtain ⟨i, blk', ring', rfl, hnext, hS', hi⟩ := hI.free_pages hp hsz hfree
    rw [Reuses, if_neg (Nat.not_lt.mpr hsz)] at hfits
    exact hS'.alloc_of_first hnext hi hsize hfits

theorem alloc_after_free_threePairs :
    ∃ st st', (slabSystem sevenPages).exec (slabSystem sevenPages).init threePairs = some st ∧
      step st (.free 16384) = some st' ∧
      ∃ t, ncxSlabAllocLocked st'.pool (5000 : UInt64).toNat = some (t, 16384) := by
  obtain ⟨st, hst, hlive, _⟩ := exec_threePairs
  have hreach := (slabSystem sevenPages).reachable_of_exec hst
  have hp : (16384, 8192) ∈ st.live := by
    rw [hlive]
    decide
  obtain ⟨st', hs⟩ := (alloc_free_enabled sevenPages_fits hreach).2 16384 8192 hp
  have hfits : Reuses st.pool 8192 (5000 : UInt64).toNat := by
    rw [Reuses, if_neg (by decide)]
    decide
  exact ⟨st, st', hst, hs, (alloc_after_free sevenPages_fits hreach hp hs hfits).2 (by decide)
    (by decide)⟩

end CcPof.Slab

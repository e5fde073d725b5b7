import CcPof.Slab.Clients

/-!
# The bytes that the allocator writes

`ncx_slab_alloc` and `ncx_slab_free` write to the page area only where no client has a byte: to the
bitmaps, and to pages that were free. What the clients hold keeps its contents.
-/

namespace CcPof.Slab

variable {s s' t : Pool} {N : Nat} {blk : Nat → Option Block} {ring : Ref → List Nat}
  {st st' : State} {a i j n p q sz shift : Nat} {full : Bool} {b : Block} {c : Class} {r x : Ref}
  {tag : Tag}

/-- The bytes at the front of a block that are no client's. -/
def Block.spare : Block → Nat
  | .free n => 4096 * n
  | .busy _ => 0
  | .slab shift _ => reserved shift <<< shift

/-- A byte of a free block or of the chunks of a bitmap. -/
def Spare (s : Pool) (blk : Nat → Option Block) (a : Nat) : Prop :=
  ∃ i b, blk i = some b ∧ s.addr i ≤ a ∧ a < s.addr i + b.spare

/-! ## 1. Spare bytes -/

theorem Sound.spare_le (hS : Sound s N blk ring) (hi : blk i = some b) : b.spare ≤ 4096 * b.len := by
  cases b with
  | free n => exact Nat.le_refl _
  | busy n => exact Nat.zero_le _
  | slab shift full =>
    have hb := hS.shift_bounds hi
    have hend := chunk_end hb.2 (reserved_lt hb.1 hb.2)
    have hpow := Nat.two_pow_pos shift
    rw [Block.spare, Block.len, Nat.shiftLeft_eq]
    omega

/-- A region that was given out has no spare byte. -/
theorem Sound.not_spare (hS : Sound s N blk ring) (hq : Holds s blk q c) (hlo : q ≤ a)
    (hhi : a < q + c.size) : ¬ Spare s blk a := by
  intro ⟨i, b, hi, hia, hai⟩
  obtain ⟨j, b', hj, hat⟩ := hq
  have hg := hS.geometry
  have hspare := hS.spare_le hi
  have hbounds := hS.at_bounds hj hat
  rw [hg.addr] at hia hai
  -- Both blocks have the byte.
  obtain rfl : i = j := hS.block_unique hi hj hia (by omega) (by omega) (by omega)
  rw [hi] at hj
  cases hj
  cases b with
  | free n => exact hat
  | busy n =>
    rw [Block.spare] at hai
    omega
  | slab shift full =>
    obtain ⟨rfl, k, _, hres, _, rfl⟩ := hat
    -- The chunks of the bitmap come before the chunk that was given out.
    have hmul : reserved shift * 2 ^ shift ≤ k * 2 ^ shift := Nat.mul_le_mul_right _ hres
    rw [Block.spare, Nat.shiftLeft_eq] at hai
    rw [hg.chunk_addr] at hlo
    omega

/-- Bytes that are written in the pages of one block, where they were spare. -/
theorem kept_of_changed (hi : blk i = some b)
    (hm : ChangedWithin (s.addr i) (s.addr i + b.spare) s.mem s'.mem) (ha : ¬ Spare s blk a) :
    s'.mem a = s.mem a := by
  apply hm
  -- A byte that has changed would be a spare one of this block.
  by_contra hin
  exact ha ⟨i, b, hi, by omega, by omega⟩

theorem Kept.mem (h : Kept s s' i n) : s'.mem = s.mem := by rw [h.1]

theorem Pool.SameButLinks.mem (h : s.SameButLinks s') : s'.mem = s.mem := by rw [h.1]

/-- A bit of a page is in the chunks of its bitmap, or in no byte at all. -/
theorem Sound.writeBit_changed (hS : Sound s N blk ring) (hi : blk i = some (.slab shift full))
    (hj : j < chunks shift) (v : Bool) :
    ChangedWithin (s.addr i) (s.addr i + (Block.slab shift full).spare) s.mem
      (s.writeBit i shift j v).mem := by
  have hb := hS.shift_bounds hi
  by_cases h6 : shift < 6
  · -- Small chunks have their bitmap in the page, the others in the descriptor.
    have hsmall := reserved_small hb.1 h6
    rw [Block.spare, Nat.shiftLeft_eq]
    exact (Pool.writeBit_changed hb.1 h6 hj).mono (Nat.le_refl _) (by omega)
  · rw [Pool.writeBit_mem (Nat.le_of_not_lt h6)]
    exact ChangedWithin.refl _ _ _

theorem takeBit_mem (h : s.takeBit i shift j = some s') :
    s'.mem = (s.writeBit i shift j true).mem := by
  rw [Pool.takeBit] at h
  split at h
  · exact (Pool.unlinkFull_same h).mem
  · cases h
    rfl

/-! ## 2. What a step does to the blocks -/

/-- The blocks after a request of class `c`. -/
inductive AllocEffect (blk : Nat → Option Block) : Class → (Nat → Option Block) → Prop
  | null (c : Class) : AllocEffect blk c blk
  | pages {i n len : Nat} (hi : blk i = some (.free len)) (hn : 0 < n) (hle : n ≤ len) :
      AllocEffect blk (.pages n) (carve blk i n len)
  | chunk {i shift : Nat} (full : Bool) (hi : blk i = some (.slab shift false)) :
      AllocEffect blk (.chunk shift) (Function.update blk i (some (.slab shift full)))
  | fresh {i len : Nat} (shift : Nat) (hi : blk i = some (.free len)) (hpos : 0 < len) :
      AllocEffect blk (.chunk shift)
        (Function.update (carve blk i 1 len) i (some (.slab shift false)))

/-- The blocks after an address was freed. -/
inductive FreeEffect (blk : Nat → Option Block) : Class → (Nat → Option Block) → Prop
  | pages {i n : Nat} (hi : blk i = some (.busy n)) :
      FreeEffect blk (.pages n) (Function.update blk i (some (.free n)))
  | chunk {i shift : Nat} {full : Bool} (hi : blk i = some (.slab shift full)) :
      FreeEffect blk (.chunk shift) (Function.update blk i (some (.slab shift false)))
  | last {i shift : Nat} {full : Bool} (hi : blk i = some (.slab shift full)) :
      FreeEffect blk (.chunk shift) (Function.update blk i (some (.free 1)))

theorem Sound.allocPages_mem (hS : Sound s N blk ring) (hn : 0 < n) {res : Option Nat}
    (h : ncxSlabAllocPages s n = some (s', res)) : s'.mem = s.mem := by
  have hg := hS.geometry
  have hfit := hg.fit
  have hbound := hg.bound
  rcases hS.links.allocPages (by omega) hn (by rw [hg.pagesize]; omega) with
    ⟨i, len, t, _, _, _, hkept, ht, _⟩ | ⟨_, ht⟩
  · rw [ht] at h
    cases h
    exact hkept.mem
  · rw [ht] at h
    cases h
    rfl

/-- The first chunk of a page that was free. -/
theorem Sound.fresh_effect (hS : Sound s N blk ring) (hmin : s.minShift ≤ shift) (h12 : shift < 12)
    (hempty : ∀ k, blk k ≠ some (.slab shift false)) {res : Option Nat}
    (hs : ncxSlabAllocPages s 1 = some (s', res)) :
    (res = none ∧ s' = s) ∨ ∃ i len ring', res = some i ∧ blk i = some (.free len) ∧ 0 < len ∧
      Sound (CcPof.Slab.freshSlab s' shift (shift - s.minShift) i).1 N
        (Function.update (carve blk i 1 len) i (some (.slab shift false))) ring' ∧
      ∀ a, ¬ Spare s blk a →
        (CcPof.Slab.freshSlab s' shift (shift - s.minShift) i).1.mem a = s.mem a := by
  have hmem := hS.allocPages_mem Nat.one_pos hs
  rcases hS.allocPages Nat.one_pos with
    ⟨i, len, s₁, ring₁, hi, hle, hs₁, hS₁, hsite₁, _⟩ | ⟨_, hs₁⟩
  · rw [hs₁] at hs
    cases hs
    have hself : carve blk i 1 len i = some (.busy 1) := carve_self Nat.one_pos
    -- The page comes to an empty slot.
    have hempty₁ : ∀ k, carve blk i 1 len k ≠ some (.slab shift false) :=
      fun k hk => hempty k (slab_of_carve Nat.one_pos hk)
    obtain ⟨s₂, ring₂, heq, hS₂, _⟩ := hS₁.freshSlab hself (hsite₁.minShift ▸ hmin) h12 hempty₁
    rw [hsite₁.minShift] at heq
    refine Or.inr ⟨i, len, ring₂, rfl, hi, hle, ?_, fun a ha => ?_⟩
    · rw [heq]
      exact hS₂
    · have h3 : 3 ≤ shift := Nat.le_trans hS.geometry.three_le hmin
      obtain ⟨t, w, hrun, _, hchanged, _⟩ :=
        freshSlab_spec hS₁.geometry h3 h12 (shift - s.minShift) i
      rw [hrun]
      -- The bitmap of the page is in what was a free block.
      have hend := chunk_end h12 (reserved_lt h3 h12)
      have hpow := Nat.two_pow_pos shift
      apply kept_of_changed hi _ ha
      rw [← hmem, ← hsite₁.addr]
      apply hchanged.mono (Nat.le_refl _)
      rw [Block.spare, Nat.shiftLeft_eq]
      omega
  · rw [hs₁] at hs
    cases hs
    exact Or.inl ⟨rfl, rfl⟩

theorem Sound.alloc_effect (hS : Sound s N blk ring) (h : ncxSlabAllocLocked s sz = some (s', p)) :
    ∃ blk' ring', AllocEffect blk (classOf s sz) blk' ∧ Sound s' N blk' ring' ∧
      ∀ a, ¬ Spare s blk a → s'.mem a = s.mem a := by
  have hg := hS.geometry
  rw [ncxSlabAllocLocked, hg.maxSize, hg.shift, hg.pagesize] at h
  by_cases hbig : 2048 ≤ sz
  · -- The size is rounded up to pages.
    have hpos : 0 < (sz >>> 12) + if sz % 4096 ≠ 0 then 1 else 0 := by
      rw [Nat.shiftRight_eq_div_pow]
      split <;> omega
    rw [if_pos hbig, Option.bind_eq_bind, Option.bind_eq_some_iff] at h
    obtain ⟨⟨t, res⟩, ht, h⟩ := h
    rw [classOf, if_pos hbig]
    have hmem := hS.allocPages_mem hpos ht
    rcases hS.allocPages hpos with ⟨i, len, t', ring', hi, hle, ht', hS', _⟩ | ⟨_, ht'⟩
    · rw [ht'] at ht
      cases ht
      cases h
      exact ⟨_, ring', .pages hi hpos hle, hS', fun a _ => congrFun hmem a⟩
    · rw [ht'] at ht
      cases ht
      cases h
      exact ⟨blk, ring, .null _, hS, fun _ _ => rfl⟩
  · have hreq := requestShift_spec hg (Nat.lt_of_not_le hbig)
    rw [if_neg hbig, Option.bind_eq_bind, Option.bind_eq_some_iff] at h
    obtain ⟨⟨t, res⟩, ht, h⟩ := h
    rw [classOf, if_neg hbig]
    rcases hS.searchSlot hreq.1 hreq.2.1 with ⟨hring, hs⟩ | ⟨i, j, r, _, hi, hj, hbit, hs⟩
    · -- No page of the slot has a free chunk.
      have hempty : ∀ k, blk k ≠ some (.slab (requestShift s sz) false) := by
        intro k hk
        have hmem := (hS.links.mem_ring _ k (hS.links.slot_header hk)).mpr ⟨_, hk, rfl⟩
        rw [hring] at hmem
        cases hmem
      rw [hs] at ht
      cases ht
      dsimp only at h
      rw [Option.bind_eq_some_iff] at h
      obtain ⟨⟨t, res⟩, ht, h⟩ := h
      rcases hS.fresh_effect hreq.1 hreq.2.1 hempty ht with
        ⟨rfl, rfl⟩ | ⟨i, len, ring', rfl, hi, hpos, hS', hmem⟩
      · cases h
        exact ⟨blk, ring, .null _, hS, fun _ _ => rfl⟩
      · have hfst : (CcPof.Slab.freshSlab t (requestShift s sz) (requestShift s sz - s.minShift) i).1 =
            s' := congrArg Prod.fst (Option.some.inj h)
        rw [hfst] at hS' hmem
        exact ⟨_, ring', .fresh _ hi hpos, hS', hmem⟩
    · rw [hs, Option.map_eq_some_iff] at ht
      obtain ⟨u, hu, heq⟩ := ht
      cases heq
      cases h
      -- A bit of a page in the slot is set.
      obtain ⟨v, ring', full', hv, hS', _⟩ := hS.takeBit hi hj hbit
      rw [hu] at hv
      cases hv
      refine ⟨_, ring', .chunk full' hi, hS', fun a ha => ?_⟩
      rw [takeBit_mem hu]
      exact kept_of_changed hi (hS.writeBit_changed hi hj true) ha

theorem unlink_mem (h : s.unlink i = some s') : s'.mem = s.mem := by
  simp only [Pool.unlink, Option.bind_eq_bind, Option.bind_eq_some_iff] at h
  obtain ⟨s₁, h₁, h₂⟩ := h
  exact (Pool.setPrev_same h₂).mem.trans (Pool.setNext_same h₁).mem

theorem push_mem (h : s.push i = some s') : s'.mem = s.mem := by
  simp only [Pool.push, Option.bind_eq_bind, Option.bind_eq_some_iff] at h
  obtain ⟨s₁, h₁, h₂⟩ := h
  exact (Pool.setNext_same h₂).mem.trans (Pool.setPrev_same h₁).mem

theorem ncxSlabFreePages_mem (h : ncxSlabFreePages s i n = some s') : s'.mem = s.mem := by
  by_cases hn : n = 0
  · rw [ncxSlabFreePages, if_pos hn] at h
    cases h
  · rw [ncxSlabFreePages_eq hn, Option.bind_eq_some_iff] at h
    obtain ⟨t, ht, h⟩ := h
    rw [push_mem h]
    have hclear : (s.clear i n).mem = s.mem := by rw [Pool.clear_frame]
    split at ht
    · exact (unlink_mem ht).trans hclear
    · cases ht
      exact hclear

/-- A page goes back to its list before the bit is cleared, or to the free list after. -/
theorem releaseBit_mem (h : s.releaseBit i shift j full = some s') :
    s'.mem = (s.writeBit i shift j false).mem := by
  rw [Pool.releaseBit, Option.bind_eq_some_iff] at h
  obtain ⟨t, ht, h⟩ := h
  -- Linking the page again writes no byte of a page.
  have hsame : s.SameButLinks t := by
    cases full with
    | true => exact Pool.relink_same ht
    | false =>
      cases ht
      exact ⟨rfl, fun _ => rfl⟩
  rw [← (hsame.writeBit i shift j false).mem]
  dsimp only at h
  split at h
  · cases h
    rfl
  · exact ncxSlabFreePages_mem h

theorem Sound.free_effect (hS : Sound s N blk ring) (hp : Holds s blk p c)
    (h : ncxSlabFreeLocked s p = some s') :
    ∃ blk' ring', FreeEffect blk c blk' ∧ Sound s' N blk' ring' ∧
      ∀ a, ¬ Spare s blk a → s'.mem a = s.mem a := by
  obtain ⟨i, b, hi, hp⟩ := hp
  have hbound := hS.links.bound i b hi
  cases b with
  | free n => exact hp.elim
  | busy n =>
    obtain ⟨rfl, rfl⟩ := hp
    obtain ⟨t, ring', ht, hS', _⟩ := hS.freeBusy hi
    rw [h] at ht
    cases ht
    rw [hS.free_busy hi] at h
    exact ⟨_, ring', .pages hi, hS', fun a _ => congrFun (ncxSlabFreePages_mem h) a⟩
  | slab shift full =>
    obtain ⟨rfl, j, hj, hres, hset, rfl⟩ := hp
    have hb := hS.shift_bounds hi
    have hend := chunk_end hb.2 hj
    have hpow := Nat.two_pow_pos shift
    have hoff : j <<< shift < 4096 := by
      rw [Nat.shiftLeft_eq]
      omega
    -- The address is that of a chunk whose bit is set, so neither error is logged.
    have hrel : s.releaseBit i shift j full = some s' := by
      rw [hS.free_slab hi hoff, Nat.shiftLeft_eq, Nat.mul_mod_left, Nat.mul_div_cancel _ hpow,
        if_pos ⟨rfl, hset⟩] at h
      exact h
    have hmem : ∀ a, ¬ Spare s blk a → s'.mem a = s.mem a := by
      intro a ha
      rw [releaseBit_mem hrel]
      exact kept_of_changed hi (hS.writeBit_changed hi hj false) ha
    obtain ⟨t, ring', b, ht, hS', _, _, hcase⟩ := hS.releaseBit hi hj hres
    rw [hrel] at ht
    cases ht
    -- The page keeps other chunks, or it was the last one.
    rcases hcase with ⟨rfl, _⟩ | ⟨rfl, _⟩
    · exact ⟨_, ring', .chunk hi, hS', hmem⟩
    · exact ⟨_, ring', .last hi, hS', hmem⟩

end CcPof.Slab

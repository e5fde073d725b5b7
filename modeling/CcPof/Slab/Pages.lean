import CcPof.Slab.Assign
import Mathlib.Data.List.Perm.Subperm

/-!
# The list operations of the allocator

Each of them succeeds on a pool whose lists are in order, and leaves a pool whose lists are.
-/

namespace CcPof.Slab

variable {s s' : Pool} {N : Nat} {blk : Nat → Option Block} {ring : Ref → List Nat}
  {h : Ref} {i j n shift : Nat} {tag : Tag} {b : Block}

/-- Only descriptors were written, and no slab word outside the `n` pages from `i` on. -/
def Kept (s s' : Pool) (i n : Nat) : Prop :=
  s' = { s with desc := s'.desc } ∧ ∀ j, j < i ∨ i + n ≤ j → s'.slab (.page j) = s.slab (.page j)

theorem Pool.SameButLinks.kept (hs : s.SameButLinks s') (i n : Nat) : Kept s s' i n :=
  ⟨hs.1, fun _ _ => hs.2 _⟩

theorem Kept.trans {t : Pool} (hs : Kept s s' i n) (ht : Kept s' t i n) : Kept s t i n := by
  refine ⟨?_, fun j hj => (ht.2 j hj).trans (hs.2 j hj)⟩
  rw [ht.1, hs.1]

theorem outside_iff : Outside i n (.page j) ↔ j < i ∨ i + n ≤ j :=
  ⟨fun hx => hx j rfl, fun hj _ heq => Ref.page.inj heq ▸ hj⟩

theorem Outside.ne_page {x : Ref} (hx : Outside i n x) (hn : 0 < n) : x ≠ .page i := by
  rintro rfl
  have hout := hx i rfl
  omega

theorem Unlinked.congr {t : Pool} (hu : Unlinked s s' i n) (hmin : t.minShift = s'.minShift)
    (hout : ∀ x, Outside i n x → t.desc x = s'.desc x) : Unlinked s t i n where
  minShift := hmin.trans hu.minShift
  next x hx := by rw [← hu.next x hx, Pool.next, hout x hx]
  prev x hx := by rw [← hu.prev x hx, Pool.prev, hout x hx]
  tag x hx := by rw [← hu.tag x hx, Pool.tag, hout x hx]
  slab x hx := by rw [← hu.slab x hx, Pool.slab, hout x hx]

/-- What was in the pages of the block before does not matter. -/
theorem Pool.Linked.pushed {t : Pool} (hl : s.Linked s' h i tag) (hh : t.IsHeader h) (hn : 0 < n)
    (hmin : s.minShift = t.minShift) (hout : ∀ x, Outside i n x → s.desc x = t.desc x)
    (hfirst : t.next h ≠ .page i) : Pushed t s' h i n := by
  have hne : h ≠ .page i := hh.ne_page i
  have hnext : s.next h = t.next h := by rw [Pool.next, hout h hh.outside]
  refine ⟨?_, ?_, ⟨?_, ?_⟩, ?_, ?_, ?_, ?_⟩
  · rw [hl.same.1, ← hmin]
  · rw [hl.next, if_pos rfl]
  · rw [hl.next, if_neg hne.symm, if_pos rfl, hnext]
  · rw [hl.prev, hnext, if_neg hfirst.symm, if_pos rfl]
  · intro x hx hxout
    rw [hl.next, if_neg hx, if_neg (hxout.ne_page hn), Pool.next, hout x hxout]
  · intro x hx hxout
    rw [hl.prev, if_neg (hxout.ne_page hn), Pool.prev, hout x hxout, hnext]
  · intro x hx hxout
    have hself : s'.tag (.page i) = tag := by
      rw [hl.tag, if_pos rfl]
      exact ite_self _
    rw [hl.tag, if_neg (hxout.ne_page hn), Pool.tag, hout x hxout, hnext, hself]
  · intro x hx hxout
    rw [hl.same.2, Pool.slab, hout x hxout]

namespace Links

theorem slot_header (hL : Links s N blk ring) {full : Bool}
    (hi : blk i = some (.slab shift full)) : s.IsHeader (.slot (shift - s.minShift)) := by
  have hd := hL.desc i _ hi
  have hle : s.minShift ≤ shift := hd.1
  have hlt : shift < 12 := hd.2.1
  exact Or.inr ⟨_, rfl, by omega⟩

/-- A page that is in the list of a slot. -/
theorem slab_of_mem (hL : Links s N blk ring) (hmin : s.minShift ≤ shift)
    (hi : i ∈ ring (.slot (shift - s.minShift))) (h12 : shift < 12) :
    blk i = some (.slab shift false) := by
  have hh : s.IsHeader (.slot (shift - s.minShift)) := Or.inr ⟨_, rfl, by omega⟩
  rcases (hL.mem_ring _ i hh).mp hi with ⟨b, hb, hhome⟩
  rcases b with m | m | ⟨shift', full'⟩
  · cases hhome
  · cases hhome
  · cases full' with
    | true => cases hhome
    | false =>
      have hslot : shift' - s.minShift = shift - s.minShift := Ref.slot.inj (Option.some.inj hhome)
      have hle : s.minShift ≤ shift' := (hL.desc i _ hb).1
      have heq : shift' = shift := by omega
      rw [hb, heq]

/-- A free block records its length, which fits in a word. -/
theorem slab_free {len : Nat} (hL : Links s N blk ring) (hN : N < 2 ^ 64)
    (hi : blk i = some (.free len)) : (s.slab (.page i)).toNat = len := by
  have hbound : i + len ≤ N := hL.bound i _ hi
  rw [(hL.desc i _ hi).1, BitVec.toNat_ofNat, Nat.mod_eq_of_lt (by omega)]

/-- A page leaves its list, also after its block was written to. -/
theorem unlink (hL : Links s N blk ring) (hh : s.IsHeader h) (hi : i ∈ ring h) {t : Pool}
    (hmin : t.minShift = s.minShift) (hout : ∀ x, Outside i n x → t.desc x = s.desc x)
    (hself : t.next (.page i) = s.next (.page i) ∧ t.prev (.page i) = s.prev (.page i) ∧
      t.tag (.page i) = s.tag (.page i)) :
    ∃ s', t.unlink i = some s' ∧ t.SameButLinks s' ∧ Unlinked s s' i n ∧
      ∀ j, j ∉ ring h → s'.desc (.page j) = t.desc (.page j) := by
  have hnear := hL.neighbours hh hi
  rcases Pool.unlink_spec (s := t) (hself.2.1.symm ▸ hnear.1) (hself.1.symm ▸ hnear.2.1)
    (hself.2.1.symm ▸ hnear.2.2) with ⟨s', hs', hsame, hnext, hprev, htag⟩
  rw [hself.1, hself.2.1] at hnext hprev
  rw [hself.1, hself.2.2] at htag
  refine ⟨s', hs', hsame, ⟨?_, ?_, ?_, ?_, ?_⟩, ?_⟩
  · rw [hsame.1, ← hmin]
  · intro x hx
    have hx' : t.next x = s.next x := congrArg SlabPage.next (hout x hx)
    rw [hnext x, hx']
  · intro x hx
    have hx' : t.prev x = s.prev x := congrArg SlabPage.prev (hout x hx)
    rw [hprev x, hx']
  · intro x hx
    have hx' : t.tag x = s.tag x := congrArg SlabPage.tag (hout x hx)
    rw [htag x, hx']
  · intro x hx
    rw [hsame.2 x, Pool.slab, hout x hx]
  · intro j hj
    -- Only the neighbours of the page are relinked.
    have hne := hL.neighbours_ne hh hi (hh.ne_page j).symm fun k hk => Ref.page.inj hk ▸ hj
    apply SlabPage.ext
    · exact hsame.2 _
    · exact (hnext _).trans (if_neg hne.2)
    · exact (hprev _).trans (if_neg hne.1)
    · exact (htag _).trans (if_neg hne.1)

/-- The pages of a block that left its list become an allocation. -/
theorem leave_busy (hL : Links s N blk ring) (hh : s.IsHeader h) (hi : blk i = some b)
    (hhome : b.home s.minShift = some h) (hpos : 0 < b.len) (hu : Unlinked s s' i b.len) :
    ∃ ring', Links (s'.occupy i b.len) N (Function.update blk i (some (.busy b.len))) ring' := by
  refine ⟨_, hL.leave hh hi hhome hpos (by rfl) rfl (s'.occupy_descOk i b.len) (hu.congr ?_ ?_)⟩
  · rw [Pool.occupy_frame]
  · exact fun x hx => Pool.occupy_of_outside hpos hx

/-- The last chunk of a page was taken. -/
theorem unlinkFull (hL : Links s N blk ring) (hi : blk i = some (.slab shift false)) :
    ∃ s' ring', s.unlinkFull i (tagOf shift) = some s' ∧ s.SameButLinks s' ∧
      Links s' N (Function.update blk i (some (.slab shift true))) ring' := by
  have hh := hL.slot_header hi
  have hmem : i ∈ ring _ := (hL.mem_ring _ i hh).mpr ⟨_, hi, rfl⟩
  rcases hL.unlink (n := 1) hh hmem rfl (fun _ _ => rfl) ⟨rfl, rfl, rfl⟩ with
    ⟨s₁, h₁, hsame, hu, -⟩
  let s₂ := s₁.modify (.page i) fun d => { d with next := .null, prev := .null, tag := tagOf shift }
  have hself : s₂.desc (.page i) = ⟨s₁.slab (.page i), .null, .null, tagOf shift⟩ :=
    Pool.desc_modify_self ..
  have hsame₂ : s₁.SameButLinks s₂ := by
    refine ⟨rfl, fun x => ?_⟩
    by_cases hx : x = .page i
    · rw [hx, Pool.slab, hself]
    · rw [Pool.slab, Pool.desc_modify_of_ne hx]
  have hu₂ : Unlinked s s₂ i 1 :=
    hu.congr rfl fun x hx => Pool.desc_modify_of_ne (hx.ne_page Nat.one_pos) ..
  have hold := hL.desc i _ hi
  refine ⟨s₂, _, ?_, hsame.trans hsame₂,
    hL.leave hh hi rfl Nat.one_pos (c := .slab shift true) rfl rfl ?_ hu₂⟩
  · rw [Pool.unlinkFull, h₁]
    rfl
  · refine ⟨hu₂.minShift ▸ hold.1, hold.2.1, ?_, fun _ => ⟨?_, ?_⟩⟩
    · rw [Pool.tag, hself]
    · rw [Pool.next, hself]
    · rw [Pool.prev, hself]

theorem first_ne (hL : Links s N blk ring) (hh : s.IsHeader h) (hi : i ∉ ring h) :
    s.next h ≠ .page i ∧ s.next h ≠ .null := by
  rcases hL.first_cases hh with ⟨heq, -⟩ | ⟨j, r, hring, heq⟩ <;> rw [heq]
  · exact ⟨hh.ne_page i, hh.ne_null⟩
  · refine ⟨?_, nofun⟩
    rintro hji
    cases hji
    exact hi (hring ▸ List.mem_cons_self)

theorem not_mem_ring (hL : Links s N blk ring) (hh : s.IsHeader h) (hi : blk i = some b)
    (hhome : b.home s.minShift ≠ some h) : i ∉ ring h := by
  intro hmem
  exact hhome (hL.home_of_mem hh hi hmem)

/-- A chunk of a full page was freed. -/
theorem relink (hL : Links s N blk ring) (hi : blk i = some (.slab shift true)) :
    ∃ s' ring', s.relink i (shift - s.minShift) (tagOf shift) = some s' ∧ s.SameButLinks s' ∧
      Links s' N (Function.update blk i (some (.slab shift false))) ring' := by
  have hh := hL.slot_header hi
  have hfirst := hL.first_ne hh (hL.not_mem_ring hh hi (h := .slot (shift - s.minShift)) nofun)
  obtain ⟨s', hs', hl⟩ : ∃ s', s.relink i (shift - s.minShift) (tagOf shift) = some s' ∧
      s.Linked s' (.slot (shift - s.minShift)) i (tagOf shift) := Pool.relink_spec hfirst.2
  have hp := hl.pushed hh Nat.one_pos rfl (fun _ _ => rfl) hfirst.1
  have hold := hL.desc i _ hi
  refine ⟨s', _, hs', hl.same, hL.enter hh hi rfl Nat.one_pos (c := .slab shift false) rfl rfl ?_ hp⟩
  refine ⟨hp.minShift ▸ hold.1, hold.2.1, ?_, nofun⟩
  rw [hl.tag, if_neg hfirst.1.symm, if_pos rfl]

/-- A page that was just allocated is the first of an empty list. -/
theorem linkFresh {w : Word} (hL : Links s N blk ring) (hi : blk i = some (.busy 1))
    (hmin : s.minShift ≤ shift) (hshift : shift < 12)
    (hempty : s.next (.slot (shift - s.minShift)) = .slot (shift - s.minShift)) :
    ∃ ring', Links (s.linkFresh i (shift - s.minShift) w (tagOf shift)) N
      (Function.update blk i (some (.slab shift false))) ring' := by
  have hh : s.IsHeader (.slot (shift - s.minShift)) := Or.inr ⟨_, rfl, by omega⟩
  have hother : ∀ x, x ≠ .slot (shift - s.minShift) → Outside i 1 x →
      (s.linkFresh i (shift - s.minShift) w (tagOf shift)).desc x = s.desc x :=
    fun x hx hxout => Pool.linkFresh_of_ne hx (hxout.ne_page Nat.one_pos) ..
  refine ⟨_, hL.enter hh hi rfl Nat.one_pos (c := .slab shift false) rfl rfl ?_ ?_⟩
  · refine ⟨hmin, hshift, ?_, nofun⟩
    rw [Pool.tag, Pool.linkFresh_page]
  · refine ⟨rfl, Pool.linkFresh_slot .., ⟨?_, ?_⟩, ?_, ?_, ?_, ?_⟩
    · rw [Pool.next, Pool.linkFresh_page, hempty]
    · rw [Pool.prev, Pool.linkFresh_page]
    · intro x hx hxout
      rw [Pool.next, hother x hx hxout]
    · intro x hx hxout
      rw [hempty, if_neg hx, Pool.prev, hother x hx hxout]
    · intro x hx hxout
      rw [hempty, if_neg hx, Pool.tag, hother x hx hxout]
    · intro x hx hxout
      rw [Pool.slab, hother x hx hxout]

/-- Where the block was an allocation, or is made one in passing, it ends up as a free block. -/
theorem pushFree {t : Pool} (ht : Links t N blk ring) (hi : blk i = some (.busy n)) (hn : 0 < n)
    (hmin : s.minShift = t.minShift) (hout : ∀ x, Outside i n x → s.desc x = t.desc x)
    (hslab : s.slab (.page i) = BitVec.ofNat 64 n)
    (hin : ∀ j, i < j → j < i + n → s.desc (.page j) = zeroPage) :
    ∃ s' ring', s.push i = some s' ∧ s.SameButLinks s' ∧
      Links s' N (Function.update blk i (some (.free n))) ring' := by
  have hh : t.IsHeader .free := Or.inl rfl
  have hmem : i ∉ ring .free := ht.not_mem_ring hh hi (by simp [Block.home])
  have hfirst := ht.first_ne hh hmem
  have hnext : s.next .free = t.next .free := by rw [Pool.next, hout _ hh.outside]
  rcases Pool.push_spec (s := s) (i := i) (hnext ▸ hfirst.2) with ⟨s', hs', hl⟩
  refine ⟨s', _, hs', hl.same, ht.enter hh hi rfl hn (c := .free n) rfl rfl ?_
    (hl.pushed hh hn hmin hout hfirst.1)⟩
  refine ⟨(hl.same.2 _).trans hslab, ?_, ?_⟩
  · rw [hl.tag, if_pos rfl]
    exact ite_self _
  · -- The pages behind the first are in no list.
    intro j hij hj
    have hne : Ref.page j ≠ .page i := fun heq => absurd (Ref.page.inj heq) (by omega)
    have hfree : Ref.page j ≠ s.next .free := by
      rw [hnext]
      exact (ht.first_ne hh (ht.inner_not_mem hh hi hij hj)).1.symm
    rw [← hin j hij hj]
    apply SlabPage.ext
    · exact hl.same.2 _
    · exact (hl.next _).trans ((if_neg (by simp)).trans (if_neg hne))
    · exact (hl.prev _).trans ((if_neg hfree).trans (if_neg hne))
    · exact (hl.tag _).trans ((if_neg hfree).trans (if_neg hne))

/-- `ncx_slab_free_pages` on an allocation, on a page of chunks that is in its list, or on a free
block. -/
theorem freePages (hL : Links s N blk ring) (hi : blk i = some b) (hpos : 0 < b.len)
    (hb : b = .busy b.len ∨ ∃ h, s.IsHeader h ∧ b.home s.minShift = some h) :
    ∃ s' ring', ncxSlabFreePages s i b.len = some s' ∧ Kept s s' i b.len ∧
      Links s' N (Function.update blk i (some (.free b.len))) ring' := by
  let s₀ := s.clear i b.len
  have hframe₀ : s₀ = { s with desc := s₀.desc } := Pool.clear_frame ..
  have hmin₀ : s₀.minShift = s.minShift := by rw [hframe₀]
  have hout₀ : ∀ x, Outside i b.len x → s₀.desc x = s.desc x :=
    fun x hx => Pool.clear_of_outside hpos hx
  have hin₀ : ∀ j, i < j → j < i + b.len → s₀.desc (.page j) = zeroPage :=
    fun j hij hj => Pool.clear_inner hij hj
  have hslab₀ : s₀.slab (.page i) = BitVec.ofNat 64 b.len := by rw [Pool.slab, Pool.clear_head]
  have hkept₀ : Kept s s₀ i b.len := by
    refine ⟨hframe₀, fun j hj => ?_⟩
    rw [Pool.slab, hout₀ _ (outside_iff.mpr hj)]
  rw [ncxSlabFreePages_eq hpos.ne']
  -- The code unlinks the block only when its descriptor says that it is in a list.
  rcases hb with hbusy | ⟨h, hh, hhome⟩
  · have hnext : s.next (.page i) = .null := by
      have hd := hL.desc i _ (hi.trans (congrArg some hbusy))
      rw [Pool.next, hd.1]
    rcases hL.pushFree (s := s₀) (hi.trans (congrArg some hbusy)) hpos
      hmin₀ hout₀ hslab₀ hin₀ with ⟨s', ring', hs', hsame, hlinks⟩
    refine ⟨s', ring', ?_, hkept₀.trans (hsame.kept i b.len), hlinks⟩
    rw [if_neg (not_not.mpr hnext)]
    exact hs'
  · have hmem : i ∈ ring h := (hL.mem_ring h i hh).mpr ⟨b, hi, hhome⟩
    have hself₀ : s₀.desc (.page i) = { s.desc (.page i) with slab := BitVec.ofNat 64 b.len } :=
      Pool.clear_head ..
    rcases hL.unlink (n := b.len) hh hmem hmin₀ hout₀ ⟨by rw [Pool.next, hself₀],
      by rw [Pool.prev, hself₀], by rw [Pool.tag, hself₀]⟩ with ⟨s₁, h₁, hsame₁, hu, hrest⟩
    rcases hL.leave_busy hh hi hhome hpos hu with ⟨ring₁, hlinks₁⟩
    rcases hlinks₁.pushFree (s := s₁) (Function.update_self ..) hpos (by rw [Pool.occupy_frame])
      (fun x hx => (Pool.occupy_of_outside hpos hx).symm) ((hsame₁.2 _).trans hslab₀) (by
        intro j hij hj
        rw [hrest j (hL.inner_not_mem hh hi hij hj), hin₀ j hij hj]) with ⟨s', ring', hs', hsame', hlinks⟩
    rw [Function.update_idem] at hlinks
    refine ⟨s', ring', ?_, (hkept₀.trans (hsame₁.kept i b.len)).trans (hsame'.kept i b.len), hlinks⟩
    rw [if_pos (hL.neighbours hh hmem).2.1, h₁]
    exact hs'

/-- The tail of a free block takes its place in the list. -/
theorem splitFree {k : Nat} (hL : Links s N blk ring) (hi : blk i = some (.free (n + k)))
    (hn : 0 < n) (hk : 0 < k) :
    ∃ s₁ s₂ ring', (s.modify (.page (i + n)) fun _ =>
        ⟨BitVec.ofNat 64 k, s.next (.page i), s.prev (.page i), .page⟩).setNext (s.prev (.page i))
          (.page (i + n)) = some s₁ ∧
      s₁.setPrev (s.next (.page i)) (.page (i + n)) .page = some s₂ ∧
      Kept s (s₂.occupy i n) i (n + k) ∧
      Links (s₂.occupy i n) N
        (Function.update (Function.update blk i (some (.busy n))) (i + n) (some (.free k))) ring' := by
  have hh : s.IsHeader .free := Or.inl rfl
  have hmem : i ∈ ring .free := (hL.mem_ring _ i hh).mpr ⟨_, hi, rfl⟩
  have hnear := hL.neighbours hh hmem
  have hd := hL.desc i _ hi
  let s₀ := s.modify (.page (i + n)) fun _ =>
    ⟨BitVec.ofNat 64 k, s.next (.page i), s.prev (.page i), .page⟩
  have hself₀ : s₀.desc (.page (i + n)) =
      ⟨BitVec.ofNat 64 k, s.next (.page i), s.prev (.page i), .page⟩ := Pool.desc_modify_self ..
  have hout₀ : ∀ x, x ≠ .page (i + n) → s₀.desc x = s.desc x :=
    fun x hx => Pool.desc_modify_of_ne hx ..
  rcases Pool.setNext_spec (s := s₀) hnear.1 (.page (i + n)) with
    ⟨s₁, h₁, hsame₁, hnext₁, hprev₁, htag₁⟩
  rcases Pool.setPrev_spec (s := s₁) hnear.2.1 (.page (i + n)) .page with
    ⟨s₂, h₂, hsame₂, hnext₂, hprev₂, htag₂⟩
  have hsame : s₀.SameButLinks s₂ := hsame₁.trans hsame₂
  -- The neighbours are not inside the block.
  have hinner : ∀ j, i < j → j < i + (n + k) →
      Ref.page j ≠ s.next (.page i) ∧ Ref.page j ≠ s.prev (.page i) :=
    fun j hij hj => hL.neighbours_ne hh hmem nofun
      fun k hk => Ref.page.inj hk ▸ hL.inner_not_mem hh hi hij hj
  have hocc : ∀ x, Outside i n x → (s₂.occupy i n).desc x = s₂.desc x :=
    fun x hx => Pool.occupy_of_outside hn hx
  have hfields : ∀ x, x ≠ s.prev (.page i) → x ≠ s.next (.page i) → s₂.desc x = s₀.desc x := by
    intro x hxprev hxnext
    apply SlabPage.ext
    · exact hsame.2 x
    · exact (hnext₂ x).trans ((hnext₁ x).trans (if_neg hxprev))
    · exact (hprev₂ x).trans ((if_neg hxnext).trans (hprev₁ x))
    · exact (htag₂ x).trans ((if_neg hxnext).trans (htag₁ x))
  have htail : (s₂.occupy i n).desc (.page (i + n)) =
      ⟨BitVec.ofNat 64 k, s.next (.page i), s.prev (.page i), .page⟩ := by
    have hne := hinner (i + n) (by omega) (by omega)
    rw [hocc _ (outside_iff.mpr (by omega)), hfields _ hne.2 hne.1, hself₀]
  have hout : ∀ x, Outside i (n + k) x → Outside i n x ∧ s₀.desc x = s.desc x := by
    intro x hx
    refine ⟨fun j hj => ?_, hout₀ x ?_⟩
    · have hxj := hx j hj
      omega
    · rintro rfl
      have hxj := hx _ rfl
      omega
  have hrep : Replaced s (s₂.occupy i n) i n (n + k) := by
    refine ⟨?_, ⟨?_, ?_⟩, ?_, ?_, ?_, ?_⟩
    · rw [Pool.occupy_frame, hsame.1]
      rfl
    · rw [Pool.next, htail]
    · rw [Pool.prev, htail]
    · intro x hx
      have hx₀ : s₀.next x = s.next x := congrArg SlabPage.next (hout x hx).2
      rw [Pool.next, hocc x (hout x hx).1, ← hx₀]
      exact (hnext₂ x).trans (hnext₁ x)
    · intro x hx
      have hx₀ : s₀.prev x = s.prev x := congrArg SlabPage.prev (hout x hx).2
      rw [Pool.prev, hocc x (hout x hx).1, ← hx₀, ← hprev₁]
      exact hprev₂ x
    · intro x hx
      have hx₀ : s₀.tag x = s.tag x := congrArg SlabPage.tag (hout x hx).2
      rw [Pool.tag, hocc x (hout x hx).1, ← hx₀, ← htag₁, hd.tag_eq]
      exact htag₂ x
    · intro x hx
      have hx₀ : s₀.slab x = s.slab x := congrArg SlabPage.slab (hout x hx).2
      rw [Pool.slab, hocc x (hout x hx).1, ← hx₀]
      exact hsame.2 x
  have hfree : DescOk (s₂.occupy i n) (i + n) (.free k) := by
    refine ⟨?_, ?_, fun j hij hj => ?_⟩
    · rw [Pool.slab, htail]
    · rw [Pool.tag, htail]
    · have hne := hinner j (by omega) (by omega)
      rw [hocc _ (outside_iff.mpr (by omega)), hfields _ hne.2 hne.1,
        hout₀ _ (fun heq => absurd (Ref.page.inj heq) (by omega))]
      exact hd.2.2 j (by omega) (by omega)
  rcases hL.split hi hn hk (s₂.occupy_descOk i n) hfree hrep with ⟨ring', hlinks⟩
  refine ⟨s₁, s₂, ring', h₁, h₂, ⟨?_, fun j hj => hrep.slab _ (outside_iff.mpr hj)⟩, hlinks⟩
  rw [Pool.occupy_frame, hsame.1]
  rfl

end Links

/-- The blocks after the first `n` pages of the free block at `i` were allocated. -/
def carve (blk : Nat → Option Block) (i n len : Nat) : Nat → Option Block :=
  let blk' := Function.update blk i (some (.busy n))
  if n < len then Function.update blk' (i + n) (some (.free (len - n))) else blk'

theorem carve_eq {len : Nat} (hn : 0 < n) (j : Nat) :
    carve blk i n len j = if j = i then some (.busy n)
      else if n < len ∧ j = i + n then some (.free (len - n)) else blk j := by
  rw [carve]
  by_cases hlt : n < len
  · rw [if_pos hlt]
    by_cases hjn : j = i + n
    · rw [hjn, Function.update_self, if_neg (by omega), if_pos ⟨hlt, rfl⟩]
    · rw [Function.update_of_ne hjn]
      by_cases hji : j = i
      · rw [hji, Function.update_self, if_pos rfl]
      · rw [Function.update_of_ne hji, if_neg hji, if_neg (fun hboth => hjn hboth.2)]
  · rw [if_neg hlt]
    by_cases hji : j = i
    · rw [hji, Function.update_self, if_pos rfl]
    · rw [Function.update_of_ne hji, if_neg hji, if_neg (fun hboth => hlt hboth.1)]

theorem carve_self {len : Nat} (hn : 0 < n) : carve blk i n len i = some (.busy n) := by
  rw [carve_eq hn, if_pos rfl]

theorem slab_of_carve {len : Nat} {full : Bool} (hn : 0 < n)
    (hj : carve blk i n len j = some (.slab shift full)) : blk j = some (.slab shift full) := by
  rw [carve_eq hn] at hj
  split at hj
  · cases hj
  · split at hj
    · cases hj
    · exact hj

namespace Links

/-- What is left of a free block is free, and the other blocks are not touched. -/
theorem carve_iff {len : Nat} (hL : Links s N blk ring) (hi : blk i = some (.free len))
    (hn : 0 < n) (hji : j ≠ i) (hb : ∀ m, b ≠ .free m) :
    carve blk i n len j = some b ↔ blk j = some b := by
  rw [carve_eq hn, if_neg hji]
  split
  · rename_i hjn
    constructor
    · intro hj
      cases hj
      exact absurd rfl (hb _)
    · intro hj
      rw [hjn.2, hL.apart i _ (i + n) hi (by omega) (by rw [Block.len]; omega)] at hj
      cases hj
  · exact Iff.rfl

theorem allocHere {len : Nat} (hL : Links s N blk ring) (hN : N < 2 ^ 64)
    (hi : blk i = some (.free len)) (hn : 0 < n) (hle : n ≤ len) (fuel : Nat) :
    ∃ s' ring', allocPagesFrom s n (fuel + 1) (.page i) = some (s', some i) ∧ Kept s s' i len ∧
      Links s' N (carve blk i n len) ring' := by
  have hh : s.IsHeader .free := Or.inl rfl
  have hmem : i ∈ ring .free := (hL.mem_ring _ i hh).mpr ⟨_, hi, rfl⟩
  have hd := hL.desc i _ hi
  have hslab := hL.slab_free hN hi
  have htag : (s.desc (.page i)).tag = .page := hd.2.1
  rw [allocPagesFrom]
  dsimp only
  rw [if_pos (by rw [hslab]; exact hle), if_neg (not_not.mpr htag)]
  -- A longer block is split, and its tail keeps its place; one of the exact length is unlinked.
  by_cases hlt : n < len
  · rw [if_pos (by rw [hslab]; exact hlt), hslab, htag, carve, if_pos hlt]
    obtain ⟨k, rfl⟩ : ∃ k, len = n + k := ⟨len - n, by omega⟩
    rw [Nat.add_sub_cancel_left]
    rcases hL.splitFree hi hn (by omega) with ⟨s₁, s₂, ring', h₁, h₂, hkept, hlinks⟩
    refine ⟨s₂.occupy i n, ring', ?_, hkept, hlinks⟩
    simp only [Option.bind_eq_bind]
    rw [h₁, Option.bind_some, h₂]
    rfl
  · obtain rfl : n = len := by omega
    rw [if_neg (by rw [hslab]; exact hlt), carve, if_neg hlt]
    rcases hL.unlink (n := n) hh hmem rfl (fun _ _ => rfl) ⟨rfl, rfl, rfl⟩ with
      ⟨s₁, h₁, hsame, hu, -⟩
    rcases hL.leave_busy hh hi rfl hn hu with ⟨ring', hlinks⟩
    refine ⟨s₁.occupy i n, ring', ?_, ?_, hlinks⟩
    · rw [Pool.unlink_once (hL.neighbours hh hmem).2.2] at h₁
      rw [Option.bind_eq_some_iff] at h₁
      rcases h₁ with ⟨s₀, h₀, h₁⟩
      simp only [Option.bind_eq_bind]
      rw [h₀, Option.bind_some, h₁]
      rfl
    · refine ⟨?_, fun j hj => ?_⟩
      · rw [Pool.occupy_frame, hsame.1]
      · rw [Pool.slab, Pool.occupy_of_outside hn (outside_iff.mpr hj)]
        exact hsame.2 _

/-- The search takes the first block that is long enough. -/
theorem allocPagesFrom_spec (hL : Links s N blk ring) (hN : N < 2 ^ 64) (hn : 0 < n)
    (r : List Nat) (fuel : Nat) (l : List Nat) (hring : ring .free = l ++ r)
    (hfuel : r.length < fuel) :
    (∃ i len s' ring', blk i = some (.free len) ∧ n ≤ len ∧ Kept s s' i len ∧
      allocPagesFrom s n fuel (frontPtr id (r.map .page) .free) = some (s', some i) ∧
      Links s' N (carve blk i n len) ring') ∨
    ((∀ i ∈ r, ∀ len, blk i = some (.free len) → len < n) ∧
      allocPagesFrom s n fuel (frontPtr id (r.map .page) .free) = some (s, none)) := by
  have hh : s.IsHeader .free := Or.inl rfl
  induction r generalizing fuel l with
  | nil =>
    right
    obtain ⟨fuel, rfl⟩ : ∃ k, fuel = k + 1 := ⟨fuel - 1, by simp only [List.length_nil] at hfuel; omega⟩
    exact ⟨nofun, rfl⟩
  | cons i r ih =>
    obtain ⟨fuel, rfl⟩ : ∃ k, fuel = k + 1 := ⟨fuel - 1, by omega⟩
    have hmem : i ∈ ring .free := by
      rw [hring]
      exact List.mem_append_right _ List.mem_cons_self
    rcases (hL.mem_ring _ i hh).mp hmem with ⟨b, hi, hhome⟩
    obtain ⟨len, rfl⟩ : ∃ len, b = .free len := by
      rcases b with len | len | ⟨shift, full⟩
      · exact ⟨len, rfl⟩
      · cases hhome
      · cases full <;> cases hhome
    rw [List.map_cons]
    show (∃ i' len s' ring', blk i' = some (.free len) ∧ n ≤ len ∧ Kept s s' i' len ∧
        allocPagesFrom s n (fuel + 1) (.page i) = some (s', some i') ∧
        Links s' N (carve blk i' n len) ring') ∨
      ((∀ j ∈ i :: r, ∀ len, blk j = some (.free len) → len < n) ∧
        allocPagesFrom s n (fuel + 1) (.page i) = some (s, none))
    by_cases hle : n ≤ len
    · rcases hL.allocHere hN hi hn hle fuel with ⟨s', ring', hs', hkept, hlinks⟩
      exact Or.inl ⟨i, len, s', ring', hi, hle, hkept, hs', hlinks⟩
    · have hslab : (s.desc (.page i)).slab.toNat = len := hL.slab_free hN hi
      have hnext : (s.desc (.page i)).next = frontPtr id (r.map .page) .free := by
        have hr := hL.rings _ hh
        rw [hring, List.map_append, List.map_cons] at hr
        exact hr.next_eq
      have hstep : allocPagesFrom s n (fuel + 1) (.page i) =
          allocPagesFrom s n fuel (frontPtr id (r.map .page) .free) := by
        rw [allocPagesFrom]
        dsimp only
        rw [hslab, if_neg hle, hnext]
      rw [hstep]
      rcases ih fuel (l ++ [i]) (by rw [hring, List.append_assoc]; rfl)
        (by simp only [List.length_cons] at hfuel; omega) with hfound | ⟨hnone, hs⟩
      · exact Or.inl hfound
      · refine Or.inr ⟨?_, hs⟩
        intro j hj len' hj'
        rcases List.mem_cons.mp hj with rfl | hj
        · rw [hi] at hj'
          cases hj'
          omega
        · exact hnone j hj len' hj'

theorem ring_length (hL : Links s N blk ring) (hh : s.IsHeader h) : (ring h).length ≤ N + 1 := by
  have hsub : ring h ⊆ List.range (N + 1) := by
    intro i hi
    rcases (hL.mem_ring h i hh).mp hi with ⟨b, hb, -⟩
    have hbound := hL.bound i b hb
    exact List.mem_range.mpr (by omega)
  have hlen := (List.Nodup.subperm (hL.ring_nodup hh) hsub).length_le
  rwa [List.length_range] at hlen

/-- `ncx_slab_alloc_pages` -/
theorem allocPages (hL : Links s N blk ring) (hN : N < 2 ^ 64) (hn : 0 < n)
    (hfit : N ≤ (s.endAddr - s.start) / s.pagesize) :
    (∃ i len s' ring', blk i = some (.free len) ∧ n ≤ len ∧ Kept s s' i len ∧
      ncxSlabAllocPages s n = some (s', some i) ∧ Links s' N (carve blk i n len) ring') ∨
    ((∀ i len, blk i = some (.free len) → len < n) ∧ ncxSlabAllocPages s n = some (s, none)) := by
  have hh : s.IsHeader .free := Or.inl rfl
  have hlen := hL.ring_length hh
  have hfront : (s.desc .free).next = frontPtr id ((ring .free).map .page) .free := (hL.rings _ hh).front
  rw [ncxSlabAllocPages, hfront]
  rcases hL.allocPagesFrom_spec hN hn (ring .free) _ [] rfl
    (show (ring .free).length < (s.endAddr - s.start) / s.pagesize + 2 by omega) with
    hfound | ⟨hnone, hs⟩
  · exact Or.inl hfound
  · refine Or.inr ⟨fun i len hi => ?_, hs⟩
    exact hnone i ((hL.mem_ring _ i hh).mpr ⟨_, hi, rfl⟩) len hi

end Links

end CcPof.Slab

import CcPof.Lib.Ring
import CcPof.Slab.Model

/-!
# Pages and lists

Every page belongs to one block: a free block, an allocation of whole pages, or a page of chunks.
The free blocks are a ring behind `pool->free`, the pages with a free chunk are a ring behind the
header of their slot, and a page without one is in no list.
-/

namespace CcPof.Slab

/-- What begins in a page. A page of chunks has `full` set when it has left its slot list. -/
inductive Block
  | free (len : Nat)
  | busy (len : Nat)
  | slab (shift : Nat) (full : Bool)

def Block.len : Block → Nat
  | free n | busy n => n
  | slab _ _ => 1

/-- The header of the list that the block is in. -/
def Block.home (minShift : Nat) : Block → Option Ref
  | free _ => some .free
  | busy _ => none
  | slab _ true => none
  | slab shift false => some (.slot (shift - minShift))

def tagOf (shift : Nat) : Tag := if shift < 6 then .small else if shift = 6 then .exact else .big

def Block.tag : Block → Tag
  | free _ | busy _ => .page
  | slab shift _ => tagOf shift

namespace Pool

abbrev next (s : Pool) (r : Ref) : Ref := (s.desc r).next
abbrev prev (s : Pool) (r : Ref) : Ref := (s.desc r).prev
abbrev tag (s : Pool) (r : Ref) : Tag := (s.desc r).tag
abbrev slab (s : Pool) (r : Ref) : Word := (s.desc r).slab

def IsHeader (s : Pool) (h : Ref) : Prop := h = .free ∨ ∃ k, h = .slot k ∧ k + s.minShift < 12

end Pool

/-- The descriptors of a block. -/
def DescOk (s : Pool) (i : Nat) : Block → Prop
  | .free n => s.slab (.page i) = BitVec.ofNat 64 n ∧ s.tag (.page i) = .page ∧
      ∀ j, i < j → j < i + n → s.desc (.page j) = zeroPage
  | .busy n => s.desc (.page i) = ⟨BitVec.ofNat 64 n ||| pageStart, .null, .null, .page⟩ ∧
      ∀ j, i < j → j < i + n → s.desc (.page j) = ⟨pageBusy, .null, .null, .page⟩
  | .slab shift full => s.minShift ≤ shift ∧ shift < 12 ∧ s.tag (.page i) = tagOf shift ∧
      (full = true → s.next (.page i) = .null ∧ s.prev (.page i) = .null)

/-- The page area of `N` pages, with the blocks `blk` and the lists `ring`. -/
structure Links (s : Pool) (N : Nat) (blk : Nat → Option Block) (ring : Ref → List Nat) : Prop where
  bound : ∀ i b, blk i = some b → i + b.len ≤ N
  pos : ∀ i b, blk i = some b → 0 < b.len ∨ N = 0 ∧ b = .free 0
  apart : ∀ i b j, blk i = some b → i < j → j < i + b.len → blk j = none
  cover : ∀ j, j < N → ∃ i b, blk i = some b ∧ i ≤ j ∧ j < i + b.len
  desc : ∀ i b, blk i = some b → DescOk s i b
  rings : ∀ h, s.IsHeader h → Ring s.next s.prev h ((ring h).map .page)
  mem_ring : ∀ h i, s.IsHeader h →
    (i ∈ ring h ↔ ∃ b, blk i = some b ∧ b.home s.minShift = some h)

variable {s s' : Pool} {N : Nat} {blk blk' : Nat → Option Block} {ring ring' : Ref → List Nat}
  {h : Ref} {i j : Nat} {b c : Block}

theorem page_injective : Function.Injective Ref.page := fun _ _ h => Ref.page.inj h

theorem Pool.IsHeader.ne_page (hh : s.IsHeader h) (i : Nat) : h ≠ .page i := by
  rintro rfl
  rcases hh with hh | ⟨k, hh, -⟩ <;> cases hh

theorem Pool.IsHeader.ne_null (hh : s.IsHeader h) : h ≠ .null := by
  rintro rfl
  rcases hh with hh | ⟨k, hh, -⟩ <;> cases hh

theorem DescOk.tag_eq (hd : DescOk s i b) : s.tag (.page i) = b.tag := by
  cases b with
  | free n => exact hd.2.1
  | busy n =>
    rw [Pool.tag, hd.1]
    rfl
  | slab shift full => exact hd.2.2.1

/-- The pages of one list have one tag. -/
theorem DescOk.tag_of_home (hb : DescOk s i b) (hc : DescOk s' j c)
    (hmin : s'.minShift = s.minShift) (hbhome : b.home s.minShift = some h)
    (hchome : c.home s.minShift = some h) : s'.tag (.page j) = s.tag (.page i) := by
  rw [hb.tag_eq, hc.tag_eq]
  rcases b with n | n | ⟨shift, full⟩
  · cases hbhome
    rcases c with m | m | ⟨shift', full'⟩
    · rfl
    · cases hchome
    · cases full' <;> cases hchome
  · cases hbhome
  · cases full with
    | true => cases hbhome
    | false =>
      cases hbhome
      rcases c with m | m | ⟨shift', full'⟩
      · cases hchome
      · cases hchome
      · cases full' with
        | true => cases hchome
        | false =>
          have hslot : shift' - s.minShift = shift - s.minShift :=
            Ref.slot.inj (Option.some.inj hchome)
          have hle := hb.1
          have hle' := hc.1
          have heq : shift' = shift := by omega
          rw [heq]

/-- The descriptors of a block that nothing was written to. -/
theorem DescOk.congr (hd : DescOk s j c) (hmin : s'.minShift = s.minShift)
    (hj : s'.desc (.page j) = s.desc (.page j))
    (hin : ∀ k, j < k → k < j + c.len → s'.desc (.page k) = s.desc (.page k)) : DescOk s' j c := by
  cases c with
  | free n =>
    refine ⟨?_, ?_, fun k hjk hk => (hin k hjk hk).trans (hd.2.2 k hjk hk)⟩
    · rw [Pool.slab, hj]
      exact hd.1
    · rw [Pool.tag, hj]
      exact hd.2.1
  | busy n => exact ⟨hj.trans hd.1, fun k hjk hk => (hin k hjk hk).trans (hd.2 k hjk hk)⟩
  | slab shift full =>
    refine ⟨?_, hd.2.1, ?_, fun hfull => ?_⟩
    · rw [hmin]
      exact hd.1
    · rw [Pool.tag, hj]
      exact hd.2.2.1
    · rw [Pool.next, Pool.prev, hj]
      exact hd.2.2.2 hfull

/-- A block in a ring may get other neighbours. -/
theorem DescOk.congr_links (hd : DescOk s j c) (hmin : s'.minShift = s.minShift)
    (hhome : c.home s.minShift = some h) (hslab : s'.slab (.page j) = s.slab (.page j))
    (htag : s'.tag (.page j) = s.tag (.page j))
    (hin : ∀ k, j < k → k < j + c.len → s'.desc (.page k) = s.desc (.page k)) : DescOk s' j c := by
  cases c with
  | free n =>
    exact ⟨hslab.trans hd.1, htag.trans hd.2.1, fun k hjk hk => (hin k hjk hk).trans (hd.2.2 k hjk hk)⟩
  | busy n => cases hhome
  | slab shift full =>
    cases full with
    | true => cases hhome
    | false =>
      refine ⟨?_, hd.2.1, htag.trans hd.2.2.1, nofun⟩
      rw [hmin]
      exact hd.1

namespace Links

/-- Only the first page of a block is a head. -/
theorem eq_of_mem (hL : Links s N blk ring) (hi : blk i = some b) (hj : blk j = some c)
    (hij : i ≤ j) (hji : j < i + b.len) : j = i := by
  by_contra hne
  have hnone := hL.apart i b j hi (by omega) hji
  rw [hj] at hnone
  cases hnone

/-- Two blocks do not overlap. -/
theorem disjoint (hL : Links s N blk ring) (hi : blk i = some b) (hj : blk j = some c)
    (hne : i ≠ j) : i + b.len ≤ j ∨ j + c.len ≤ i := by
  by_contra hover
  rcases Nat.lt_or_gt_of_ne hne with hlt | hlt
  · exact hne (hL.eq_of_mem hi hj (by omega) (by omega)).symm
  · exact hne (hL.eq_of_mem hj hi (by omega) (by omega))

/-- A page of a block that is no head is in no list. -/
theorem inner_not_mem (hL : Links s N blk ring) (hh : s.IsHeader h) (hi : blk i = some b)
    (hij : i < j) (hj : j < i + b.len) : j ∉ ring h := by
  intro hmem
  rcases (hL.mem_ring h j hh).mp hmem with ⟨c, hc, -⟩
  rw [hL.apart i b j hi hij hj] at hc
  cases hc

/-- A page is in the list of its block only. -/
theorem home_of_mem (hL : Links s N blk ring) (hh : s.IsHeader h) (hi : blk i = some b)
    (hmem : i ∈ ring h) : b.home s.minShift = some h := by
  rcases (hL.mem_ring h i hh).mp hmem with ⟨c, hc, hhome⟩
  rw [hi] at hc
  cases hc
  exact hhome

end Links

/-- A step that changes the block at `i`, and the ring `h` in which it is or is put. -/
structure Changed (s s' : Pool) (blk blk' : Nat → Option Block) (ring ring' : Ref → List Nat)
    (h : Ref) (i : Nat) (b : Block) : Prop where
  header : s.IsHeader h
  old : blk i = some b
  pos : 0 < b.len
  home : b.home s.minShift = some h ∨ b.home s.minShift = none
  minShift : s'.minShift = s.minShift
  outside : ∀ j, j < i ∨ i + b.len ≤ j → blk' j = blk j
  inside : ∀ j c, i ≤ j → j < i + b.len → blk' j = some c →
    (0 < c.len ∧ j + c.len ≤ i + b.len) ∧
    (∀ k, j < k → k < j + c.len → blk' k = none) ∧ DescOk s' j c ∧
    (c.home s.minShift = some h ∨ c.home s.minShift = none)
  cover : ∀ j, i ≤ j → j < i + b.len → ∃ k c, blk' k = some c ∧ k ≤ j ∧ j < k + c.len
  list : Ring s'.next s'.prev h ((ring' h).map .page)
  lists : ∀ g, g ≠ h → ring' g = ring g
  mem : ∀ j, j ∈ ring' h ↔ ∃ c, blk' j = some c ∧ c.home s.minShift = some h
  frame : ∀ r, r ≠ h → (∀ j, r = .page j → j ∉ ring h ∧ (j < i ∨ i + b.len ≤ j)) →
    s'.desc r = s.desc r
  keep : ∀ j ∈ ring h, j < i ∨ i + b.len ≤ j →
    s'.slab (.page j) = s.slab (.page j) ∧ s'.tag (.page j) = s.tag (.page j)

namespace Changed

variable {g : Ref} {k : Nat} {d : Block}

theorem isHeader (hC : Changed s s' blk blk' ring ring' h i b) (hg : s'.IsHeader g) :
    s.IsHeader g := by
  rcases hg with hg | ⟨k, hk, hlt⟩
  · exact Or.inl hg
  · exact Or.inr ⟨k, hk, by rw [← hC.minShift]; exact hlt⟩

theorem page (hC : Changed s s' blk blk' ring ring' h i b) (hk : k ∉ ring h)
    (hki : k < i ∨ i + b.len ≤ k) : s'.desc (.page k) = s.desc (.page k) := by
  apply hC.frame
  · exact fun heq => hC.header.ne_page k heq.symm
  · rintro j hj
    cases hj
    exact ⟨hk, hki⟩

/-- A block that begins outside the old one has all its pages outside. -/
theorem outside_of_head (hC : Changed s s' blk blk' ring ring' h i b) (hL : Links s N blk ring)
    (hj : blk j = some c) (hji : j < i ∨ i + b.len ≤ j) (hjk : j ≤ k) (hk : k < j + c.len) :
    k < i ∨ i + b.len ≤ k := by
  have hpos := hC.pos
  rcases hL.disjoint hj hC.old (by omega) with hd | hd <;> omega

/-- The head of a block that has a page outside the old one is outside as well. -/
theorem head_outside (hC : Changed s s' blk blk' ring ring' h i b) (hL : Links s N blk ring)
    (hk : blk k = some c) (hkj : k ≤ j) (hjk : j < k + c.len) (hji : j < i ∨ i + b.len ≤ j) :
    k < i ∨ i + b.len ≤ k := by
  by_contra hin
  have hki := hL.eq_of_mem hC.old hk (by omega) (by omega)
  subst hki
  rw [hC.old] at hk
  cases hk
  omega

/-- A block in the pages of the old one is the old one, and in no ring but `h`. -/
theorem home_eq (hC : Changed s s' blk blk' ring ring' h i b) (hL : Links s N blk ring)
    (hj : blk j = some c) (hji : ¬ (j < i ∨ i + b.len ≤ j)) (hhome : c.home s.minShift = some g) :
    g = h := by
  have heq := hL.eq_of_mem hC.old hj (by omega) (by omega)
  subst heq
  rw [hC.old] at hj
  cases hj
  rcases hC.home with hold | hold <;> rw [hhome] at hold
  · exact Option.some.inj hold
  · cases hold

theorem new_home_eq (hC : Changed s s' blk blk' ring ring' h i b)
    (hj : blk' j = some c) (hji : ¬ (j < i ∨ i + b.len ≤ j)) (hhome : c.home s.minShift = some g) :
    g = h := by
  rcases (hC.inside j c (by omega) (by omega) hj).2.2.2 with hnew | hnew <;> rw [hhome] at hnew
  · exact Option.some.inj hnew
  · cases hnew

theorem apart (hC : Changed s s' blk blk' ring ring' h i b) (hL : Links s N blk ring)
    (hj : blk' j = some c) (hjk : j < k) (hk : k < j + c.len) : blk' k = none := by
  by_cases hji : j < i ∨ i + b.len ≤ j
  · rw [hC.outside j hji] at hj
    rw [hC.outside k (hC.outside_of_head hL hj hji (by omega) hk)]
    exact hL.apart j c k hj hjk hk
  · exact (hC.inside j c (by omega) (by omega) hj).2.1 k hjk hk

theorem covers (hC : Changed s s' blk blk' ring ring' h i b) (hL : Links s N blk ring)
    (hj : j < N) : ∃ k c, blk' k = some c ∧ k ≤ j ∧ j < k + c.len := by
  by_cases hji : j < i ∨ i + b.len ≤ j
  · rcases hL.cover j hj with ⟨k, c, hk, hkj, hjk⟩
    exact ⟨k, c, (hC.outside k (hC.head_outside hL hk hkj hjk hji)).trans hk, hkj, hjk⟩
  · exact hC.cover j (by omega) (by omega)

theorem desc (hC : Changed s s' blk blk' ring ring' h i b) (hL : Links s N blk ring)
    (hj : blk' j = some c) : DescOk s' j c := by
  by_cases hji : j < i ∨ i + b.len ≤ j
  · rw [hC.outside j hji] at hj
    have hold := hL.desc j c hj
    have hin : ∀ k, j < k → k < j + c.len → s'.desc (.page k) = s.desc (.page k) := by
      intro k hjk hk
      exact hC.page (hL.inner_not_mem hC.header hj hjk hk)
        (hC.outside_of_head hL hj hji (by omega) hk)
    -- In the ring that changes, a page keeps its descriptor up to its links.
    by_cases hjr : j ∈ ring h
    · have hkeep := hC.keep j hjr hji
      exact hold.congr_links hC.minShift (hL.home_of_mem hC.header hj hjr) hkeep.1 hkeep.2 hin
    · exact hold.congr hC.minShift (hC.page hjr hji) hin
  · exact (hC.inside j c (by omega) (by omega) hj).2.2.1

/-- The other rings are left alone. -/
theorem desc_of_other (hC : Changed s s' blk blk' ring ring' h i b) (hL : Links s N blk ring)
    (hg : s.IsHeader g) (hgh : g ≠ h) :
    ∀ x ∈ g :: (ring g).map .page, s'.desc x = s.desc x := by
  intro x hx
  rcases List.mem_cons.mp hx with rfl | hx
  · apply hC.frame x hgh
    exact fun j hj => absurd hj (hg.ne_page j)
  · rcases List.mem_map.mp hx with ⟨k, hk, rfl⟩
    rcases (hL.mem_ring g k hg).mp hk with ⟨c, hc, hhome⟩
    apply hC.page
    · intro hkh
      have hkhome := hL.home_of_mem hC.header hc hkh
      rw [hhome] at hkhome
      exact hgh (Option.some.inj hkhome)
    · by_contra hin
      exact hgh (hC.home_eq hL hc hin hhome)

theorem rings (hC : Changed s s' blk blk' ring ring' h i b) (hL : Links s N blk ring)
    (hg : s'.IsHeader g) : Ring s'.next s'.prev g ((ring' g).map .page) := by
  have hg' := hC.isHeader hg
  by_cases hgh : g = h
  · rw [hgh]
    exact hC.list
  · rw [hC.lists g hgh]
    have hsame := hC.desc_of_other hL hg' hgh
    apply (hL.rings g hg').congr
    · intro x hx
      rw [Pool.next, hsame x hx]
    · intro x hx
      rw [Pool.prev, hsame x (List.mem_cons_of_mem _ hx)]

theorem mem_ring (hC : Changed s s' blk blk' ring ring' h i b) (hL : Links s N blk ring)
    (hg : s'.IsHeader g) :
    j ∈ ring' g ↔ ∃ c, blk' j = some c ∧ c.home s'.minShift = some g := by
  rw [hC.minShift]
  by_cases hgh : g = h
  · rw [hgh]
    exact hC.mem j
  · rw [hC.lists g hgh, hL.mem_ring g j (hC.isHeader hg)]
    by_cases hji : j < i ∨ i + b.len ≤ j
    · rw [hC.outside j hji]
    · -- Neither the old block nor a new one at its place is in another ring.
      constructor
      · rintro ⟨c, hc, hhome⟩
        exact absurd (hC.home_eq hL hc hji hhome) hgh
      · rintro ⟨c, hc, hhome⟩
        exact absurd (hC.new_home_eq hc hji hhome) hgh

theorem links (hC : Changed s s' blk blk' ring ring' h i b) (hL : Links s N blk ring) :
    Links s' N blk' ring' where
  bound := by
    intro j c hj
    by_cases hji : j < i ∨ i + b.len ≤ j
    · rw [hC.outside j hji] at hj
      exact hL.bound j c hj
    · have hle := (hC.inside j c (by omega) (by omega) hj).1
      have hbound := hL.bound i b hC.old
      omega
  pos := by
    intro j c hj
    by_cases hji : j < i ∨ i + b.len ≤ j
    · rw [hC.outside j hji] at hj
      exact hL.pos j c hj
    · exact Or.inl (hC.inside j c (by omega) (by omega) hj).1.1
  apart := fun _ _ _ hj hjk hk => hC.apart hL hj hjk hk
  cover := fun _ hj => hC.covers hL hj
  desc := fun _ _ hj => hC.desc hL hj
  rings := fun _ hg => hC.rings hL hg
  mem_ring := fun _ _ hg => hC.mem_ring hL hg

end Changed

end CcPof.Slab

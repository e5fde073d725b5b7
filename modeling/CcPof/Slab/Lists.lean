import CcPof.Slab.Links

/-!
# Blocks enter and leave their lists

The three ways in which the allocator relinks a list: a block leaves it, a block enters it at the
front, and a free block is replaced by its tail. Each is a change of one block and one ring.
-/

namespace CcPof.Slab

variable {s s' : Pool} {N : Nat} {blk : Nat → Option Block} {ring : Ref → List Nat}
  {h x : Ref} {i j m n : Nat} {b c : Block}

/-- No descriptor of the `n` pages from `i` on. -/
def Outside (i n : Nat) (x : Ref) : Prop := ∀ j, x = .page j → j < i ∨ i + n ≤ j

/-- The neighbours of page `i` are linked to each other; the `n` pages from `i` on are left open. -/
structure Unlinked (s s' : Pool) (i n : Nat) : Prop where
  minShift : s'.minShift = s.minShift
  next : ∀ x, Outside i n x →
    s'.next x = if x = s.prev (.page i) then s.next (.page i) else s.next x
  prev : ∀ x, Outside i n x →
    s'.prev x = if x = s.next (.page i) then s.prev (.page i) else s.prev x
  tag : ∀ x, Outside i n x → s'.tag x = if x = s.next (.page i) then s.tag (.page i) else s.tag x
  slab : ∀ x, Outside i n x → s'.slab x = s.slab x

/-- Page `i` is the first of the list of `h`; the other pages of the `n` from `i` on are left
open. Nothing is said of the back pointer of the header. -/
structure Pushed (s s' : Pool) (h : Ref) (i n : Nat) : Prop where
  minShift : s'.minShift = s.minShift
  header : s'.next h = .page i
  self : s'.next (.page i) = s.next h ∧ s'.prev (.page i) = h
  next : ∀ x, x ≠ h → Outside i n x → s'.next x = s.next x
  prev : ∀ x, x ≠ h → Outside i n x →
    s'.prev x = if x = s.next h then .page i else s.prev x
  tag : ∀ x, x ≠ h → Outside i n x →
    s'.tag x = if x = s.next h then s'.tag (.page i) else s.tag x
  slab : ∀ x, x ≠ h → Outside i n x → s'.slab x = s.slab x

/-- The tail of the block from page `i` on, which begins in page `i + m`, stands in the place of
the block. -/
structure Replaced (s s' : Pool) (i m n : Nat) : Prop where
  minShift : s'.minShift = s.minShift
  self : s'.next (.page (i + m)) = s.next (.page i) ∧ s'.prev (.page (i + m)) = s.prev (.page i)
  next : ∀ x, Outside i n x →
    s'.next x = if x = s.prev (.page i) then .page (i + m) else s.next x
  prev : ∀ x, Outside i n x →
    s'.prev x = if x = s.next (.page i) then .page (i + m) else s.prev x
  tag : ∀ x, Outside i n x →
    s'.tag x = if x = s.next (.page i) then s.tag (.page i) else s.tag x
  slab : ∀ x, Outside i n x → s'.slab x = s.slab x

theorem Pool.IsHeader.outside (hh : s.IsHeader h) : Outside i n h :=
  fun j hj => absurd hj (hh.ne_page j)

namespace Links

theorem ring_nodup (hL : Links s N blk ring) (hh : s.IsHeader h) : (ring h).Nodup :=
  List.Nodup.of_map _ (List.nodup_cons.mp (hL.rings h hh).nodup).2

/-- A neighbour of a listed page is the header or another listed page. -/
theorem next_cases (hL : Links s N blk ring) (hh : s.IsHeader h) (hi : i ∈ ring h) :
    s.next (.page i) = h ∨ ∃ j ∈ ring h, s.next (.page i) = .page j := by
  have hmem := (hL.rings h hh).next_mem (List.mem_map_of_mem hi)
  rcases List.mem_cons.mp hmem with hnext | hnext
  · exact Or.inl hnext
  · rcases List.mem_map.mp hnext with ⟨j, hj, hnext⟩
    exact Or.inr ⟨j, hj, hnext.symm⟩

theorem prev_cases (hL : Links s N blk ring) (hh : s.IsHeader h) (hi : i ∈ ring h) :
    s.prev (.page i) = h ∨ ∃ j ∈ ring h, j ≠ i ∧ s.prev (.page i) = .page j := by
  have hnodup := (hL.rings h hh).nodup
  rcases List.append_of_mem hi with ⟨l, r, hring⟩
  have hr := hL.rings h hh
  rw [hring, List.map_append, List.map_cons] at hr hnodup
  rcases List.mem_cons.mp (backPtr_mem h (l.map Ref.page)) with hback | hback
  · exact Or.inl (hr.pre_eq.trans hback)
  · rcases List.mem_map.mp hback with ⟨j, hj, hjback⟩
    refine Or.inr ⟨j, ?_, ?_, hr.pre_eq.trans hjback.symm⟩
    · rw [hring]
      exact List.mem_append_left _ hj
    · rintro rfl
      have hdisj := (List.nodup_append.mp (List.nodup_cons.mp hnodup).2).2.2
      exact hdisj _ (List.mem_map_of_mem hj) _ List.mem_cons_self rfl

theorem next_ne_self (hL : Links s N blk ring) (hh : s.IsHeader h) (hi : i ∈ ring h) :
    s.next (.page i) ≠ .page i := by
  have hr := hL.rings h hh
  have hnodup := hr.nodup
  rcases List.append_of_mem hi with ⟨l, r, hring⟩
  rw [hring, List.map_append, List.map_cons] at hr hnodup
  rw [hr.next_eq]
  intro heq
  rcases List.mem_cons.mp (frontPtr_mem h (r.map Ref.page)) with hfront | hfront
  · exact hh.ne_page i (hfront.symm.trans heq)
  · rw [heq] at hfront
    have htail := (List.nodup_append.mp (List.nodup_cons.mp hnodup).2).2.1
    exact (List.nodup_cons.mp htail).1 hfront

theorem neighbours (hL : Links s N blk ring) (hh : s.IsHeader h) (hi : i ∈ ring h) :
    s.prev (.page i) ≠ .null ∧ s.next (.page i) ≠ .null ∧ s.prev (.page i) ≠ .page i := by
  refine ⟨?_, ?_, ?_⟩
  · rcases hL.prev_cases hh hi with heq | ⟨j, -, -, heq⟩ <;> rw [heq]
    · exact hh.ne_null
    · exact nofun
  · rcases hL.next_cases hh hi with heq | ⟨j, -, heq⟩ <;> rw [heq]
    · exact hh.ne_null
    · exact nofun
  · rcases hL.prev_cases hh hi with heq | ⟨j, -, hne, heq⟩ <;> rw [heq]
    · exact hh.ne_page i
    · exact fun hij => hne (Ref.page.inj hij)

theorem first_cases (hL : Links s N blk ring) (hh : s.IsHeader h) :
    s.next h = h ∧ ring h = [] ∨ ∃ i r, ring h = i :: r ∧ s.next h = .page i := by
  have hfront := (hL.rings h hh).front
  cases hring : ring h with
  | nil =>
    rw [hring] at hfront
    exact Or.inl ⟨hfront, rfl⟩
  | cons i r =>
    rw [hring] at hfront
    exact Or.inr ⟨i, r, rfl, hfront⟩

/-- The neighbours of a page are the header or pages of the same list. -/
theorem neighbours_ne (hL : Links s N blk ring) (hh : s.IsHeader h) (hi : i ∈ ring h)
    (hxh : x ≠ h) (hx : ∀ j, x = .page j → j ∉ ring h) :
    x ≠ s.next (.page i) ∧ x ≠ s.prev (.page i) := by
  constructor
  · rintro rfl
    rcases hL.next_cases hh hi with heq | ⟨j, hj, heq⟩
    · exact hxh heq
    · exact hx j heq hj
  · rintro rfl
    rcases hL.prev_cases hh hi with heq | ⟨j, hj, -, heq⟩
    · exact hxh heq
    · exact hx j heq hj

/-- A listed page outside a block that is changed. -/
theorem outside_of_mem (hL : Links s N blk ring) (hh : s.IsHeader h) (hi : blk i = some b)
    (hj : j ∈ ring h) (hne : j ≠ i) : Outside i b.len (.page j) := by
  intro k hk
  cases hk
  rcases (hL.mem_ring h j hh).mp hj with ⟨c, hc, -⟩
  by_contra hin
  exact hne (hL.eq_of_mem hi hc (by omega) (by omega))

/-- The tag of a block of the list is that of a listed page. -/
theorem tag_of_mem (hL : Links s N blk ring) (hh : s.IsHeader h) (hj : j ∈ ring h)
    (hmin : s'.minShift = s.minShift) (hd : DescOk s' i c) (hhome : c.home s.minShift = some h) :
    s'.tag (.page i) = s.tag (.page j) := by
  rcases (hL.mem_ring h j hh).mp hj with ⟨d, hdj, hdhome⟩
  exact (hL.desc j d hdj).tag_of_home hd hmin hdhome hhome

/-- Where a block takes the place of another, no other block begins in its pages. -/
theorem update_inside (hL : Links s N blk ring) (hi : blk i = some b) (hij : i ≤ j)
    (hji : j < i + b.len) {d : Block} (hj : Function.update blk i (some c) j = some d) :
    j = i ∧ d = c := by
  by_cases hne : j = i
  · subst hne
    rw [Function.update_self] at hj
    exact ⟨rfl, (Option.some.inj hj).symm⟩
  · rw [Function.update_of_ne hne, hL.apart i b j hi (by omega) hji] at hj
    cases hj

/-- The new block fills the old one, and `l` is the new list of `h`. -/
theorem exchange {l : List Nat} (hL : Links s N blk ring) (hh : s.IsHeader h)
    (hi : blk i = some b) (hhome : b.home s.minShift = some h ∨ b.home s.minShift = none)
    (hpos : 0 < b.len) (hmin : s'.minShift = s.minShift) (hlen : c.len = b.len)
    (hd : DescOk s' i c) (hchome : c.home s.minShift = some h ∨ c.home s.minShift = none)
    (hlist : Ring s'.next s'.prev h (l.map .page))
    (hmem : ∀ j, j ∈ l ↔
      ∃ d, Function.update blk i (some c) j = some d ∧ d.home s.minShift = some h)
    (hframe : ∀ x, x ≠ h → (∀ j, x = .page j → j ∉ ring h) → Outside i b.len x →
      s'.desc x = s.desc x)
    (hkeep : ∀ j ∈ ring h, Outside i b.len (.page j) →
      s'.slab (.page j) = s.slab (.page j) ∧ s'.tag (.page j) = s.tag (.page j)) :
    Links s' N (Function.update blk i (some c)) (Function.update ring h l) := by
  refine Changed.links (h := h) (i := i) (b := b) ?_ hL
  refine
    { header := hh
      old := hi
      pos := hpos
      home := hhome
      minShift := hmin
      outside := fun j hj => Function.update_of_ne (by omega) ..
      inside := ?_
      cover := fun j hij hji => ⟨i, c, Function.update_self .., hij, by omega⟩
      list := ?_
      lists := fun g hg => Function.update_of_ne hg ..
      mem := ?_
      frame := fun x hxh hx => hframe x hxh (fun j hj => (hx j hj).1) fun j hj => (hx j hj).2
      keep := fun j hj hji => hkeep j hj fun k hk => Ref.page.inj hk ▸ hji }
  · -- Only the new block begins in the pages of the old one.
    intro j d hij hji hj
    rcases hL.update_inside hi hij hji hj with ⟨rfl, rfl⟩
    refine ⟨by omega, ?_, hd, hchome⟩
    intro k hjk hk
    rw [Function.update_of_ne (by omega)]
    exact hL.apart j b k hi hjk (by omega)
  · rw [Function.update_self]
    exact hlist
  · rw [Function.update_self]
    exact hmem

/-- A block leaves the list of `h`. -/
theorem leave (hL : Links s N blk ring) (hh : s.IsHeader h) (hi : blk i = some b)
    (hhome : b.home s.minShift = some h) (hpos : 0 < b.len) (hlen : c.len = b.len)
    (hchome : c.home s.minShift = none) (hd : DescOk s' i c) (hu : Unlinked s s' i b.len) :
    Links s' N (Function.update blk i (some c)) (Function.update ring h ((ring h).erase i)) := by
  have hmem : i ∈ ring h := (hL.mem_ring h i hh).mpr ⟨b, hi, hhome⟩
  have hnodup := hL.ring_nodup hh
  have hmem' : ∀ j, j ∈ (ring h).erase i ↔ j ≠ i ∧ j ∈ ring h := fun j => hnodup.mem_erase_iff
  have hlisted : ∀ j ∈ (ring h).erase i, Outside i b.len (.page j) := by
    intro j hj
    exact hL.outside_of_mem hh hi ((hmem' j).mp hj).2 ((hmem' j).mp hj).1
  apply hL.exchange hh hi (Or.inl hhome) hpos hu.minShift hlen hd (Or.inr hchome)
  · rcases List.append_of_mem hmem with ⟨l, r, hring⟩
    have hr := hL.rings h hh
    rw [hring] at hnodup hr hlisted ⊢
    have hil : i ∉ l := fun hil =>
      (List.nodup_append.mp hnodup).2.2 i hil i List.mem_cons_self rfl
    rw [List.erase_append_right _ hil, List.erase_cons_head] at hlisted ⊢
    rw [List.map_append, List.map_cons] at hr
    rw [List.map_append]
    apply hr.unlink
    · intro x hx
      rw [← List.map_append] at hx
      rcases List.mem_cons.mp hx with rfl | hx
      · exact hu.next x hh.outside
      · rcases List.mem_map.mp hx with ⟨j, hj, rfl⟩
        exact hu.next _ (hlisted j hj)
    · intro x hx
      rw [← List.map_append] at hx
      rcases List.mem_map.mp hx with ⟨j, hj, rfl⟩
      exact hu.prev _ (hlisted j hj)
  · intro j
    rw [hmem', hL.mem_ring h j hh]
    by_cases hji : j = i
    · subst hji
      simp [hchome]
    · rw [Function.update_of_ne hji]
      simp [hji]
  · intro x hxh hx hout
    have hne := hL.neighbours_ne hh hmem hxh hx
    apply SlabPage.ext
    · exact hu.slab x hout
    · exact (hu.next x hout).trans (if_neg hne.2)
    · exact (hu.prev x hout).trans (if_neg hne.1)
    · exact (hu.tag x hout).trans (if_neg hne.1)
  · intro j hj hout
    refine ⟨hu.slab _ hout, ?_⟩
    rw [hu.tag _ hout]
    split
    · exact hL.tag_of_mem hh hj rfl (hL.desc i b hi) hhome
    · rfl

/-- A block enters the list of `h` at the front. -/
theorem enter (hL : Links s N blk ring) (hh : s.IsHeader h) (hi : blk i = some b)
    (hhome : b.home s.minShift = none) (hpos : 0 < b.len) (hlen : c.len = b.len)
    (hchome : c.home s.minShift = some h) (hd : DescOk s' i c) (hp : Pushed s s' h i b.len) :
    Links s' N (Function.update blk i (some c)) (Function.update ring h (i :: ring h)) := by
  have hmem : i ∉ ring h := by
    intro hmem
    have hbhome := hL.home_of_mem hh hi hmem
    rw [hhome] at hbhome
    cases hbhome
  have hlisted : ∀ j ∈ ring h, Outside i b.len (.page j) := by
    intro j hj
    exact hL.outside_of_mem hh hi hj (fun hji => hmem (hji ▸ hj))
  have hpage : ∀ j, Ref.page j ≠ h := fun j hj => hh.ne_page j hj.symm
  apply hL.exchange hh hi (Or.inr hhome) hpos hp.minShift hlen hd (Or.inl hchome)
  · rw [List.map_cons]
    apply (hL.rings h hh).pushFront
    · intro hx
      rcases List.mem_cons.mp hx with hx | hx
      · exact hpage i hx
      · exact hmem ((List.mem_map_of_injective page_injective).mp hx)
    · intro x hx
      by_cases hxh : x = h
      · rw [hxh, if_pos rfl]
        exact hp.header
      · rw [if_neg hxh]
        rcases List.mem_cons.mp hx with hx | hx
        · exact absurd hx hxh
        · rcases List.mem_map.mp hx with ⟨j, hj, rfl⟩
          exact hp.next _ hxh (hlisted j hj)
    · intro x hx
      rcases List.mem_map.mp hx with ⟨j, hj, rfl⟩
      exact hp.prev _ (hpage j) (hlisted j hj)
    · exact hp.self
  · intro j
    rw [List.mem_cons, hL.mem_ring h j hh]
    by_cases hji : j = i
    · subst hji
      simp [hchome]
    · rw [Function.update_of_ne hji]
      simp [hji]
  · intro x hxh hx hout
    -- Only the header and the first page of the list are relinked.
    have hnext : x ≠ s.next h := by
      rintro rfl
      rcases hL.first_cases hh with ⟨heq, -⟩ | ⟨j, r, hring, heq⟩
      · exact hxh heq
      · apply hx j heq
        rw [hring]
        exact List.mem_cons_self
    apply SlabPage.ext
    · exact hp.slab x hxh hout
    · exact hp.next x hxh hout
    · exact (hp.prev x hxh hout).trans (if_neg hnext)
    · exact (hp.tag x hxh hout).trans (if_neg hnext)
  · intro j hj hout
    refine ⟨hp.slab _ (hpage j) hout, ?_⟩
    rw [hp.tag _ (hpage j) hout]
    split
    · exact hL.tag_of_mem hh hj hp.minShift hd hchome
    · rfl

/-- The blocks after a split. -/
theorem split_inside {k : Nat} (hL : Links s N blk ring) (hi : blk i = some (.free (m + k)))
    (hm : 0 < m) (hk : 0 < k) (hbusy : DescOk s' i (.busy m)) (hfree : DescOk s' (i + m) (.free k))
    (hij : i ≤ j) (hji : j < i + (m + k))
    (hj : Function.update (Function.update blk i (some (.busy m))) (i + m) (some (.free k)) j =
      some c) :
    (0 < c.len ∧ j + c.len ≤ i + (m + k)) ∧
      (∀ p, j < p → p < j + c.len → Function.update (Function.update blk i (some (.busy m)))
        (i + m) (some (.free k)) p = none) ∧
      DescOk s' j c ∧ (c.home s.minShift = some .free ∨ c.home s.minShift = none) := by
  have hnone : ∀ p, i < p → p < i + (m + k) → p ≠ i + m →
      Function.update (Function.update blk i (some (.busy m))) (i + m) (some (.free k)) p =
        none := by
    intro p hip hp hne
    rw [Function.update_of_ne hne, Function.update_of_ne (by omega)]
    exact hL.apart i _ p hi hip (by simp only [Block.len]; omega)
  by_cases hjm : j = i + m
  · subst hjm
    rw [Function.update_self] at hj
    cases hj
    simp only [Block.len]
    refine ⟨by omega, fun p hjp hp => ?_, hfree, Or.inl rfl⟩
    exact hnone p (by omega) (by omega) (by omega)
  · rw [Function.update_of_ne hjm] at hj
    rcases hL.update_inside hi hij hji hj with ⟨rfl, rfl⟩
    simp only [Block.len]
    refine ⟨by omega, fun p hjp hp => ?_, hbusy, Or.inr rfl⟩
    exact hnone p hjp (by omega) (by omega)

/-- The list around one of its pages. -/
theorem ring_split (hL : Links s N blk ring) (hh : s.IsHeader h) (hi : i ∈ ring h) :
    ∃ l r, ring h = l ++ i :: r ∧ ∀ j, j ∈ l ++ r ↔ j ≠ i ∧ j ∈ ring h := by
  have hnodup := hL.ring_nodup hh
  rcases List.append_of_mem hi with ⟨l, r, hring⟩
  refine ⟨l, r, hring, fun j => ?_⟩
  have hil : i ∉ l := fun hil =>
    (List.nodup_append.mp (hring ▸ hnodup)).2.2 i hil i List.mem_cons_self rfl
  rw [← hnodup.mem_erase_iff, hring, List.erase_append_right _ hil, List.erase_cons_head]

/-- A free block of `m + k` pages is split: the first `m` are allocated. -/
theorem split {k : Nat} (hL : Links s N blk ring) (hi : blk i = some (.free (m + k)))
    (hm : 0 < m) (hk : 0 < k) (hbusy : DescOk s' i (.busy m)) (hfree : DescOk s' (i + m) (.free k))
    (hr : Replaced s s' i m (m + k)) :
    ∃ ring', Links s' N
      (Function.update (Function.update blk i (some (.busy m))) (i + m) (some (.free k))) ring' := by
  have hh : s.IsHeader .free := Or.inl rfl
  have hmem : i ∈ ring .free := (hL.mem_ring _ i hh).mpr ⟨_, hi, rfl⟩
  have hlisted : ∀ j ∈ ring .free, j ≠ i → Outside i (m + k) (.page j) :=
    fun j hj hne => hL.outside_of_mem hh hi hj hne
  have hnew : i + m ∉ ring .free := by
    intro hmem'
    rcases hlisted _ hmem' (by omega) _ rfl with hlt | hlt <;> omega
  -- The tail stands where the block stood.
  rcases hL.ring_split hh hmem with ⟨l, r, hring, hsplit⟩
  have hr' := hL.rings _ hh
  rw [hring, List.map_append, List.map_cons] at hr'
  refine ⟨Function.update ring .free (l ++ (i + m) :: r), ?_⟩
  refine Changed.links (h := .free) (i := i) (b := .free (m + k)) ?_ hL
  refine
    { header := hh
      old := hi
      pos := Nat.add_pos_left hm k
      home := Or.inl rfl
      minShift := hr.minShift
      outside := ?_
      inside := fun j c hij hji hj => hL.split_inside hi hm hk hbusy hfree hij hji hj
      cover := ?_
      list := ?_
      lists := fun g hg => Function.update_of_ne hg _ ring
      mem := ?_
      frame := ?_
      keep := ?_ }
  · intro j hj
    simp only [Block.len] at hj
    rw [Function.update_of_ne (by omega), Function.update_of_ne (by omega)]
  · intro j hij hji
    simp only [Block.len] at hji
    by_cases hjm : j < i + m
    · refine ⟨i, .busy m, ?_, hij, hjm⟩
      rw [Function.update_of_ne (by omega), Function.update_self]
    · exact ⟨i + m, .free k, Function.update_self .., by omega, by simp only [Block.len]; omega⟩
  · rw [Function.update_self .free (l ++ (i + m) :: r) ring, List.map_append, List.map_cons]
    apply hr'.replace
    · rw [← List.map_cons, ← List.map_append, ← hring]
      intro hx
      rcases List.mem_cons.mp hx with hx | hx
      · cases hx
      · exact hnew ((List.mem_map_of_injective page_injective).mp hx)
    · intro x hx
      rw [← List.map_append] at hx
      rcases List.mem_cons.mp hx with rfl | hx
      · exact hr.next _ hh.outside
      · rcases List.mem_map.mp hx with ⟨j, hj, rfl⟩
        exact hr.next _ (hlisted j ((hsplit j).mp hj).2 ((hsplit j).mp hj).1)
    · intro x hx
      rw [← List.map_append] at hx
      rcases List.mem_map.mp hx with ⟨j, hj, rfl⟩
      exact hr.prev _ (hlisted j ((hsplit j).mp hj).2 ((hsplit j).mp hj).1)
    · exact hr.self
  · intro j
    have hperm : j ∈ l ++ (i + m) :: r ↔ j = i + m ∨ j ∈ l ++ r := by
      simp only [List.mem_append, List.mem_cons]
      tauto
    rw [Function.update_self, hperm, hsplit, hL.mem_ring _ j hh]
    by_cases hjm : j = i + m
    · subst hjm
      simp [Block.home]
    · by_cases hji : j = i
      · subst hji
        rw [Function.update_of_ne hjm, Function.update_self]
        simp [Block.home, hm.ne']
      · simp [hjm, hji]
  · intro x hxh hx
    have hout : Outside i (m + k) x := fun j hj => (hx j hj).2
    have hne := hL.neighbours_ne hh hmem hxh fun j hj => (hx j hj).1
    apply SlabPage.ext
    · exact hr.slab x hout
    · exact (hr.next x hout).trans (if_neg hne.2)
    · exact (hr.prev x hout).trans (if_neg hne.1)
    · exact (hr.tag x hout).trans (if_neg hne.1)
  · intro j hj hji
    have hout : Outside i (m + k) (.page j) := fun p hp => Ref.page.inj hp ▸ hji
    refine ⟨hr.slab _ hout, ?_⟩
    rw [hr.tag _ hout]
    split
    · exact hL.tag_of_mem hh hj rfl (hL.desc i _ hi) rfl
    · rfl

end Links

end CcPof.Slab

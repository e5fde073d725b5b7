import CcPof.Slab.Clients

/-!
# Behind the last page

Where `ncx_slab_init` has estimated too many pages, it leaves zeroed descriptors behind those of the
pool. The allocator never writes to them: the links of what it does write to lead to list headers
and to pages of the pool, or nowhere.
-/

namespace CcPof.Slab

variable {S : Ref → Prop} {s s' t : Pool} {N i j k n off shift : Nat} {blk : Nat → Option Block}
  {ring : Ref → List Nat} {r x : Ref} {tag : Tag} {d : SlabPage} {full v : Bool} {b : Block}

/-! ## 1. Descriptors that are not reached -/

/-- No link leads out of `S`. The word `prev` of a header is not followed. -/
structure ClosedIn (S : Ref → Prop) (s : Pool) : Prop where
  next : ∀ r, S r → s.next r = .null ∨ S (s.next r)
  prev : ∀ i, S (.page i) → s.prev (.page i) = .null ∨ S (s.prev (.page i))

/-- The step has written to nothing outside `S`, and no link leads out of it. -/
structure StaysIn (S : Ref → Prop) (s s' : Pool) : Prop where
  closed : ClosedIn S s'
  same : ∀ r, ¬ S r → s'.desc r = s.desc r

namespace StaysIn

theorem refl (h : ClosedIn S s) : StaysIn S s s := ⟨h, fun _ _ => rfl⟩

theorem trans (h : StaysIn S s s') (h' : StaysIn S s' t) : StaysIn S s t :=
  ⟨h'.closed, fun r hr => (h'.same r hr).trans (h.same r hr)⟩

theorem of_desc (h : ClosedIn S s) (hdesc : s'.desc = s.desc) : StaysIn S s s' := by
  refine ⟨⟨fun r hr => ?_, fun i hi => ?_⟩, fun r _ => congrFun hdesc r⟩
  · rw [Pool.next, hdesc]
    exact h.next r hr
  · rw [Pool.prev, hdesc]
    exact h.prev i hi

theorem modify {f : SlabPage → SlabPage} (h : ClosedIn S s) (hr : S r)
    (hnext : (f (s.desc r)).next = .null ∨ S (f (s.desc r)).next)
    (hprev : ∀ i, r = .page i → (f (s.desc r)).prev = .null ∨ S (f (s.desc r)).prev) :
    StaysIn S s (s.modify r f) := by
  refine ⟨⟨fun x hx => ?_, fun i hi => ?_⟩, fun x hx => ?_⟩
  · rw [Pool.next, Pool.desc_modify]
    by_cases hxr : x = r
    · rw [if_pos hxr]
      exact hnext
    · rw [if_neg hxr]
      exact h.next x hx
  · rw [Pool.prev, Pool.desc_modify]
    by_cases hir : .page i = r
    · rw [if_pos hir]
      exact hprev i hir.symm
    · rw [if_neg hir]
      exact h.prev i hi
  · apply Pool.desc_modify_of_ne
    rintro rfl
    exact hx hr

theorem setNext (h : ClosedIn S s) (hr : r = .null ∨ S r) (hx : x = .null ∨ S x)
    (hs : s.setNext r x = some s') : StaysIn S s s' := by
  by_cases hnull : r = .null
  · rw [Pool.setNext, if_pos hnull] at hs
    cases hs
  · rw [Pool.setNext, if_neg hnull] at hs
    cases hs
    refine modify h (hr.resolve_left hnull) hx ?_
    rintro i rfl
    exact h.prev i (hr.resolve_left hnull)

theorem setPrev (h : ClosedIn S s) (hr : r = .null ∨ S r) (hx : x = .null ∨ S x)
    (hs : s.setPrev r x tag = some s') : StaysIn S s s' := by
  by_cases hnull : r = .null
  · rw [Pool.setPrev, if_pos hnull] at hs
    cases hs
  · rw [Pool.setPrev, if_neg hnull] at hs
    cases hs
    exact modify h (hr.resolve_left hnull) (h.next r (hr.resolve_left hnull)) fun _ _ => hx

theorem fill (h : ClosedIn S s) (hnext : d.next = .null) (hprev : d.prev = .null)
    (hin : ∀ j, i ≤ j → j < i + n → S (.page j)) : StaysIn S s (s.fill d i n) := by
  induction n generalizing s i with
  | zero => exact refl h
  | succ n ih =>
    have hfirst : StaysIn S s (s.modify (.page i) fun _ => d) :=
      modify h (hin i le_rfl (by omega)) (Or.inl hnext) fun _ _ => Or.inl hprev
    exact hfirst.trans (ih hfirst.closed fun j hij hj => hin j (by omega) (by omega))

theorem unlink (h : ClosedIn S s) (hi : S (.page i)) (hs : s.unlink i = some s') :
    StaysIn S s s' := by
  rw [Pool.unlink, Option.bind_eq_bind, Option.bind_eq_some_iff] at hs
  obtain ⟨s₁, h₁, h₂⟩ := hs
  have hfirst := setNext h (h.prev i hi) (h.next _ hi) h₁
  exact hfirst.trans (setPrev hfirst.closed (hfirst.closed.next _ hi) (hfirst.closed.prev i hi) h₂)

theorem unlinkFull (h : ClosedIn S s) (hi : S (.page i)) (hs : s.unlinkFull i tag = some s') :
    StaysIn S s s' := by
  rw [Pool.unlinkFull, Option.bind_eq_bind, Option.bind_eq_some_iff] at hs
  obtain ⟨s₁, h₁, h₂⟩ := hs
  cases h₂
  have hfirst := unlink h hi h₁
  exact hfirst.trans (modify hfirst.closed hi (Or.inl rfl) fun _ _ => Or.inl rfl)

theorem relink (h : ClosedIn S s) (hi : S (.page i)) (hslot : S (.slot k))
    (hs : s.relink i k tag = some s') : StaysIn S s s' := by
  simp only [Pool.relink, Option.bind_eq_bind, Option.bind_eq_some_iff] at hs
  obtain ⟨s₂, h₂, h₃⟩ := hs
  have hfirst : StaysIn S s
      (s.modify (.page i) fun d => { d with next := (s.desc (.slot k)).next }) :=
    modify h hi (h.next _ hslot) fun _ _ => h.prev i hi
  have hsecond := hfirst.trans (setNext hfirst.closed (Or.inr hslot) (Or.inr hi) h₂)
  have hthird := hsecond.trans (modify (f := fun d => { d with prev := .slot k, tag := tag })
    hsecond.closed hi (hsecond.closed.next _ hi) fun _ _ => Or.inr hslot)
  exact hthird.trans (setPrev hthird.closed (hthird.closed.next _ hi) (Or.inr hi) h₃)

theorem linkFresh {w : Word} (h : ClosedIn S s) (hi : S (.page i)) (hslot : S (.slot k)) :
    StaysIn S s (s.linkFresh i k w tag) := by
  have hpage : StaysIn S s (s.modify (.page i) fun _ => ⟨w, .slot k, .slot k, tag⟩) :=
    modify h hi (Or.inr hslot) fun _ _ => Or.inr hslot
  exact hpage.trans (modify hpage.closed hslot (Or.inr hi) nofun)

theorem clear (h : ClosedIn S s) (hn : 0 < n) (hin : ∀ j, i ≤ j → j < i + n → S (.page j)) :
    StaysIn S s (s.clear i n) := by
  have hi : S (.page i) := hin i le_rfl (by omega)
  have hlength : StaysIn S s (s.modify (.page i) fun d => { d with slab := BitVec.ofNat 64 n }) :=
    modify h hi (h.next _ hi) fun _ _ => h.prev i hi
  exact hlength.trans (fill hlength.closed rfl rfl fun j hij hj => hin j (by omega) (by omega))

theorem occupy (h : ClosedIn S s) (hn : 0 < n) (hin : ∀ j, i ≤ j → j < i + n → S (.page j)) :
    StaysIn S s (s.occupy i n) := by
  have hfirst : StaysIn S s
      (s.modify (.page i) fun _ => ⟨BitVec.ofNat 64 n ||| pageStart, .null, .null, .page⟩) :=
    modify h (hin i le_rfl (by omega)) (Or.inl rfl) fun _ _ => Or.inl rfl
  exact hfirst.trans (fill hfirst.closed rfl rfl fun j hij hj => hin j (by omega) (by omega))

theorem push (h : ClosedIn S s) (hfree : S .free) (hi : S (.page i)) (hs : s.push i = some s') :
    StaysIn S s s' := by
  simp only [Pool.push, Option.bind_eq_bind, Option.bind_eq_some_iff] at hs
  obtain ⟨s₂, h₂, h₃⟩ := hs
  have hfirst : StaysIn S s (s.modify (.page i) fun d =>
      { d with prev := .free, tag := .page, next := (s.desc .free).next }) :=
    modify h hi (h.next _ hfree) fun _ _ => Or.inr hfree
  have hsecond := hfirst.trans (setPrev hfirst.closed (hfirst.closed.next _ hi) (Or.inr hi) h₂)
  exact hsecond.trans (setNext hsecond.closed (Or.inr hfree) (Or.inr hi) h₃)

theorem freePages (h : ClosedIn S s) (hfree : S .free) (hn : 0 < n)
    (hin : ∀ j, i ≤ j → j < i + n → S (.page j)) (hs : ncxSlabFreePages s i n = some s') :
    StaysIn S s s' := by
  have hi : S (.page i) := hin i le_rfl (by omega)
  rw [ncxSlabFreePages_eq hn.ne', Option.bind_eq_some_iff] at hs
  obtain ⟨s₁, h₁, h₂⟩ := hs
  have hclear := clear h hn hin
  by_cases hlisted : s.next (.page i) ≠ .null
  · rw [if_pos hlisted] at h₁
    have hunlink := hclear.trans (unlink hclear.closed hi h₁)
    exact hunlink.trans (push hunlink.closed hfree hi h₂)
  · rw [if_neg hlisted] at h₁
    cases h₁
    exact hclear.trans (push hclear.closed hfree hi h₂)

theorem writeBit (h : ClosedIn S s) (hi : S (.page i)) (shift j : Nat) (v : Bool) :
    StaysIn S s (s.writeBit i shift j v) := by
  by_cases h6 : shift < 6
  · exact of_desc h (Pool.writeBit_slab_small h6)
  · rw [Pool.writeBit, if_neg h6]
    exact modify h hi (h.next _ hi) fun _ _ => h.prev i hi

theorem takeBit (h : ClosedIn S s) (hi : S (.page i)) (hs : s.takeBit i shift j = some s') :
    StaysIn S s s' := by
  have hbit := writeBit h hi shift j true
  rw [Pool.takeBit] at hs
  by_cases hfull : (s.writeBit i shift j true).Full i shift
  · exact hbit.trans (unlinkFull hbit.closed hi ((if_pos hfull).symm.trans hs))
  · cases (if_neg hfull).symm.trans hs
    exact hbit

theorem releaseBit (h : ClosedIn S s) (hfree : S .free) (hslot : S (.slot (shift - s.minShift)))
    (hi : S (.page i)) (hs : s.releaseBit i shift j full = some s') : StaysIn S s s' := by
  rw [Pool.releaseBit, Option.bind_eq_some_iff] at hs
  obtain ⟨s₁, h₁, h₂⟩ := hs
  have hlink : StaysIn S s s₁ := by
    cases full with
    | false =>
      cases h₁
      exact refl h
    | true => exact relink h hi hslot h₁
  have hbit := hlink.trans (writeBit hlink.closed hi shift j false)
  by_cases huse : (s₁.writeBit i shift j false).InUse i shift
  · cases (if_pos huse).symm.trans h₂
    exact hbit
  · have hin : ∀ k, i ≤ k → k < i + 1 → S (.page k) := by
      intro k hik hk
      obtain rfl : k = i := by omega
      exact hi
    exact hbit.trans (freePages hbit.closed hfree Nat.one_pos hin ((if_neg huse).symm.trans h₂))

/-- A longer block is split, and its rest takes its place in the list. -/
theorem allocHere {fuel len : Nat} {res : Option Nat} (hL : Links s N blk ring) (hN : N < 2 ^ 64)
    (h : ClosedIn S s) (hpages : ∀ j, j < N → S (.page j)) (hi : blk i = some (.free len))
    (hn : 0 < n) (hle : n ≤ len)
    (hs : allocPagesFrom s n (fuel + 1) (.page i) = some (s', res)) : StaysIn S s s' := by
  have hbound := hL.bound i _ hi
  rw [Block.len] at hbound
  have hslab : (s.desc (.page i)).slab.toNat = len := hL.slab_free hN hi
  have htag : ¬ (s.desc (.page i)).tag ≠ .page := not_not.mpr (hL.desc i _ hi).2.1
  have hself : S (.page i) := hpages i (by omega)
  have hin : ∀ j, i ≤ j → j < i + n → S (.page j) := fun j _ hj => hpages j (by omega)
  rw [CcPof.Slab.allocPagesFrom] at hs
  dsimp only at hs
  rw [hslab, if_pos hle, if_neg htag] at hs
  simp only [Option.bind_eq_bind] at hs
  have hlinked : ∃ s₁, StaysIn S s s₁ ∧ s₁.occupy i n = s' := by
    by_cases hlt : n < len
    · rw [if_pos hlt, Option.bind_eq_some_iff] at hs
      obtain ⟨s₀, h₀, hs⟩ := hs
      obtain ⟨s₁, h₁, hs⟩ := Option.bind_eq_some_iff.mp hs
      have hrest : S (.page (i + n)) := hpages (i + n) (by omega)
      have hsplit : StaysIn S s (s.modify (.page (i + n)) fun _ =>
          ⟨BitVec.ofNat 64 (len - n), s.next (.page i), s.prev (.page i), s.tag (.page i)⟩) :=
        modify h hrest (h.next _ hself) fun _ _ => h.prev i hself
      have hback := hsplit.trans (setNext hsplit.closed (h.prev i hself) (Or.inr hrest) h₀)
      cases hs
      exact ⟨s₁, hback.trans (setPrev hback.closed (h.next _ hself) (Or.inr hrest) h₁), rfl⟩
    · rw [if_neg hlt, Option.bind_eq_some_iff] at hs
      obtain ⟨s₀, h₀, hs⟩ := hs
      obtain ⟨s₁, h₁, hs⟩ := Option.bind_eq_some_iff.mp hs
      have hback := setNext h (h.prev i hself) (h.next _ hself) h₀
      cases hs
      exact ⟨s₁, hback.trans (setPrev hback.closed (h.next _ hself) (h.prev i hself) h₁), rfl⟩
  obtain ⟨s₁, h₁, rfl⟩ := hlinked
  exact h₁.trans (occupy h₁.closed hn hin)

/-- The search stops at a block that is long enough, and writes to its pages only. -/
theorem allocPagesFrom {fuel : Nat} {res : Option Nat} (hL : Links s N blk ring) (hN : N < 2 ^ 64)
    (h : ClosedIn S s) (hpages : ∀ j, j < N → S (.page j)) (hn : 0 < n)
    (hr : r = .free ∨ ∃ i ∈ ring .free, r = .page i)
    (hs : allocPagesFrom s n fuel r = some (s', res)) : StaysIn S s s' := by
  have hh : s.IsHeader .free := Or.inl rfl
  induction fuel generalizing r with
  | zero =>
    rcases hr with rfl | ⟨i, -, rfl⟩ <;> cases hs
  | succ fuel ih =>
    rcases hr with rfl | ⟨i, hmem, rfl⟩
    · cases hs
      exact refl h
    · obtain ⟨len, hi⟩ : ∃ len, blk i = some (.free len) := by
        obtain ⟨b, hi, hhome⟩ := (hL.mem_ring _ i hh).mp hmem
        rcases b with len | len | ⟨shift, full⟩
        · exact ⟨len, hi⟩
        · cases hhome
        · cases full <;> cases hhome
      have hslab : (s.desc (.page i)).slab.toNat = len := hL.slab_free hN hi
      by_cases hle : n ≤ len
      · exact allocHere hL hN h hpages hi hn hle hs
      · -- The next block of the list
        rw [CcPof.Slab.allocPagesFrom] at hs
        dsimp only at hs
        rw [hslab, if_neg hle] at hs
        exact ih (hL.next_cases hh hmem) hs

end StaysIn

/-! ## 2. The calls -/

/-- The headers of the lists and the descriptors of the `N` pages. -/
def InPool (s : Pool) (N : Nat) (r : Ref) : Prop := s.IsHeader r ∨ ∃ j, j < N ∧ r = .page j

theorem inPool_free (s : Pool) (N : Nat) : InPool s N .free := Or.inl (Or.inl rfl)

theorem inPool_page (s : Pool) (hj : j < N) : InPool s N (.page j) := Or.inr ⟨j, hj, rfl⟩

theorem not_inPool (hj : N ≤ j) : ¬ InPool s N (.page j) := by
  rintro (hh | ⟨k, hk, heq⟩)
  · exact hh.ne_page j rfl
  · cases heq
    omega

/-- A page is in a list, or has no links. -/
theorem Links.listed_or_null (hL : Links s N blk ring) (hj : j < N) :
    (∃ h, s.IsHeader h ∧ j ∈ ring h) ∨ s.next (.page j) = .null ∧ s.prev (.page j) = .null := by
  obtain ⟨i, b, hi, hij, hji⟩ := hL.cover j hj
  have hd := hL.desc i b hi
  rcases Nat.eq_or_lt_of_le hij with rfl | hlt
  · rcases b with len | len | ⟨shift, full⟩
    · exact Or.inl ⟨.free, Or.inl rfl, (hL.mem_ring _ i (Or.inl rfl)).mpr ⟨_, hi, rfl⟩⟩
    · right
      rw [Pool.next, Pool.prev, hd.1]
      exact ⟨rfl, rfl⟩
    · cases full with
      | false =>
        have hh := hL.slot_header hi
        exact Or.inl ⟨_, hh, (hL.mem_ring _ i hh).mpr ⟨_, hi, rfl⟩⟩
      | true => exact Or.inr (hd.2.2.2 rfl)
  · -- The pages behind the first of a block
    right
    rcases b with len | len | ⟨shift, full⟩
    · rw [Pool.next, Pool.prev, hd.2.2 j hlt hji]
      exact ⟨rfl, rfl⟩
    · rw [Pool.next, Pool.prev, hd.2 j hlt hji]
      exact ⟨rfl, rfl⟩
    · rw [Block.len] at hji
      omega

theorem Links.closedIn (hL : Links s N blk ring) (hN : 0 < N) : ClosedIn (InPool s N) s := by
  have hmem : ∀ h j, s.IsHeader h → j ∈ ring h → InPool s N (.page j) := by
    intro h j hh hj
    obtain ⟨b, hb, -⟩ := (hL.mem_ring h j hh).mp hj
    have hbound := hL.bound j b hb
    rcases hL.pos j b hb with hpos | ⟨rfl, -⟩
    · exact inPool_page s (by omega)
    · exact absurd hN (Nat.lt_irrefl 0)
  constructor
  · rintro r (hh | ⟨j, hj, rfl⟩)
    · right
      rcases hL.first_cases hh with ⟨hnext, -⟩ | ⟨i, l, hring, hnext⟩ <;> rw [hnext]
      · exact Or.inl hh
      · exact hmem r i hh (hring ▸ List.mem_cons_self)
    · rcases hL.listed_or_null hj with ⟨h, hh, hjh⟩ | ⟨hnext, -⟩
      · right
        rcases hL.next_cases hh hjh with hnext | ⟨k, hk, hnext⟩ <;> rw [hnext]
        · exact Or.inl hh
        · exact hmem h k hh hk
      · exact Or.inl hnext
  · rintro i (hh | ⟨j, hj, heq⟩)
    · exact absurd rfl (hh.ne_page i)
    · cases heq
      rcases hL.listed_or_null hj with ⟨h, hh, hjh⟩ | ⟨-, hprev⟩
      · right
        rcases hL.prev_cases hh hjh with hprev | ⟨k, hk, -, hprev⟩ <;> rw [hprev]
        · exact Or.inl hh
        · exact hmem h k hh hk
      · exact Or.inl hprev

theorem Sound.allocPages_staysIn {res : Option Nat} (hS : Sound s N blk ring) (hN : 0 < N)
    (hn : 0 < n) (hs : ncxSlabAllocPages s n = some (s', res)) : StaysIn (InPool s N) s s' := by
  have hh : s.IsHeader .free := Or.inl rfl
  have hlt := hS.pages_lt
  refine StaysIn.allocPagesFrom hS.links (by omega) (hS.links.closedIn hN)
    (fun j hj => inPool_page s hj) hn ?_ hs
  rcases hS.links.first_cases hh with ⟨hnext, -⟩ | ⟨i, l, hring, hnext⟩
  · exact Or.inl hnext
  · exact Or.inr ⟨i, hring ▸ List.mem_cons_self, hnext⟩

/-- A page of a free block or of an allocation of pages: the first one has the length. -/
theorem Sound.whole_page (hS : Sound s N blk ring) (hk : blk k = some b)
    (hb : b = .free n ∨ b = .busy n) (hki : k ≤ i) (hik : i < k + n) :
    s.tag (.page i) = .page ∧ (s.slab (.page i) = 0#64 ∨ s.slab (.page i) = pageBusy ∨
      i = k ∧ (s.slab (.page i) &&& ~~~pageStart).toNat = n) := by
  have hd := hS.links.desc k b hk
  have hbound := hS.links.bound k b hk
  have hlt := hS.pages_lt
  rcases hb with rfl | rfl
  · rw [Block.len] at hbound
    rcases Nat.eq_or_lt_of_le hki with rfl | hlt'
    · refine ⟨hd.2.1, Or.inr (Or.inr ⟨rfl, ?_⟩)⟩
      rw [hd.1]
      exact and_not_pageStart (by omega)
    · rw [Pool.tag, Pool.slab, hd.2.2 i hlt' hik]
      exact ⟨rfl, Or.inl rfl⟩
  · rw [Block.len] at hbound
    rcases Nat.eq_or_lt_of_le hki with rfl | hlt'
    · rw [Pool.tag, Pool.slab, hd.1]
      exact ⟨rfl, Or.inr (Or.inr ⟨rfl, (head_word (by omega)).1⟩)⟩
    · rw [Pool.tag, Pool.slab, hd.2 i hlt' hik]
      exact ⟨rfl, Or.inr (Or.inl rfl)⟩

/-- A release of any address in the page area -/
theorem Sound.free_staysIn (hS : Sound s N blk ring) (hi : i < N) (hoff : off < 4096)
    (hs : ncxSlabFreeLocked s (s.addr i + off) = some s') : StaysIn (InPool s N) s s' := by
  have hclosed := hS.links.closedIn (Nat.zero_lt_of_lt hi)
  obtain ⟨k, b, hk, hki, hik⟩ := hS.links.cover i hi
  have hbound := hS.links.bound k b hk
  have hwhole : b = .free b.len ∨ b = .busy b.len → StaysIn (InPool s N) s s' := by
    intro hb
    obtain ⟨htag, hslab⟩ := hS.whole_page hk hb hki hik
    rw [hS.free_whole hi hoff htag] at hs
    split at hs
    · cases hs
      exact StaysIn.refl hclosed
    · rename_i hcond
      rcases hslab with hzero | hbusy | ⟨rfl, hlen⟩
      · exact absurd (Or.inr (Or.inl hzero)) hcond
      · exact absurd (Or.inr (Or.inr hbusy)) hcond
      · rw [hlen] at hs
        exact StaysIn.freePages hclosed (inPool_free s N) (by omega)
          (fun j _ hj => inPool_page s (by omega)) hs
  rcases b with n | n | ⟨shift, full⟩
  · exact hwhole (Or.inl rfl)
  · exact hwhole (Or.inr rfl)
  · rw [Block.len] at hik
    obtain rfl : k = i := by omega
    rw [hS.free_slab hk hoff] at hs
    split at hs
    · exact StaysIn.releaseBit hclosed (inPool_free s N) (Or.inl (hS.links.slot_header hk))
        (inPool_page s hi) hs
    · cases hs
      exact StaysIn.refl hclosed

theorem InPool.congr (hsite : SameSite s s') : InPool s' N = InPool s N := by
  funext r
  rw [InPool, InPool, Pool.IsHeader, Pool.IsHeader, hsite.minShift]

/-- A fresh page is linked behind the header of its slot. -/
theorem Sound.fresh_staysIn (hS : Sound s N blk ring) (hN : 0 < N) (hmin : s.minShift ≤ shift)
    (h12 : shift < 12) (hs : ncxSlabAllocPages s 1 = some (s', some i)) :
    StaysIn (InPool s N) s (CcPof.Slab.freshSlab s' shift (shift - s.minShift) i).1 := by
  have hpage := hS.allocPages_staysIn hN Nat.one_pos hs
  rcases hS.allocPages Nat.one_pos with
    ⟨k, len, s₁, ring₁, hk, hle, hs₁, hS₁, -⟩ | ⟨-, hnone⟩
  · rw [hs₁] at hs
    cases hs
    have hbound := hS.links.bound i _ hk
    rw [Block.len] at hbound
    have h3 : 3 ≤ shift := Nat.le_trans hS.geometry.three_le hmin
    obtain ⟨t, w, hfresh⟩ := freshSlab_spec hS₁.geometry h3 h12 (shift - s.minShift) i
    have hdesc : t.desc = s'.desc := by rw [hfresh.frame]
    have ht := hpage.trans (StaysIn.of_desc hpage.closed hdesc)
    rw [hfresh.run]
    exact ht.trans (StaysIn.linkFresh ht.closed (inPool_page s (by omega))
      (Or.inl (Or.inr ⟨_, rfl, by omega⟩)))
  · rw [hnone] at hs
    cases hs

theorem Sound.alloc_staysIn {size p : Nat} (hS : Sound s N blk ring) (hN : 0 < N)
    (hs : ncxSlabAllocLocked s size = some (s', p)) : StaysIn (InPool s N) s s' := by
  have hg := hS.geometry
  have hclosed := hS.links.closedIn hN
  rw [ncxSlabAllocLocked, hg.maxSize, hg.shift, hg.pagesize] at hs
  by_cases hbig : 2048 ≤ size
  · have hpos : 0 < (size >>> 12) + if size % 4096 ≠ 0 then 1 else 0 := by
      rw [Nat.shiftRight_eq_div_pow]
      split <;> omega
    rw [if_pos hbig] at hs
    dsimp only at hs
    rw [Option.bind_eq_bind, Option.bind_eq_some_iff] at hs
    obtain ⟨⟨s₁, res⟩, h₁, hs⟩ := hs
    have hpages := hS.allocPages_staysIn hN hpos h₁
    cases res <;> cases hs <;> exact hpages
  · have hreq := requestShift_spec hg (show size < 2048 by omega)
    rw [if_neg hbig] at hs
    dsimp only at hs
    rw [Option.bind_eq_bind, Option.bind_eq_some_iff] at hs
    obtain ⟨⟨s₁, res⟩, h₁, hs⟩ := hs
    rcases hS.searchSlot hreq.1 hreq.2.1 with ⟨-, hnone⟩ | ⟨i, j, r, -, hi, hj, hbit, hfound⟩
    · -- No page of the slot has a free chunk.
      rw [hnone] at h₁
      cases h₁
      dsimp only at hs
      rw [Option.bind_eq_some_iff] at hs
      obtain ⟨⟨s₂, res⟩, h₂, hs⟩ := hs
      cases res with
      | none =>
        cases hs
        exact hS.allocPages_staysIn hN Nat.one_pos h₂
      | some i =>
        have hfresh := hS.fresh_staysIn hN hreq.1 hreq.2.1 h₂
        rwa [Option.some.inj hs] at hfresh
    · rw [hfound] at h₁
      obtain ⟨s₂, h₂, heq⟩ := Option.map_eq_some_iff.mp h₁
      cases heq
      cases hs
      have hbound := hS.links.bound i _ hi
      rw [Block.len] at hbound
      exact StaysIn.takeBit hclosed (inPool_page s (by omega)) h₂

/-! ## 3. Steps -/

theorem Sound.free_of_empty (hS : Sound s 0 blk ring) (hi : blk i = some b) : b = .free 0 := by
  have hbound := hS.links.bound i b hi
  rcases hS.links.pos i b hi with hpos | ⟨-, hfree⟩
  · omega
  · exact hfree

/-- Without a page there is nothing to give out. -/
theorem Sound.alloc_empty (hS : Sound s 0 blk ring) (size : Nat) :
    ncxSlabAllocLocked s size = some (s, 0) := by
  apply hS.alloc_of_exhausted
  unfold classOf
  by_cases hbig : 2048 ≤ size
  · rw [if_pos hbig]
    intro i len hi
    cases hS.free_of_empty hi
    rw [Nat.shiftRight_eq_div_pow]
    split <;> omega
  · rw [if_neg hbig]
    refine ⟨fun i hi => ?_, fun i len hi => ?_⟩
    · cases hS.free_of_empty hi
    · cases hS.free_of_empty hi
      rfl

variable {st st' : State} {p : Nat}

theorem Inv.alloc_tail {size : UInt64} (h : Inv st N blk ring)
    (hs : CcPof.Slab.step st (.alloc size) = some st') (hj : N ≤ j) :
    st'.pool.desc (.page j) = st.pool.desc (.page j) := by
  rw [CcPof.Slab.step, Option.map_eq_some_iff] at hs
  obtain ⟨⟨s', p⟩, hs, hst⟩ := hs
  have hpool : st'.pool = s' := by
    rw [← hst]
    dsimp only
    split <;> rfl
  rw [hpool]
  rcases Nat.eq_zero_or_pos N with rfl | hN
  · rw [h.sound.alloc_empty] at hs
    cases hs
    rfl
  · exact (h.sound.alloc_staysIn hN hs).same _ (not_inPool hj)

/-- An address in the page area, as a page and an offset. -/
theorem Geometry.exists_offset (hg : Geometry s N) (hlo : s.start ≤ p)
    (hhi : p < s.start + N * 4096) : ∃ i off, i < N ∧ off < 4096 ∧ p = s.addr i + off := by
  refine ⟨(p - s.start) / 4096, (p - s.start) % 4096, by omega, by omega, ?_⟩
  rw [hg.addr]
  omega

theorem Sound.free_tail (hS : Sound s N blk ring) (hlo : s.start ≤ p) (hhi : p < s.start + N * 4096)
    (hs : ncxSlabFreeLocked s p = some s') (hj : N ≤ j) : s'.desc (.page j) = s.desc (.page j) := by
  obtain ⟨i, off, hi, hoff, rfl⟩ := hS.geometry.exists_offset hlo hhi
  exact (hS.free_staysIn hi hoff hs).same _ (not_inPool hj)

theorem Inv.free_tail (h : Inv st N blk ring) (hs : CcPof.Slab.step st (.free p) = some st')
    (hj : N ≤ j) : st'.pool.desc (.page j) = st.pool.desc (.page j) := by
  rw [CcPof.Slab.step] at hs
  split at hs
  · rename_i hmem
    obtain ⟨⟨q, size⟩, hlive, rfl⟩ := List.mem_map.mp hmem
    obtain ⟨s', hfree, rfl⟩ := Option.map_eq_some_iff.mp hs
    obtain ⟨i, b, hi, hq⟩ := h.holds q size hlive
    have hb := h.sound.at_bounds hi hq
    have hbound := h.sound.links.bound i b hi
    exact h.sound.free_tail (show st.pool.start ≤ q by omega) (by omega) hfree hj
  · cases hs

/-- **No client reaches the descriptors behind the last page.** -/
theorem Inv.desc_tail {a : Act} (h : Inv st N blk ring) (hs : CcPof.Slab.step st a = some st')
    (hj : N ≤ j) : st'.pool.desc (.page j) = st.pool.desc (.page j) := by
  cases a with
  | alloc size => exact h.alloc_tail hs hj
  | free p => exact h.free_tail hs hj
  | write p size off v =>
    rw [CcPof.Slab.step] at hs
    split at hs
    · cases hs
      rfl
    · cases hs

end CcPof.Slab

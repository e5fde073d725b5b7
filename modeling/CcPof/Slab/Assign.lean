import CcPof.Slab.Lists

/-!
# Assignments to descriptors

What each assignment and each short run of assignments of the allocator does to the descriptors,
field by field.
-/

namespace CcPof.Slab

variable {s s' : Pool} {r : Ref} {i j n : Nat} {tag : Tag}

namespace Pool

theorem desc_modify (s : Pool) (r x : Ref) (f : SlabPage → SlabPage) :
    (s.modify r f).desc x = if x = r then f (s.desc r) else s.desc x :=
  Function.update_apply ..

@[simp] theorem desc_modify_self (s : Pool) (r : Ref) (f : SlabPage → SlabPage) :
    (s.modify r f).desc r = f (s.desc r) := Function.update_self ..

theorem desc_modify_of_ne {r x : Ref} (hx : x ≠ r) (s : Pool) (f : SlabPage → SlabPage) :
    (s.modify r f).desc x = s.desc x := Function.update_of_ne hx ..

/-- Only the list links of descriptors differ. -/
def SameButLinks (s s' : Pool) : Prop := s' = { s with desc := s'.desc } ∧ ∀ x, s'.slab x = s.slab x

theorem SameButLinks.trans {t : Pool} (h : SameButLinks s s') (h' : SameButLinks s' t) :
    SameButLinks s t := by
  refine ⟨?_, fun x => (h'.2 x).trans (h.2 x)⟩
  rw [h'.1, h.1]

theorem setNext_spec (hr : r ≠ .null) (v : Ref) :
    ∃ s', s.setNext r v = some s' ∧ SameButLinks s s' ∧
      (∀ x, s'.next x = if x = r then v else s.next x) ∧ (∀ x, s'.prev x = s.prev x) ∧
      ∀ x, s'.tag x = s.tag x := by
  refine ⟨s.modify r fun d => { d with next := v }, if_neg hr, ⟨rfl, ?_⟩, ?_, ?_, ?_⟩ <;>
    intro x <;> by_cases hx : x = r <;>
    simp [Pool.slab, Pool.next, Pool.prev, Pool.tag, desc_modify, hx]

theorem setPrev_spec (hr : r ≠ .null) (v : Ref) (tag : Tag) :
    ∃ s', s.setPrev r v tag = some s' ∧ SameButLinks s s' ∧ (∀ x, s'.next x = s.next x) ∧
      (∀ x, s'.prev x = if x = r then v else s.prev x) ∧
      ∀ x, s'.tag x = if x = r then tag else s.tag x := by
  refine ⟨s.modify r fun d => { d with prev := v, tag := tag }, if_neg hr, ⟨rfl, ?_⟩, ?_, ?_, ?_⟩ <;>
    intro x <;> by_cases hx : x = r <;>
    simp [Pool.slab, Pool.next, Pool.prev, Pool.tag, desc_modify, hx]

theorem fill_page (s : Pool) (d : SlabPage) (i n j : Nat) :
    (s.fill d i n).desc (.page j) = if i ≤ j ∧ j < i + n then d else s.desc (.page j) := by
  induction n generalizing s i with
  | zero =>
    have hnot : ¬ (i ≤ j ∧ j < i + 0) := by omega
    rw [fill, if_neg hnot]
  | succ n ih =>
    rw [fill, ih]
    by_cases hji : j = i
    · subst hji
      rw [if_neg (by omega), if_pos (by omega), desc_modify_self]
    · rw [desc_modify_of_ne (fun heq => hji (Ref.page.inj heq))]
      by_cases hin : i + 1 ≤ j ∧ j < i + 1 + n
      · rw [if_pos hin, if_pos (by omega)]
      · rw [if_neg hin, if_neg (by omega)]

theorem fill_of_outside (s : Pool) (d : SlabPage) {x : Ref} (hx : Outside i n x) :
    (s.fill d i n).desc x = s.desc x := by
  induction n generalizing s i with
  | zero => rfl
  | succ n ih =>
    have hne : x ≠ .page i := by
      rintro rfl
      have hout := hx i rfl
      omega
    have hx' : Outside (i + 1) n x := by
      intro j hj
      have hout := hx j hj
      omega
    rw [fill, ih _ hx', desc_modify_of_ne hne]

/-- What `fill` leaves alone. -/
theorem fill_frame (s : Pool) (d : SlabPage) (i n : Nat) :
    s.fill d i n = { s with desc := (s.fill d i n).desc } := by
  induction n generalizing s i with
  | zero => rfl
  | succ n ih => exact ih (s.modify (.page i) fun _ => d) (i + 1)

/-- The first assignment leaves the page as it is. -/
theorem unlink_once (hself : s.prev (.page i) ≠ .page i) :
    s.unlink i = (s.setNext (s.prev (.page i)) (s.next (.page i))).bind fun s' =>
      s'.setPrev (s.next (.page i)) (s.prev (.page i)) (s.tag (.page i)) := by
  by_cases hnull : s.prev (.page i) = .null
  · simp only [unlink, setNext, Pool.prev, if_pos hnull]
    rfl
  · rcases setNext_spec hnull (s.next (.page i)) with ⟨s₁, h₁, -, hnext₁, hprev₁, htag₁⟩
    have hnext : (s₁.desc (.page i)).next = s.next (.page i) := by
      exact (hnext₁ _).trans (if_neg hself.symm)
    rw [unlink, h₁]
    simp only [Option.bind_eq_bind, Option.bind_some]
    rw [hnext, show (s₁.desc (.page i)).prev = s.prev (.page i) from hprev₁ _,
      show (s₁.desc (.page i)).tag = s.tag (.page i) from htag₁ _]

/-- The neighbours of a page are linked to each other. -/
theorem unlink_spec (hprev : s.prev (.page i) ≠ .null) (hnext : s.next (.page i) ≠ .null)
    (hself : s.prev (.page i) ≠ .page i) :
    ∃ s', s.unlink i = some s' ∧ SameButLinks s s' ∧
      (∀ x, s'.next x = if x = s.prev (.page i) then s.next (.page i) else s.next x) ∧
      (∀ x, s'.prev x = if x = s.next (.page i) then s.prev (.page i) else s.prev x) ∧
      ∀ x, s'.tag x = if x = s.next (.page i) then s.tag (.page i) else s.tag x := by
  rcases setNext_spec hprev (s.next (.page i)) with ⟨s₁, h₁, hsame₁, hnext₁, hprev₁, htag₁⟩
  rcases setPrev_spec (s := s₁) hnext (s.prev (.page i)) (s.tag (.page i)) with
    ⟨s₂, h₂, hsame₂, hnext₂, hprev₂, htag₂⟩
  refine ⟨s₂, ?_, hsame₁.trans hsame₂, ?_, ?_, ?_⟩
  · rw [unlink_once hself, h₁]
    exact h₂
  · intro x
    rw [hnext₂, hnext₁]
  · intro x
    rw [hprev₂, hprev₁]
  · intro x
    rw [htag₂, htag₁]

theorem linkFresh_page (s : Pool) (i k : Nat) (w : Word) (tag : Tag) :
    (s.linkFresh i k w tag).desc (.page i) = ⟨w, .slot k, .slot k, tag⟩ := by
  have hne : Ref.page i ≠ .slot k := nofun
  rw [linkFresh, desc_modify_of_ne hne, desc_modify_self]

theorem linkFresh_slot (s : Pool) (i k : Nat) (w : Word) (tag : Tag) :
    (s.linkFresh i k w tag).next (.slot k) = .page i := by
  rw [linkFresh, Pool.next, desc_modify_self]

theorem linkFresh_of_ne {x : Ref} {k : Nat} (hslot : x ≠ .slot k) (hpage : x ≠ .page i) (s : Pool)
    (w : Word) (tag : Tag) : (s.linkFresh i k w tag).desc x = s.desc x := by
  rw [linkFresh, desc_modify_of_ne hslot, desc_modify_of_ne hpage]

/-- The first page of an allocation of `n` pages and the pages behind it. -/
def occupy (s : Pool) (i n : Nat) : Pool :=
  (s.modify (.page i) fun _ => ⟨BitVec.ofNat 64 n ||| pageStart, .null, .null, .page⟩).fill
    ⟨pageBusy, .null, .null, .page⟩ (i + 1) (n - 1)

/-- The length of a block that is freed, with the pages behind its first. -/
def clear (s : Pool) (i n : Nat) : Pool :=
  (s.modify (.page i) fun d => { d with slab := BitVec.ofNat 64 n }).fill zeroPage (i + 1) (n - 1)

/-- The end of `ncx_slab_free_pages`. -/
def push (s : Pool) (i : Nat) : Option Pool := do
  let s := s.modify (.page i) fun d =>
    { d with prev := .free, tag := .page, next := (s.desc .free).next }
  let s ← s.setPrev (s.desc (.page i)).next (.page i) .page
  s.setNext .free (.page i)

theorem occupy_frame (s : Pool) (i n : Nat) :
    s.occupy i n = { s with desc := (s.occupy i n).desc } := fill_frame ..

theorem clear_frame (s : Pool) (i n : Nat) :
    s.clear i n = { s with desc := (s.clear i n).desc } := fill_frame ..

theorem outside_tail (hn : 0 < n) {x : Ref} (hx : Outside i n x) :
    x ≠ .page i ∧ Outside (i + 1) (n - 1) x := by
  constructor
  · rintro rfl
    have hout := hx i rfl
    omega
  · intro j hj
    have hout := hx j hj
    omega

theorem outside_head (i n : Nat) : Outside (i + 1) n (.page i) := by
  intro j hj
  cases hj
  omega

theorem occupy_of_outside (hn : 0 < n) {x : Ref} (hx : Outside i n x) :
    (s.occupy i n).desc x = s.desc x := by
  have htail := outside_tail hn hx
  rw [occupy, fill_of_outside _ _ htail.2, desc_modify_of_ne htail.1]

theorem clear_of_outside (hn : 0 < n) {x : Ref} (hx : Outside i n x) :
    (s.clear i n).desc x = s.desc x := by
  have htail := outside_tail hn hx
  rw [clear, fill_of_outside _ _ htail.2, desc_modify_of_ne htail.1]

theorem clear_head (s : Pool) (i n : Nat) :
    (s.clear i n).desc (.page i) = { s.desc (.page i) with slab := BitVec.ofNat 64 n } := by
  rw [clear, fill_of_outside _ _ (outside_head i _), desc_modify_self]

theorem occupy_descOk (s : Pool) (i n : Nat) : DescOk (s.occupy i n) i (.busy n) := by
  constructor
  · rw [occupy, fill_of_outside _ _ (outside_head i _), desc_modify_self]
  · intro j hij hj
    rw [occupy, fill_page, if_pos (by omega)]

theorem clear_inner (hij : i < j) (hj : j < i + n) : (s.clear i n).desc (.page j) = zeroPage := by
  rw [clear, fill_page, if_pos (by omega)]

/-- Page `i` is the first of the list of `h`, with the tag `tag` in both new back pointers. -/
structure Linked (s s' : Pool) (h : Ref) (i : Nat) (tag : Tag) : Prop where
  same : s.SameButLinks s'
  next : ∀ x, s'.next x = if x = h then .page i else if x = .page i then s.next h else s.next x
  prev : ∀ x, s'.prev x = if x = s.next h then .page i else if x = .page i then h else s.prev x
  tag : ∀ x, s'.tag x = if x = s.next h then tag else if x = .page i then tag else s.tag x

theorem push_spec (hnull : s.next .free ≠ .null) :
    ∃ s', s.push i = some s' ∧ Linked s s' .free i .page := by
  let s₁ := s.modify (.page i) fun d =>
    { d with prev := .free, tag := .page, next := (s.desc .free).next }
  have hsame₁ : SameButLinks s s₁ := by
    refine ⟨rfl, fun x => ?_⟩
    by_cases hx : x = .page i <;> simp [s₁, Pool.slab, desc_modify, hx]
  have hnext₁ : s₁.next (.page i) = s.next .free := by simp [s₁, Pool.next]
  rcases setPrev_spec (s := s₁) (r := s₁.next (.page i)) (hnext₁.symm ▸ hnull) (.page i) .page with
    ⟨s₂, h₂, hsame₂, hnext₂, hprev₂, htag₂⟩
  rcases setNext_spec (s := s₂) (r := .free) nofun (.page i) with
    ⟨s₃, h₃, hsame₃, hnext₃, hprev₃, htag₃⟩
  refine ⟨s₃, ?_, (hsame₁.trans hsame₂).trans hsame₃, ?_, ?_, ?_⟩
  · show (s₁.setPrev (s₁.next (.page i)) (.page i) .page).bind _ = _
    rw [h₂]
    exact h₃
  · intro x
    rw [hnext₃, hnext₂]
    by_cases hx : x = .page i <;> simp [s₁, Pool.next, desc_modify, hx]
  · intro x
    rw [hprev₃, hprev₂, hnext₁]
    by_cases hx : x = .page i <;> simp [s₁, Pool.prev, desc_modify, hx]
  · intro x
    rw [htag₃, htag₂, hnext₁]
    by_cases hx : x = .page i <;> simp [s₁, Pool.tag, desc_modify, hx]

theorem relink_spec {k : Nat} (hnull : s.next (.slot k) ≠ .null) :
    ∃ s', s.relink i k tag = some s' ∧ Linked s s' (.slot k) i tag := by
  let s₁ := s.modify (.page i) fun d => { d with next := (s.desc (.slot k)).next }
  have hsame₁ : SameButLinks s s₁ := by
    refine ⟨rfl, fun x => ?_⟩
    by_cases hx : x = .page i <;> simp [s₁, Pool.slab, desc_modify, hx]
  rcases setNext_spec (s := s₁) (r := .slot k) nofun (.page i) with
    ⟨s₂, h₂, hsame₂, hnext₂, hprev₂, htag₂⟩
  let s₃ := s₂.modify (.page i) fun d => { d with prev := .slot k, tag := tag }
  have hsame₃ : SameButLinks s₂ s₃ := by
    refine ⟨rfl, fun x => ?_⟩
    by_cases hx : x = .page i <;> simp [s₃, Pool.slab, desc_modify, hx]
  have hnext₃ : ∀ x, s₃.next x = s₂.next x := by
    intro x
    by_cases hx : x = .page i <;> simp [s₃, Pool.next, desc_modify, hx]
  have hfirst : s₃.next (.page i) = s.next (.slot k) := by
    rw [hnext₃, hnext₂]
    simp [s₁, Pool.next]
  rcases setPrev_spec (s := s₃) (r := s₃.next (.page i)) (hfirst.symm ▸ hnull) (.page i) tag with
    ⟨s₄, h₄, hsame₄, hnext₄, hprev₄, htag₄⟩
  refine ⟨s₄, ?_, ((hsame₁.trans hsame₂).trans hsame₃).trans hsame₄, ?_, ?_, ?_⟩
  · simp only [relink, Option.bind_eq_bind]
    rw [h₂]
    exact h₄
  · intro x
    rw [hnext₄, hnext₃, hnext₂]
    by_cases hx : x = .page i <;> simp [s₁, Pool.next, desc_modify, hx]
  · intro x
    rw [hprev₄, hfirst]
    by_cases hx : x = .page i
    · simp [s₃, Pool.prev, hx]
    · have hprev₁ : s₁.prev x = s.prev x := by simp [s₁, Pool.prev, desc_modify, hx]
      simp [s₃, Pool.prev, desc_modify, hx, ← hprev₁, ← hprev₂]
  · intro x
    rw [htag₄, hfirst]
    by_cases hx : x = .page i
    · simp [s₃, Pool.tag, hx]
    · have htag₁ : s₁.tag x = s.tag x := by simp [s₁, Pool.tag, desc_modify, hx]
      simp [s₃, Pool.tag, desc_modify, hx, ← htag₁, ← htag₂]

end Pool

theorem ncxSlabFreePages_eq (hn : n ≠ 0) : ncxSlabFreePages s i n =
    (if s.next (.page i) ≠ .null then (s.clear i n).unlink i else some (s.clear i n)).bind
      (·.push i) := by
  have hnext : ((s.clear i n).desc (.page i)).next = s.next (.page i) := by rw [Pool.clear_head]
  rw [ncxSlabFreePages, if_neg hn, ← hnext]
  by_cases hnull : ((s.clear i n).desc (.page i)).next ≠ .null
  · rw [if_pos hnull]
    exact if_pos hnull
  · rw [if_neg hnull]
    exact if_neg hnull

end CcPof.Slab

import CcPof.MemPool.Exclusive
import Mathlib.Data.List.Nodup

/-!
# Cleaning up

`clean_mem_list` frees the nodes of every list, and with each node the block in its `raw_data`,
whatever block `data` has come to hold. The nodes from `tail` on tell it how many blocks are handed
out. It leaves a descriptor without nodes but with its old `tail` and `type`, and `init_mem_list`
may set the type up again.
-/

namespace CcPof.MemPool

/-! ## 1. `clean_mem_list` -/

/-- What `clean_mem_list` prints about one list, and the arguments of its calls of `free`. -/
structure Cleaned where
  num : Nat
  type : UInt8
  left : Int
  freeNum : Nat
  nodes : List Addr
  blocks : List Nat
  deriving DecidableEq, Repr

/-- The `while` loop for the list `i`, of at most `n` rounds. -/
def cleanNodes (i : UInt8) : Nat → Pools → Cleaned → Option (Pools × Cleaned)
  | 0, _, _ => none
  | n + 1, s, r =>
      let plist := s.memList i
      match plist.head with
      | none => some (s, r)
      | some p => do
          let left := if plist.tail = some p then 0 else r.left
          let node ← s.nodes p
          let s := s.setList i { plist with head := node.next }
          let r := { r with
            num := r.num + 1
            left := if 0 ≤ left then left + 1 else left
            nodes := r.nodes ++ [p] }
          match node.rawData with
          | some rawData => do
              let s ← freeBlock s rawData
              let r := { r with freeNum := r.freeNum + 1, blocks := r.blocks ++ [rawData] }
              cleanNodes i n { s with nodes := Function.update s.nodes p none } r
          | none => cleanNodes i n { s with nodes := Function.update s.nodes p none } r

/-- The `for` loop, over the types `is`. -/
def cleanLists (n : Nat) : List UInt8 → Pools → Option (Pools × List Cleaned)
  | [], s => some (s, [])
  | i :: is, s =>
      let plist := s.memList i
      if plist.valid then do
        let s := s.setList i { plist with valid := false }
        let (s, r) ← cleanNodes i n s ⟨0, plist.type, -1, 0, [], []⟩
        let (s, rs) ← cleanLists n is s
        some (s, r :: rs)
      else cleanLists n is s

def maxMemList : Nat := 256

def allTypes : List UInt8 := (List.range maxMemList).map UInt8.ofNat

def cleanMemList (s : Pools) (n : Nat) : Option (Pools × List Cleaned) := cleanLists n allTypes s

/-- No type is set up any more, and no client has a block that it may use. -/
def Pools.forget (s : Pools) : Pools := { s with config := fun _ => none, held := fun _ => [] }

inductive CleanAct
  | call (a : Act)
  | cleanMemList (n : Nat)

def cleanStep (s : Pools) : CleanAct → Option Pools
  | .call a => step s a
  | .cleanMemList n => (cleanMemList s n).map fun r => r.1.forget

/-- The pools with `clean_mem_list` among the calls. -/
def cleaningPool (mem : Mem) : TransitionSystem Pools CleanAct where
  init := (memPool mem).init
  step := cleanStep

variable {s s' : Pools} {type i : UInt8} {c : Config} {L : Layout} {ps : List Addr} {n : Nat}

/-! ## 2. One list -/

/-- `left` after the nodes `ps`. -/
def leftAfter (tail : Option Addr) : Int → List Addr → Int
  | left, [] => left
  | left, p :: ps =>
      let left := if tail = some p then 0 else left
      leftAfter tail (if 0 ≤ left then left + 1 else left) ps

theorem leftAfter_append (tail : Option Addr) (left : Int) (l r : List Addr) :
    leftAfter tail left (l ++ r) = leftAfter tail (leftAfter tail left l) r := by
  induction l generalizing left with
  | nil => rfl
  | cons p l ih => exact ih _

/-- In front of `tail` nothing is counted. -/
theorem leftAfter_before {tail : Option Addr} {left : Int} {l : List Addr} (hleft : left < 0)
    (h : ∀ p ∈ l, tail ≠ some p) : leftAfter tail left l = left := by
  induction l with
  | nil => rfl
  | cons p l ih =>
    rw [leftAfter, if_neg (h p List.mem_cons_self)]
    rw [if_neg (by omega)]
    exact ih fun q hq => h q (List.mem_cons_of_mem _ hq)

/-- Behind `tail` every node is counted. -/
theorem leftAfter_behind {tail : Option Addr} {left : Int} {l : List Addr} (hleft : 0 ≤ left)
    (h : ∀ p ∈ l, tail ≠ some p) : leftAfter tail left l = left + l.length := by
  induction l generalizing left with
  | nil => exact (Int.add_zero left).symm
  | cons p l ih =>
    rw [leftAfter, if_neg (h p List.mem_cons_self)]
    rw [if_pos hleft, ih (by omega) fun q hq => h q (List.mem_cons_of_mem _ hq), List.length_cons]
    omega

theorem leftAfter_tail {t : Addr} {l r : List Addr} (hnodup : (l ++ t :: r).Nodup) :
    leftAfter (some t) (-1) (l ++ t :: r) = r.length + 1 := by
  rw [List.nodup_append] at hnodup
  rcases hnodup with ⟨-, htr, hlt⟩
  have hl : ∀ p ∈ l, some t ≠ some p := by
    rintro p hp heq
    exact hlt p hp t List.mem_cons_self (Option.some.inj heq).symm
  have hr : ∀ p ∈ r, some t ≠ some p := by
    rintro p hp heq
    rw [Option.some.inj heq] at htr
    exact (List.nodup_cons.mp htr).1 hp
  rw [leftAfter_append, leftAfter_before (by omega) hl, leftAfter, if_pos rfl]
  rw [if_pos (Int.le_refl 0), leftAfter_behind (by omega) hr]
  omega

theorem cleanNodes_eq (h : Listed s i (·.rawData) ps) (hn : ps.length < n) (r : Cleaned) :
    ∃ s', cleanNodes i n s r = some (s', { r with
        num := r.num + ps.length
        left := leftAfter (s.memList i).tail r.left ps
        freeNum := r.freeNum + ps.length
        nodes := r.nodes ++ ps
        blocks := r.blocks ++ ps.filterMap s.rawData }) ∧
      Emptied s s' i (·.rawData) ps := by
  induction ps generalizing s n r with
  | nil =>
    have hhead : (s.memList i).head = none := h.chain
    obtain ⟨m, rfl⟩ := Nat.exists_eq_succ_of_ne_zero (Nat.ne_of_gt hn)
    refine ⟨s, ?_, Emptied.nil hhead⟩
    simp [cleanNodes, hhead, leftAfter]
  | cons p l ih =>
    rw [List.length_cons] at hn
    obtain ⟨k, rfl⟩ := Nat.exists_eq_succ_of_ne_zero (Nat.ne_of_gt (Nat.lt_of_le_of_lt (Nat.zero_le _) hn))
    rcases h.round with ⟨node, b, hhead, hnode, hb, hany, hlisted, hsame⟩
    have hl := List.filterMap_congr hsame
    have hblock : s.rawData p = some b := by
      rw [Pools.rawData, hnode]
      exact hb
    let left : Int := if (s.memList i).tail = some p then 0 else r.left
    let r₁ : Cleaned := { r with
      num := r.num + 1
      left := if 0 ≤ left then left + 1 else left
      freeNum := r.freeNum + 1
      nodes := r.nodes ++ [p]
      blocks := r.blocks ++ [b] }
    have hround : cleanNodes i (k + 1) s r =
        cleanNodes i k (freeRound s i p b node.next) r₁ := by
      rw [cleanNodes, hhead]
      simp [hnode, hb, freeBlock, Pools.setList, hany, freeRound, r₁, left]
    rcases ih hlisted (by omega : l.length < k) r₁ with ⟨s', hs', hempty⟩
    refine ⟨s', hround.trans (hs'.trans ?_), hempty.cons hblock hl⟩
    have htail : ((freeRound s i p b node.next).memList i).tail = (s.memList i).tail := by
      simp [freeRound]
    have hl : l.filterMap (freeRound s i p b node.next).rawData = l.filterMap s.rawData := hl
    rw [htail, hl, List.filterMap_cons_some hblock]
    simp [r₁, leftAfter, left, Nat.add_comm, Nat.add_left_comm]

/-- What is printed about a list in which `held` blocks are handed out, and what is freed. -/
def cleanedOf (s : Pools) (i : UInt8) (c : Config) (L : Layout) : Cleaned where
  num := c.length + 1
  type := (s.memList i).type
  left := (s.held i).length + 1
  freeNum := c.length + 1
  nodes := L.nodes
  blocks := L.nodes.filterMap s.rawData

theorem TypeInv.cleanNodes (h : TypeInv s i c L) (hn : c.length + 1 < n) :
    ∃ s', CcPof.MemPool.cleanNodes i n (s.setList i { s.memList i with valid := false })
        ⟨0, (s.memList i).type, -1, 0, [], []⟩ = some (s', cleanedOf s i c L) ∧
      Emptied (s.setList i { s.memList i with valid := false }) s' i (·.rawData) L.nodes := by
  have hlength : L.nodes.length = c.length + 1 := by
    rw [Layout.nodes, List.length_cons, List.length_append, h.length]
  have hlist : (s.setList i { s.memList i with valid := false }).memList i =
      { s.memList i with valid := false } := Function.update_self ..
  have hlisted : Listed (s.setList i { s.memList i with valid := false }) i (·.rawData) L.nodes := by
    refine ⟨?_, ?_, h.raws⟩
    · rw [hlist]
      exact h.chain
    · intro p hp
      rcases h.block p hp with ⟨b, hb, hmem, -⟩
      exact ⟨b, c.size + 1, hb, hmem⟩
  rcases cleanNodes_eq hlisted (by omega : L.nodes.length < n) ⟨0, (s.memList i).type, -1, 0, [], []⟩
    with ⟨s', hs', hempty⟩
  refine ⟨s', hs'.trans ?_, hempty⟩
  rcases L.exists_last with ⟨t, l, hl⟩
  have hnodes : L.nodes = l ++ t :: L.used := by
    rw [Layout.nodes, ← List.cons_append, hl, List.append_assoc]
    rfl
  have hleft : leftAfter (s.memList i).tail (-1) L.nodes = (s.held i).length + 1 := by
    have hheld := h.held_length
    have hused := h.length
    have hnodup := h.nodup
    rw [hnodes] at hnodup
    -- The used nodes are those behind the tail.
    rw [h.tail_of_last hl, hnodes, leftAfter_tail hnodup]
    omega
  have hraw : (s.setList i { s.memList i with valid := false }).rawData = s.rawData := rfl
  rw [hlist, hraw, hlength]
  simp [cleanedOf, hleft]

/-! ## 3. All lists -/

/-- The lists of the types `is` were cleaned, with the reports `rs`. -/
structure CleanedLists (s s' : Pools) (is : List UInt8) (rs : List Cleaned) : Prop where
  nodes : ∀ p, s'.nodes p = if p ∈ rs.flatMap (·.nodes) then none else s.nodes p
  blocks : s'.blocks = s.blocks.filter (fun e => e.1 ∉ rs.flatMap (·.blocks))
  cleaned : ∀ i ∈ is, (s.memList i).valid = true →
    s'.memList i = { s.memList i with head := none, valid := false }
  skipped : ∀ i, i ∉ is ∨ (s.memList i).valid = false → s'.memList i = s.memList i
  rest : s' = { s with nodes := s'.nodes, blocks := s'.blocks, memList := s'.memList }

/-- The loop on the list of `i` leaves the lists of the other types alone. -/
theorem TypeInv.cleaned (h : TypeInv s i c L)
    (hs : Emptied (s.setList i { s.memList i with valid := false }) s' i (·.rawData) L.nodes)
    {j : UInt8} {d : Config} {M : Layout} (hj : TypeInv s j d M) (hne : j ≠ i) :
    TypeInv s' j d M := by
  have hrest := hs.rest
  apply hj.frame
  · rw [hs.memList j hne]
    exact Function.update_of_ne hne ..
  · intro p hp
    rw [hs.nodes p]
    exact if_neg fun hmem => hne (hj.apart h hp hmem)
  · intro p hp b hb hmem
    refine ⟨?_, by rw [hrest]; rfl⟩
    rw [hs.blocks, List.mem_filter]
    refine ⟨hmem, decide_eq_true ?_⟩
    -- The first byte of the block tells the types apart.
    intro hfreed
    rcases List.mem_filterMap.mp hfreed with ⟨q, hq, hqb⟩
    rcases h.block q hq with ⟨b', hb', -, hbyte⟩
    rcases hj.block p hp with ⟨b'', hb'', -, hbyte'⟩
    have heq : b' = b := Option.some.inj (hb'.symm.trans hqb)
    have heq' : b'' = b := Option.some.inj (hb''.symm.trans hb)
    rw [heq] at hbyte
    rw [heq'] at hbyte'
    exact hne (hbyte'.symm.trans hbyte)
  · rw [hrest]
    rfl

theorem cleanedOf_congr {d : Config} {M : Layout} (hlist : s'.memList i = s.memList i)
    (hheld : s'.held = s.held) (hraw : ∀ p ∈ M.nodes, s'.rawData p = s.rawData p) :
    cleanedOf s' i d M = cleanedOf s i d M := by
  rw [cleanedOf, hlist, hheld, List.filterMap_congr hraw, cleanedOf]

/-- The reports on those of the types `is` that are set up, with their layouts. -/
def reports (s : Pools) (c : UInt8 → Config) (L : UInt8 → Layout) (is : List UInt8) :
    List Cleaned :=
  (is.filter fun i => (s.memList i).valid).map fun i => cleanedOf s i (c i) (L i)

theorem CleanedLists.nil : CleanedLists s s [] [] where
  nodes p := (if_neg List.not_mem_nil).symm
  blocks := by simp
  cleaned := nofun
  skipped _ _ := rfl
  rest := rfl

/-- A type that is not set up is passed over. -/
theorem CleanedLists.skip {is : List UInt8} {rs : List Cleaned} (h : CleanedLists s s' is rs)
    (hi : (s.memList i).valid = false) : CleanedLists s s' (i :: is) rs where
  nodes := h.nodes
  blocks := h.blocks
  cleaned j hj hvalid := by
    rcases List.mem_cons.mp hj with rfl | hj
    · rw [hi] at hvalid
      cases hvalid
    · exact h.cleaned j hj hvalid
  skipped j hj := by
    apply h.skipped j
    rcases hj with hj | hj
    · exact Or.inl fun hmem => hj (List.mem_cons_of_mem _ hmem)
    · exact Or.inr hj
  rest := h.rest

theorem CleanedLists.cons {s₁ : Pools} {is : List UInt8} {rs : List Cleaned}
    (h : CleanedLists s₁ s' is rs) (hi : i ∉ is) (hvalid : (s.memList i).valid = true)
    (hempty : Emptied (s.setList i { s.memList i with valid := false }) s₁ i (·.rawData) L.nodes) :
    CleanedLists s s' (i :: is) (cleanedOf s i c L :: rs) where
  nodes p := by
    have hmem : p ∈ (cleanedOf s i c L :: rs).flatMap (·.nodes) ↔
        p ∈ L.nodes ∨ p ∈ rs.flatMap (·.nodes) := List.mem_append
    rw [h.nodes p, hempty.nodes p]
    by_cases hrs : p ∈ rs.flatMap (·.nodes)
    · rw [if_pos hrs, if_pos (hmem.mpr (Or.inr hrs))]
    · rw [if_neg hrs]
      by_cases hp : p ∈ L.nodes
      · rw [if_pos hp, if_pos (hmem.mpr (Or.inl hp))]
      · rw [if_neg hp, if_neg fun h => (hmem.mp h).elim hp hrs]
        rfl
  blocks := by
    rw [h.blocks, hempty.blocks, List.filter_filter, List.flatMap_cons]
    apply List.filter_congr
    intro e _
    simp only [List.mem_append, not_or, Bool.decide_and]
    exact Bool.and_comm _ _
  cleaned j hj hjvalid := by
    by_cases hji : j = i
    · subst hji
      rw [h.skipped j (Or.inl hi), hempty.list]
      simp [Pools.setList]
    · have hlist : s₁.memList j = s.memList j := by
        rw [hempty.memList j hji]
        exact Function.update_of_ne hji ..
      have hj := (List.mem_cons.mp hj).resolve_left hji
      rw [← hlist] at hjvalid ⊢
      exact h.cleaned j hj hjvalid
  skipped j hj := by
    have hji : j ≠ i := by
      rintro rfl
      rcases hj with hj | hj
      · exact hj List.mem_cons_self
      · rw [hvalid] at hj
        cases hj
    have hlist : s₁.memList j = s.memList j := by
      rw [hempty.memList j hji]
      exact Function.update_of_ne hji ..
    rw [← hlist]
    apply h.skipped j
    rcases hj with hj | hj
    · exact Or.inl fun hmem => hj (List.mem_cons_of_mem _ hmem)
    · exact Or.inr (by rw [hlist]; exact hj)
  rest := by
    rw [h.rest, hempty.rest]
    rfl

/-- The reports on the other types do not change when the list of `i` is freed. -/
theorem reports_cleaned {s₁ : Pools} {is : List UInt8} {c : UInt8 → Config} {L : UInt8 → Layout}
    {d : Config} {M : Layout} (hM : TypeInv s i d M)
    (hempty : Emptied (s.setList i { s.memList i with valid := false }) s₁ i (·.rawData) M.nodes)
    (hne : ∀ j ∈ is, j ≠ i)
    (hL : ∀ j ∈ is, (s.memList j).valid = true → TypeInv s j (c j) (L j)) :
    reports s₁ c L is = reports s c L is := by
  have hlist : ∀ j ∈ is, s₁.memList j = s.memList j := by
    intro j hj
    rw [hempty.memList j (hne j hj)]
    exact Function.update_of_ne (hne j hj) ..
  have hheld : s₁.held = s.held := by
    rw [hempty.rest]
    rfl
  have hfilter : (is.filter fun j => (s₁.memList j).valid) =
      is.filter fun j => (s.memList j).valid := by
    apply List.filter_congr
    intro j hj
    rw [hlist j hj]
  rw [reports, hfilter]
  apply List.map_congr_left
  intro j hj
  rcases List.mem_filter.mp hj with ⟨hj, hjvalid⟩
  apply cleanedOf_congr (hlist j hj) hheld
  intro p hp
  -- No node is in two lists, so the nodes of `j` are still there.
  rw [Pools.rawData, hempty.nodes p,
    if_neg fun hmem => hne j hj ((hL j hj hjvalid).apart hM hp hmem)]
  rfl

theorem cleanLists_eq {is : List UInt8} {c : UInt8 → Config} {L : UInt8 → Layout} (his : is.Nodup)
    (h : ∀ i ∈ is, (s.memList i).valid = true → TypeInv s i (c i) (L i) ∧ (c i).length + 1 < n) :
    ∃ s', cleanLists n is s = some (s', reports s c L is) ∧
      CleanedLists s s' is (reports s c L is) := by
  induction is generalizing s with
  | nil => exact ⟨s, rfl, CleanedLists.nil⟩
  | cons i is ih =>
    rcases List.nodup_cons.mp his with ⟨hi, his⟩
    cases hvalid : (s.memList i).valid with
    | false =>
      rcases ih his fun j hj => h j (List.mem_cons_of_mem _ hj) with ⟨s', hs', hclean⟩
      have hreports : reports s c L (i :: is) = reports s c L is := by
        simp [reports, hvalid]
      rw [hreports]
      refine ⟨s', ?_, hclean.skip hvalid⟩
      rw [cleanLists]
      simp only [hvalid, Bool.false_eq_true, if_false]
      exact hs'
    | true =>
      rcases h i List.mem_cons_self hvalid with ⟨hL, hn⟩
      rcases hL.cleanNodes hn with ⟨s₁, hs₁, hempty⟩
      have hne : ∀ j ∈ is, j ≠ i := by
        rintro j hj rfl
        exact hi hj
      have hlist : ∀ j ∈ is, s₁.memList j = s.memList j := by
        intro j hj
        rw [hempty.memList j (hne j hj)]
        exact Function.update_of_ne (hne j hj) ..
      -- The other types are as before, and so is what the loop will say about them.
      have hsame : reports s₁ c L is = reports s c L is :=
        reports_cleaned hL hempty hne fun j hj hjvalid =>
          (h j (List.mem_cons_of_mem _ hj) hjvalid).1
      have h₁ : ∀ j ∈ is, (s₁.memList j).valid = true →
          TypeInv s₁ j (c j) (L j) ∧ (c j).length + 1 < n := by
        intro j hj hjvalid
        rw [hlist j hj] at hjvalid
        have hj' := h j (List.mem_cons_of_mem _ hj) hjvalid
        exact ⟨hL.cleaned hempty hj'.1 (hne j hj), hj'.2⟩
      rcases ih his h₁ with ⟨s', hs', hclean⟩
      rw [hsame] at hs' hclean
      have hreports : reports s c L (i :: is) = cleanedOf s i (c i) (L i) :: reports s c L is := by
        simp [reports, hvalid]
      rw [hreports]
      refine ⟨s', ?_, hclean.cons hi hvalid hempty⟩
      rw [cleanLists]
      simp only [hvalid, if_true]
      rw [hs₁]
      simp only [Option.bind_eq_bind, Option.bind_some]
      rw [hs']
      rfl

/-! ## 4. No node and no block outside of the lists -/

structure Accounted (s : Pools) : Prop where
  nodes : ∀ p, s.nodes p ≠ none → ∃ type ps, Chain s.next (s.memList type).head ps ∧ p ∈ ps
  blocks : ∀ e ∈ s.blocks, ∃ type ps, Chain s.next (s.memList type).head ps ∧
    ∃ p ∈ ps, s.rawData p = some e.1
  typed : ∀ type, (s.memList type).valid = true → (s.memList type).type = type

theorem accounted_init (mem : Mem) : Accounted (memPool mem).init where
  nodes _ hp := absurd rfl hp
  blocks := nofun
  typed := nofun

/-- A step keeps the nodes in the list of `type`, and what it adds is in this list. -/
structure Keeps (s s' : Pools) (type : UInt8) : Prop where
  chain : ∀ ps, Chain s.next (s.memList type).head ps →
    ∃ ps', Chain s'.next (s'.memList type).head ps' ∧
      ∀ p ∈ ps, p ∈ ps' ∧ s'.rawData p = s.rawData p
  nodes : ∀ p, s'.nodes p ≠ none → s.nodes p ≠ none ∨
    ∃ ps', Chain s'.next (s'.memList type).head ps' ∧ p ∈ ps'
  blocks : ∀ e ∈ s'.blocks, e ∈ s.blocks ∨
    ∃ ps', Chain s'.next (s'.memList type).head ps' ∧ ∃ p ∈ ps', s'.rawData p = some e.1
  typed : ((s.memList type).valid = true → (s.memList type).type = type) →
    (s'.memList type).valid = true → (s'.memList type).type = type

theorem SameList.chain (h : SameList s s' type) (hps : Chain s.next (s.memList type).head ps) :
    Chain s'.next (s'.memList type).head ps ∧ ∀ p ∈ ps, s'.rawData p = s.rawData p := by
  have hsame := h.2 ps hps
  constructor
  · rw [h.1]
    exact hps.congr fun p hp => by rw [Pools.next, hsame p hp, Pools.next]
  · intro p hp
    rw [Pools.rawData, hsame p hp, Pools.rawData]

theorem Accounted.step (h : Accounted s) (hown : Keeps s s' type)
    (hother : ∀ type', type' ≠ type → SameList s s' type') : Accounted s' where
  nodes p hp := by
    rcases hown.nodes p hp with hp | ⟨ps', hps', hmem⟩
    · rcases h.nodes p hp with ⟨type', ps, hps, hmem⟩
      by_cases htype : type' = type
      · subst htype
        rcases hown.chain ps hps with ⟨ps', hps', hkeep⟩
        exact ⟨type', ps', hps', (hkeep p hmem).1⟩
      · exact ⟨type', ps, ((hother type' htype).chain hps).1, hmem⟩
    · exact ⟨type, ps', hps', hmem⟩
  blocks e he := by
    rcases hown.blocks e he with he | ⟨ps', hps', p, hp, hraw⟩
    · rcases h.blocks e he with ⟨type', ps, hps, p, hp, hraw⟩
      by_cases htype : type' = type
      · subst htype
        rcases hown.chain ps hps with ⟨ps', hps', hkeep⟩
        exact ⟨type', ps', hps', p, (hkeep p hp).1, (hkeep p hp).2.trans hraw⟩
      · have hsame := (hother type' htype).chain hps
        exact ⟨type', ps, hsame.1, p, hp, (hsame.2 p hp).trans hraw⟩
    · exact ⟨type, ps', hps', p, hp, hraw⟩
  typed type' hvalid := by
    by_cases htype : type' = type
    · subst htype
      exact hown.typed (h.typed type') hvalid
    · rw [(hother type' htype).1] at hvalid ⊢
      exact h.typed type' hvalid

theorem Keeps.of_frame {L' : Layout} (hL : TypeInv s type c L) (hf : Frame s s' type L)
    (hL' : TypeInv s' type c L') (hnodes : L'.nodes = L.nodes) : Keeps s s' type where
  chain ps hps := by
    rw [hps.unique hL.chain]
    exact ⟨L'.nodes, hL'.chain, fun p hp => ⟨by rw [hnodes]; exact hp, hf.raw p⟩⟩
  nodes p hp := by
    by_cases hmem : p ∈ L.nodes
    · exact Or.inr ⟨L'.nodes, hL'.chain, by rw [hnodes]; exact hmem⟩
    · rw [hf.nodes p hmem] at hp
      exact Or.inl hp
  blocks e he := by
    rw [hf.blocks] at he
    exact Or.inl he
  typed htype _ := by
    rw [hf.typed]
    exact htype hL.valid

theorem Keeps.of_unchanged (h : Inv s) (hsame : Unchanged s s' type) : Keeps s s' type where
  chain ps hps := by
    have hnext : s'.next = s.next := funext fun p => by rw [Pools.next, hsame.nodes p, Pools.next]
    have hraw : ∀ p, s'.rawData p = s.rawData p :=
      fun p => by rw [Pools.rawData, hsame.nodes p, Pools.rawData]
    rcases hsame.memList with hlist | ⟨hlist, hunset⟩
    · rw [hlist, hnext]
      exact ⟨ps, hps, fun p hp => ⟨hp, hraw p⟩⟩
    · rw [(h.unset type hunset).1] at hps
      rw [hlist, Chain.none_iff.mp hps]
      exact ⟨[], rfl, fun _ hp => absurd hp List.not_mem_nil⟩
  nodes p hp := by
    rw [hsame.nodes p] at hp
    exact Or.inl hp
  blocks e he := Or.inl (hsame.only e he)
  typed htype hvalid := by
    rcases hsame.memList with hlist | ⟨hlist, -⟩
    · rw [hlist] at hvalid ⊢
      exact htype hvalid
    · rw [hlist] at hvalid
      cases hvalid

theorem Keeps.of_setUp (h : Inv s) (hset : SetUp s s' type c L) : Keeps s s' type where
  chain ps hps := by
    rw [(h.unset type hset.unset).1] at hps
    rw [Chain.none_iff.mp hps]
    exact ⟨L.nodes, hset.typeInv.chain, nofun⟩
  nodes p hp := by
    by_cases hmem : p ∈ L.nodes
    · exact Or.inr ⟨L.nodes, hset.typeInv.chain, hmem⟩
    · rw [hset.nodes p hmem] at hp
      exact Or.inl hp
  blocks e he := (hset.only e he).imp_right fun ⟨p, hp, hraw⟩ =>
    ⟨L.nodes, hset.typeInv.chain, p, hp, hraw⟩
  typed _ _ := hset.typed

theorem Keeps.of_effect (h : Inv s) (heffect : Effect s s' type) : Keeps s s' type := by
  cases heffect with
  | same heq =>
    subst heq
    exact Keeps.of_unchanged h ⟨Or.inl rfl, rfl, fun _ => rfl, fun _ he => he⟩
  | move _ hL hf hL' hnodes => exact Keeps.of_frame hL hf hL' hnodes
  | init _ htype =>
    rcases htype with hsame | ⟨c, L, hset⟩
    · have hkeep := Keeps.of_unchanged h.started_of hsame
      exact ⟨hkeep.chain, hkeep.nodes, hkeep.blocks, hkeep.typed⟩
    · have hkeep := Keeps.of_setUp h.started_of hset
      exact ⟨hkeep.chain, hkeep.nodes, hkeep.blocks, hkeep.typed⟩
  | write _ _ _ heq =>
    subst heq
    exact Keeps.of_unchanged h ⟨Or.inl rfl, rfl, fun _ => rfl, fun _ he => he⟩

theorem accounted_step {a : Act} (h : Inv s) (ha : Accounted s) (hs : step s a = some s') :
    Accounted s' :=
  ha.step (Keeps.of_effect h (step_effect h hs)) (inv_step h hs).2

/-! ## 5. Everything is freed, and once -/

theorem mem_allTypes (i : UInt8) : i ∈ allTypes := by
  refine List.mem_map.mpr ⟨i.toNat, List.mem_range.mpr i.toNat_lt, ?_⟩
  exact UInt8.ofNat_toNat

theorem allTypes_nodup : allTypes.Nodup := by
  apply List.Nodup.map_on ?_ List.nodup_range
  intro a ha b hb heq
  have hsame := congrArg UInt8.toNat heq
  have ha : a < 2 ^ 8 := List.mem_range.mp ha
  have hb : b < 2 ^ 8 := List.mem_range.mp hb
  rwa [UInt8.toNat_ofNat_of_lt' ha, UInt8.toNat_ofNat_of_lt' hb] at hsame

theorem exists_length_le (c : UInt8 → Config) (is : List UInt8) :
    ∃ N, ∀ i ∈ is, (c i).length ≤ N := by
  induction is with
  | nil => exact ⟨0, nofun⟩
  | cons i is ih =>
    rcases ih with ⟨N, hN⟩
    refine ⟨max (c i).length N, fun j hj => ?_⟩
    rcases List.mem_cons.mp hj with rfl | hj
    · exact Nat.le_max_left ..
    · exact Nat.le_trans (hN j hj) (Nat.le_max_right ..)

theorem Inv.config_of_valid (h : Inv s) (hvalid : (s.memList i).valid = true) :
    ∃ c, s.config i = some c := by
  cases hc : s.config i with
  | some c => exact ⟨c, rfl⟩
  | none =>
    rw [(h.unset i hc).2.1] at hvalid
    cases hvalid

theorem Inv.layouts (h : Inv s) : ∃ (c : UInt8 → Config) (L : UInt8 → Layout),
    ∀ i, (s.memList i).valid = true → s.config i = some (c i) ∧ TypeInv s i (c i) (L i) := by
  have hall : ∀ i, ∃ c L, (s.memList i).valid = true → s.config i = some c ∧ TypeInv s i c L := by
    intro i
    cases hvalid : (s.memList i).valid with
    | false => exact ⟨⟨0, 0⟩, ⟨0, [], []⟩, nofun⟩
    | true =>
      rcases h.config_of_valid hvalid with ⟨c, hc⟩
      rcases h.types i c hc with ⟨L, hL⟩
      exact ⟨c, L, fun _ => ⟨hc, hL⟩⟩
  choose c L hcL using hall
  exact ⟨c, L, hcL⟩

/-- Each node and each block was freed once, and what is printed is right. -/
structure CleanedUp (s s' : Pools) (rs : List Cleaned) : Prop where
  nodesOnce : (rs.flatMap (·.nodes)).Nodup
  nodes : ∀ p, p ∈ rs.flatMap (·.nodes) ↔ s.nodes p ≠ none
  blocks : (rs.flatMap (·.blocks)).Perm (s.blocks.map (·.1))
  held : ∀ i, ∀ addr ∈ s.held i, addr - 1 ∈ rs.flatMap (·.blocks)
  noNode : ∀ p, s'.nodes p = none
  noBlock : s'.blocks = []
  types : rs.map (·.type) = allTypes.filter fun i => (s.config i).isSome
  inUse : ∀ r ∈ rs, r.left - 1 = (s.held r.type).length

section Cleaned

variable {c : UInt8 → Config} {L : UInt8 → Layout}

theorem mem_reports_nodes {p : Addr} :
    p ∈ (reports s c L allTypes).flatMap (·.nodes) ↔
      ∃ i, (s.memList i).valid = true ∧ p ∈ (L i).nodes := by
  simp only [reports, List.mem_flatMap, List.mem_map, List.mem_filter]
  constructor
  · rintro ⟨r, ⟨i, ⟨-, hvalid⟩, rfl⟩, hp⟩
    exact ⟨i, hvalid, hp⟩
  · rintro ⟨i, hvalid, hp⟩
    exact ⟨_, ⟨i, ⟨mem_allTypes i, hvalid⟩, rfl⟩, hp⟩

theorem mem_reports_blocks {b : Nat} :
    b ∈ (reports s c L allTypes).flatMap (·.blocks) ↔
      ∃ i, (s.memList i).valid = true ∧ ∃ p ∈ (L i).nodes, s.rawData p = some b := by
  simp only [reports, List.mem_flatMap, List.mem_map, List.mem_filter]
  constructor
  · rintro ⟨r, ⟨i, ⟨-, hvalid⟩, rfl⟩, hb⟩
    rcases List.mem_filterMap.mp hb with ⟨p, hp, hraw⟩
    exact ⟨i, hvalid, p, hp, hraw⟩
  · rintro ⟨i, hvalid, p, hp, hraw⟩
    exact ⟨_, ⟨i, ⟨mem_allTypes i, hvalid⟩, rfl⟩, List.mem_filterMap.mpr ⟨p, hp, hraw⟩⟩

/-- The types have neither nodes nor blocks in common. -/
theorem reports_once
    (hL : ∀ i, (s.memList i).valid = true → s.config i = some (c i) ∧ TypeInv s i (c i) (L i)) :
    ((reports s c L allTypes).flatMap (·.nodes)).Nodup ∧
      ((reports s c L allTypes).flatMap (·.blocks)).Nodup := by
  have hfilter : (allTypes.filter fun i => (s.memList i).valid).Nodup := allTypes_nodup.filter _
  have hvalid : ∀ i ∈ allTypes.filter fun i => (s.memList i).valid, (s.memList i).valid = true :=
    fun i hi => (List.mem_filter.mp hi).2
  constructor
  · rw [reports, List.flatMap_map, List.nodup_flatMap]
    refine ⟨fun i hi => (hL i (hvalid i hi)).2.nodup, ?_⟩
    apply hfilter.pairwise_of_forall_ne
    intro i hi j hj hne p hp hp'
    exact hne ((hL i (hvalid i hi)).2.apart (hL j (hvalid j hj)).2 hp hp')
  · rw [reports, List.flatMap_map, List.nodup_flatMap]
    refine ⟨fun i hi => (hL i (hvalid i hi)).2.raws, ?_⟩
    apply hfilter.pairwise_of_forall_ne
    intro i hi j hj hne b hb hb'
    rcases List.mem_filterMap.mp hb with ⟨p, hp, hraw⟩
    rcases List.mem_filterMap.mp hb' with ⟨q, hq, hraw'⟩
    rcases (hL i (hvalid i hi)).2.block p hp with ⟨b₁, hb₁, -, hbyte⟩
    rcases (hL j (hvalid j hj)).2.block q hq with ⟨b₂, hb₂, -, hbyte'⟩
    rw [hraw] at hb₁
    rw [hraw'] at hb₂
    cases hb₁
    cases hb₂
    exact hne (hbyte.symm.trans hbyte')

/-- A node that is live is in the list of a type that is set up. -/
theorem Inv.chain_cases (h : Inv s)
    (hL : ∀ i, (s.memList i).valid = true → s.config i = some (c i) ∧ TypeInv s i (c i) (L i))
    {ps : List Addr} (hps : Chain s.next (s.memList i).head ps) :
    ps = [] ∨ (s.memList i).valid = true ∧ ps = (L i).nodes := by
  cases hc : s.config i with
  | none =>
    rw [(h.unset i hc).1] at hps
    exact Or.inl (Chain.none_iff.mp hps)
  | some c' =>
    rcases h.types i c' hc with ⟨M, hM⟩
    exact Or.inr ⟨hM.valid, hps.unique (hL i hM.valid).2.chain⟩

theorem reported_nodes (h : Inv s) (ha : Accounted s)
    (hL : ∀ i, (s.memList i).valid = true → s.config i = some (c i) ∧ TypeInv s i (c i) (L i))
    (p : Addr) : p ∈ (reports s c L allTypes).flatMap (·.nodes) ↔ s.nodes p ≠ none := by
  rw [mem_reports_nodes]
  constructor
  · rintro ⟨i, hvalid, hp⟩
    rcases (hL i hvalid).2.live hp with ⟨node, hnode⟩
    rw [hnode]
    exact Option.some_ne_none node
  · intro hp
    rcases ha.nodes p hp with ⟨i, ps, hps, hmem⟩
    rcases h.chain_cases hL hps with rfl | ⟨hvalid, rfl⟩
    · cases hmem
    · exact ⟨i, hvalid, hmem⟩

theorem reported_blocks (h : Inv s) (ha : Accounted s)
    (hL : ∀ i, (s.memList i).valid = true → s.config i = some (c i) ∧ TypeInv s i (c i) (L i))
    (b : Nat) : b ∈ (reports s c L allTypes).flatMap (·.blocks) ↔ b ∈ s.blocks.map (·.1) := by
  rw [mem_reports_blocks]
  constructor
  · rintro ⟨i, hvalid, p, hp, hraw⟩
    rcases (hL i hvalid).2.block p hp with ⟨b', hb', hmem, -⟩
    rw [hraw] at hb'
    cases hb'
    exact List.mem_map.mpr ⟨_, hmem, rfl⟩
  · intro hb
    rcases List.mem_map.mp hb with ⟨e, he, rfl⟩
    rcases ha.blocks e he with ⟨i, ps, hps, p, hp, hraw⟩
    rcases h.chain_cases hL hps with rfl | ⟨hvalid, rfl⟩
    · cases hp
    · exact ⟨i, hvalid, p, hp, hraw⟩

theorem BlocksOk.nodup {bs : List (Nat × Nat)} (h : BlocksOk bs) : (bs.map (·.1)).Nodup := by
  rw [List.Nodup, List.pairwise_map]
  apply h.apart.imp_of_mem
  intro e f he hf hapart
  exact hapart.ne (h.pos e he) (h.pos f hf)

theorem Inv.valid_eq (h : Inv s) (i : UInt8) : (s.memList i).valid = (s.config i).isSome := by
  cases hc : s.config i with
  | none => exact (h.unset i hc).2.1
  | some c' =>
    rcases h.types i c' hc with ⟨M, hM⟩
    exact hM.valid

/-- What the reports list is all that there is, so nothing is left behind. -/
theorem cleanedUp_of_reports (h : Inv s) (ha : Accounted s)
    (hL : ∀ i, (s.memList i).valid = true → s.config i = some (c i) ∧ TypeInv s i (c i) (L i))
    (hclean : CleanedLists s s' allTypes (reports s c L allTypes)) :
    CleanedUp s s' (reports s c L allTypes) where
  nodesOnce := (reports_once hL).1
  nodes := reported_nodes h ha hL
  blocks := by
    have hiff := reported_blocks h ha hL
    exact (List.perm_ext_iff_of_nodup (reports_once hL).2 h.blocks.nodup).mpr hiff
  held i addr haddr := by
    cases hc : s.config i with
    | none =>
      rw [(h.unset i hc).2.2] at haddr
      cases haddr
    | some c' =>
      rcases h.types i c' hc with ⟨M, hM⟩
      rcases hM.held_block haddr with ⟨-, -, b, -, rfl, hmem, -⟩
      exact (reported_blocks h ha hL b).mpr (List.mem_map.mpr ⟨_, hmem, rfl⟩)
  noNode p := by
    rw [hclean.nodes p]
    by_cases hp : p ∈ (reports s c L allTypes).flatMap (·.nodes)
    · exact if_pos hp
    · rw [if_neg hp]
      exact not_not.mp fun hne => hp ((reported_nodes h ha hL p).mpr hne)
  noBlock := by
    rw [hclean.blocks, List.filter_eq_nil_iff]
    intro e he hkept
    have hreported := (reported_blocks h ha hL e.1).mpr (List.mem_map.mpr ⟨e, he, rfl⟩)
    exact of_decide_eq_true hkept hreported
  types := by
    have hfilter : (allTypes.filter fun i => (s.memList i).valid) =
        allTypes.filter fun i => (s.config i).isSome := List.filter_congr fun i _ => h.valid_eq i
    have htype : ∀ i ∈ allTypes.filter fun i => (s.memList i).valid,
        (cleanedOf s i (c i) (L i)).type = i :=
      fun i hi => ha.typed i (List.mem_filter.mp hi).2
    rw [← hfilter, reports, List.map_map]
    exact (List.map_congr_left htype).trans (List.map_id' _)
  inUse r hr := by
    rcases List.mem_map.mp hr with ⟨i, hi, rfl⟩
    have htype : (s.memList i).type = i := ha.typed i (List.mem_filter.mp hi).2
    show ((s.held i).length + 1 : Int) - 1 = (s.held (s.memList i).type).length
    rw [htype]
    omega

end Cleaned

theorem cleanMemList_eq (h : Inv s) (ha : Accounted s) :
    ∃ n₀, ∀ n, n₀ ≤ n → ∃ s' rs, cleanMemList s n = some (s', rs) ∧
      CleanedLists s s' allTypes rs ∧ CleanedUp s s' rs := by
  rcases h.layouts with ⟨c, L, hL⟩
  rcases exists_length_le c allTypes with ⟨N, hN⟩
  -- Enough rounds for the longest list, with its sentinel and the last test.
  refine ⟨N + 2, fun n hn => ?_⟩
  have hset : ∀ i ∈ allTypes, (s.memList i).valid = true →
      TypeInv s i (c i) (L i) ∧ (c i).length + 1 < n := by
    intro i hi hvalid
    have hlength := hN i hi
    exact ⟨(hL i hvalid).2, by omega⟩
  rcases cleanLists_eq allTypes_nodup hset with ⟨s', hs', hclean⟩
  exact ⟨s', _, hs', hclean, cleanedUp_of_reports h ha hL hclean⟩

/-! ## 6. Setting a type up again -/

/-- A pool without nodes and blocks, and with no type set up. -/
theorem CleanedUp.inv {rs : List Cleaned} (h : Inv s) (hclean : CleanedLists s s' allTypes rs)
    (hup : CleanedUp s s' rs) : Inv s'.forget ∧ Accounted s'.forget := by
  have hlist : ∀ i, (s'.memList i).head = none ∧ (s'.memList i).valid = false := by
    intro i
    cases hvalid : (s.memList i).valid with
    | true =>
      rw [hclean.cleaned i (mem_allTypes i) hvalid]
      exact ⟨rfl, rfl⟩
    | false =>
      rw [hclean.skipped i (Or.inr hvalid)]
      cases hc : s.config i with
      | none => exact ⟨(h.unset i hc).1, hvalid⟩
      | some c =>
        rcases h.types i c hc with ⟨L, hL⟩
        rw [hL.valid] at hvalid
        cases hvalid
  have hinit : s'.memListInit = s.memListInit := by rw [hclean.rest]
  refine ⟨⟨nofun, fun i _ => ⟨(hlist i).1, (hlist i).2, rfl⟩, ?_, ?_⟩, ⟨?_, ?_, ?_⟩⟩
  · show BlocksOk s'.blocks
    rw [hup.noBlock]
    exact ⟨List.Pairwise.nil, nofun⟩
  · -- Before the first `init_mem_list` there was nothing to clean.
    intro hfalse i
    refine ⟨rfl, ?_⟩
    have hfalse : s'.memListInit = false := hfalse
    rw [hinit] at hfalse
    have hstart := h.started hfalse i
    show s'.memList i = emptyList
    rw [hclean.skipped i (Or.inr (h.unset i hstart.1).2.1), hstart.2]
  · intro p hp
    exact absurd (hup.noNode p) hp
  · intro e he
    have he : e ∈ s'.blocks := he
    rw [hup.noBlock] at he
    cases he
  · intro i hvalid
    have hvalid : (s'.memList i).valid = true := hvalid
    rw [(hlist i).2] at hvalid
    cases hvalid

theorem initMemList_mallocsOf (h : Inv s) {size length : Int} {ms : List (Addr × Nat)}
    (htype : type ≠ 0) (hsize : 0 < size) (hlength : 0 < length) (hunset : s.config type = none)
    (hms : ms.length = (length + 1).toNat) (hfresh : Fresh s size.toNat ms) :
    ∃ s', initMemList s type size length (mallocsOf ms) = some (s', 1) ∧
      s'.config type = some ⟨size.toNat, length.toNat⟩ ∧ s'.held = s.held := by
  rcases h.initMemListLog_done [] htype hsize hlength hunset hms hfresh with
    ⟨s', head, l, hs', -, hgrows, hset⟩
  refine ⟨s', ?_, hset.config, hgrows.held⟩
  rw [List.append_nil] at hs'
  rw [← initMemListLog_fst, hs']
  rfl

/-- As long as some block is not handed out, `new_mem_node` hands out one more. -/
theorem Inv.exec_newMemNode {mem : Mem} (h : Inv s) (hc : s.config type = some c) {k : Nat}
    (hk : (s.held type).length + k ≤ c.length) :
    ∃ s', (cleaningPool mem).exec s (List.replicate k (.call (.newMemNode type))) = some s' ∧
      Inv s' ∧ s'.config type = some c ∧ (s'.held type).length = (s.held type).length + k := by
  induction k generalizing s with
  | zero => exact ⟨s, rfl, h, hc, rfl⟩
  | succ k ih =>
    rcases h.types type c hc with ⟨L, hL⟩
    have hlength := hL.held_length
    rcases List.eq_nil_or_concat L.free with hfree | ⟨l, p, hfree⟩
    · rw [hfree, List.length_nil] at hlength
      omega
    · rw [List.concat_eq_append] at hfree
      rcases hL.newMemNode_of_append hfree with ⟨s₁, b, hnew, hheld, hL', hf⟩
      let s₂ : Pools := { s₁ with held := Function.update s₁.held type ((b + 1) :: s₁.held type) }
      have hstep : step s (.newMemNode type) = some s₂ := by
        rw [step, hnew]
        rfl
      have hheld₂ : (s₂.held type).length = (s.held type).length + 1 := by
        show (Function.update s₁.held type _ type).length = _
        rw [Function.update_self, hheld, List.length_cons]
      have hc₂ : s₂.config type = some c := by
        have hconfig := hf.config
        exact (congrFun hconfig type).trans hc
      rcases ih (inv_step h hstep).1 hc₂ (by omega) with ⟨s', hs', hinv, hc', hheld'⟩
      refine ⟨s', ?_, hinv, hc', by omega⟩
      show (step s (.newMemNode type)).bind _ = _
      rw [hstep]
      exact hs'

/-! ## 7. Runs -/

theorem cleanNodes_mono {n m : Nat} (hnm : n ≤ m) {r : Cleaned} {x : Pools × Cleaned}
    (h : cleanNodes i n s r = some x) : cleanNodes i m s r = some x := by
  induction n generalizing m s r with
  | zero => cases h
  | succ n ih =>
    obtain ⟨m, rfl⟩ := Nat.exists_eq_succ_of_ne_zero (by omega : m ≠ 0)
    have hnm : n ≤ m := by omega
    rw [cleanNodes] at h ⊢
    cases hhead : (s.memList i).head with
    | none =>
      rw [hhead] at h
      exact h
    | some p =>
      rw [hhead] at h
      dsimp only at h ⊢
      rw [Option.bind_eq_bind, Option.bind_eq_some_iff] at h ⊢
      rcases h with ⟨node, hnode, h⟩
      refine ⟨node, hnode, ?_⟩
      cases hraw : node.rawData with
      | none =>
        rw [hraw] at h
        exact ih hnm h
      | some b =>
        rw [hraw] at h
        dsimp only at h ⊢
        rw [Option.bind_eq_bind, Option.bind_eq_some_iff] at h ⊢
        rcases h with ⟨s₁, hs₁, h⟩
        exact ⟨s₁, hs₁, ih hnm h⟩

theorem cleanLists_mono {n m : Nat} (hnm : n ≤ m) {is : List UInt8} {x : Pools × List Cleaned}
    (h : cleanLists n is s = some x) : cleanLists m is s = some x := by
  induction is generalizing s x with
  | nil => exact h
  | cons i is ih =>
    rw [cleanLists] at h ⊢
    dsimp only at h ⊢
    split at h
    · rename_i hvalid
      rw [if_pos hvalid]
      rw [Option.bind_eq_bind, Option.bind_eq_some_iff] at h ⊢
      rcases h with ⟨⟨s₁, r⟩, hnodes, h⟩
      refine ⟨(s₁, r), cleanNodes_mono hnm hnodes, ?_⟩
      rw [Option.bind_eq_bind, Option.bind_eq_some_iff] at h ⊢
      rcases h with ⟨⟨s₂, rs⟩, hlists, h⟩
      exact ⟨(s₂, rs), ih hlists, h⟩
    · rename_i hvalid
      rw [if_neg hvalid]
      exact ih h

theorem cleaning_invariant (mem : Mem) :
    (cleaningPool mem).Invariant fun s => Inv s ∧ Accounted s where
  init := ⟨inv_init mem, accounted_init mem⟩
  step {s s' a} h hs := by
    have hs : cleanStep s a = some s' := hs
    cases a with
    | call a => exact ⟨(inv_step h.1 hs).1, accounted_step h.1 h.2 hs⟩
    | cleanMemList n =>
      rw [cleanStep, Option.map_eq_some_iff] at hs
      rcases hs with ⟨⟨s₁, rs⟩, hclean, rfl⟩
      rcases cleanMemList_eq h.1 h.2 with ⟨n₀, hn₀⟩
      rcases hn₀ (max n n₀) (Nat.le_max_right ..) with ⟨s₂, rs₂, hs₂, hlists, hup⟩
      rw [cleanMemList, cleanLists_mono (Nat.le_max_left n n₀) hclean] at hs₂
      cases hs₂
      exact hup.inv h.1 hlists

/-- `clean_mem_list` frees every node and every block once, whoever has the block, and knows how
many are handed out. A type that is set up after that has all the blocks it is configured for. -/
theorem clean_exact {mem : Mem} (h : (cleaningPool mem).Reachable s) :
    ∃ n₀, ∀ n, n₀ ≤ n → ∃ s' rs, cleanMemList s n = some (s', rs) ∧ CleanedUp s s' rs ∧
      ∀ (type : UInt8) (size length : Int) (ms : List (Addr × Nat)), type ≠ 0 → 0 < size →
        0 < length → ms.length = (length + 1).toNat → (ms.map (·.1)).Nodup →
        (ms.map fun m => (m.2, size.toNat + 1)).Pairwise Apart →
        ∃ s₁ s₂, initMemList s'.forget type size length (mallocsOf ms) = some (s₁, 1) ∧
          (cleaningPool mem).exec s₁
            (List.replicate length.toNat (.call (.newMemNode type))) = some s₂ ∧
          (s₂.held type).length = length.toNat ∧ (s₂.held type).Nodup := by
  rcases (cleaning_invariant mem).of_reachable h with ⟨hinv, hacc⟩
  rcases cleanMemList_eq hinv hacc with ⟨n₀, hn₀⟩
  refine ⟨n₀, fun n hn => ?_⟩
  rcases hn₀ n hn with ⟨s', rs, hs', hlists, hup⟩
  refine ⟨s', rs, hs', hup, ?_⟩
  intro type size length ms htype hsize hlength hms hp hb
  have hinv' := (hup.inv hinv hlists).1
  have hfresh : ∀ m ∈ ms, freshBlock s'.forget m.2 (size.toNat + 1) = true := by
    intro m _
    rw [freshBlock_iff]
    intro e he
    have he : e ∈ s'.blocks := he
    rw [hup.noBlock] at he
    cases he
  rcases initMemList_mallocsOf hinv' htype hsize hlength rfl hms
    ⟨hp, fun m _ => hup.noNode m.1, hb, hfresh⟩ with ⟨s₁, hs₁, hc, hheld⟩
  have hinv₁ : Inv s₁ := by
    have hstep : step s'.forget (.initMemList type size length (mallocsOf ms)) = some s₁ := by
      rw [step, hs₁]
      rfl
    exact (inv_step hinv' hstep).1
  have hnone : (s₁.held type).length = 0 := by
    rw [hheld]
    rfl
  have hexec : ∃ s₂, (cleaningPool mem).exec s₁ _ = some s₂ ∧ _ :=
    hinv₁.exec_newMemNode hc (by rw [hnone]; exact Nat.le_of_eq (Nat.zero_add _))
  rcases hexec with ⟨s₂, hs₂, hinv₂, hc₂, hheld₂⟩
  refine ⟨s₁, s₂, hs₁, hs₂, by rw [hheld₂, hnone, Nat.zero_add], ?_⟩
  rcases hinv₂.types type _ hc₂ with ⟨L, hL⟩
  exact (List.nodup_append.mp hL.nodup_blocks).2.1

/-- Blocks of both types are handed out when the lists are cleaned, and type 9 is set up again. -/
theorem clean_exact_twoTypes :
    ∃ s n s' rs s₁, (cleaningPool fun _ => 0).exec (memPool fun _ => 0).init
        (twoTypes.map .call) = some s ∧ s.held 3 = [201] ∧ s.held 9 = [501] ∧
      cleanMemList s n = some (s', rs) ∧ 200 ∈ rs.flatMap (·.blocks) ∧ s'.blocks = [] ∧
      initMemList s'.forget 9 1 2 (mallocsOf [(1, 10), (2, 20), (3, 30)]) = some (s₁, 1) := by
  have hexec : ((cleaningPool fun _ => 0).exec (memPool fun _ => 0).init (twoTypes.map .call)).map
      (fun s => (s.held 3, s.held 9)) = some ([201], [501]) := by decide +kernel
  rw [Option.map_eq_some_iff] at hexec
  rcases hexec with ⟨s, hs, hheld⟩
  rw [Prod.mk.injEq] at hheld
  rcases clean_exact (TransitionSystem.reachable_of_exec _ hs) with ⟨n, hn⟩
  rcases hn n (Nat.le_refl n) with ⟨s', rs, hs', hup, hagain⟩
  rcases hagain 9 1 2 [(1, 10), (2, 20), (3, 30)] (by decide) (by decide) (by decide) rfl
    (by decide) (by simp [Apart]) with ⟨s₁, -, hs₁, -⟩
  refine ⟨s, n, s', rs, s₁, hs, hheld.1, hheld.2, hs', ?_, hup.noBlock, hs₁⟩
  exact hup.held 3 201 (by rw [hheld.1]; exact List.mem_cons_self)

end CcPof.MemPool

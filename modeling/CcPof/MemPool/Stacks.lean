import CcPof.Lib.StackPools
import CcPof.MemPool.Exclusive

/-!
# The pools are stacks

The list of a type works as a stack: `new_mem_node` hands out the block in front of the border,
and `free_mem_node` puts a block there, whichever node it came from. `init_mem_list` writes to no
block but the ones it got from `malloc`, so that the clients of the other types see nothing of it.
-/

namespace CcPof.MemPool

variable {s s' : Pools} {type : UInt8} {c : Config} {L : Layout} {addr off : Nat} {v : UInt8}
  {P : StackPools UInt8 UInt8}

/-- What the clients do, and what they see of it. -/
inductive Call
  | act (a : Act)
  | read (type : UInt8) (addr off : Nat)

def call (s : Pools) : Call → Option (PoolEvent UInt8 UInt8 × Pools)
  | .act (.initMemList type size length mallocs) => do
      let res ← initMemList s type size length mallocs
      (step s (.initMemList type size length mallocs)).map
        (Prod.mk (.init type size length (res.2 ≠ 0)))
  | .act (.newMemNode type) => do
      let res ← newMemNode s type
      (step s (.newMemNode type)).map (Prod.mk (.new type res.2))
  | .act (.freeMemNode type addr) =>
      (step s (.freeMemNode type addr)).map (Prod.mk (.free type addr))
  | .act (.write type addr off v) =>
      (step s (.write type addr off v)).map (Prod.mk (.write type addr off v))
  | .read type addr off =>
      match s.config type with
      | some c =>
          if addr ∈ s.held type ∧ off < c.size then
            some (.read type addr off (s.mem (addr + off)), s)
          else none
      | none => none

def poolCalls (mem : Mem) : EventSystem Pools (PoolEvent UInt8 UInt8) :=
  .ofCalls (memPool mem).init call

/-- The free blocks of a list, the next one to be handed out in front. -/
def freeBlocks (s : Pools) (L : Layout) : List Nat := (L.free.reverse.filterMap s.data).map (· + 1)

/-- The stacks that the lists stand for. -/
structure Stacked (s : Pools) (stack : UInt8 → List Nat) : Prop where
  set : ∀ type c, s.config type = some c → ∃ L, TypeInv s type c L ∧ stack type = freeBlocks s L
  unset : ∀ type, s.config type = none → stack type = []

structure Represents (s : Pools) (P : StackPools UInt8 UInt8) : Prop where
  inv : Inv s
  stacked : Stacked s P.stack
  typed : s.config 0 = none
  size : ∀ type, P.size type = (s.config type).map (·.size)
  held : P.held = s.held
  cells : ∀ type a off v, P.Cell type a off v → s.mem (a + off) = v

/-! ## 1. Stacks and lists -/

theorem freeBlocks_perm (s : Pools) (L : Layout) :
    (freeBlocks s L).Perm ((L.free.filterMap s.data).map (· + 1)) := by
  rw [freeBlocks, List.filterMap_reverse]
  exact (List.reverse_perm _).map _

/-- The blocks of a type are behind the bytes that say so. -/
theorem TypeInv.mem_blocks (h : TypeInv s type c L) (ha : addr ∈ freeBlocks s L ++ s.held type) :
    ∃ b, addr = b + 1 ∧ (b, c.size + 1) ∈ s.blocks ∧ s.mem b = type := by
  have hperm := ((freeBlocks_perm s L).append_right _).trans h.perm
  obtain ⟨b, hb, rfl⟩ := List.mem_map.mp (hperm.mem_iff.mp ha)
  obtain ⟨p, hp, hraw⟩ := List.mem_filterMap.mp hb
  obtain ⟨b', hb', hmem, hbyte⟩ := h.block p (List.mem_cons_of_mem _ hp)
  rw [hraw] at hb'
  cases hb'
  exact ⟨b, rfl, hmem, hbyte⟩

namespace Stacked

variable {stack : UInt8 → List Nat}

theorem unset_nil (h : Stacked s stack) (hinv : Inv s) (hc : s.config type = none) :
    stack type ++ s.held type = [] := by
  rw [h.unset type hc, (hinv.unset type hc).2.2, List.append_nil]

theorem config_of_mem (h : Stacked s stack) (hinv : Inv s) (ha : addr ∈ stack type ++ s.held type) :
    ∃ c L, s.config type = some c ∧ TypeInv s type c L ∧ stack type = freeBlocks s L := by
  cases hc : s.config type with
  | none =>
    rw [h.unset_nil hinv hc] at ha
    cases ha
  | some c =>
    obtain ⟨L, hL, hstack⟩ := h.set type c hc
    exact ⟨c, L, rfl, hL, hstack⟩

theorem block_of_mem (h : Stacked s stack) (hinv : Inv s) (ha : addr ∈ stack type ++ s.held type) :
    ∃ b c, s.config type = some c ∧ addr = b + 1 ∧ (b, c.size + 1) ∈ s.blocks ∧ s.mem b = type := by
  obtain ⟨c, L, hc, hL, hstack⟩ := h.config_of_mem hinv ha
  rw [hstack] at ha
  obtain ⟨b, hb⟩ := hL.mem_blocks ha
  exact ⟨b, c, hc, hb⟩

theorem nodup (h : Stacked s stack) (hinv : Inv s) (type : UInt8) :
    (stack type ++ s.held type).Nodup := by
  cases hc : s.config type with
  | none =>
    rw [h.unset_nil hinv hc]
    exact List.nodup_nil
  | some c =>
    obtain ⟨L, hL, hstack⟩ := h.set type c hc
    rw [hstack]
    exact ((freeBlocks_perm s L).append_right _).nodup_iff.mpr hL.nodup_blocks

end Stacked

/-- The stack pools that a state of the lists stands for. -/
def poolsOf (s : Pools) (stack : UInt8 → List Nat) (h : Stacked s stack) (hinv : Inv s) :
    StackPools UInt8 UInt8 where
  size type := (s.config type).map (·.size)
  stack := stack
  held := s.held
  cell a off := s.mem (a + off)
  unset type hsize := h.unset_nil hinv (Option.map_eq_none_iff.mp hsize)
  nodup := h.nodup hinv
  apart type type' a ha ha' := by
    obtain ⟨b, -, -, rfl, -, hb⟩ := h.block_of_mem hinv ha
    obtain ⟨b', -, -, hbb, -, hb'⟩ := h.block_of_mem hinv ha'
    cases hbb
    exact hb.symm.trans hb'

theorem represents_poolsOf {stack : UInt8 → List Nat} (h : Stacked s stack) (hinv : Inv s)
    (htyped : s.config 0 = none) : Represents s (poolsOf s stack h hinv) :=
  ⟨hinv, h, htyped, fun _ => rfl, rfl, fun _ _ _ _ hc => hc.2.2⟩

namespace Represents

theorem config (hR : Represents s P) {n : Nat} (hn : P.size type = some n) :
    ∃ c, s.config type = some c ∧ c.size = n := by
  rw [hR.size] at hn
  exact Option.map_eq_some_iff.mp hn

/-- A cell lies in a live block, behind its first byte. -/
theorem block (hR : Represents s P) (hc : P.Cell type addr off v) :
    ∃ b n, addr = b + 1 ∧ (b, n + 1) ∈ s.blocks ∧ off < n := by
  obtain ⟨ha, ⟨n, hn, hoff⟩, -⟩ := hc
  rw [StackPools.blocks, hR.held] at ha
  obtain ⟨b, c, hc, rfl, hb, -⟩ := hR.stacked.block_of_mem hR.inv ha
  obtain ⟨c', hc', rfl⟩ := hR.config hn
  rw [hc] at hc'
  cases hc'
  exact ⟨b, c.size, rfl, hb, hoff⟩

end Represents

/-! ## 2. `new_mem_node` and `free_mem_node` -/

theorem data_of_newMemNode {a : Nat} {t : Addr} (ht : (s.memList type).tail = some t)
    (h : newMemNode s type = some (s', some (a + 1))) :
    s.data t = some a ∧ ∀ q, s'.data q = if q = t then none else s.data q := by
  simp only [newMemNode, ht] at h
  split at h
  · cases h
  · split at h
    · simp only [Option.bind_eq_bind, Option.bind_some, Option.bind_eq_some_iff] at h
      obtain ⟨node, hnode, b, hb, s₁, hs₁, heq⟩ := h
      cases heq
      refine ⟨?_, (data_of_setData hs₁ :)⟩
      rw [Pools.data, hnode]
      exact hb
    · cases h

theorem data_of_freeMemNode {t p : Addr} (ht : (s.memList (s.mem (addr - 1))).tail = some t)
    (hp : s.next t = some p) (h : freeMemNode s addr = some s') :
    ∀ q, s'.data q = if q = p then some (addr - 1) else s.data q := by
  obtain ⟨node, hnode, hnext⟩ := Option.bind_eq_some_iff.mp hp
  simp only [freeMemNode, ht, Option.bind_eq_bind, Option.bind_some, hnode, hnext,
    Option.bind_eq_some_iff] at h
  obtain ⟨s₁, hs₁, heq⟩ := h
  cases heq
  exact (data_of_setData hs₁ :)

theorem freeBlocks_congr (hdata : ∀ p ∈ L.free, s'.data p = s.data p) :
    freeBlocks s' L = freeBlocks s L := by
  rw [freeBlocks, freeBlocks, List.filterMap_congr]
  intro p hp
  exact hdata p (List.mem_reverse.mp hp)

/-- A step on one type leaves the stacks of the others as they are. -/
theorem Stacked.of_frame {stack : UInt8 → List Nat} {L' : Layout} (h : Stacked s stack)
    (hc : s.config type = some c) (hL : TypeInv s type c L) (hf : Frame s s' type L)
    (hL' : TypeInv s' type c L') :
    Stacked s' (Function.update stack type (freeBlocks s' L')) := by
  constructor
  · intro type' c' hc'
    rw [hf.config] at hc'
    by_cases htype : type' = type
    · subst htype
      rw [hc] at hc'
      cases hc'
      exact ⟨L', hL', Function.update_self ..⟩
    · obtain ⟨M, hM, hstack⟩ := h.set type' c' hc'
      refine ⟨M, hf.typeInv hL hM htype, ?_⟩
      rw [Function.update_of_ne htype, hstack, freeBlocks_congr]
      intro p hp
      -- The nodes of two types are apart.
      have hother : p ∉ L.nodes := fun hmem => htype (hM.apart hL (Layout.free_mem hp) hmem)
      simp only [Pools.data, hf.nodes p hother]
  · intro type' hc'
    rw [hf.config] at hc'
    rw [Function.update_of_ne, h.unset type' hc']
    rintro rfl
    rw [hc] at hc'
    cases hc'

theorem TypeInv.ne_last (h : TypeInv s type c L) {l : List Addr} {p : Addr}
    (hfree : L.free = l ++ [p]) : ∀ q ∈ l, q ≠ p := by
  have hnodup := h.nodup
  rw [Layout.nodes, hfree, List.nodup_cons, List.nodup_append, List.nodup_append] at hnodup
  intro q hq
  exact hnodup.2.1.2.2 q hq p (List.mem_singleton_self p)

theorem TypeInv.ne_used (h : TypeInv s type c L) {used : List Addr} {p : Addr}
    (hused : L.used = p :: used) : ∀ q ∈ L.free, q ≠ p := by
  have hnodup := h.nodup
  rw [Layout.nodes, hused, List.nodup_cons, List.nodup_append] at hnodup
  intro q hq
  exact hnodup.2.2.2 q hq p List.mem_cons_self

/-- A step on the list of a type is a move on its stack. -/
theorem Represents.moves {L' : Layout} {stack held : List Nat} (hR : Represents s P)
    (hc : s.config type = some c) (hL : TypeInv s type c L) (hf : Frame s s' type L)
    (hL' : TypeInv s' type c L') (hstack : freeBlocks s' L' = stack)
    (hheld : s'.held = Function.update s.held type held) :
    ∃ P', StackPools.Moves P P' type stack held ∧ Represents s' P' := by
  have hstacked := hR.stacked.of_frame hc hL hf hL'
  rw [hstack] at hstacked
  have hinv := hR.inv.of_frame hc hL hf hL'
  have htyped : s'.config 0 = none := by
    rw [hf.config]
    exact hR.typed
  refine ⟨poolsOf s' _ hstacked hinv, ⟨?_, rfl, ?_, ?_⟩, represents_poolsOf hstacked hinv htyped⟩
  · funext type'
    rw [hR.size, ← hf.config]
    rfl
  · rw [hR.held]
    exact hheld
  · intro type' a off v hcell
    exact (congrFun hf.mem _).trans (hR.cells type' a off v hcell)

/-- `new_mem_node` takes the topmost block, or there is none. -/
theorem Represents.newMemNode (hR : Represents s P) {r : Option Nat} {s₁ : Pools}
    (hr : newMemNode s type = some (s₁, r)) (hs : step s (.newMemNode type) = some s') :
    ∃ P', P.Step P' (.new type r) ∧ Represents s' P' := by
  rw [step, hr, Option.map_some, Option.some.injEq] at hs
  cases hc : s.config type with
  | none =>
    -- No list, no block
    rw [newMemNode_of_unset hR.inv hc] at hr
    cases hr
    cases hs
    exact ⟨P, .empty (hR.stacked.unset type hc) rfl, hR⟩
  | some c =>
    obtain ⟨L, hL, hstack⟩ := hR.stacked.set type c hc
    rcases List.eq_nil_or_concat L.free with hfree | ⟨l, p, hfree⟩
    · rw [hL.newMemNode_of_empty hfree] at hr
      cases hr
      cases hs
      refine ⟨P, .empty ?_ rfl, hR⟩
      rw [hstack, freeBlocks, hfree]
      rfl
    · rw [List.concat_eq_append] at hfree
      obtain ⟨s₂, b, hnew, hheld, hL', hf⟩ := hL.newMemNode_of_append hfree
      rw [hnew] at hr
      cases hr
      dsimp only at hs
      rw [hheld] at hs
      subst hs
      obtain ⟨hb, hdata⟩ := data_of_newMemNode (hL.tail_of_append hfree) hnew
      -- The other free nodes keep their blocks, in the same order.
      have hrest : freeBlocks s₁ ⟨L.head, l, p :: L.used⟩ =
          (l.reverse.filterMap s.data).map (· + 1) := by
        rw [freeBlocks, List.filterMap_congr]
        intro q hq
        exact (hdata q).trans (if_neg (hL.ne_last hfree q (List.mem_reverse.mp hq)))
      have htop : P.stack type = (b + 1) :: (l.reverse.filterMap s.data).map (· + 1) := by
        rw [hstack, freeBlocks, hfree, List.reverse_append, List.reverse_singleton,
          List.singleton_append, List.filterMap_cons, hb, List.map_cons]
      obtain ⟨P', hmove, hR'⟩ := hR.moves hc hL hf hL' hrest rfl
      rw [← hR.held] at hmove
      exact ⟨P', .pop htop hmove, hR'⟩

/-- `free_mem_node` puts the block on top. -/
theorem Represents.freeMemNode (hR : Represents s P)
    (hs : step s (.freeMemNode type addr) = some s') :
    ∃ P', P.Step P' (.free type addr) ∧ Represents s' P' := by
  rw [step] at hs
  by_cases ha : addr ∈ s.held type
  · rw [if_pos ha] at hs
    obtain ⟨c, L, hc, hL, hstack⟩ := hR.stacked.config_of_mem hR.inv (List.mem_append_right _ ha)
    obtain ⟨s₁, p, used, hused, hfree, hheld, hL', hf⟩ := hL.freeMemNode_of_held ha
    rw [hfree, Option.map_some, Option.some.injEq, hheld] at hs
    subst hs
    obtain ⟨t, l, hl⟩ := L.exists_last
    obtain ⟨-, -, b, -, rfl, -, hbyte⟩ := hL.held_block ha
    have hdata := data_of_freeMemNode (by rw [hL.held_type ha]; exact hL.tail_of_last hl)
      (hL.next_tail hl hused) hfree
    -- The node behind the border becomes the last free one, with the block that comes back.
    have hpush : freeBlocks s₁ ⟨L.head, L.free ++ [p], used⟩ = (b + 1) :: P.stack type := by
      have hnew : s₁.data p = some b := (hdata p).trans (if_pos rfl)
      have hold : L.free.reverse.filterMap s₁.data = L.free.reverse.filterMap s.data :=
        List.filterMap_congr fun q hq =>
          (hdata q).trans (if_neg (hL.ne_used hused q (List.mem_reverse.mp hq)))
      rw [hstack, freeBlocks, freeBlocks, List.reverse_append, List.reverse_singleton,
        List.singleton_append, List.filterMap_cons, hnew, hold, List.map_cons]
    obtain ⟨P', hmove, hR'⟩ := hR.moves hc hL hf hL' hpush rfl
    rw [← hR.held] at hmove ha
    exact ⟨P', .push ha hmove, hR'⟩
  · rw [if_neg ha] at hs
    cases hs

/-! ## 3. `init_mem_list` -/

/-- The bytes of the live blocks, and what the types were set up with, are as they were. -/
structure SameBytes (s s' : Pools) : Prop where
  config : s'.config = s.config
  mem : ∀ e ∈ s.blocks, ∀ x, e.1 ≤ x → x < e.1 + e.2 → s'.mem x = s.mem x

theorem SameBytes.refl (s : Pools) : SameBytes s s := ⟨rfl, fun _ _ _ _ _ => rfl⟩

theorem setNode_eq {p : Addr} {f : MemNode → MemNode} (h : s.setNode p f = some s') :
    ∃ nodes, s' = { s with nodes := nodes } := by
  rw [Pools.setNode, Option.map_eq_some_iff] at h
  obtain ⟨node, -, rfl⟩ := h
  exact ⟨_, rfl⟩

/-- Linking a node writes one byte, the first of its block. -/
theorem linkNode_eq {p : Addr} {b : Nat} (h : linkNode s type p b = some s') :
    ∃ nodes memList, s' =
      { s with nodes := nodes, memList := memList, mem := put8 s.mem b type } := by
  rw [linkNode] at h
  dsimp only at h
  split at h
  · cases h
    exact ⟨_, _, rfl⟩
  · simp only [Option.bind_eq_bind, Option.bind_eq_some_iff] at h
    obtain ⟨s₁, hs₁, s₂, hs₂, s₃, hs₃, h⟩ := h
    obtain ⟨_, rfl⟩ := setNode_eq hs₁
    obtain ⟨_, rfl⟩ := setNode_eq hs₂
    obtain ⟨_, rfl⟩ := setNode_eq hs₃
    split at h
    · obtain ⟨_, rfl⟩ := setNode_eq h
      exact ⟨_, _, rfl⟩
    · cases h
      exact ⟨_, _, rfl⟩

def LoopEnd.pools : LoopEnd → Pools
  | done s | err s => s

theorem initLoop_sameBytes {size n : Nat} {mallocs : List (Option Nat)} {r : LoopEnd}
    (h : initLoop type size n mallocs s = some r) : SameBytes s r.pools := by
  fun_induction initLoop type size n mallocs s with
  | case1 => cases h; exact .refl _
  | case2 => cases h; exact .refl _
  | case3 => cases h; exact .refl _
  | case4 => cases h
  | case5 s n p b mallocs hfresh ih =>
    rw [Option.bind_eq_bind, Option.bind_eq_some_iff] at h
    obtain ⟨s₁, hlink, h⟩ := h
    have hrest := ih s₁ h
    obtain ⟨_, _, rfl⟩ := linkNode_eq hlink
    refine ⟨hrest.config, ?_⟩
    intro e he x hlo hhi
    rw [hrest.mem e (List.mem_cons_of_mem _ he) x hlo hhi]
    -- The byte that is written is in the new block, and `x` is in an old one.
    apply put8_outside
    have hapart := freshBlock_iff.mp hfresh.2 e he
    rw [Apart] at hapart
    dsimp only at hapart
    omega
  | case6 => cases h
  | case7 => cases h

theorem freeNodes_same {n : Nat} (h : freeNodes type n s = some s') :
    s'.mem = s.mem ∧ s'.config = s.config := by
  induction n generalizing s with
  | zero => cases h
  | succ n ih =>
    simp only [freeNodes] at h
    split at h
    · cases h
      exact ⟨rfl, rfl⟩
    · rw [Option.bind_eq_bind, Option.bind_eq_some_iff] at h
      obtain ⟨node, -, h⟩ := h
      split at h
      · rw [Option.bind_eq_bind, Option.bind_eq_some_iff] at h
        obtain ⟨s₁, hs₁, h⟩ := h
        rw [freeBlock] at hs₁
        split at hs₁
        · cases hs₁
          exact (ih h :)
        · cases hs₁
      · rw [Option.bind_eq_bind, Option.bind_some] at h
        exact (ih h :)

/-- The three ways in which `init_mem_list` returns. -/
inductive InitResult (s s' : Pools) (type : UInt8) (size length : Int) : Int → Prop
  | setUp {L : Layout} (hargs : type ≠ 0 ∧ 0 < size ∧ 0 < length)
      (hset : SetUp { s with memListInit := true } s' type ⟨size.toNat, length.toNat⟩ L) :
      InitResult s s' type size length 1
  | already (hargs : type ≠ 0 ∧ 0 < size ∧ 0 < length) (hvalid : (s.memList type).valid = true)
      (hsame : s' = { s with memListInit := true }) : InitResult s s' type size length 1
  | failed (hfail : type = 0 ∨ s.config type = none ∨ size ≤ 0 ∨ length ≤ 0)
      (hsame : Unchanged { s with memListInit := true } s' type) :
      InitResult s s' type size length 0

theorem initMemList_result {size length : Int} {mallocs : List (Option Nat)} {r : Int} (h : Inv s)
    (hr : initMemList s type size length mallocs = some (s', r)) :
    Grows { s with memListInit := true } s' type ∧ InitResult s s' type size length r ∧
      ∀ e ∈ s.blocks, ∀ x, e.1 ≤ x → x < e.1 + e.2 → s'.mem x = s.mem x := by
  obtain ⟨hgrows, htype⟩ := initMemList_grows h hr
  refine ⟨hgrows, ?_⟩
  simp only [initMemList, h.start] at hr
  split at hr
  · rename_i hbad
    cases hr
    refine ⟨.failed ?_ ⟨Or.inl rfl, rfl, fun _ => rfl, fun _ he => he⟩, fun _ _ _ _ _ => rfl⟩
    exact hbad.imp_right Or.inr
  rename_i hgood
  have hargs : type ≠ 0 ∧ 0 < size ∧ 0 < length := by
    simp only [not_or, not_le] at hgood
    exact hgood
  split at hr
  · rename_i hvalid
    cases hr
    exact ⟨.already hargs hvalid rfl, fun _ _ _ _ _ => rfl⟩
  rename_i hvalid
  rw [Option.bind_eq_bind, Option.bind_eq_some_iff] at hr
  obtain ⟨loop, hloop, hr⟩ := hr
  have hbytes := initLoop_sameBytes hloop
  -- A list that is not valid is that of a type that is not set up.
  have hconfig : s.config type = none := by
    cases hc : s.config type with
    | none => rfl
    | some c =>
      obtain ⟨L, hL⟩ := h.types type c hc
      exact absurd hL.valid hvalid
  cases loop with
  | done s₁ =>
    simp only [Option.bind_eq_bind, Option.bind_eq_some_iff] at hr
    obtain ⟨head, -, tail, -, hr⟩ := hr
    cases hr
    refine ⟨?_, hbytes.mem⟩
    rcases htype with hsame | ⟨c, L, hset⟩
    · -- The type has a configuration now, and had none.
      have hnone := hsame.config.trans hconfig
      dsimp only at hnone
      rw [Function.update_self] at hnone
      cases hnone
    · have hc := hset.config
      dsimp only at hc
      rw [Function.update_self] at hc
      cases hc
      exact .setUp hargs hset
  | err s₁ =>
    simp only [Option.bind_eq_bind, Option.bind_eq_some_iff] at hr
    obtain ⟨s₂, hfree, hr⟩ := hr
    cases hr
    obtain ⟨hmem, hsame⟩ := freeNodes_same hfree
    refine ⟨?_, fun e he x hlo hhi => (congrFun hmem x).trans (hbytes.mem e he x hlo hhi)⟩
    rcases htype with hunchanged | ⟨c, L, hset⟩
    · exact .failed (Or.inr (Or.inl hconfig)) hunchanged
    · have hsome := hset.config
      have hkept : s₂.config type = s.config type := congrFun (hsame.trans hbytes.config) type
      rw [show (s₂.setList type emptyList).config type = s₂.config type from rfl, hkept,
        hconfig] at hsome
      cases hsome

/-- The types that a growing step does not set up keep their stacks. -/
theorem Stacked.of_grows {stack : UInt8 → List Nat} (h : Stacked s stack)
    (hg : Grows { s with memListInit := true } s' type) {type' : UInt8} {c' : Config}
    (hc : s.config type' = some c') (hlist : s'.memList type' = s.memList type') :
    ∃ L, TypeInv s' type' c' L ∧ stack type' = freeBlocks s' L := by
  obtain ⟨L, hL, hstack⟩ := h.set type' c' hc
  have hstarted : TypeInv { s with memListInit := true } type' c' L :=
    hL.frame rfl (fun _ _ => rfl) (fun _ _ _ _ hb => ⟨hb, rfl⟩) rfl
  refine ⟨L, hg.typeInv hstarted hlist, ?_⟩
  rw [hstack, freeBlocks_congr]
  intro p hp
  obtain ⟨node, hnode⟩ := hL.live (Layout.free_mem hp)
  have hsome : s.nodes p ≠ none := by
    rw [hnode]
    nofun
  simp only [Pools.data]
  rw [hg.nodes p hsome]

/-- A second call for a type only finds out that it is set up. -/
theorem Represents.initAgain (hR : Represents s P) {size length : Int}
    (hgrows : Grows { s with memListInit := true } { s with memListInit := true } type)
    (hpos : 0 < size ∧ 0 < length) (hvalid : (s.memList type).valid = true) :
    P.Step P (.init type size length true) ∧ Represents { s with memListInit := true } P := by
  have hsome : ∃ c, s.config type = some c := by
    cases hc : s.config type with
    | none =>
      rw [(hR.inv.unset type hc).2.1] at hvalid
      cases hvalid
    | some c => exact ⟨c, rfl⟩
  obtain ⟨c, hc⟩ := hsome
  have hsize : P.size type = some c.size := by
    rw [hR.size, hc]
    rfl
  refine ⟨.already hsize hpos rfl, ?_⟩
  refine ⟨hR.inv.started_of, ⟨?_, hR.stacked.unset⟩, hR.typed, hR.size, hR.held, hR.cells⟩
  intro type' c' hc'
  exact hR.stacked.of_grows hgrows hc' rfl

/-- A set-up that fails gives back what it got from `malloc`. -/
theorem Represents.initFailed (hR : Represents s P)
    (hgrows : Grows { s with memListInit := true } s' type)
    (hsame : Unchanged { s with memListInit := true } s' type)
    (hcells : ∀ type a off v, P.Cell type a off v → s'.mem (a + off) = v) : Represents s' P := by
  have hconfig : s'.config = s.config := by
    funext type'
    by_cases htype : type' = type
    · subst htype
      exact hsame.config
    · exact hgrows.config type' htype
  have hstacked : Stacked s' P.stack := by
    constructor
    · intro type' c' hc'
      rw [hconfig] at hc'
      apply hR.stacked.of_grows hgrows hc'
      by_cases htype : type' = type
      · subst htype
        -- The list is cleared only where it was not set up.
        rcases hsame.memList with hlist | ⟨-, hnone⟩
        · exact hlist
        · rw [show s.config type' = none from hnone] at hc'
          cases hc'
      · exact hgrows.memList type' htype
    · intro type' hc'
      rw [hconfig] at hc'
      exact hR.stacked.unset type' hc'
  refine ⟨hR.inv.started_of.of_grows hgrows (Or.inl hsame), hstacked, ?_, ?_,
    hR.held.trans hgrows.held.symm, hcells⟩
  · rw [hconfig]
    exact hR.typed
  · intro type'
    rw [hconfig, hR.size]

/-- The free blocks of a list that has handed out none. -/
theorem TypeInv.length_freeBlocks (h : TypeInv s type c L) (hheld : s.held type = []) :
    (freeBlocks s L).length = c.length := by
  have hlength := h.held_length
  rw [hheld, List.length_nil, Nat.zero_add] at hlength
  rw [(freeBlocks_perm s L).length_eq, List.length_map, ← hlength]
  exact List.filterMap_length_eq_length.mpr h.freeData

/-- The blocks of a new type make a stack; the other types keep theirs. -/
theorem Represents.initSetUp (hR : Represents s P) {size length : Int}
    (hgrows : Grows { s with memListInit := true } s' type)
    (hargs : type ≠ 0 ∧ 0 < size ∧ 0 < length)
    (hset : SetUp { s with memListInit := true } s' type ⟨size.toNat, length.toNat⟩ L)
    (hcells : ∀ type a off v, P.Cell type a off v → s'.mem (a + off) = v) :
    ∃ P', P.Step P' (.init type size length true) ∧ Represents s' P' := by
  have hinv := hR.inv.started_of.of_grows hgrows (Or.inr ⟨_, L, hset⟩)
  have hnone : s.config type = none := hset.unset
  have hheld : s'.held type = [] := by
    rw [hgrows.held]
    exact (hR.inv.unset type hnone).2.2
  have hconfig : s'.config = Function.update s.config type (some ⟨size.toNat, length.toNat⟩) := by
    funext type'
    by_cases htype : type' = type
    · subst htype
      rw [Function.update_self]
      exact hset.config
    · rw [Function.update_of_ne htype]
      exact hgrows.config type' htype
  have hstacked : Stacked s' (Function.update P.stack type (freeBlocks s' L)) := by
    constructor
    · intro type' c' hc'
      rw [hconfig] at hc'
      by_cases htype : type' = type
      · subst htype
        rw [Function.update_self] at hc'
        cases hc'
        exact ⟨L, hset.typeInv, Function.update_self ..⟩
      · rw [Function.update_of_ne htype] at hc'
        rw [Function.update_of_ne htype]
        exact hR.stacked.of_grows hgrows hc' (hgrows.memList type' htype)
    · intro type' hc'
      rw [hconfig] at hc'
      by_cases htype : type' = type
      · subst htype
        rw [Function.update_self] at hc'
        cases hc'
      · rw [Function.update_of_ne htype] at hc'
        rw [Function.update_of_ne htype, hR.stacked.unset type' hc']
  have htyped : s'.config 0 = none := by
    rw [hconfig, Function.update_of_ne hargs.1.symm]
    exact hR.typed
  have hsize : P.size type = none := by
    rw [hR.size, hnone]
    rfl
  have hsizes : (poolsOf s' _ hstacked hinv).size =
      Function.update P.size type (some size.toNat) := by
    funext type'
    show (s'.config type').map (·.size) = _
    rw [hconfig]
    by_cases htype : type' = type
    · subst htype
      rw [Function.update_self, Function.update_self]
      rfl
    · rw [Function.update_of_ne htype, Function.update_of_ne htype, hR.size]
  have hsets := StackPools.setsUp_of_update hsize hsizes rfl
    (show s'.held = P.held from hgrows.held.trans hR.held.symm)
    (hset.typeInv.length_freeBlocks hheld) hcells
  exact ⟨_, .setUp hsize hargs.2 hsets, represents_poolsOf hstacked hinv htyped⟩

theorem Represents.initMemList (hR : Represents s P) {size length : Int}
    {mallocs : List (Option Nat)} {r : Int}
    (hr : initMemList s type size length mallocs = some (s', r)) :
    ∃ P', P.Step P' (.init type size length (r ≠ 0)) ∧ Represents s' P' := by
  obtain ⟨hgrows, hresult, hbytes⟩ := initMemList_result hR.inv hr
  have hcells : ∀ type a off v, P.Cell type a off v → s'.mem (a + off) = v := by
    intro type a off v hcell
    obtain ⟨b, n, rfl, hb, hoff⟩ := hR.block hcell
    rw [hbytes _ hb (b + 1 + off) (by dsimp only; omega) (by dsimp only; omega),
      hR.cells _ _ _ _ hcell]
  cases hresult with
  | already hargs hvalid hsame =>
    subst hsame
    exact ⟨P, hR.initAgain hgrows hargs.2 hvalid⟩
  | failed hfail hsame =>
    have hfail : P.size type = none ∨ size ≤ 0 ∨ length ≤ 0 := by
      rw [hR.size, Option.map_eq_none_iff]
      rcases hfail with rfl | hfail
      · exact Or.inl hR.typed
      · exact hfail
    exact ⟨P, .failed hfail rfl, hR.initFailed hgrows hsame hcells⟩
  | setUp hargs hset => exact hR.initSetUp hgrows hargs hset hcells

/-! ## 4. The bytes of a block -/

/-- Two cells that are at one address are one cell. -/
theorem Represents.cell_unique (hR : Represents s P) {type' : UInt8} {a a' off off' : Nat}
    {v v' : UInt8} (h : P.Cell type a off v) (h' : P.Cell type' a' off' v')
    (heq : a + off = a' + off') : a = a' ∧ off = off' := by
  obtain ⟨b, n, rfl, hb, hoff⟩ := hR.block h
  obtain ⟨b', n', rfl, hb', hoff'⟩ := hR.block h'
  have hsame := hR.inv.blocks.eq_of_byte (x := b + 1 + off) hb hb' ⟨by dsimp only; omega, by dsimp only; omega⟩
    ⟨by dsimp only; omega, by dsimp only; omega⟩
  cases hsame
  exact ⟨rfl, by omega⟩

theorem Represents.cell_of_held (hR : Represents s P) (hc : s.config type = some c)
    (ha : addr ∈ s.held type) (hoff : off < c.size) : P.Cell type addr off (P.cell addr off) := by
  refine ⟨List.mem_append_right _ ?_, ⟨c.size, ?_, hoff⟩, rfl⟩
  · rw [hR.held]
    exact ha
  · rw [hR.size, hc]
    rfl

theorem Represents.read (hR : Represents s P) (hc : s.config type = some c)
    (ha : addr ∈ s.held type) (hoff : off < c.size) :
    P.Step P (.read type addr off (s.mem (addr + off))) := by
  have hcell := hR.cell_of_held hc ha hoff
  rw [hR.cells _ _ _ _ hcell]
  refine .read ?_ hcell rfl
  rw [hR.held]
  exact ha

theorem Represents.write (hR : Represents s P)
    (hs : step s (.write type addr off v) = some s') :
    ∃ P', P.Step P' (.write type addr off v) ∧ Represents s' P' := by
  rw [step] at hs
  cases hc : s.config type with
  | none =>
    rw [hc] at hs
    cases hs
  | some c =>
    rw [hc] at hs
    dsimp only at hs
    by_cases hw : addr ∈ s.held type ∧ off < c.size
    · rw [if_pos hw, Option.some.injEq] at hs
      subst hs
      have hcell := hR.cell_of_held hc hw.1 hw.2
      have hinv := hR.inv.write (v := v) hc hw.1 hw.2
      have hstacked : Stacked { s with mem := put8 s.mem (addr + off) v } P.stack := by
        refine ⟨?_, hR.stacked.unset⟩
        intro type' c' hc'
        obtain ⟨L, hL, hstack⟩ := hR.stacked.set type' c' hc'
        refine ⟨L, hL.frame rfl (fun _ _ => rfl) ?_ rfl, hstack⟩
        intro p _ b _ hb
        exact ⟨hb, hR.inv.put8_type hc hw.1 hw.2 hb⟩
      refine ⟨_, .write ?_ ?_ hw.2 rfl, hinv, hstacked, hR.typed, hR.size, hR.held, ?_⟩
      · rw [hR.held]
        exact hw.1
      · rw [hR.size, hc]
        rfl
      · intro type' a off' w hcell'
        have hold : P.Cell type' a off' (P.cell a off') := ⟨hcell'.1, hcell'.2.1, rfl⟩
        have hw : Function.update P.cell addr (Function.update (P.cell addr) off v) a off' = w :=
          hcell'.2.2
        show put8 s.mem (addr + off) v (a + off') = w
        rw [put8, put8_apply]
        -- Two cells at one address are the same cell.
        by_cases heq : a + off' = addr + off
        · obtain ⟨rfl, rfl⟩ := hR.cell_unique hold hcell heq
          rw [Function.update_self, Function.update_self] at hw
          rw [if_pos rfl, hw]
        · rw [if_neg heq, hR.cells _ _ _ _ hold, ← hw]
          by_cases ha : a = addr
          · subst ha
            have hoff : off' ≠ off := fun h => heq (by rw [h])
            rw [Function.update_self, Function.update_of_ne hoff]
          · rw [Function.update_of_ne ha]
    · rw [if_neg hw] at hs
      cases hs

theorem Represents.call (hR : Represents s P) {c : Call} {e : PoolEvent UInt8 UInt8}
    (hc : call s c = some (e, s')) : ∃ P', P.Step P' e ∧ Represents s' P' := by
  cases c with
  | read type addr off =>
    rw [CcPof.MemPool.call] at hc
    split at hc
    · rename_i c hconfig
      by_cases hr : addr ∈ s.held type ∧ off < c.size
      · rw [if_pos hr] at hc
        cases hc
        exact ⟨P, hR.read hconfig hr.1 hr.2, hR⟩
      · rw [if_neg hr] at hc
        cases hc
    · cases hc
  | act a =>
    cases a with
    | initMemList type size length mallocs =>
      rw [CcPof.MemPool.call, Option.bind_eq_bind, Option.bind_eq_some_iff] at hc
      obtain ⟨⟨s₁, r⟩, hr, hc⟩ := hc
      obtain ⟨s₂, hs, heq⟩ := Option.map_eq_some_iff.mp hc
      cases heq
      rw [step, hr] at hs
      cases hs
      exact hR.initMemList hr
    | newMemNode type =>
      rw [CcPof.MemPool.call, Option.bind_eq_bind, Option.bind_eq_some_iff] at hc
      obtain ⟨⟨s₁, r⟩, hr, hc⟩ := hc
      obtain ⟨s₂, hs, heq⟩ := Option.map_eq_some_iff.mp hc
      cases heq
      exact hR.newMemNode hr hs
    | freeMemNode type addr =>
      obtain ⟨s₁, hs, heq⟩ := Option.map_eq_some_iff.mp hc
      cases heq
      exact hR.freeMemNode hs
    | write type addr off v =>
      obtain ⟨s₁, hs, heq⟩ := Option.map_eq_some_iff.mp hc
      cases heq
      exact hR.write hs

theorem represents_init (mem : Mem) :
    Represents (memPool mem).init (StackPools.system UInt8 UInt8).init where
  inv := inv_init mem
  stacked := ⟨nofun, fun _ _ => rfl⟩
  typed := rfl
  size _ := rfl
  held := rfl
  cells _ _ _ _ hc := absurd hc.1 List.not_mem_nil

theorem pool_simulation (mem : Mem) :
    (poolCalls mem).Simulation (StackPools.system UInt8 UInt8) Represents where
  init := represents_init mem
  step := by
    intro s s' P e hR ⟨c, hc⟩
    exact hR.call hc

/-! ## 5. Runs -/

/-- Two types; the blocks of type 3 come back in another order than they went. -/
def twoStacks : List Call :=
  [Call.act (.initMemList 3 8 2 [some 1, some 100, some 2, some 200, some 3, some 300]),
    .act (.newMemNode 3), .act (.newMemNode 3), .act (.newMemNode 3),
    .act (.initMemList 9 4 1 [some 4, some 400, some 5, some 500]), .act (.freeMemNode 3 201),
    .act (.write 3 301 7 255), .act (.freeMemNode 3 301), .act (.newMemNode 9),
    .act (.newMemNode 3)]

theorem trace_twoStacks : (poolCalls fun _ => 0).Trace
    ([.init 3 8 2 true, .new 3 (some 201), .new 3 (some 301), .new 3 none, .init 9 4 1 true,
      .free 3 201, .write 3 301 7 255] ++
        .free 3 301 :: ([.new 9 (some 501)] ++ [.new 3 (some 301)])) :=
  EventSystem.trace_of_answers (c := twoStacks) (by decide +kernel)

theorem trace_twoStacks_read : (poolCalls fun _ => 0).Trace
    ([.init 3 8 2 true, .new 3 (some 201), .new 3 (some 301), .new 3 none, .init 9 4 1 true,
      .free 3 201] ++ .write 3 301 7 255 :: ([.free 3 301, .new 9 (some 501), .new 3 (some 301)] ++
        [.read 3 301 7 255])) :=
  EventSystem.trace_of_answers (c := twoStacks ++ [.read 3 301 7]) (by decide +kernel)

/-- **The block freed last is handed out next**, whatever is done with the other types and with
the bytes of the blocks in between. -/
theorem newMemNode_reuses_last {mem : Mem} {l₁ l : List (PoolEvent UInt8 UInt8)} {r : Option Nat}
    (hl : (poolCalls mem).Trace (l₁ ++ .free type addr :: (l ++ [.new type r])))
    (hquiet : ∀ e ∈ l, (∀ r, e ≠ .new type r) ∧ ∀ b, e ≠ .free type b) : r = some addr :=
  StackPools.reuses_last ((pool_simulation mem).refines _ hl) hquiet

theorem newMemNode_reuses_last_twoStacks : (some 301 : Option Nat) = some 301 ∧
    (poolCalls fun _ => 0).Trace
      ([.init 3 8 2 true, .new 3 (some 201), .new 3 (some 301), .new 3 none, .init 9 4 1 true,
        .free 3 201, .write 3 301 7 255] ++
          .free 3 301 :: ([.new 9 (some 501)] ++ [.new 3 (some 301)])) :=
  ⟨newMemNode_reuses_last trace_twoStacks (by simp), trace_twoStacks⟩

/-- **A block keeps its bytes** while it is freed and handed out again, to whichever client. -/
theorem memPool_read_last_write {mem : Mem} {l₁ l : List (PoolEvent UInt8 UInt8)} {w : UInt8}
    (hl : (poolCalls mem).Trace (l₁ ++ .write type addr off v :: (l ++ [.read type addr off w])))
    (hquiet : ∀ e ∈ l, ∀ u, e ≠ .write type addr off u) : w = v :=
  StackPools.read_last_write ((pool_simulation mem).refines _ hl) hquiet

theorem memPool_read_last_write_twoStacks : (255 : UInt8) = 255 ∧ (poolCalls fun _ => 0).Trace
    ([.init 3 8 2 true, .new 3 (some 201), .new 3 (some 301), .new 3 none, .init 9 4 1 true,
      .free 3 201] ++ .write 3 301 7 255 :: ([.free 3 301, .new 9 (some 501), .new 3 (some 301)] ++
        [.read 3 301 7 255])) :=
  ⟨memPool_read_last_write trace_twoStacks_read (by simp), trace_twoStacks_read⟩

end CcPof.MemPool

import Mathlib.Data.List.Nodup
import Mathlib.Logic.Function.Basic
import CcPof.Lib.Refinement

/-!
# Pools that are stacks

What a set of block pools is for: each type is set up once, with as many new blocks as are asked
for, on a stack. A request takes the topmost block and a release puts its block on top. The blocks
keep their cells while they are free, so the next holder finds what the last one left. No block is
in two places.
-/

namespace CcPof

/-- `size` is that of the blocks of a type, where the type was set up. -/
structure StackPools (τ β : Type) where
  size : τ → Option Nat
  stack : τ → List Nat
  held : τ → List Nat
  cell : Nat → Nat → β
  unset : ∀ t, size t = none → stack t ++ held t = []
  nodup : ∀ t, (stack t ++ held t).Nodup
  apart : ∀ t t' a, a ∈ stack t ++ held t → a ∈ stack t' ++ held t' → t = t'

inductive PoolEvent (τ β : Type)
  | init (type : τ) (size length : Int) (done : Bool)
  | new (type : τ) (res : Option Nat)
  | free (type : τ) (addr : Nat)
  | write (type : τ) (addr off : Nat) (v : β)
  | read (type : τ) (addr off : Nat) (v : β)
  deriving DecidableEq

namespace StackPools

variable {τ β : Type} {P P' : StackPools τ β} {e : PoolEvent τ β} {t : τ}
  {a b off : Nat} {v w : β} {r : Option Nat} {l l₁ : List (PoolEvent τ β)}

/-- The blocks of a type, free or not. -/
def blocks (P : StackPools τ β) (t : τ) : List Nat := P.stack t ++ P.held t

/-- The cell `off` of the block `a` holds `v`. -/
def Cell (P : StackPools τ β) (t : τ) (a off : Nat) (v : β) : Prop :=
  a ∈ P.blocks t ∧ (∃ n, P.size t = some n ∧ off < n) ∧ P.cell a off = v

/-- The cells of the blocks of `P` are the same in `P'`. -/
def SameCells (P P' : StackPools τ β) : Prop := ∀ t a off v, P.Cell t a off v → P'.cell a off = v

theorem pop_perm {rest : List Nat} (htop : P.stack t = a :: rest) :
    (rest ++ a :: P.held t).Perm (P.blocks t) := by
  rw [blocks, htop]
  exact List.perm_middle

theorem push_perm (ha : a ∈ P.held t) : (a :: P.stack t ++ (P.held t).erase a).Perm (P.blocks t) :=
  List.perm_middle.symm.trans (List.Perm.append_left _ (List.perm_cons_erase ha).symm)

variable [DecidableEq τ]

/-- A step that moves a block of one type, if any. -/
structure Moves (P P' : StackPools τ β) (t : τ) (stack held : List Nat) : Prop where
  size : P'.size = P.size
  stack : P'.stack = Function.update P.stack t stack
  held : P'.held = Function.update P.held t held
  cells : SameCells P P'

/-- `new` becomes the stack of `t`: `length` blocks that are in none of the pools. -/
structure SetsUp (P P' : StackPools τ β) (t : τ) (size length : Nat) (new : List Nat) : Prop where
  size : P'.size = Function.update P.size t (some size)
  stack : P'.stack = Function.update P.stack t new
  held : P'.held = P.held
  count : new.length = length
  nodup : new.Nodup
  fresh : ∀ a ∈ new, ∀ t', a ∉ P.blocks t'
  cells : SameCells P P'

inductive Step (P P' : StackPools τ β) : PoolEvent τ β → Prop
  | setUp {t : τ} {size length : Int} {new : List Nat} (hnone : P.size t = none)
      (hpos : 0 < size ∧ 0 < length) (hset : SetsUp P P' t size.toNat length.toNat new) :
      Step P P' (.init t size length true)
  | already {t : τ} {size length : Int} {n : Nat} (hsome : P.size t = some n)
      (hpos : 0 < size ∧ 0 < length) (hsame : P' = P) : Step P P' (.init t size length true)
  | failed {t : τ} {size length : Int} (hfail : P.size t = none ∨ size ≤ 0 ∨ length ≤ 0)
      (hsame : P' = P) : Step P P' (.init t size length false)
  | empty {t : τ} (hempty : P.stack t = []) (hsame : P' = P) : Step P P' (.new t none)
  | pop {t : τ} {a : Nat} {rest : List Nat} (htop : P.stack t = a :: rest)
      (hmove : Moves P P' t rest (a :: P.held t)) : Step P P' (.new t (some a))
  | push {t : τ} {a : Nat} (ha : a ∈ P.held t)
      (hmove : Moves P P' t (a :: P.stack t) ((P.held t).erase a)) : Step P P' (.free t a)
  | write {t : τ} {a off n : Nat} {v : β} (ha : a ∈ P.held t) (hsize : P.size t = some n)
      (hoff : off < n) (hsame : P' = { P with
        cell := Function.update P.cell a (Function.update (P.cell a) off v) }) :
      Step P P' (.write t a off v)
  | read {t : τ} {a off : Nat} {v : β} (ha : a ∈ P.held t) (hv : P.Cell t a off v)
      (hsame : P' = P) : Step P P' (.read t a off v)

def system (τ β : Type) [DecidableEq τ] [Inhabited β] :
    EventSystem (StackPools τ β) (PoolEvent τ β) where
  init := {
    size := fun _ => none
    stack := fun _ => []
    held := fun _ => []
    cell := fun _ _ => default
    unset := fun _ _ => rfl
    nodup := fun _ => List.nodup_nil
    apart := nofun }
  step P e P' := Step P P' e

/-! ## 1. Steps -/

/-- Blocks that a type gets without having had any are new ones: `P'` holds no block twice. -/
theorem setsUp_of_update {size length : Nat} {new : List Nat} (hnone : P.size t = none)
    (hsize : P'.size = Function.update P.size t (some size))
    (hstack : P'.stack = Function.update P.stack t new) (hheld : P'.held = P.held)
    (hcount : new.length = length) (hcells : SameCells P P') : SetsUp P P' t size length new := by
  have hnew : P'.stack t = new := by
    rw [hstack, Function.update_self]
  refine ⟨hsize, hstack, hheld, hcount, ?_, ?_, hcells⟩
  · rw [← hnew]
    exact (List.nodup_append.mp (P'.nodup t)).1
  · intro a ha t' ht'
    by_cases heq : t' = t
    · subst heq
      rw [blocks, P.unset t' hnone] at ht'
      cases ht'
    · -- The block would be one of both types.
      have hold : a ∈ P'.stack t' ++ P'.held t' := by
        rw [hstack, Function.update_of_ne heq, hheld]
        exact ht'
      rw [← hnew] at ha
      exact heq (P'.apart t' t a hold (List.mem_append_left _ ha))

/-- A block that moves stays with its type. -/
theorem Moves.mem_blocks {stack held : List Nat} (h : Moves P P' t stack held)
    (hperm : (stack ++ held).Perm (P.blocks t)) (t' : τ) (a : Nat) :
    a ∈ P'.blocks t' ↔ a ∈ P.blocks t' := by
  rw [blocks, h.stack, h.held]
  by_cases ht : t' = t
  · rw [ht, Function.update_self, Function.update_self]
    exact hperm.mem_iff
  · rw [Function.update_of_ne ht, Function.update_of_ne ht, blocks]

theorem Step.size (h : Step P P' e) {n : Nat} (hn : P.size t = some n) : P'.size t = some n := by
  cases h with
  | setUp hnone _ hset =>
    rw [hset.size, Function.update_of_ne, hn]
    rintro rfl
    rw [hn] at hnone
    cases hnone
  | pop _ hmove | push _ hmove => rw [hmove.size, hn]
  | already _ _ hsame | failed _ hsame | empty _ hsame | write _ _ _ hsame | read _ _ hsame =>
    rw [hsame, hn]

theorem Step.mem_blocks (h : Step P P' e) (ha : a ∈ P.blocks t) (hn : P.size t ≠ none) :
    a ∈ P'.blocks t := by
  cases h with
  | setUp hnone _ hset =>
    -- A type that is set up has no blocks before.
    rw [blocks, hset.held, hset.stack, Function.update_of_ne, ← blocks]
    · exact ha
    · rintro rfl
      exact hn hnone
  | pop htop hmove => exact (hmove.mem_blocks (pop_perm htop) t a).mpr ha
  | push hheld hmove => exact (hmove.mem_blocks (push_perm hheld) t a).mpr ha
  | already _ _ hsame | failed _ hsame | empty _ hsame | write _ _ _ hsame | read _ _ hsame =>
    rwa [hsame]

/-- A cell keeps what it holds, whoever has its block, until it is written to. -/
theorem Cell.step (hc : P.Cell t a off v) (h : Step P P' e) (hwrite : ∀ w, e ≠ .write t a off w) :
    P'.Cell t a off v := by
  obtain ⟨ha, ⟨n, hn, hoff⟩, hv⟩ := hc
  have hblock := h.mem_blocks ha (by rw [hn]; nofun)
  refine ⟨hblock, ⟨n, h.size hn, hoff⟩, ?_⟩
  have hkept : SameCells P P' → P'.cell a off = v := fun hcells => hcells t a off v ⟨ha, ⟨n, hn, hoff⟩, hv⟩
  cases h with
  | setUp _ _ hset => exact hkept hset.cells
  | pop _ hmove | push _ hmove => exact hkept hmove.cells
  | already _ _ hsame | failed _ hsame | empty _ hsame | read _ _ hsame => rw [hsame, hv]
  | @write t' a' off' n' w ha' _ _ hsame =>
    rw [hsame]
    dsimp only
    by_cases haa : a = a'
    · subst haa
      obtain rfl := P.apart t t' a ha (List.mem_append_right _ ha')
      -- It is another cell of the same block.
      rw [Function.update_self, Function.update_of_ne, hv]
      rintro rfl
      exact hwrite w rfl
    · rw [Function.update_of_ne haa, hv]

theorem cell_of_write (h : Step P P' (.write t a off v)) : P'.Cell t a off v := by
  cases h with
  | write ha hn hoff hsame =>
    subst hsame
    refine ⟨List.mem_append_right _ ha, ⟨_, hn, hoff⟩, ?_⟩
    show Function.update P.cell a (Function.update (P.cell a) off v) a off = v
    rw [Function.update_self, Function.update_self]

theorem cell_of_read (h : Step P P' (.read t a off v)) : P.Cell t a off v := by
  cases h with
  | read _ hv _ => exact hv

/-- The block on top of a stack stays there while no block of the type comes or goes. -/
theorem Step.top (h : Step P P' e) {rest : List Nat} (htop : P.stack t = a :: rest)
    (hnew : ∀ r, e ≠ .new t r) (hfree : ∀ b, e ≠ .free t b) : P'.stack t = a :: rest := by
  cases h with
  | setUp hnone _ hset =>
    rw [hset.stack, Function.update_of_ne, htop]
    rintro rfl
    -- The stack of a type that is not set up is empty.
    have hnil := P.unset t hnone
    rw [htop] at hnil
    cases hnil
  | pop _ hmove =>
    rw [hmove.stack, Function.update_of_ne, htop]
    rintro rfl
    exact hnew _ rfl
  | push _ hmove =>
    rw [hmove.stack, Function.update_of_ne, htop]
    rintro rfl
    exact hfree _ rfl
  | already _ _ hsame | failed _ hsame | empty _ hsame | write _ _ _ hsame | read _ _ hsame =>
    rw [hsame, htop]

/-! ## 2. Runs -/

variable [Inhabited β]

/-- **The last one freed is the first one reused.** -/
theorem reuses_last (h : (system τ β).Trace (l₁ ++ .free t a :: (l ++ [.new t r])))
    (hquiet : ∀ e ∈ l, (∀ r, e ≠ .new t r) ∧ ∀ b, e ≠ .free t b) : r = some a := by
  -- Cut the run behind the release and before the request.
  obtain ⟨P₃, hrun⟩ := h
  obtain ⟨P₀, _, hrun⟩ := EventSystem.run_append.mp hrun
  cases hrun with
  | @cons _ P₁ _ _ _ hfree hrun =>
    obtain ⟨P₂, hl, hnew⟩ := EventSystem.run_append.mp hrun
    have hpush : ∃ rest, P₁.stack t = a :: rest := by
      cases (show Step P₀ P₁ _ from hfree) with
      | push _ hmove => exact ⟨P₀.stack t, by rw [hmove.stack, Function.update_self]⟩
    obtain ⟨rest, htop⟩ := hpush
    -- No block of the type comes or goes in between.
    have htop₂ : P₂.stack t = a :: rest := by
      refine hl.keeps (I := fun P => P.stack t = a :: rest) ?_ htop
      intro P P' e he htop hstep
      exact Step.top hstep htop (hquiet e he).1 (hquiet e he).2
    cases (show Step P₂ P₃ _ from EventSystem.run_singleton.mp hnew) with
    | empty hempty =>
      rw [htop₂] at hempty
      cases hempty
    | pop hpop =>
      rw [htop₂] at hpop
      cases hpop
      rfl

/-- **Blocks keep their contents** while they are freed and handed out again. -/
theorem read_last_write
    (h : (system τ β).Trace (l₁ ++ .write t a off v :: (l ++ [.read t a off w])))
    (hquiet : ∀ e ∈ l, ∀ u, e ≠ .write t a off u) : w = v := by
  obtain ⟨P₃, hrun⟩ := h
  obtain ⟨P₀, _, hrun⟩ := EventSystem.run_append.mp hrun
  cases hrun with
  | @cons _ P₁ _ _ _ hwrite hrun =>
    obtain ⟨P₂, hl, hread⟩ := EventSystem.run_append.mp hrun
    have hwritten : P₁.Cell t a off v := cell_of_write (show Step P₀ P₁ _ from hwrite)
    -- The cell keeps its value whoever has the block.
    have hcell : P₂.Cell t a off v := by
      refine hl.keeps (I := fun P => P.Cell t a off v) ?_ hwritten
      intro P P' e he hc hstep
      exact hc.step hstep (hquiet e he)
    have hread : P₂.Cell t a off w := cell_of_read (show Step P₂ P₃ _ from EventSystem.run_singleton.mp hread)
    exact hread.2.2.symm.trans hcell.2.2

end StackPools

end CcPof

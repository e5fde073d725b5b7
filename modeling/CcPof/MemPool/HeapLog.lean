import CcPof.MemPool.Model

/-!
# The calls of `malloc` and `free`

`init_mem_list` with a log of what it gets from `malloc` and what it gives to `free`. Without the
log it is `initMemList`.
-/

namespace CcPof.MemPool

/-- What `malloc` returns here: a node, or a block. -/
inductive Cell
  | node (p : Addr)
  | block (b : Nat)
  deriving DecidableEq

structure HeapLog where
  malloced : List Cell
  freed : List Cell

/-! ## 1. The loop that sets the list up -/

/-- `initLoop`, with its log. -/
def initLoopLog (type : UInt8) (size : Nat) :
    Nat → List (Option Nat) → Pools → Option (LoopEnd × HeapLog)
  | 0, _, s => some (.done s, ⟨[], []⟩)
  | _ + 1, none :: _, s => some (.err s, ⟨[], []⟩)
  | _ + 1, some p :: none :: _, s =>
      if s.nodes p = none then some (.err s, ⟨[.node p], [.node p]⟩) else none
  | n + 1, some p :: some b :: mallocs, s =>
      if s.nodes p = none ∧ freshBlock s b (size + 1) then do
        let s ← linkNode { s with blocks := (b, size + 1) :: s.blocks } type p b
        let (r, log) ← initLoopLog type size n mallocs s
        some (r, ⟨.node p :: .block b :: log.malloced, log.freed⟩)
      else none
  | _ + 1, _, _ => none

theorem initLoopLog_fst {type : UInt8} {size n : Nat} {mallocs : List (Option Nat)} {s : Pools} :
    (initLoopLog type size n mallocs s).map (·.1) = initLoop type size n mallocs s := by
  induction n generalizing mallocs s with
  | zero => rfl
  | succ n ih =>
    match mallocs with
    | [] => rfl
    | none :: _ => rfl
    | [some p] => rfl
    | some p :: none :: _ =>
      rw [initLoopLog, initLoop]
      split
      · rfl
      · rfl
    | some p :: some b :: mallocs =>
      rw [initLoopLog, initLoop]
      split
      · cases linkNode { s with blocks := (b, size + 1) :: s.blocks } type p b with
        | none => rfl
        | some s₁ =>
          simp only [Option.bind_eq_bind, Option.bind_some, ← ih]
          cases initLoopLog type size n mallocs s₁ <;> rfl
      · rfl

/-! ## 2. The loop behind `err` -/

/-- `freeNodes`, with what it frees: the block of a node, then the node. -/
def freeNodesLog (type : UInt8) : Nat → Pools → Option (Pools × List Cell)
  | 0, _ => none
  | n + 1, s =>
      let plist := s.memList type
      match plist.head with
      | none => some (s, [])
      | some p => do
          let node ← s.nodes p
          let s := s.setList type { plist with head := node.next }
          let s ← match node.data with
            | some data => freeBlock s data
            | none => some s
          let (s, freed) ← freeNodesLog type n { s with nodes := Function.update s.nodes p none }
          some (s, node.data.toList.map .block ++ .node p :: freed)

theorem freeNodesLog_fst {type : UInt8} {n : Nat} {s : Pools} :
    (freeNodesLog type n s).map (·.1) = freeNodes type n s := by
  induction n generalizing s with
  | zero => rfl
  | succ n ih =>
    rw [freeNodesLog, freeNodes]
    cases (s.memList type).head with
    | none => rfl
    | some p =>
      simp only [Option.bind_eq_bind, Option.map_bind, Function.comp_def, ← ih]
      apply Option.bind_congr
      intro node _
      cases node.data with
      | none =>
        simp only [Option.map_bind, Function.comp_def, Option.map_some, Option.bind_some]
        exact Option.map_eq_bind.symm
      | some data =>
        simp only [Option.map_bind, Function.comp_def, Option.map_some]
        apply Option.bind_congr
        intro s₁ _
        exact Option.map_eq_bind.symm

/-! ## 3. `init_mem_list` -/

/-- `initMemList`, with its log. -/
def initMemListLog (s : Pools) (type : UInt8) (size length : Int) (mallocs : List (Option Nat)) :
    Option (Pools × Int × HeapLog) :=
  let s := if s.memListInit then s else { initAllMemList s with memListInit := true }
  if type = 0 ∨ size ≤ 0 ∨ length ≤ 0 then some (s, 0, ⟨[], []⟩)
  else if (s.memList type).valid then some (s, 1, ⟨[], []⟩)
  else do
    let s := s.setList type { s.memList type with valid := true, type := type }
    match ← initLoopLog type size.toNat (length + 1).toNat mallocs s with
    | (.done s, log) => do
        let tail ← (s.memList type).tail
        let tail ← walkTail s (length + 1).toNat tail
        let s := s.setList type { s.memList type with tail := some tail, valid := true }
        some ({ s with
          config := Function.update s.config type (some ⟨size.toNat, length.toNat⟩) }, 1, log)
    | (.err s, log) => do
        let (s, freed) ← freeNodesLog type ((length + 1).toNat + 1) s
        some (s.setList type emptyList, 0, { log with freed := log.freed ++ freed })

theorem initMemListLog_fst {s : Pools} {type : UInt8} {size length : Int}
    {mallocs : List (Option Nat)} :
    (initMemListLog s type size length mallocs).map (fun r => (r.1, r.2.1)) =
      initMemList s type size length mallocs := by
  simp only [initMemListLog, initMemList]
  generalize (if s.memListInit then s else { initAllMemList s with memListInit := true }) = s₁
  split
  · rfl
  · split
    · rfl
    · rw [← initLoopLog_fst]
      simp only [Option.bind_eq_bind, Option.map_bind, Option.bind_map, Function.comp_def]
      apply Option.bind_congr
      rintro ⟨r, log⟩ _
      cases r with
      | done s₂ =>
        simp only [Option.map_bind, Function.comp_def, Option.map_some]
      | err s₂ =>
        simp only [← freeNodesLog_fst, Option.map_bind, Option.bind_map, Function.comp_def,
          Option.map_some]

end CcPof.MemPool

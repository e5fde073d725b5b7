import CcPof.Lib.ByteMemory
import CcPof.Lib.Transition

/-!
# The block pools

The pools of `mem_pool.c`: for each type a list of nodes between a sentinel and `tail` that hold
the free blocks of the type, and behind `tail` the nodes whose blocks are handed out. Nodes and
blocks come from `malloc`; a block is one byte longer than what a client gets, and its first byte
is its type. A function returns `none` where the C code dereferences a pointer that is NULL or not
a live node.
-/

namespace CcPof.MemPool

abbrev Addr := Nat

/-- `mem_node_t` -/
structure MemNode where
  data : Option Nat
  rawData : Option Nat
  next : Option Addr
  pre : Option Addr

/-- `mem_list_t`; its lock is held from the first to the last statement of a call. -/
structure MemList where
  head : Option Addr
  tail : Option Addr
  type : UInt8
  valid : Bool

/-- What a successful `init_mem_list` was called with. -/
structure Config where
  size : Nat
  length : Nat

/-- The static data of the file, the heap, and the record of the clients: `config` is what each
type was set up with, `held` the blocks that are handed out. `blocks` are the live blocks with
their sizes. -/
structure Pools where
  memList : UInt8 → MemList
  memListInit : Bool
  nodes : Addr → Option MemNode
  blocks : List (Nat × Nat)
  mem : Mem
  config : UInt8 → Option Config
  held : UInt8 → List Nat

def emptyList : MemList := ⟨none, none, 0, false⟩

namespace Pools

def next (s : Pools) (p : Addr) : Option Addr := (s.nodes p).bind (·.next)
def pre (s : Pools) (p : Addr) : Option Addr := (s.nodes p).bind (·.pre)
def data (s : Pools) (p : Addr) : Option Nat := (s.nodes p).bind (·.data)
def rawData (s : Pools) (p : Addr) : Option Nat := (s.nodes p).bind (·.rawData)

def setList (s : Pools) (type : UInt8) (l : MemList) : Pools :=
  { s with memList := Function.update s.memList type l }

/-- An assignment to a field of the node at `p`. -/
def setNode (s : Pools) (p : Addr) (f : MemNode → MemNode) : Option Pools :=
  (s.nodes p).map fun node => { s with nodes := Function.update s.nodes p (some (f node)) }

end Pools

def initAllMemList (s : Pools) : Pools := { s with memList := fun _ => emptyList }

def newMemNode (s : Pools) (type : UInt8) : Option (Pools × Option Nat) :=
  let plist := s.memList type
  match plist.head with
  | none => some (s, none)
  | some head =>
      if plist.tail ≠ some head then do
        let tail ← plist.tail
        let node ← s.nodes tail
        let data ← node.data
        let s ← s.setNode tail fun node => { node with data := none }
        some (s.setList type { plist with tail := node.pre }, some (data + 1))
      else some (s, none)

/-- The check of `addr` comes behind the read of the byte in front of it. -/
def freeMemNode (s : Pools) (addr : Nat) : Option Pools := do
  let type := s.mem (addr - 1)
  let plist := s.memList type
  let tail ← plist.tail
  let node ← s.nodes tail
  match node.next with
  | some next => do
      let s ← s.setNode next fun node => { node with data := some (addr - 1) }
      some (s.setList type { plist with tail := some next })
  | none => some s

/-- `malloc(n)` may return what shares no byte with a live block. -/
def freshBlock (s : Pools) (b n : Nat) : Bool :=
  s.blocks.all fun (c, m) => c + m ≤ b || b + n ≤ c

/-- One round of the loop of `init_mem_list`, behind its two allocations. -/
def linkNode (s : Pools) (type : UInt8) (p : Addr) (b : Nat) : Option Pools :=
  let plist := s.memList type
  let s := { s with
    nodes := Function.update s.nodes p (some ⟨some b, some b, none, none⟩)
    mem := put8 s.mem b type }
  match plist.head with
  | none => some (s.setList type { plist with head := some p, tail := some p })
  | some head => do
      let next := s.next head
      let s ← s.setNode p fun node => { node with next := next }
      let s ← s.setNode head fun node => { node with next := some p }
      let s ← s.setNode p fun node => { node with pre := some head }
      match next with
      | some next => s.setNode next fun node => { node with pre := some p }
      | none => some s

/-- How the `for` loop of `init_mem_list` ends: behind its last round, or at `err`. -/
inductive LoopEnd
  | done (s : Pools)
  | err (s : Pools)

/-- The loop with `n` rounds to go. The list has the results of the calls of `malloc`, first for
the node and then for its block. -/
def initLoop (type : UInt8) (size : Nat) :
    Nat → List (Option Nat) → Pools → Option LoopEnd
  | 0, _, s => some (.done s)
  | _ + 1, none :: _, s => some (.err s)
  | _ + 1, some p :: none :: _, s => if s.nodes p = none then some (.err s) else none
  | n + 1, some p :: some b :: mallocs, s =>
      if s.nodes p = none ∧ freshBlock s b (size + 1) then do
        let s ← linkNode { s with blocks := (b, size + 1) :: s.blocks } type p b
        initLoop type size n mallocs s
      else none
  | _ + 1, _, _ => none

/-- `while (plist->tail->next) plist->tail = plist->tail->next`, for at most `n` nodes -/
def walkTail (s : Pools) : Nat → Addr → Option Addr
  | 0, _ => none
  | n + 1, p => do
      let node ← s.nodes p
      match node.next with
      | none => some p
      | some q => walkTail s n q

def freeBlock (s : Pools) (b : Nat) : Option Pools :=
  if s.blocks.any (·.1 = b) then some { s with blocks := s.blocks.filter (·.1 ≠ b) } else none

/-- The `while` loop behind `err`, for at most `n` nodes. -/
def freeNodes (type : UInt8) : Nat → Pools → Option Pools
  | 0, _ => none
  | n + 1, s =>
      let plist := s.memList type
      match plist.head with
      | none => some s
      | some p => do
          let node ← s.nodes p
          let s := s.setList type { plist with head := node.next }
          let s ← match node.data with
            | some data => freeBlock s data
            | none => some s
          freeNodes type n { s with nodes := Function.update s.nodes p none }

def initMemList (s : Pools) (type : UInt8) (size length : Int) (mallocs : List (Option Nat)) :
    Option (Pools × Int) :=
  let s := if s.memListInit then s else { initAllMemList s with memListInit := true }
  if type = 0 ∨ size ≤ 0 ∨ length ≤ 0 then some (s, 0)
  else if (s.memList type).valid then some (s, 1)
  else do
    let s := s.setList type { s.memList type with valid := true, type := type }
    match ← initLoop type size.toNat (length + 1).toNat mallocs s with
    | .done s => do
        let tail ← (s.memList type).tail
        let tail ← walkTail s (length + 1).toNat tail
        let s := s.setList type { s.memList type with tail := some tail, valid := true }
        some ({ s with
          config := Function.update s.config type (some ⟨size.toNat, length.toNat⟩) }, 1)
    | .err s => do
        let s ← freeNodes type ((length + 1).toNat + 1) s
        some (s.setList type emptyList, 0)

/-- What the clients of the pools do; a block is freed or written only by the one who holds it. -/
inductive Act
  | initMemList (type : UInt8) (size length : Int) (mallocs : List (Option Nat))
  | newMemNode (type : UInt8)
  | freeMemNode (type : UInt8) (addr : Nat)
  | write (type : UInt8) (addr off : Nat) (v : UInt8)

def Act.type : Act → UInt8
  | initMemList type .. | newMemNode type | freeMemNode type _ | write type .. => type

def step (s : Pools) : Act → Option Pools
  | .initMemList type size length mallocs => (initMemList s type size length mallocs).map (·.1)
  | .newMemNode type => (newMemNode s type).map fun
      | (s, none) => s
      | (s, some addr) => { s with held := Function.update s.held type (addr :: s.held type) }
  | .freeMemNode type addr =>
      if addr ∈ s.held type then (freeMemNode s addr).map fun s =>
        { s with held := Function.update s.held type ((s.held type).erase addr) }
      else none
  | .write type addr off v =>
      match s.config type with
      | some c =>
          if addr ∈ s.held type ∧ off < c.size then some { s with mem := put8 s.mem (addr + off) v }
          else none
      | none => none

/-- The static data is zero at first; the bytes of the heap are arbitrary. -/
def memPool (mem : Mem) : TransitionSystem Pools Act where
  init := {
    memList := fun _ => emptyList
    memListInit := false
    nodes := fun _ => none
    blocks := []
    mem := mem
    config := fun _ => none
    held := fun _ => [] }
  step := step

end CcPof.MemPool

import CcPof.Lib.Transition
import Mathlib.Logic.Function.Basic

/-!
# The thread pool

`pool_add_worker`, `thread_routine` and `pool_destroy` as the statements of their threads, taken in
any order. The program counter of a thread names the statement that it executes next. A statement
on shared data is one step, a mutex keeps its critical sections apart, and the parts of
`pthread_cond_wait` are steps of their own: the entry into the wait set, the wake-up (by a signal,
a broadcast, or spuriously) and the return with the lock. A step is `none` where the thread is
blocked, or where it would dereference a pointer that is NULL or not a live block. Task nodes and
argument blocks are kept apart: a second free of an argument block is a free of a block that is
not live, and does not reach a task node.
-/

namespace CcPof.ThreadPool

abbrev Addr := Nat

/-- `CThread_worker`, a task in the queue. -/
structure CThreadWorker (F : Type) where
  process : F
  arg : Addr
  next : Option Addr

/-- What a submitter passes to `pool_add_worker`. -/
structure Task (F : Type) where
  process : F
  arg : Addr
  deriving DecidableEq, Repr

def CThreadWorker.task {F : Type} (node : CThreadWorker F) : Task F := ⟨node.process, node.arg⟩

/-- The `n` threads of `pool_init`, and the threads that call `pool_add_worker`. -/
inductive Thread (n : Nat) (S : Type)
  | worker (w : Fin n)
  | submitter (i : S)
  deriving DecidableEq

inductive Pc
  -- pool_add_worker
  | idle
  | lockAppend (newworker : Addr)
  | readHead (newworker : Addr)
  | walk (newworker member : Addr)
  | incr
  | unlockAppend
  | signal
  -- thread_routine
  | lockTake
  | test
  | wait
  | waiting
  | woken
  | testShutdown
  | decrement
  | dequeue
  | unlockTake (worker : Addr)
  | load (worker : Addr)
  | run (worker tmpBuf : Addr)
  | freeBuf (worker tmpBuf : Addr)
  | freeArg (worker : Addr)
  | freeWorker (worker : Addr)
  | unlockExit
  | exited
  deriving DecidableEq, Repr

/-- The statements of `pool_destroy`. -/
inductive DestroyPc
  | idle
  | testShutdown
  | setShutdown
  | broadcast
  | join (i : Nat)
  | freeThreadid
  | readHead
  | advanceHead (head : Addr)
  | freeHead (head : Addr)
  | destroyMutex
  | destroyCond
  | freePool
  | returned (ret : Int)
  deriving DecidableEq, Repr

/-- The pool with `max_thread_num = n`, the heap and the threads. `nodes` and `args` are the live
task nodes and argument blocks; `appended` and `handed` record the tasks in the order in which they
were linked into the queue and taken out of it. -/
structure Pool (F S : Type) (n : Nat) where
  queueLock : Option (Thread n S)
  queueHead : Option Addr
  shutdown : Bool
  curQueueSize : Int
  detached : Bool
  nodes : Addr → Option (CThreadWorker F)
  args : Addr → Bool
  pc : Thread n S → Pc
  destroyer : DestroyPc
  appended : List (Task F)
  handed : List (Task F)

variable {F S : Type} {n : Nat}

/-- A pool after `pool_init`: its workers are created detached. -/
def poolInit (F S : Type) (n : Nat) : Pool F S n where
  queueLock := none
  queueHead := none
  shutdown := false
  curQueueSize := 0
  detached := true
  nodes := fun _ => none
  args := fun _ => false
  pc
    | .worker _ => .lockTake
    | .submitter _ => .idle
  destroyer := .idle
  appended := []
  handed := []

def Pool.next (s : Pool F S n) (a : Addr) : Option Addr := (s.nodes a).bind (·.next)

/-! ## Shutdown -/

/-- `pthread_cond_broadcast` empties the wait set. -/
def Pc.wake : Pc → Pc
  | .waiting => .woken
  | pc => pc

/-- The next statement of `pool_destroy`. `pthread_join` waits for the exit of a joinable thread
and returns at once for a detached one. -/
def poolDestroy (s : Pool F S n) : Option (Pool F S n) :=
  match s.destroyer with
  | .idle => some { s with destroyer := .testShutdown }
  | .testShutdown =>
      if s.shutdown then some { s with destroyer := .returned (-1) }
      else some { s with destroyer := .setShutdown }
  | .setShutdown => some { s with shutdown := true, destroyer := .broadcast }
  | .broadcast => some { s with pc := fun t => (s.pc t).wake, destroyer := .join 0 }
  | .join i =>
      if h : i < n then
        if s.detached ∨ s.pc (.worker ⟨i, h⟩) = .exited then some { s with destroyer := .join (i + 1) }
        else none
      else some { s with destroyer := .freeThreadid }
  | .freeThreadid => some { s with destroyer := .readHead }
  | .readHead =>
      match s.queueHead with
      | some head => some { s with destroyer := .advanceHead head }
      | none => some { s with destroyer := .destroyMutex }
  | .advanceHead head => (s.nodes head).map fun node =>
      { s with queueHead := node.next, destroyer := .freeHead head }
  | .freeHead head =>
      some { s with nodes := Function.update s.nodes head none, destroyer := .readHead }
  | .destroyMutex => some { s with destroyer := .destroyCond }
  | .destroyCond => some { s with destroyer := .freePool }
  | .freePool => some { s with destroyer := .returned 0 }
  | .returned _ => none

/-- `pool_destroy` leaves the lock alone and moves no thread except by its broadcast. -/
theorem poolDestroy_frame {s s' : Pool F S n} (hs : poolDestroy s = some s') :
    s'.queueLock = s.queueLock ∧ (s'.pc = s.pc ∨ s'.pc = fun t => (s.pc t).wake) ∧
      s'.destroyer ≠ .idle := by
  unfold poolDestroy at hs
  split at hs
  case h_5 i _ =>
    -- pthread_join
    split at hs
    · split at hs
      · cases hs
        exact ⟨rfl, Or.inl rfl, nofun⟩
      · cases hs
    · cases hs
      exact ⟨rfl, Or.inl rfl, nofun⟩
  case h_8 head _ =>
    rw [Option.map_eq_some_iff] at hs
    rcases hs with ⟨node, -, rfl⟩
    exact ⟨rfl, Or.inl rfl, nofun⟩
  all_goals first
    | cases hs
      exact ⟨rfl, Or.inl rfl, nofun⟩
    | cases hs
      exact ⟨rfl, Or.inr rfl, nofun⟩
    | split at hs <;> cases hs <;> exact ⟨rfl, Or.inl rfl, nofun⟩
    | cases hs

/-! ## The threads -/

section Step

variable [DecidableEq S]

def Pool.goto (s : Pool F S n) (t : Thread n S) (pc : Pc) : Pool F S n :=
  { s with pc := Function.update s.pc t pc }

@[simp] theorem Pool.pc_goto_self (s : Pool F S n) (t : Thread n S) (pc : Pc) :
    (s.goto t pc).pc t = pc := Function.update_self ..

theorem Pool.pc_goto_of_ne (s : Pool F S n) {t u : Thread n S} (h : u ≠ t) (pc : Pc) :
    (s.goto t pc).pc u = s.pc u := Function.update_of_ne h ..

/-- The next statement of a thread, apart from those with a choice in them: the call of
`pool_add_worker`, the signal and the wake-up. -/
def advance (s : Pool F S n) (t : Thread n S) : Option (Pool F S n) :=
  match s.pc t with
  | .idle | .signal | .waiting | .exited => none
  | .lockAppend newworker =>
      if s.queueLock = none then
        some ({ s with queueLock := some t }.goto t (.readHead newworker))
      else none
  | .readHead newworker =>
      match s.queueHead with
      | some member => some (s.goto t (.walk newworker member))
      | none => (s.nodes newworker).map fun node =>
          { s with
            queueHead := some newworker
            appended := s.appended ++ [node.task] }.goto t .incr
  | .walk newworker member =>
      (s.nodes member).bind fun last =>
        match last.next with
        | some next => some (s.goto t (.walk newworker next))
        | none => (s.nodes newworker).map fun node =>
            { s with
              nodes := Function.update s.nodes member (some { last with next := some newworker })
              appended := s.appended ++ [node.task] }.goto t .incr
  | .incr =>
      -- behind the assertion that queue_head is not NULL
      if s.queueHead = none then none
      else some ({ s with curQueueSize := s.curQueueSize + 1 }.goto t .unlockAppend)
  | .unlockAppend => some ({ s with queueLock := none }.goto t .signal)
  | .lockTake | .woken =>
      if s.queueLock = none then some ({ s with queueLock := some t }.goto t .test) else none
  | .test =>
      if s.curQueueSize = 0 ∧ s.shutdown = false then some (s.goto t .wait)
      else some (s.goto t .testShutdown)
  | .wait => some ({ s with queueLock := none }.goto t .waiting)
  | .testShutdown =>
      if s.shutdown then some (s.goto t .unlockExit) else some (s.goto t .decrement)
  | .decrement => some ({ s with curQueueSize := s.curQueueSize - 1 }.goto t .dequeue)
  | .dequeue =>
      s.queueHead.bind fun worker => (s.nodes worker).map fun node =>
        { s with
          queueHead := node.next
          handed := s.handed ++ [node.task] }.goto t (.unlockTake worker)
  | .unlockTake worker => some ({ s with queueLock := none }.goto t (.load worker))
  | .load worker => (s.nodes worker).map fun node => s.goto t (.run worker node.arg)
  | .run worker tmpBuf => some (s.goto t (.freeBuf worker tmpBuf))
  | .freeBuf worker tmpBuf =>
      some ({ s with args := Function.update s.args tmpBuf false }.goto t (.freeArg worker))
  | .freeArg worker => (s.nodes worker).map fun node =>
      { s with args := Function.update s.args node.arg false }.goto t (.freeWorker worker)
  | .freeWorker worker =>
      some ({ s with nodes := Function.update s.nodes worker none }.goto t .lockTake)
  | .unlockExit => some ({ s with queueLock := none }.goto t .exited)

/-- What `advance` can do, with the guards of each case. -/
inductive Advance (s : Pool F S n) (t : Thread n S) : Pool F S n → Prop
  | lockAppend {newworker} : s.pc t = .lockAppend newworker → s.queueLock = none →
      Advance s t ({ s with queueLock := some t }.goto t (.readHead newworker))
  | readHead {newworker member} : s.pc t = .readHead newworker → s.queueHead = some member →
      Advance s t (s.goto t (.walk newworker member))
  | appendEmpty {newworker node} : s.pc t = .readHead newworker → s.queueHead = none →
      s.nodes newworker = some node →
      Advance s t ({ s with
        queueHead := some newworker
        appended := s.appended ++ [node.task] }.goto t .incr)
  | walk {newworker member last next} : s.pc t = .walk newworker member →
      s.nodes member = some last → last.next = some next →
      Advance s t (s.goto t (.walk newworker next))
  | appendLast {newworker member last node} : s.pc t = .walk newworker member →
      s.nodes member = some last → last.next = none → s.nodes newworker = some node →
      Advance s t ({ s with
        nodes := Function.update s.nodes member (some { last with next := some newworker })
        appended := s.appended ++ [node.task] }.goto t .incr)
  | incr : s.pc t = .incr → s.queueHead ≠ none →
      Advance s t ({ s with curQueueSize := s.curQueueSize + 1 }.goto t .unlockAppend)
  | unlockAppend : s.pc t = .unlockAppend →
      Advance s t ({ s with queueLock := none }.goto t .signal)
  | lockTake : s.pc t = .lockTake ∨ s.pc t = .woken → s.queueLock = none →
      Advance s t ({ s with queueLock := some t }.goto t .test)
  | testEmpty : s.pc t = .test → s.curQueueSize = 0 → s.shutdown = false →
      Advance s t (s.goto t .wait)
  | testLeave : s.pc t = .test → ¬ (s.curQueueSize = 0 ∧ s.shutdown = false) →
      Advance s t (s.goto t .testShutdown)
  | wait : s.pc t = .wait → Advance s t ({ s with queueLock := none }.goto t .waiting)
  | testShutdown : s.pc t = .testShutdown → s.shutdown = true →
      Advance s t (s.goto t .unlockExit)
  | testTask : s.pc t = .testShutdown → s.shutdown = false → Advance s t (s.goto t .decrement)
  | decrement : s.pc t = .decrement →
      Advance s t ({ s with curQueueSize := s.curQueueSize - 1 }.goto t .dequeue)
  | dequeue {worker node} : s.pc t = .dequeue → s.queueHead = some worker →
      s.nodes worker = some node →
      Advance s t ({ s with
        queueHead := node.next
        handed := s.handed ++ [node.task] }.goto t (.unlockTake worker))
  | unlockTake {worker} : s.pc t = .unlockTake worker →
      Advance s t ({ s with queueLock := none }.goto t (.load worker))
  | load {worker node} : s.pc t = .load worker → s.nodes worker = some node →
      Advance s t (s.goto t (.run worker node.arg))
  | run {worker tmpBuf} : s.pc t = .run worker tmpBuf →
      Advance s t (s.goto t (.freeBuf worker tmpBuf))
  | freeBuf {worker tmpBuf} : s.pc t = .freeBuf worker tmpBuf →
      Advance s t ({ s with args := Function.update s.args tmpBuf false }.goto t (.freeArg worker))
  | freeArg {worker node} : s.pc t = .freeArg worker → s.nodes worker = some node →
      Advance s t ({ s with args := Function.update s.args node.arg false }.goto t
        (.freeWorker worker))
  | freeWorker {worker} : s.pc t = .freeWorker worker →
      Advance s t ({ s with nodes := Function.update s.nodes worker none }.goto t .lockTake)
  | unlockExit : s.pc t = .unlockExit →
      Advance s t ({ s with queueLock := none }.goto t .exited)

theorem advance_cases {s s' : Pool F S n} {t : Thread n S} (hs : advance s t = some s') :
    Advance s t s' := by
  cases hpc : s.pc t <;> simp only [advance, hpc] at hs
  case idle | signal | waiting | exited => cases hs
  case lockAppend newworker =>
    split at hs
    · cases hs
      exact .lockAppend hpc ‹_›
    · cases hs
  case readHead newworker =>
    split at hs
    · cases hs
      exact .readHead hpc ‹_›
    · rw [Option.map_eq_some_iff] at hs
      rcases hs with ⟨node, hnode, rfl⟩
      exact .appendEmpty hpc ‹_› hnode
  case walk newworker member =>
    rw [Option.bind_eq_some_iff] at hs
    rcases hs with ⟨last, hlast, hs⟩
    split at hs
    · cases hs
      exact .walk hpc hlast ‹_›
    · rw [Option.map_eq_some_iff] at hs
      rcases hs with ⟨node, hnode, rfl⟩
      exact .appendLast hpc hlast ‹_› hnode
  case incr =>
    split at hs
    · cases hs
    · cases hs
      exact .incr hpc ‹_›
  case lockTake =>
    split at hs
    · cases hs
      exact .lockTake (Or.inl hpc) ‹_›
    · cases hs
  case woken =>
    split at hs
    · cases hs
      exact .lockTake (Or.inr hpc) ‹_›
    · cases hs
  case test =>
    split at hs
    · rename_i htest
      cases hs
      exact .testEmpty hpc htest.1 htest.2
    · cases hs
      exact .testLeave hpc ‹_›
  case testShutdown =>
    split at hs
    · cases hs
      exact .testShutdown hpc ‹_›
    · rename_i hshut
      cases hs
      exact .testTask hpc (Bool.eq_false_iff.mpr hshut)
  case dequeue =>
    rw [Option.bind_eq_some_iff] at hs
    rcases hs with ⟨worker, hhead, hs⟩
    rw [Option.map_eq_some_iff] at hs
    rcases hs with ⟨node, hnode, rfl⟩
    exact .dequeue hpc hhead hnode
  case load worker =>
    rw [Option.map_eq_some_iff] at hs
    rcases hs with ⟨node, hnode, rfl⟩
    exact .load hpc hnode
  case freeArg worker =>
    rw [Option.map_eq_some_iff] at hs
    rcases hs with ⟨node, hnode, rfl⟩
    exact .freeArg hpc hnode
  -- The other statements have one outcome and no guard.
  all_goals
    cases hs
    constructor
    exact hpc

inductive Act (F S : Type) (n : Nat)
  | mallocArg (arg : Addr)
  | poolAddWorker (t : Thread n S) (process : F) (arg newworker : Addr)
  | advance (t : Thread n S)
  | signal (t : Thread n S) (woken : Option (Fin n))
  | spurious (t : Thread n S)
  | poolDestroy

/-- `malloc` returns a block that is not live. `pthread_cond_signal` wakes one waiter, and none
only if there is none. -/
def step (s : Pool F S n) : Act F S n → Option (Pool F S n)
  | .mallocArg arg =>
      if s.args arg then none else some { s with args := Function.update s.args arg true }
  | .poolAddWorker t process arg newworker =>
      if s.pc t = .idle ∧ (s.nodes newworker).isNone then
        some ({ s with
          nodes := Function.update s.nodes newworker (some ⟨process, arg, none⟩) }.goto t
            (.lockAppend newworker))
      else none
  | .advance t => advance s t
  | .signal t none =>
      if s.pc t = .signal ∧ ∀ w, s.pc (.worker w) ≠ .waiting then some (s.goto t .idle) else none
  | .signal t (some w) =>
      if s.pc t = .signal ∧ s.pc (.worker w) = .waiting then
        some ((s.goto (.worker w) .woken).goto t .idle)
      else none
  | .spurious t => if s.pc t = .waiting then some (s.goto t .woken) else none
  | .poolDestroy => poolDestroy s

theorem advance_destroyer {s s' : Pool F S n} {t : Thread n S} (h : Advance s t s') :
    s'.destroyer = s.destroyer := by
  cases h <;> rfl

/-- What `step` can do, with the guards of each case. -/
inductive Step (s : Pool F S n) : Act F S n → Pool F S n → Prop
  | mallocArg {arg} : s.args arg = false →
      Step s (.mallocArg arg) { s with args := Function.update s.args arg true }
  | poolAddWorker {t process arg newworker} : s.pc t = .idle → s.nodes newworker = none →
      Step s (.poolAddWorker t process arg newworker) ({ s with
        nodes := Function.update s.nodes newworker (some ⟨process, arg, none⟩) }.goto t
          (.lockAppend newworker))
  | advance {t s'} : Advance s t s' → Step s (.advance t) s'
  | signalNone {t} : s.pc t = .signal → (∀ w, s.pc (.worker w) ≠ .waiting) →
      Step s (.signal t none) (s.goto t .idle)
  | signalSome {t w} : s.pc t = .signal → s.pc (.worker w) = .waiting →
      Step s (.signal t (some w)) ((s.goto (.worker w) .woken).goto t .idle)
  | spurious {t} : s.pc t = .waiting → Step s (.spurious t) (s.goto t .woken)
  | poolDestroy {s'} : poolDestroy s = some s' → Step s .poolDestroy s'

theorem step_cases {s s' : Pool F S n} {a : Act F S n} (hs : step s a = some s') : Step s a s' := by
  cases a with
  | mallocArg arg =>
    simp only [step] at hs
    split at hs
    · cases hs
    · cases hs
      exact .mallocArg (Bool.eq_false_iff.mpr ‹_›)
  | poolAddWorker t process arg newworker =>
    simp only [step] at hs
    split at hs
    · rename_i hidle
      cases hs
      exact .poolAddWorker hidle.1 (Option.isNone_iff_eq_none.mp hidle.2)
    · cases hs
  | advance t => exact .advance (advance_cases hs)
  | signal t woken =>
    cases woken with
    | none =>
      simp only [step] at hs
      split at hs
      · rename_i hsignal
        cases hs
        exact .signalNone hsignal.1 hsignal.2
      · cases hs
    | some w =>
      simp only [step] at hs
      split at hs
      · rename_i hsignal
        cases hs
        exact .signalSome hsignal.1 hsignal.2
      · cases hs
  | spurious t =>
    simp only [step] at hs
    split at hs
    · cases hs
      exact .spurious ‹_›
    · cases hs
  | poolDestroy => exact .poolDestroy hs

end Step

def threadPool (F S : Type) [DecidableEq S] (n : Nat) :
    TransitionSystem (Pool F S n) (Act F S n) where
  init := poolInit F S n
  step := step

end CcPof.ThreadPool

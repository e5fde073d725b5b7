import CcPof.Lib.Progress
import CcPof.ThreadPool.WakeUp
import Mathlib.Algebra.BigOperators.Group.Finset.Basic
import Mathlib.Data.Fintype.Basic

/-!
# The pool comes to rest

When nobody submits any more, every schedule of the threads ends: the tasks have been handed out
in their order, the submitters have returned and the workers wait. A thread that is not blocked by
the lock can go on, and each step lowers a rank, in which a task is worth more than what a worker
does with it and a signal more than the worker that it wakes.
-/

namespace CcPof.ThreadPool

variable {F S : Type} {n : Nat}

/-- The steps of the threads of the pool and of the calls of `pool_add_worker` that have begun. -/
def Act.internal : Act F S n → Bool
  | .advance _ | .signal .. => true
  | _ => false

/-- Every task was handed out and has run. -/
structure Drained (s : Pool F S n) : Prop where
  empty : s.queueHead = none
  size : s.curQueueSize = 0
  handed : s.handed = s.appended
  workers : ∀ w, s.pc (.worker w) = .waiting
  submitters : ∀ i, s.pc (.submitter i) = .idle

/-! ## 1. The places of the threads -/

def Pc.adds : Pc → Bool
  | idle | lockAppend _ | readHead _ | walk .. | incr | unlockAppend | signal => true
  | _ => false

/-- The statements of `thread_routine`, apart from its end. -/
def Pc.takes : Pc → Bool
  | lockTake | test | wait | waiting | woken | testShutdown | decrement | dequeue => true
  | unlockTake _ | load _ | run .. | freeBuf .. | freeArg _ | freeWorker _ => true
  | _ => false

structure Placed (s : Pool F S n) : Prop where
  worker : ∀ w, (s.pc (.worker w)).takes = true
  submitter : ∀ i, (s.pc (.submitter i)).adds = true
  appended : ∀ t, s.pc t = .incr → s.queueHead ≠ none

def PlacedOk (s : Pool F S n) : Prop := s.destroyer = .idle → Placed s

theorem placed_poolInit : Placed (poolInit F S n) where
  worker _ := rfl
  submitter _ := rfl
  appended t h := by cases t <;> cases h

/-- Only finitely many threads have left their first statement. -/
def Finitely (s : Pool F S n) : Prop := ∃ ts : Finset (Thread n S), ∀ t, t ∉ ts → s.pc t = .idle

theorem finitely_poolInit : Finitely (poolInit F S n) := by
  -- A worker begins at its lock, a submitter has not called yet.
  refine ⟨Finset.univ.map ⟨Thread.worker, fun _ _ h => Thread.worker.inj h⟩, ?_⟩
  intro t ht
  cases t with
  | worker w => exact absurd (Finset.mem_map_of_mem _ (Finset.mem_univ w)) ht
  | submitter i => rfl

section Step

variable [DecidableEq S] {s s' : Pool F S n} {t : Thread n S} {pc : Pc} {q q' : List Addr}

theorem Placed.goto (h : Placed s) (hm : Mutex s) (hpc : s'.pc = Function.update s.pc t pc)
    (htakes : (s.pc t).takes = true → pc.takes = true)
    (hadds : (s.pc t).adds = true → pc.adds = true)
    (hself : pc = .incr → s'.queueHead ≠ none)
    (hhead : s'.queueHead = s.queueHead ∨ (s.pc t).holds = true) : Placed s' := by
  have hother : ∀ u, u ≠ t → s'.pc u = s.pc u := by
    intro u hut
    rw [hpc, Function.update_of_ne hut]
  constructor
  · intro w
    by_cases hw : .worker w = t
    · rw [hpc, hw, Function.update_self]
      exact htakes (hw ▸ h.worker w)
    · rw [hother _ hw]
      exact h.worker w
  · intro i
    by_cases hi : .submitter i = t
    · rw [hpc, hi, Function.update_self]
      exact hadds (hi ▸ h.submitter i)
    · rw [hother _ hi]
      exact h.submitter i
  · intro u hu
    by_cases hut : u = t
    · rw [hpc, hut, Function.update_self] at hu
      exact hself hu
    · rw [hother u hut] at hu
      rcases hhead with hhead | hholds
      · rw [hhead]
        exact h.appended u hu
      · -- The thread at `incr` has the lock.
        have hlock := (hm t).mpr hholds
        rw [(hm u).mpr (by rw [hu]; rfl)] at hlock
        exact absurd (Option.some.inj hlock) hut

theorem placed_advance (h : Placed s) (hm : Mutex s) (hl : Linked s q) (hrun : s.shutdown = false)
    (hs : Advance s t s') : Placed s' := by
  cases hs with
  | appendEmpty hpc =>
    exact h.goto hm rfl (by rw [hpc]; nofun) (fun _ => rfl) (fun _ => nofun) (.inr (by rw [hpc]; rfl))
  | @appendLast newworker member last node hpc =>
    -- The list had a node before, and none is taken away.
    refine h.goto hm rfl (by rw [hpc]; nofun) (fun _ => rfl) (fun _ => ?_) (.inl rfl)
    have hmem : member ∈ q := hl.member t member (by rw [hpc]; rfl)
    exact hl.chain.ne_none_iff.mpr (List.ne_nil_of_mem hmem)
  | lockTake hpc _ =>
    exact h.goto hm rfl (fun _ => rfl) (by rcases hpc with hpc | hpc <;> rw [hpc] <;> nofun) nofun
      (.inl rfl)
  | testShutdown hpc hshutdown =>
    rw [hrun] at hshutdown
    cases hshutdown
  | unlockExit hpc =>
    -- No thread comes here before `shutdown` is set.
    cases t with
    | worker w =>
      have htakes := h.worker w
      rw [hpc] at htakes
      cases htakes
    | submitter i =>
      have hadds := h.submitter i
      rw [hpc] at hadds
      cases hadds
  | dequeue hpc =>
    exact h.goto hm rfl (fun _ => rfl) (by rw [hpc]; nofun) nofun (.inr (by rw [hpc]; rfl))
  | lockAppend hpc _ | readHead hpc _ | walk hpc _ _ | incr hpc _ | unlockAppend hpc =>
    exact h.goto hm rfl (by rw [hpc]; nofun) (fun _ => rfl) nofun (.inl rfl)
  | testEmpty hpc _ _ | testLeave hpc _ | wait hpc | testTask hpc _ | decrement hpc | unlockTake hpc
  | load hpc _ | run hpc | freeBuf hpc | freeArg hpc _ | freeWorker hpc =>
    exact h.goto hm rfl (fun _ => rfl) (by rw [hpc]; nofun) nofun (.inl rfl)

theorem placedOk_step {a : Act F S n} (hm : Mutex s) (hq : QueueOk s) (hl : LinkedOk s)
    (h : PlacedOk s) (hs : Step s a s') : PlacedOk s' := by
  intro hidle
  cases hs with
  | mallocArg _ => exact ⟨(h hidle).worker, (h hidle).submitter, (h hidle).appended⟩
  | poolAddWorker hpc _ =>
    exact (h hidle).goto hm rfl (by rw [hpc]; nofun) (fun _ => rfl) nofun (.inl rfl)
  | advance hadv =>
    rw [advance_destroyer hadv] at hidle
    obtain ⟨q, hq⟩ := hq hidle
    obtain ⟨r, hr⟩ := hl (by rw [hidle]; rfl)
    exact placed_advance (h hidle) hm hr hq.running hadv
  | signalNone hpc _ =>
    exact (h hidle).goto hm rfl (by rw [hpc]; nofun) (fun _ => rfl) nofun (.inl rfl)
  | @signalSome t w hpc hwait =>
    have ht : t ≠ .worker w := by
      rintro rfl
      rw [hpc] at hwait
      cases hwait
    have hwoken : Placed (s.goto (.worker w) .woken) :=
      (h hidle).goto hm rfl (fun _ => rfl) (by rw [hwait]; nofun) nofun (.inl rfl)
    refine hwoken.goto (hm.wake hwait) rfl ?_ (fun _ => rfl) nofun (.inl rfl)
    rw [Pool.pc_goto_of_ne _ ht, hpc]
    nofun
  | spurious hpc =>
    exact (h hidle).goto hm rfl (fun _ => rfl) (by rw [hpc]; nofun) nofun (.inl rfl)
  | poolDestroy hd => exact absurd hidle (poolDestroy_frame hd).2.2

theorem Finitely.goto (h : Finitely s) (hpc : s'.pc = Function.update s.pc t pc) : Finitely s' := by
  obtain ⟨ts, hts⟩ := h
  refine ⟨insert t ts, ?_⟩
  intro u hu
  rw [Finset.mem_insert, not_or] at hu
  rw [hpc, Function.update_of_ne hu.1]
  exact hts u hu.2

theorem finitely_step {a : Act F S n} (h : Finitely s) (hs : Step s a s') : Finitely s' := by
  cases hs with
  | mallocArg _ => exact h
  | advance hadv => cases hadv <;> exact h.goto rfl
  | poolAddWorker _ _ | signalNone _ _ | spurious _ => exact h.goto rfl
  | @signalSome t w _ _ =>
    have hwoken : Finitely (s.goto (.worker w) .woken) := h.goto rfl
    exact hwoken.goto rfl
  | poolDestroy hd =>
    obtain ⟨ts, hts⟩ := h
    refine ⟨ts, ?_⟩
    intro t ht
    rcases (poolDestroy_frame hd).2.1 with hpc | hpc
    · rw [hpc, hts t ht]
    · rw [hpc]
      show (s.pc t).wake = .idle
      rw [hts t ht]
      rfl

/-- Everything that is known of a pool before `pool_destroy`. -/
structure Sane (s : Pool F S n) : Prop where
  mutex : Mutex s
  linked : LinkedOk s
  queue : QueueOk s
  wakeUp : WakeUpOk s
  placed : PlacedOk s
  finite : Finitely s

theorem sane_invariant (hn : 0 < n) : (threadPool F S n).Invariant Sane where
  init := by
    have h := (wakeUp_invariant (F := F) (S := S) hn).init
    exact ⟨h.1.1.1, h.1.1.2, h.1.2, h.2, fun _ => placed_poolInit, finitely_poolInit⟩
  step h hs := by
    have hold := (wakeUp_invariant hn).step ⟨⟨⟨h.mutex, h.linked⟩, h.queue⟩, h.wakeUp⟩ hs
    have hstep := step_cases hs
    exact ⟨hold.1.1.1, hold.1.1.2, hold.1.2, hold.2,
      placedOk_step h.mutex h.queue h.linked h.placed hstep, finitely_step h.finite hstep⟩

/-! ## 2. The rank -/

/-- The task that a thread is about to append -/
def Pc.pending : Pc → Nat
  | lockAppend _ | readHead _ | walk .. => 1
  | _ => 0

/-- What a thread has to do until it waits or returns, while the queue is `q` and never gets longer
than `bound`. Dequeuing is paid for by the task. -/
def Pc.rank (bound : Nat) (q : List Addr) : Pc → Nat
  | idle | waiting | unlockExit | exited => 0
  -- pool_add_worker
  | lockAppend _ => 22 + bound
  | readHead _ => 21 + bound
  | walk _ member => 20 + (q.dropWhile (· ≠ member)).length
  | incr => 9
  | unlockAppend => 8
  | signal => 7
  -- thread_routine, up to its wait
  | lockTake | woken => 6
  | test => 5
  | testShutdown => 4
  | decrement => 3
  | dequeue => 2
  | wait => 1
  -- with a task in hand
  | unlockTake _ => 12
  | load _ => 11
  | run .. => 10
  | freeBuf .. => 9
  | freeArg _ => 8
  | freeWorker _ => 7

/-- At most `k` nodes from `p` on. -/
def Pool.follow (s : Pool F S n) : Nat → Option Addr → List Addr
  | 0, _ | _, none => []
  | k + 1, some a => a :: s.follow k (s.next a)

/-- The nodes from `queue_head` on, of which there are as many as tasks that were not handed out. -/
def Pool.queue (s : Pool F S n) : List Addr :=
  s.follow (s.appended.length - s.handed.length) s.queueHead

def Pool.rank (s : Pool F S n) (ts : Finset (Thread n S)) (bound : Nat) : Nat :=
  ∑ t ∈ ts, (s.pc t).rank bound s.queue + 11 * s.queue.length

omit [DecidableEq S] in
theorem follow_of_chain {p : Option Addr} (h : Chain s.next p q) : s.follow q.length p = q := by
  induction q generalizing p with
  | nil => rfl
  | cons a q ih =>
    rw [h.1, List.length_cons, Pool.follow, ih h.2]

omit [DecidableEq S] in
theorem QueueInv.queue_eq (h : QueueInv s q) : s.queue = q := by
  have hlength : (q.filterMap s.task).length = q.length := by
    apply List.filterMap_length_eq_length.mpr
    intro a ha
    rw [Pool.task, Option.isSome_map]
    exact h.live a ha
  have hcount := congrArg List.length h.history
  rw [List.length_append, hlength] at hcount
  rw [Pool.queue, hcount, Nat.add_sub_cancel_left]
  exact follow_of_chain h.chain

theorem sum_goto {ts : Finset (Thread n S)} (f f' : Pc → Nat) (ht : t ∈ ts)
    (hpc : s'.pc = Function.update s.pc t pc) (hsame : ∀ u, u ≠ t → f' (s.pc u) = f (s.pc u)) :
    ∑ u ∈ ts, f' (s'.pc u) + f (s.pc t) = ∑ u ∈ ts, f (s.pc u) + f' pc := by
  have hothers : ∑ u ∈ ts.erase t, f' (s'.pc u) = ∑ u ∈ ts.erase t, f (s.pc u) := by
    apply Finset.sum_congr rfl
    intro u hu
    have hut := Finset.ne_of_mem_erase hu
    rw [hpc, Function.update_of_ne hut, hsame u hut]
  rw [← Finset.add_sum_erase ts _ ht, ← Finset.add_sum_erase ts (fun u => f (s.pc u)) ht, hothers,
    hpc, Function.update_self]
  omega

/-- A rank depends on the queue only where a thread walks it. -/
theorem Pc.rank_congr {bound : Nat} (h : pc.member = none) : pc.rank bound q' = pc.rank bound q := by
  cases pc <;> first | rfl | cases h

/-- A state of a schedule without new submissions; the threads `ts` take part in it, and there are
at most `bound` tasks. -/
structure Winding (ts : Finset (Thread n S)) (bound : Nat) (s : Pool F S n) : Prop where
  sane : Sane s
  running : s.destroyer = .idle
  active : ∀ t, t ∉ ts → s.pc t = .idle
  total : s.queue.length + ∑ t ∈ ts, (s.pc t).pending ≤ bound

/-- A step of one thread. -/
theorem Winding.goto {ts : Finset (Thread n S)} {bound : Nat} (h : Winding ts bound s)
    (hs' : Sane s') (hrunning : s'.destroyer = s.destroyer) (hq : QueueInv s q)
    (hq' : QueueInv s' q') (ht : t ∈ ts) (hpc : s'.pc = Function.update s.pc t pc)
    (hshared : (s.pc t).holds = true ∨ q' = q)
    (htotal : q'.length + pc.pending ≤ q.length + (s.pc t).pending)
    (hrank : pc.rank bound q' + 11 * q'.length < (s.pc t).rank bound q + 11 * q.length) :
    Winding ts bound s' ∧ s'.rank ts bound < s.rank ts bound := by
  have hothers : ∀ u, u ≠ t → (s.pc u).rank bound q' = (s.pc u).rank bound q := by
    intro u hut
    rcases hshared with hholds | rfl
    · apply Pc.rank_congr
      by_contra hmember
      -- Only who walks the list depends on it, and that thread would have the lock.
      obtain ⟨m, hm⟩ := Option.ne_none_iff_exists'.mp hmember
      have hlock := (h.sane.mutex t).mpr hholds
      rw [(h.sane.mutex u).mpr (Pc.holds_of_member hm)] at hlock
      exact hut (Option.some.inj hlock)
    · rfl
  have hsum := sum_goto (Pc.rank bound q) (Pc.rank bound q') ht hpc hothers
  have hpending := sum_goto Pc.pending Pc.pending ht hpc (fun _ _ => rfl)
  have hold := h.total
  rw [hq.queue_eq] at hold
  refine ⟨⟨hs', hrunning.trans h.running, ?_, ?_⟩, ?_⟩
  · intro u hu
    rw [hpc, Function.update_of_ne, h.active u hu]
    rintro rfl
    exact hu ht
  · rw [hq'.queue_eq]
    omega
  · rw [Pool.rank, Pool.rank, hq'.queue_eq, hq.queue_eq]
    omega

theorem Advance.ne_idle (hs : Advance s t s') : s.pc t ≠ .idle := by
  cases hs with
  | lockTake hpc => rcases hpc with hpc | hpc <;> rw [hpc] <;> nofun
  | lockAppend hpc | readHead hpc | appendEmpty hpc | walk hpc | appendLast hpc | incr hpc
  | unlockAppend hpc | testEmpty hpc | testLeave hpc | wait hpc | testShutdown hpc | testTask hpc
  | decrement hpc | dequeue hpc | unlockTake hpc | load hpc | run hpc | freeBuf hpc | freeArg hpc
  | freeWorker hpc | unlockExit hpc =>
    rw [hpc]
    nofun

theorem dropWhile_ne {l r : List Addr} {m : Addr} (h : (l ++ m :: r).Nodup) :
    (l ++ m :: r).dropWhile (· ≠ m) = m :: r := by
  rw [List.dropWhile_append_of_pos, List.dropWhile_cons_of_neg]
  · rw [decide_eq_true_eq]
    exact fun hne => hne rfl
  · intro a ha
    rw [decide_eq_true_eq]
    exact (List.nodup_append.mp h).2.2 a ha m List.mem_cons_self

/-- The walk of `pool_add_worker` comes nearer to the end of the list. -/
theorem behind_lt {next : Addr → Option Addr} {p : Option Addr} {m a : Addr} (h : Chain next p q)
    (hm : m ∈ q) (ha : next m = some a) :
    (q.dropWhile (· ≠ a)).length < (q.dropWhile (· ≠ m)).length := by
  obtain ⟨l, r, rfl⟩ := List.append_of_mem hm
  have hhead := h.next_eq
  rw [ha] at hhead
  obtain ⟨r', rfl⟩ := List.head?_eq_some_iff.mp hhead.symm
  have hnodup := h.nodup
  have hshift : l ++ m :: a :: r' = (l ++ [m]) ++ a :: r' := by rw [List.append_assoc]; rfl
  rw [dropWhile_ne hnodup, hshift, dropWhile_ne (hshift ▸ hnodup)]
  exact Nat.lt_succ_self _

theorem Winding.advance {ts : Finset (Thread n S)} {bound : Nat} (h : Winding ts bound s)
    (hs' : Sane s') (hs : Advance s t s') :
    Winding ts bound s' ∧ s'.rank ts bound < s.rank ts bound := by
  obtain ⟨q, hq⟩ := h.sane.queue h.running
  obtain ⟨l, hl⟩ := h.sane.linked (by rw [h.running]; rfl)
  obtain rfl : l = q := hl.chain.unique hq.chain
  have hrunning := advance_destroyer hs
  obtain ⟨r, hr⟩ := hs'.queue (hrunning.trans h.running)
  have hm := h.sane.mutex
  have ht : t ∈ ts := by
    by_contra ht
    exact hs.ne_idle (h.active t ht)
  have hbound := h.total
  rw [hq.queue_eq] at hbound
  cases hs with
  | @lockAppend newworker hpc _ =>
    obtain rfl : r = l := hr.chain.unique hl.chain
    apply h.goto hs' rfl hq hr ht rfl (.inr rfl)
    · rw [hpc]
      exact Nat.le_refl _
    · rw [hpc]
      simp only [Pc.rank]
      omega
  | @readHead newworker member hpc hhead =>
    obtain rfl : r = l := hr.chain.unique hl.chain
    apply h.goto hs' rfl hq hr ht rfl (.inr rfl)
    · rw [hpc]
      exact Nat.le_refl _
    · rw [hpc]
      have hle := (List.dropWhile_sublist (· ≠ member) (l := r)).length_le
      simp only [Pc.rank]
      omega
  | @appendEmpty newworker node hpc hhead hnode =>
    obtain ⟨rfl, happend⟩ := hl.appendEmpty hm hpc hhead hnode
    -- The queue gets longer by a task, which is worth 11.
    obtain rfl : r = [newworker] := hr.chain.unique happend.chain
    apply h.goto hs' rfl hq hr ht rfl (.inl (by rw [hpc]; rfl))
    · rw [hpc]
      exact Nat.le_refl _
    · rw [hpc]
      simp only [Pc.rank, List.length_singleton, List.length_nil]
      omega
  | @walk newworker member last next hpc hmember hlast =>
    obtain rfl : r = l := hr.chain.unique hl.chain
    apply h.goto hs' rfl hq hr ht rfl (.inr rfl)
    · rw [hpc]
      exact Nat.le_refl _
    · -- The steps of the walk are paid for by the nodes behind it.
      have hmem : member ∈ r := hl.member t member (by rw [hpc]; rfl)
      have hlt := behind_lt hl.chain hmem (by rw [Pool.next, hmember]; exact hlast)
      rw [hpc]
      simp only [Pc.rank]
      omega
  | @appendLast newworker member last node hpc hmember hlast hnode =>
    have happend := hl.appendLast hm hpc hmember hlast hnode
    obtain rfl : r = l ++ [newworker] := hr.chain.unique happend.chain
    apply h.goto hs' rfl hq hr ht rfl (.inl (by rw [hpc]; rfl))
    · rw [hpc, List.length_append]
      exact Nat.le_refl _
    · have hmem : member ∈ l := hl.member t member (by rw [hpc]; rfl)
      have hpos : 0 < (l.dropWhile (· ≠ member)).length := by
        obtain ⟨l₁, l₂, rfl⟩ := List.append_of_mem hmem
        rw [dropWhile_ne hl.chain.nodup]
        exact Nat.succ_pos _
      rw [hpc, List.length_append, List.length_singleton]
      simp only [Pc.rank]
      omega
  | @dequeue worker node hpc hhead hnode =>
    obtain ⟨l', rfl, hdequeue⟩ := hl.dequeue hm hpc hhead hnode
    -- A task less pays for all that its worker does with it.
    obtain rfl : r = l' := hr.chain.unique hdequeue.chain
    apply h.goto hs' rfl hq hr ht rfl (.inl (by rw [hpc]; rfl))
    · rw [hpc, List.length_cons]
      exact Nat.le_succ _
    · rw [hpc, List.length_cons]
      simp only [Pc.rank]
      omega
  | freeWorker hpc =>
    obtain rfl : r = l := hr.chain.unique (hl.freeWorker hm hpc).chain
    apply h.goto hs' rfl hq hr ht rfl (.inr rfl)
    · rw [hpc]
      exact Nat.le_refl _
    · rw [hpc]
      simp only [Pc.rank]
      omega
  | testShutdown hpc hshutdown =>
    rw [hq.running] at hshutdown
    cases hshutdown
  | unlockExit hpc =>
    -- Only `pool_destroy` sends a thread here.
    have hplaced := h.sane.placed h.running
    cases t with
    | worker w =>
      have htakes := hplaced.worker w
      rw [hpc] at htakes
      cases htakes
    | submitter i =>
      have hadds := hplaced.submitter i
      rw [hpc] at hadds
      cases hadds
  | lockTake hpc _ =>
    obtain rfl : r = l := hr.chain.unique hl.chain
    apply h.goto hs' rfl hq hr ht rfl (.inr rfl)
    · rcases hpc with hpc | hpc <;> rw [hpc] <;> exact Nat.le_refl _
    · rcases hpc with hpc | hpc <;> rw [hpc] <;> simp only [Pc.rank] <;> omega
  | incr hpc _ | unlockAppend hpc | testEmpty hpc _ _ | testLeave hpc _ | wait hpc | testTask hpc _
  | decrement hpc | unlockTake hpc | load hpc _ | run hpc | freeBuf hpc | freeArg hpc _ =>
    obtain rfl : r = l := hr.chain.unique hl.chain
    apply h.goto hs' rfl hq hr ht rfl (.inr rfl)
    · rw [hpc]
      exact Nat.le_refl _
    · rw [hpc]
      simp only [Pc.rank]
      omega

theorem Winding.signalNone {ts : Finset (Thread n S)} {bound : Nat} (h : Winding ts bound s)
    (hs' : Sane (s.goto t .idle)) (hpc : s.pc t = .signal) :
    Winding ts bound (s.goto t .idle) ∧ (s.goto t .idle).rank ts bound < s.rank ts bound := by
  obtain ⟨q, hq⟩ := h.sane.queue h.running
  obtain ⟨r, hr⟩ := hs'.queue h.running
  obtain rfl : r = q := hr.chain.unique hq.chain
  have ht : t ∈ ts := by
    by_contra ht
    rw [h.active t ht] at hpc
    cases hpc
  apply h.goto hs' rfl hq hr ht rfl (.inr rfl)
  · rw [hpc]
    exact Nat.le_refl _
  · rw [hpc]
    simp only [Pc.rank]
    omega

/-- The signal pays for what the worker does before it waits again. -/
theorem Winding.signalSome {ts : Finset (Thread n S)} {bound : Nat} {w : Fin n}
    (h : Winding ts bound s) (hs' : Sane ((s.goto (.worker w) .woken).goto t .idle))
    (hpc : s.pc t = .signal) (hwait : s.pc (.worker w) = .waiting) :
    Winding ts bound ((s.goto (.worker w) .woken).goto t .idle) ∧
      ((s.goto (.worker w) .woken).goto t .idle).rank ts bound < s.rank ts bound := by
  obtain ⟨q, hq⟩ := h.sane.queue h.running
  obtain ⟨r, hr⟩ := hs'.queue h.running
  obtain rfl : r = q := hr.chain.unique hq.chain
  have hne : t ≠ .worker w := by
    rintro rfl
    rw [hpc] at hwait
    cases hwait
  have ht : t ∈ ts := by
    by_contra ht
    rw [h.active t ht] at hpc
    cases hpc
  have hw : .worker w ∈ ts := by
    by_contra hw
    rw [h.active _ hw] at hwait
    cases hwait
  have hpc' : (s.goto (.worker w) .woken).pc t = .signal := by
    rw [Pool.pc_goto_of_ne _ hne, hpc]
  have hwake : (s.goto (.worker w) .woken).pc = Function.update s.pc (.worker w) .woken := rfl
  have hreturn : ((s.goto (.worker w) .woken).goto t .idle).pc =
    Function.update (s.goto (.worker w) .woken).pc t .idle := rfl
  -- The worker wakes first, with rank 6; the return of the signal, with rank 7, pays for it.
  have hrank := sum_goto (Pc.rank bound r) (Pc.rank bound r) hw hwake (fun _ _ => rfl)
  have hrank' := sum_goto (Pc.rank bound r) (Pc.rank bound r) ht hreturn (fun _ _ => rfl)
  have hpending := sum_goto Pc.pending Pc.pending hw hwake (fun _ _ => rfl)
  have hpending' := sum_goto Pc.pending Pc.pending ht hreturn (fun _ _ => rfl)
  rw [hwait, show Pc.rank bound r .waiting = 0 from rfl,
    show Pc.rank bound r .woken = 6 from rfl] at hrank
  rw [hpc', show Pc.rank bound r .signal = 7 from rfl,
    show Pc.rank bound r .idle = 0 from rfl] at hrank'
  rw [hwait, show Pc.pending .waiting = 0 from rfl, show Pc.pending .woken = 0 from rfl] at hpending
  rw [hpc', show Pc.pending .signal = 0 from rfl, show Pc.pending .idle = 0 from rfl] at hpending'
  have hold := h.total
  rw [hq.queue_eq] at hold
  refine ⟨⟨hs', h.running, ?_, ?_⟩, ?_⟩
  · intro u hu
    have hut : u ≠ t := fun heq => hu (heq ▸ ht)
    have huw : u ≠ .worker w := fun heq => hu (heq ▸ hw)
    rw [Pool.pc_goto_of_ne _ hut, Pool.pc_goto_of_ne _ huw, h.active u hu]
  · rw [hr.queue_eq]
    omega
  · rw [Pool.rank, Pool.rank, hr.queue_eq, hq.queue_eq]
    omega

theorem Winding.step {ts : Finset (Thread n S)} {bound : Nat} {a : Act F S n}
    (h : Winding ts bound s) (hs' : Sane s') (ha : a.internal = true) (hs : Step s a s') :
    Winding ts bound s' ∧ s'.rank ts bound < s.rank ts bound := by
  cases hs with
  | advance hadv => exact h.advance hs' hadv
  | signalNone hpc _ => exact h.signalNone hs' hpc
  | signalSome hpc hwait => exact h.signalSome hs' hpc hwait
  | mallocArg | poolAddWorker | spurious | poolDestroy => cases ha

/-! ## 3. Who can go on -/

/-- `advance` has no statement for the thread. -/
def Pc.rests : Pc → Bool
  | idle | signal | waiting | exited => true
  | _ => false

def Pc.locks : Pc → Bool
  | lockAppend _ | lockTake | woken => true
  | _ => false

theorem Pc.holds_of_rests (h : pc.rests = true) : pc.holds = false := by
  cases pc <;> first | rfl | exact absurd h Bool.false_ne_true

theorem Pc.holds_of_locks (h : pc.locks = true) : pc.holds = false := by
  cases pc <;> first | rfl | exact absurd h Bool.false_ne_true

/-- Only the lock stops a thread: it finds the nodes that it reads. -/
theorem blocked (hl : Linked s q) (hq : QueueInv s q) (hP : Placed s) (hnone : advance s t = none) :
    (s.pc t).rests = true ∨ (s.pc t).locks = true ∧ s.queueLock ≠ none := by
  have hknows := hq.knows t
  have hown := hl.owned t
  have hmember := hl.member t
  cases hpc : s.pc t with
  | idle | signal | waiting | exited => exact .inl rfl
  | lockAppend newworker | lockTake | woken =>
    right
    -- With a free lock the thread would take it.
    refine ⟨rfl, ?_⟩
    intro hlock
    simp only [advance, hpc, hlock, if_pos] at hnone
    cases hnone
  | readHead newworker =>
    rw [hpc] at hown
    -- Its node is not shared yet, and nobody else frees it.
    obtain ⟨node, hnode⟩ := Option.isSome_iff_exists.mp (hown newworker rfl).1
    cases hhead : s.queueHead with
    | none => simp only [advance, hpc, hhead, hnode, Option.map_some, reduceCtorEq] at hnone
    | some member => simp only [advance, hpc, hhead, reduceCtorEq] at hnone
  | walk newworker member =>
    rw [hpc] at hown hmember
    obtain ⟨node, hnode⟩ := Option.isSome_iff_exists.mp (hown newworker rfl).1
    -- The nodes of the list are live while it has the lock.
    obtain ⟨last, hlast⟩ := Option.isSome_iff_exists.mp (hl.live member (hmember member rfl))
    cases hnext : last.next with
    | none =>
      simp only [advance, hpc, hlast, hnext, hnode, Option.bind_some, Option.map_some,
        reduceCtorEq] at hnone
    | some next => simp only [advance, hpc, hlast, hnext, Option.bind_some, reduceCtorEq] at hnone
  -- assert(pool->queue_head != NULL)
  | incr => simp only [advance, hpc, if_neg (hP.appended t hpc), reduceCtorEq] at hnone
  | dequeue =>
    rw [hpc] at hknows
    -- The worker has counted the task under the same lock.
    obtain ⟨worker, l, rfl⟩ := List.exists_cons_of_ne_nil hknows.2
    obtain ⟨node, hnode⟩ := Option.isSome_iff_exists.mp (hl.live worker List.mem_cons_self)
    have hhead : s.queueHead = some worker := hl.chain.1
    simp only [advance, hpc, hhead, hnode, Option.bind_some, Option.map_some, reduceCtorEq] at hnone
  | load worker | freeArg worker =>
    rw [hpc] at hown
    obtain ⟨node, hnode⟩ := Option.isSome_iff_exists.mp (hown worker rfl).1
    simp only [advance, hpc, hnode, Option.map_some, reduceCtorEq] at hnone
  | test | testShutdown =>
    simp only [advance, hpc] at hnone
    split at hnone <;> cases hnone
  | unlockAppend | wait | decrement | unlockTake | run | freeBuf | freeWorker | unlockExit =>
    simp only [advance, hpc, reduceCtorEq] at hnone

theorem Sane.drained (h : Sane s) (hidle : s.destroyer = .idle)
    (hstuck : ∀ a, Act.internal a = true → step s a = none) : Drained s := by
  obtain ⟨q, hq⟩ := h.queue hidle
  obtain ⟨l, hl⟩ := h.linked (by rw [hidle]; rfl)
  obtain rfl : l = q := hl.chain.unique hq.chain
  have hP := h.placed hidle
  have hblocked : ∀ t, (s.pc t).rests = true ∨ (s.pc t).locks = true ∧ s.queueLock ≠ none :=
    fun t => blocked hl hq hP (hstuck (.advance t) rfl)
  -- A thread that had the lock could go on.
  have hlock : s.queueLock = none := by
    by_contra hlock
    obtain ⟨t, ht⟩ := Option.ne_none_iff_exists'.mp hlock
    have hholds := (h.mutex t).mp ht
    rcases hblocked t with hrests | ⟨hlocks, -⟩
    · rw [Pc.holds_of_rests hrests] at hholds
      cases hholds
    · rw [Pc.holds_of_locks hlocks] at hholds
      cases hholds
  have hrests : ∀ t, (s.pc t).rests = true := fun t =>
    (hblocked t).resolve_right fun hlocks => hlocks.2 hlock
  have hsignal : ∀ t, s.pc t ≠ .signal := by
    intro t ht
    -- pthread_cond_signal never blocks: it wakes a worker, or nobody.
    by_cases hwait : ∃ w, s.pc (.worker w) = .waiting
    · obtain ⟨w, hw⟩ := hwait
      have hnone := hstuck (.signal t (some w)) rfl
      rw [step, if_pos ⟨ht, hw⟩] at hnone
      cases hnone
    · rw [not_exists] at hwait
      have hnone := hstuck (.signal t none) rfl
      rw [step, if_pos ⟨ht, hwait⟩] at hnone
      cases hnone
  have hworkers : ∀ w, s.pc (.worker w) = .waiting := by
    intro w
    have hrest := hrests (.worker w)
    have htakes := hP.worker w
    cases hpc : s.pc (.worker w) with
    | waiting => rfl
    | idle | signal | exited =>
      rw [hpc] at htakes
      cases htakes
    | _ =>
      rw [hpc] at hrest
      cases hrest
  have hsubmitters : ∀ i, s.pc (.submitter i) = .idle := by
    intro i
    have hrest := hrests (.submitter i)
    have hadds := hP.submitter i
    cases hpc : s.pc (.submitter i) with
    | idle => rfl
    | signal => exact absurd hpc (hsignal _)
    | waiting | exited =>
      rw [hpc] at hadds
      cases hadds
    | _ =>
      rw [hpc] at hrest
      cases hrest
  -- With tasks in the queue somebody would be awake.
  have hempty : s.queueHead = none := by
    by_contra hhead
    rcases h.wakeUp hidle hhead with ⟨w, hw⟩ | ⟨t, ht⟩
    · exact hw (hworkers w)
    · cases t with
      | worker w =>
        rw [hworkers w] at ht
        cases ht
      | submitter i =>
        rw [hsubmitters i] at ht
        cases ht
  have hnil : l = [] := hl.chain.eq_none_iff.mp hempty
  subst hnil
  refine ⟨hempty, hq.free hlock, ?_, hworkers, hsubmitters⟩
  rw [hq.history]
  exact (List.append_nil _).symm

/-! ## 4. Schedules -/

theorem settles (hn : 0 < n) (ts : Finset (Thread n S)) (bound : Nat) :
    (threadPool F S n).Settles (fun a => a.internal = true) (Winding ts bound) Drained
      (Pool.rank · ts bound) where
  step h ha hs := h.step ((sane_invariant hn).step h.sane hs) ha (step_cases hs)
  rest h hstuck := h.sane.drained h.running hstuck

/-- **The pool drains under every schedule.** While no task is submitted and nobody destroys the
pool, its threads take a bounded number of steps, and when they cannot go on, all tasks have been
handed out and every worker waits: there is no deadlock. -/
theorem pool_drains (hn : 0 < n) (h : (threadPool F S n).Reachable s) (hd : s.destroyer = .idle) :
    ∃ bound, ∀ l s', (∀ a ∈ l, Act.internal a = true) → (threadPool F S n).exec s l = some s' →
      l.length ≤ bound ∧ ((∀ a, Act.internal a = true → step s' a = none) → Drained s') := by
  have hsane := (sane_invariant hn).of_reachable h
  obtain ⟨ts, hts⟩ := hsane.finite
  -- The tasks in the queue, and those that a call is about to append
  let tasks := s.queue.length + ∑ t ∈ ts, (s.pc t).pending
  have hwinding : Winding ts tasks s := ⟨hsane, hd, hts, Nat.le_refl _⟩
  refine ⟨s.rank ts tasks, ?_⟩
  intro l s' hl hexec
  obtain ⟨hs', hle⟩ := (settles hn ts tasks).length_le hwinding hl hexec
  exact ⟨by omega, (settles hn ts _).rest hs'⟩

end Step

theorem pool_drains_twoTasks :
    ∃ s, (threadPool Unit Bool 1).exec (poolInit Unit Bool 1) twoTasks = some s ∧
      s.queueHead = some 1 ∧ ∃ bound, ∀ l s', (∀ a ∈ l, Act.internal a = true) →
        (threadPool Unit Bool 1).exec s l = some s' →
          l.length ≤ bound ∧ ((∀ a, Act.internal a = true → step s' a = none) → Drained s') := by
  refine ⟨_, rfl, rfl, ?_⟩
  exact pool_drains (by decide) (TransitionSystem.reachable_of_exec _ (l := twoTasks) rfl) rfl

end CcPof.ThreadPool

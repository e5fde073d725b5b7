import CcPof.ThreadPool.Links

/-!
# The task queue

Until `pool_destroy` is called, the list from `queue_head` holds the tasks that were appended and
not handed out, in the order of their submission, and `cur_queue_size` counts them, one off only
while a thread is between its two updates under the lock.
-/

namespace CcPof.ThreadPool

variable {F S : Type} {n : Nat}

/-! ## 1. What a thread knows under the lock -/

/-- What a thread inside its critical section knows of the queue `q` and of `cur_queue_size`. -/
def Pc.Knows (q : List Addr) (size : Int) : Pc → Prop
  | readHead _ | unlockAppend | test | unlockTake _ | unlockExit => size = q.length
  | walk _ member => size = q.length ∧ member ∈ q
  | incr => size + 1 = q.length
  | wait => size = q.length ∧ q = []
  | testShutdown | decrement => size = q.length ∧ q ≠ []
  | dequeue => size + 1 = q.length ∧ q ≠ []
  | _ => True

theorem Pc.knows_of_not_holds {q : List Addr} {size : Int} {pc : Pc} (h : pc.holds = false) :
    pc.Knows q size := by
  cases pc <;> trivial

/-- The state of the queue before `pool_destroy`; `q` are the nodes from `queue_head` on. -/
structure QueueInv (s : Pool F S n) (q : List Addr) : Prop where
  chain : Chain s.next s.queueHead q
  live : ∀ a ∈ q, (s.nodes a).isSome
  history : s.appended = s.handed ++ q.filterMap s.task
  knows : ∀ t, (s.pc t).Knows q s.curQueueSize
  free : s.queueLock = none → s.curQueueSize = q.length
  owned : ∀ t a, (s.pc t).owns = some a → (s.nodes a).isSome ∧ a ∉ q
  owner : ∀ t u a, (s.pc t).owns = some a → (s.pc u).owns = some a → t = u
  unlinked : ∀ t a, (s.pc t).appends = some a → s.next a = none
  running : s.shutdown = false

theorem queueInv_poolInit : QueueInv (poolInit F S n) [] where
  chain := rfl
  live := nofun
  history := rfl
  knows t := by cases t <;> trivial
  free _ := rfl
  owned t a h := by cases t <;> cases h
  owner t u a h := by cases t <;> cases h
  unlinked t a h := by cases t <;> cases h
  running := rfl

/-- Only the holder of the lock knows anything. -/
theorem Mutex.knows_others {s : Pool F S n} {t u : Thread n S} (hm : Mutex s)
    (ht : (s.pc t).holds = true) (hut : u ≠ t) (q : List Addr) (size : Int) :
    (s.pc u).Knows q size := by
  apply Pc.knows_of_not_holds
  rw [Bool.eq_false_iff, ne_eq, ← hm u, (hm t).mpr ht, Option.some.injEq]
  exact fun heq => hut heq.symm

section Step

variable [DecidableEq S] {s s' : Pool F S n} {t : Thread n S} {pc : Pc} {q q' : List Addr}

/-- What one thread's step has to show beside its effect on the nodes. A thread knows what it knows
under the lock, so a step under the lock leaves only its own knowledge. -/
theorem QueueInv.step (h : QueueInv s q) (hm : Mutex s) (hl : Linked s' q')
    (hpc : s'.pc = Function.update s.pc t pc) (hshutdown : s'.shutdown = s.shutdown)
    (hshared : (s.pc t).holds = true ∨ q' = q ∧ s'.curQueueSize = s.curQueueSize)
    (hknows : pc.Knows q' s'.curQueueSize)
    (hfree : s'.queueLock = none → s'.curQueueSize = q'.length) : QueueInv s' q' := by
  refine ⟨hl.chain, hl.live, hl.history, ?_, hfree, hl.owned, hl.owner, hl.unlinked,
    hshutdown.trans h.running⟩
  intro u
  rw [hpc]
  by_cases hut : u = t
  · subst hut
    rw [Function.update_self]
    exact hknows
  · rw [Function.update_of_ne hut]
    rcases hshared with hholds | ⟨rfl, hsize⟩
    · exact hm.knows_others hholds hut _ _
    · rw [hsize]
      exact h.knows u

theorem queueInv_advance (h : QueueInv s q) (hl : Linked s q) (hm : Mutex s)
    (hs : Advance s t s') : ∃ q', QueueInv s' q' := by
  have hknows := h.knows t
  have hholds := hm.taken (t := t)
  rcases linked_advance hl hm hs with ⟨r, hl'⟩
  refine ⟨r, ?_⟩
  cases hs with
  | @appendEmpty newworker node hpc hhead hnode =>
    -- The task is linked, the counter is one behind until `incr`.
    rw [hpc] at hknows hholds
    obtain rfl : r = [newworker] := hl'.chain.unique (hl.appendEmpty hm hpc hhead hnode).2.chain
    have hnil : q = [] := (hl.appendEmpty hm hpc hhead hnode).1
    have hsize : s.curQueueSize = (q.length : Int) := hknows
    refine h.step hm hl' rfl rfl (Or.inl ?_) ?_ fun hlock => absurd hlock (hholds rfl)
    · rw [hpc]
      rfl
    · show s.curQueueSize + 1 = 1
      rw [hsize, hnil]
      rfl
  | @appendLast newworker member last node hpc hmember hlast hnode =>
    rw [hpc] at hknows hholds
    obtain rfl : r = q ++ [newworker] :=
      hl'.chain.unique (hl.appendLast hm hpc hmember hlast hnode).chain
    refine h.step hm hl' rfl rfl (Or.inl ?_) ?_ fun hlock => absurd hlock (hholds rfl)
    · rw [hpc]
      rfl
    · show s.curQueueSize + 1 = ((q ++ [newworker]).length : Int)
      rw [hknows.1, List.length_append]
      rfl
  | @dequeue worker node hpc hhead hnode =>
    -- `decrement` was first, so the unlinking makes the counter right.
    rw [hpc] at hknows hholds
    rcases hl.dequeue hm hpc hhead hnode with ⟨q', rfl, hq'⟩
    obtain rfl : r = q' := hl'.chain.unique hq'.chain
    have hsize : s.curQueueSize + 1 = ((worker :: r).length : Int) := hknows.1
    refine h.step hm hl' rfl rfl (Or.inl ?_) ?_ fun hlock => absurd hlock (hholds rfl)
    · rw [hpc]
      rfl
    · show s.curQueueSize = (r.length : Int)
      rw [List.length_cons] at hsize
      omega
  | @freeWorker worker hpc =>
    obtain rfl : r = q := hl'.chain.unique (hl.freeWorker hm hpc).chain
    exact h.step hm hl' rfl rfl (Or.inr ⟨rfl, rfl⟩) trivial h.free
  | lockAppend hpc hlock =>
    -- While nobody has the lock the counter is right.
    obtain rfl : r = q := hl'.chain.unique hl.chain
    exact h.step hm hl' rfl rfl (Or.inr ⟨rfl, rfl⟩) (h.free hlock) nofun
  | @readHead newworker member hpc hhead =>
    obtain rfl : r = q := hl'.chain.unique hl.chain
    rw [hpc] at hknows hholds
    have hmem : member ∈ r := hl'.member t member (by rw [Pool.pc_goto_self]; rfl)
    exact h.step hm hl' rfl rfl (Or.inr ⟨rfl, rfl⟩) ⟨hknows, hmem⟩ fun hlock =>
      absurd hlock (hholds rfl)
  | @walk newworker member last next hpc hmember hlast =>
    obtain rfl : r = q := hl'.chain.unique hl.chain
    rw [hpc] at hknows hholds
    have hmem : next ∈ r := hl'.member t next (by rw [Pool.pc_goto_self]; rfl)
    exact h.step hm hl' rfl rfl (Or.inr ⟨rfl, rfl⟩) ⟨hknows.1, hmem⟩ fun hlock =>
      absurd hlock (hholds rfl)
  | incr hpc _ =>
    obtain rfl : r = q := hl'.chain.unique hl.chain
    rw [hpc] at hknows hholds
    refine h.step hm hl' rfl rfl (Or.inl ?_) hknows fun hlock => absurd hlock (hholds rfl)
    rw [hpc]
    rfl
  | unlockAppend hpc =>
    obtain rfl : r = q := hl'.chain.unique hl.chain
    rw [hpc] at hknows
    exact h.step hm hl' rfl rfl (Or.inr ⟨rfl, rfl⟩) trivial fun _ => hknows
  | lockTake hpc hlock =>
    obtain rfl : r = q := hl'.chain.unique hl.chain
    exact h.step hm hl' rfl rfl (Or.inr ⟨rfl, rfl⟩) (h.free hlock) nofun
  | testEmpty hpc hzero _ =>
    -- Under the lock the test of the counter is a test of the queue.
    obtain rfl : r = q := hl'.chain.unique hl.chain
    rw [hpc] at hknows hholds
    have hsize : s.curQueueSize = r.length := hknows
    have hnil : r = [] := by
      apply List.eq_nil_of_length_eq_zero
      omega
    exact h.step hm hl' rfl rfl (Or.inr ⟨rfl, rfl⟩) ⟨hsize, hnil⟩ fun hlock =>
      absurd hlock (hholds rfl)
  | testLeave hpc hleave =>
    obtain rfl : r = q := hl'.chain.unique hl.chain
    rw [hpc] at hknows hholds
    have hsize : s.curQueueSize = r.length := hknows
    -- The loop ends on a task or on `shutdown`, which is clear.
    have hne : r ≠ [] := by
      intro hnil
      rw [hnil] at hsize
      exact hleave ⟨hsize, h.running⟩
    exact h.step hm hl' rfl rfl (Or.inr ⟨rfl, rfl⟩) ⟨hsize, hne⟩ fun hlock =>
      absurd hlock (hholds rfl)
  | wait hpc =>
    -- `pthread_cond_wait` gives the lock back.
    obtain rfl : r = q := hl'.chain.unique hl.chain
    rw [hpc] at hknows
    exact h.step hm hl' rfl rfl (Or.inr ⟨rfl, rfl⟩) trivial fun _ => hknows.1
  | testShutdown hpc hshutdown =>
    -- `shutdown` stays clear until `pool_destroy`.
    rw [h.running] at hshutdown
    cases hshutdown
  | testTask hpc _ =>
    obtain rfl : r = q := hl'.chain.unique hl.chain
    rw [hpc] at hknows hholds
    exact h.step hm hl' rfl rfl (Or.inr ⟨rfl, rfl⟩) hknows fun hlock => absurd hlock (hholds rfl)
  | decrement hpc =>
    obtain rfl : r = q := hl'.chain.unique hl.chain
    rw [hpc] at hknows hholds
    refine h.step hm hl' rfl rfl (Or.inl ?_) ⟨?_, hknows.2⟩ fun hlock => absurd hlock (hholds rfl)
    · rw [hpc]
      rfl
    · show s.curQueueSize - 1 + 1 = (r.length : Int)
      rw [← hknows.1]
      omega
  | unlockTake hpc =>
    obtain rfl : r = q := hl'.chain.unique hl.chain
    rw [hpc] at hknows
    exact h.step hm hl' rfl rfl (Or.inr ⟨rfl, rfl⟩) trivial fun _ => hknows
  | load hpc _ | run hpc | freeBuf hpc | freeArg hpc _ =>
    obtain rfl : r = q := hl'.chain.unique hl.chain
    exact h.step hm hl' rfl rfl (Or.inr ⟨rfl, rfl⟩) trivial h.free
  | unlockExit hpc =>
    obtain rfl : r = q := hl'.chain.unique hl.chain
    rw [hpc] at hknows
    exact h.step hm hl' rfl rfl (Or.inr ⟨rfl, rfl⟩) trivial fun _ => hknows

/-- The invariant up to the call of `pool_destroy`. -/
def QueueOk (s : Pool F S n) : Prop := s.destroyer = .idle → ∃ q, QueueInv s q

theorem queueOk_step {a : Act F S n} (hm : Mutex s) (hl : LinkedOk s) (h : QueueOk s)
    (hs : Step s a s') : QueueOk s' := by
  intro hidle
  have hbefore : s.destroyer = .idle := by
    cases hs with
    | advance hadv => exact (advance_destroyer hadv).symm.trans hidle
    | poolDestroy hd => exact absurd hidle (poolDestroy_frame hd).2.2
    | mallocArg | poolAddWorker | signalNone | signalSome | spurious => exact hidle
  rcases h hbefore with ⟨q, hq⟩
  rcases hl (by rw [hbefore]; rfl) with ⟨r, hr⟩
  obtain rfl : r = q := hr.chain.unique hq.chain
  cases hs with
  | mallocArg _ =>
    exact ⟨r, hq.chain, hq.live, hq.history, hq.knows, hq.free, hq.owned, hq.owner, hq.unlinked,
      hq.running⟩
  | poolAddWorker hpc hfresh =>
    exact ⟨r, hq.step hm (hr.poolAddWorker hm hpc hfresh rfl) rfl rfl (Or.inr ⟨rfl, rfl⟩) trivial
      hq.free⟩
  | advance hadv => exact queueInv_advance hq hr hm hadv
  | @signalNone t hpc _ =>
    have hr' : Linked (s.goto t .idle) r :=
      hr.goto hm rfl rfl rfl rfl rfl (by rw [hpc]; rfl) nofun nofun
    exact ⟨r, hq.step hm hr' rfl rfl (Or.inr ⟨rfl, rfl⟩) trivial hq.free⟩
  | @signalSome t w hpc hwait =>
    have ht : t ≠ .worker w := by
      rintro rfl
      rw [hpc] at hwait
      cases hwait
    have hpc' : (s.goto (.worker w) .woken).pc t = .signal := by
      rw [Pool.pc_goto_of_ne _ ht, hpc]
    have hr' : Linked (s.goto (.worker w) .woken) r :=
      hr.goto hm rfl rfl rfl rfl rfl (by rw [hwait]; rfl) nofun nofun
    have hq' : QueueInv (s.goto (.worker w) .woken) r :=
      hq.step hm hr' rfl rfl (Or.inr ⟨rfl, rfl⟩) trivial hq.free
    have hr'' : Linked ((s.goto (.worker w) .woken).goto t .idle) r :=
      hr'.goto (hm.wake hwait) rfl rfl rfl rfl rfl (by rw [hpc']; rfl) nofun nofun
    exact ⟨r, hq'.step (hm.wake hwait) hr'' rfl rfl (Or.inr ⟨rfl, rfl⟩) trivial hq.free⟩
  | @spurious t hpc =>
    have hr' : Linked (s.goto t .woken) r :=
      hr.goto hm rfl rfl rfl rfl rfl (by rw [hpc]; rfl) nofun nofun
    exact ⟨r, hq.step hm hr' rfl rfl (Or.inr ⟨rfl, rfl⟩) trivial hq.free⟩
  | poolDestroy hd => exact absurd hidle (poolDestroy_frame hd).2.2

theorem queue_invariant :
    (threadPool F S n).Invariant fun s => (Mutex s ∧ LinkedOk s) ∧ QueueOk s :=
  linked_invariant.and (fun _ => ⟨[], queueInv_poolInit⟩) fun hl h hs =>
    queueOk_step hl.1 hl.2 h (step_cases hs)

/-- The accounting of the queue, and delivery in the order of submission, at every moment before
`pool_destroy`: what was appended is what was handed to the workers and then what is queued. -/
theorem queue_accounting (h : (threadPool F S n).Reachable s) (hd : s.destroyer = .idle) :
    (∃ q, Chain s.next s.queueHead q ∧ (s.queueLock = none → s.curQueueSize = q.length) ∧
      s.appended = s.handed ++ q.filterMap s.task) ∧
    (∀ t, s.pc t = .dequeue → ∃ worker, s.queueHead = some worker ∧ (s.nodes worker).isSome) ∧
    s.handed <+: s.appended := by
  rcases (queue_invariant.of_reachable h).2 hd with ⟨q, hq⟩
  refine ⟨⟨q, hq.chain, hq.free, hq.history⟩, fun t ht => ?_, ?_⟩
  · have hknows := hq.knows t
    rw [ht] at hknows
    rcases Option.ne_none_iff_exists'.mp (hq.chain.ne_none_iff.mpr hknows.2) with ⟨worker, hhead⟩
    have hchain := hq.chain
    rw [hhead, Chain.some_iff] at hchain
    rcases hchain with ⟨q', rfl, -⟩
    exact ⟨worker, hhead, hq.live worker List.mem_cons_self⟩
  · rw [hq.history]
    exact List.prefix_append _ _

end Step

/-- A worker that is woken spuriously, two submissions, and a worker at its first task. -/
def twoTasks : List (Act Unit Bool 1) :=
  [.advance (.worker 0), .advance (.worker 0), .advance (.worker 0), .spurious (.worker 0),
    .poolAddWorker (.submitter false) () 100 1, .poolAddWorker (.submitter true) () 200 2,
    .advance (.submitter true), .advance (.submitter true), .advance (.submitter true),
    .advance (.submitter true), .advance (.submitter false), .advance (.submitter false),
    .advance (.submitter false), .advance (.submitter false), .advance (.submitter false),
    .advance (.worker 0), .advance (.worker 0), .advance (.worker 0), .advance (.worker 0),
    .advance (.worker 0)]

theorem queue_accounting_twoTasks :
    ∃ s, (threadPool Unit Bool 1).exec (poolInit Unit Bool 1) twoTasks = some s ∧
      s.handed = [⟨(), 200⟩] ∧ s.appended = [⟨(), 200⟩, ⟨(), 100⟩] ∧ s.handed <+: s.appended := by
  refine ⟨_, rfl, rfl, rfl, ?_⟩
  exact (queue_accounting (TransitionSystem.reachable_of_exec _ (l := twoTasks) rfl) rfl).2.2

end CcPof.ThreadPool

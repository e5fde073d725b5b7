import CcPof.ThreadPool.Queue

/-!
# Wake-ups

A submitter signals after it has released the lock, and the signal wakes one waiter at most. While
the queue is not empty, some worker is outside the wait set or some submitter still has to signal.
-/

namespace CcPof.ThreadPool

variable {F S : Type} {n : Nat}

/-- Behind the append and before the signal. -/
def Pc.signals : Pc → Bool
  | incr | unlockAppend | signal => true
  | _ => false

/-- A worker outside the wait set of `queue_ready`, or a signal to come. -/
def Pool.Awake (s : Pool F S n) : Prop :=
  (∃ w, s.pc (.worker w) ≠ .waiting) ∨ ∃ t, (s.pc t).signals = true

section Step

variable [DecidableEq S] {s s' : Pool F S n} {t : Thread n S} {pc : Pc}

theorem Pool.Awake.goto (h : s.Awake) (hpc : s'.pc = Function.update s.pc t pc)
    (hwait : pc ≠ .waiting) (hsignals : (s.pc t).signals = true → pc.signals = true) :
    s'.Awake := by
  rcases h with ⟨w, hw⟩ | ⟨u, hu⟩
  · left
    refine ⟨w, ?_⟩
    rw [hpc]
    by_cases hwt : .worker w = t
    · rw [← hwt, Function.update_self]
      exact hwait
    · rw [Function.update_of_ne hwt]
      exact hw
  · right
    by_cases hut : u = t
    · subst hut
      exact ⟨u, by rw [hpc, Function.update_self]; exact hsignals hu⟩
    · exact ⟨u, by rw [hpc, Function.update_of_ne hut]; exact hu⟩

/-- A thread that has appended a task is a reason to be awake until it has signalled. -/
theorem Pool.awake_of_signals (hpc : s'.pc = Function.update s.pc t pc)
    (hsignals : pc.signals = true) : s'.Awake :=
  Or.inr ⟨t, by rw [hpc, Function.update_self]; exact hsignals⟩

theorem awake_advance {q : List Addr} (hq : QueueInv s q) (h : s.queueHead ≠ none → s.Awake)
    (hs : Advance s t s') (hhead : s'.queueHead ≠ none) : s'.Awake := by
  cases hs with
  | appendEmpty | appendLast => exact Pool.awake_of_signals rfl rfl
  | incr | unlockAppend => exact Pool.awake_of_signals rfl rfl
  | wait hpc =>
    -- A worker goes to sleep only on an empty queue.
    have hknows := hq.knows t
    rw [hpc] at hknows
    exact absurd (hq.chain.eq_none_iff.mpr hknows.2) hhead
  | dequeue hpc hsome =>
    have hawake := h (by rw [hsome]; nofun)
    exact hawake.goto rfl nofun (by rw [hpc]; nofun)
  | lockTake hpc =>
    refine (h hhead).goto rfl nofun ?_
    rcases hpc with hpc | hpc <;> rw [hpc] <;> nofun
  | lockAppend hpc | readHead hpc | walk hpc | testEmpty hpc | testLeave hpc | testShutdown hpc
    | testTask hpc | decrement hpc | unlockTake hpc | load hpc | run hpc | freeBuf hpc | freeArg hpc
    | freeWorker hpc | unlockExit hpc =>
    exact (h hhead).goto rfl nofun (by rw [hpc]; nofun)

/-- The invariant up to the call of `pool_destroy`. -/
def WakeUpOk (s : Pool F S n) : Prop := s.destroyer = .idle → s.queueHead ≠ none → s.Awake

theorem wakeUpOk_step (hn : 0 < n) {a : Act F S n} (hq : QueueOk s) (h : WakeUpOk s)
    (hs : Step s a s') : WakeUpOk s' := by
  intro hidle hhead
  cases hs with
  | mallocArg _ => exact h hidle hhead
  | poolAddWorker hpc _ => exact (h hidle hhead).goto rfl nofun (by rw [hpc]; nofun)
  | advance hadv =>
    rw [advance_destroyer hadv] at hidle
    rcases hq hidle with ⟨q, hq⟩
    exact awake_advance hq (h hidle) hadv hhead
  | @signalNone t hpc hnone =>
    -- The signal is lost only if no worker waits.
    left
    refine ⟨⟨0, hn⟩, ?_⟩
    by_cases ht : .worker ⟨0, hn⟩ = t
    · rw [← ht, Pool.pc_goto_self]
      nofun
    · rw [Pool.pc_goto_of_ne _ ht]
      exact hnone ⟨0, hn⟩
  | @signalSome t w hpc hwait =>
    left
    refine ⟨w, ?_⟩
    have ht : .worker w ≠ t := by
      rintro rfl
      rw [hpc] at hwait
      cases hwait
    rw [Pool.pc_goto_of_ne _ ht, Pool.pc_goto_self]
    nofun
  | spurious hpc => exact (h hidle hhead).goto rfl nofun (by rw [hpc]; nofun)
  | poolDestroy hd => exact absurd hidle (poolDestroy_frame hd).2.2

theorem wakeUp_invariant (hn : 0 < n) :
    (threadPool F S n).Invariant fun s => ((Mutex s ∧ LinkedOk s) ∧ QueueOk s) ∧ WakeUpOk s :=
  queue_invariant.and (fun _ h => absurd rfl h) fun hq h hs =>
    wakeUpOk_step hn hq.2 h (step_cases hs)

/-- No wake-up is lost on submission. -/
theorem no_lost_wakeUp (hn : 0 < n) (h : (threadPool F S n).Reachable s) (hd : s.destroyer = .idle) :
    ¬ (s.queueHead ≠ none ∧ (∀ w, s.pc (.worker w) = .waiting) ∧
      ∀ i, (s.pc (.submitter i)).signals = false) := by
  rintro ⟨hhead, hwait, hsignals⟩
  rcases ((wakeUp_invariant hn).of_reachable h).2 hd hhead with ⟨w, hw⟩ | ⟨t, ht⟩
  · exact hw (hwait w)
  · cases t with
    | worker w =>
      rw [hwait w] at ht
      cases ht
    | submitter i =>
      rw [hsignals i] at ht
      cases ht

end Step

/-- The worker of a pool that has only one. -/
def soleWorker : Thread 1 Bool :=
  .worker ⟨0, Nat.one_pos⟩

/-- One submission to a worker that is asleep, up to the statement before its signal. -/
def beforeSignal : List (Act Unit Bool 1) :=
  [.advance soleWorker, .advance soleWorker, .advance soleWorker,
    .poolAddWorker (.submitter false) () 100 1, .advance (.submitter false),
    .advance (.submitter false), .advance (.submitter false), .advance (.submitter false)]

theorem no_lost_wakeUp_beforeSignal :
    ∃ s, (threadPool Unit Bool 1).exec (poolInit Unit Bool 1) beforeSignal = some s ∧
      s.queueHead = some 1 ∧ s.pc (.worker 0) = .waiting ∧
      ¬ (s.queueHead ≠ none ∧ (∀ w, s.pc (.worker w) = .waiting) ∧
        ∀ i, (s.pc (.submitter i)).signals = false) := by
  refine ⟨_, rfl, rfl, rfl, ?_⟩
  exact no_lost_wakeUp (by decide)
    (TransitionSystem.reachable_of_exec _ (l := beforeSignal) rfl) rfl

end CcPof.ThreadPool

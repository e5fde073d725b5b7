import CcPof.ThreadPool.WakeUp

/-!
# Shutdown

`pool_destroy` sets the flag of the wait condition without the lock. A worker that has tested the
condition before and enters the wait set after the broadcast sleeps for good.
-/

namespace CcPof.ThreadPool

variable {F S : Type} {n : Nat}

/-- Behind the `pthread_cond_broadcast` of `pool_destroy`. -/
def DestroyPc.broadcastDone : DestroyPc → Bool
  | idle | testShutdown | setShutdown | broadcast => false
  | returned ret => ret = 0
  | _ => true

/-- A worker is in the wait set of `queue_ready` after the flag was set and all were woken. -/
def Pool.Sleeper (s : Pool F S n) : Prop :=
  s.shutdown = true ∧ s.destroyer.broadcastDone = true ∧ ∃ w, s.pc (.worker w) = .waiting

/-- No worker stands between its test of the wait condition and its entry into the wait set when
the broadcast is executed. -/
def BroadcastOk (s : Pool F S n) : Act F S n → Prop
  | .poolDestroy => s.destroyer = .broadcast → ∀ w, s.pc (.worker w) ≠ .wait
  | _ => True

instance (s : Pool F S n) : ∀ a, Decidable (BroadcastOk s a)
  | .poolDestroy => inferInstanceAs (Decidable (_ → _))
  | .mallocArg _ | .poolAddWorker .. | .advance _ | .signal .. | .spurious _ => isTrue trivial

/-- The flag is set before the broadcast, and from there on no worker is about to sleep. -/
structure ShutdownOk (s : Pool F S n) : Prop where
  flag : s.destroyer = .broadcast ∨ s.destroyer.broadcastDone = true → s.shutdown = true
  awake : s.destroyer.broadcastDone = true →
    ∀ w, s.pc (.worker w) ≠ .wait ∧ s.pc (.worker w) ≠ .waiting

theorem Pc.wake_ne {pc : Pc} (h : pc ≠ .wait) : pc.wake ≠ .wait ∧ pc.wake ≠ .waiting := by
  cases pc <;> first | exact absurd rfl h | exact ⟨nofun, nofun⟩

/-- `pool_destroy` reaches its broadcast with the flag set. -/
theorem ShutdownOk.poolDestroy {s s' : Pool F S n} (h : ShutdownOk s)
    (hok : s.destroyer = .broadcast → ∀ w, s.pc (.worker w) ≠ .wait)
    (hs : poolDestroy s = some s') : ShutdownOk s' := by
  unfold CcPof.ThreadPool.poolDestroy at hs
  split at hs
  case h_1 hpc =>
    -- not called yet
    cases hs
    exact ⟨nofun, nofun⟩
  case h_2 hpc =>
    split at hs <;> cases hs <;> exact ⟨nofun, nofun⟩
  case h_3 hpc =>
    cases hs
    exact ⟨fun _ => rfl, nofun⟩
  case h_4 hpc =>
    cases hs
    exact ⟨fun _ => h.flag (Or.inl hpc), fun _ w => Pc.wake_ne (hok hpc w)⟩
  case h_13 hpc => cases hs
  case h_5 i hpc =>
    have hdone : s.destroyer.broadcastDone = true := by rw [hpc]; rfl
    have hflag := h.flag (Or.inr hdone)
    split at hs
    · split at hs
      · cases hs
        exact ⟨fun _ => hflag, fun _ => h.awake hdone⟩
      · cases hs
    · cases hs
      exact ⟨fun _ => hflag, fun _ => h.awake hdone⟩
  case h_7 hpc =>
    have hdone : s.destroyer.broadcastDone = true := by rw [hpc]; rfl
    split at hs <;> cases hs <;> exact ⟨fun _ => h.flag (Or.inr hdone), fun _ => h.awake hdone⟩
  case h_8 head hpc =>
    have hdone : s.destroyer.broadcastDone = true := by rw [hpc]; rfl
    obtain ⟨node, -, rfl⟩ := Option.map_eq_some_iff.mp hs
    exact ⟨fun _ => h.flag (Or.inr hdone), fun _ => h.awake hdone⟩
  -- The other statements come behind the broadcast and have one outcome.
  all_goals
    rename_i hpc
    have hdone : s.destroyer.broadcastDone = true := by rw [hpc]; rfl
    cases hs
    exact ⟨fun _ => h.flag (Or.inr hdone), fun _ => h.awake hdone⟩

section Step

variable [DecidableEq S] {s s' : Pool F S n} {t : Thread n S} {pc : Pc}

/-- A thread moves on, and not towards the wait set. -/
theorem ShutdownOk.goto (h : ShutdownOk s) (hdest : s'.destroyer = s.destroyer)
    (hshut : s'.shutdown = s.shutdown) (hpc : s'.pc = Function.update s.pc t pc)
    (hwait : s.destroyer.broadcastDone = true → ∀ w, t = .worker w → pc ≠ .wait ∧ pc ≠ .waiting) :
    ShutdownOk s' where
  flag hd := by
    rw [hdest] at hd
    rw [hshut]
    exact h.flag hd
  awake hd w := by
    rw [hdest] at hd
    rw [hpc]
    by_cases hwt : .worker w = t
    · rw [← hwt, Function.update_self]
      exact hwait hd w hwt.symm
    · rw [Function.update_of_ne hwt]
      exact h.awake hd w

theorem shutdownOk_advance (h : ShutdownOk s) (hs : Advance s t s') : ShutdownOk s' := by
  cases hs with
  | testEmpty hpc hsize hflag =>
    -- With the flag set a worker does not go to the wait set.
    refine h.goto rfl rfl rfl fun hd _ _ => ?_
    rw [h.flag (Or.inr hd)] at hflag
    cases hflag
  | wait hpc =>
    refine h.goto rfl rfl rfl fun hd w hw => ?_
    rw [hw] at hpc
    exact absurd hpc (h.awake hd w).1
  | lockAppend | readHead | appendEmpty | walk | appendLast | incr | unlockAppend | lockTake
    | testLeave | testShutdown | testTask | decrement | dequeue | unlockTake | load | run | freeBuf
    | freeArg | freeWorker | unlockExit => exact h.goto rfl rfl rfl fun _ _ _ => ⟨nofun, nofun⟩

theorem shutdownOk_step {a : Act F S n} (h : ShutdownOk s) (hok : BroadcastOk s a)
    (hs : Step s a s') : ShutdownOk s' := by
  cases hs with
  | mallocArg _ => exact ⟨h.flag, h.awake⟩
  | poolAddWorker _ _ => exact h.goto rfl rfl rfl fun _ _ _ => ⟨nofun, nofun⟩
  | advance hadv => exact shutdownOk_advance h hadv
  | signalNone _ _ => exact h.goto rfl rfl rfl fun _ _ _ => ⟨nofun, nofun⟩
  | @signalSome t w _ _ =>
    have hwoken : ShutdownOk (s.goto (.worker w) .woken) :=
      h.goto rfl rfl rfl fun _ _ _ => ⟨nofun, nofun⟩
    exact hwoken.goto rfl rfl rfl fun _ _ _ => ⟨nofun, nofun⟩
  | spurious _ => exact h.goto rfl rfl rfl fun _ _ _ => ⟨nofun, nofun⟩
  | poolDestroy hd => exact h.poolDestroy hok hd

theorem shutdown_invariant : ((threadPool F S n).restrict BroadcastOk).Invariant ShutdownOk := by
  apply TransitionSystem.Invariant.restrict
  · exact ⟨nofun, nofun⟩
  · intro s s' a hI hok hs
    exact shutdownOk_step hI hok (step_cases hs)

/-- No worker sleeps through shutdown in a run that meets the condition at its broadcast. A worker
between its test and its wait at that moment does. -/
theorem no_sleeper :
    (∀ s : Pool F S n, ((threadPool F S n).restrict BroadcastOk).Reachable s → ¬ s.Sleeper) ∧
    ∀ (s : Pool F S n) w, ((threadPool F S n).restrict BroadcastOk).Reachable s →
      s.destroyer = .broadcast → s.pc (.worker w) = .wait →
      ∃ s', (threadPool F S n).exec s [.poolDestroy, .advance (.worker w)] = some s' ∧ s'.Sleeper := by
  constructor
  · rintro s hs ⟨-, hd, w, hw⟩
    have hI := shutdown_invariant.of_reachable hs
    exact (hI.awake hd w).2 hw
  · intro s w hs hd hw
    have hflag := (shutdown_invariant.of_reachable hs).flag (Or.inl hd)
    -- The broadcast wakes those who wait already.
    let s₁ : Pool F S n := { s with pc := fun t => (s.pc t).wake, destroyer := .join 0 }
    have h₁ : step s .poolDestroy = some s₁ := by
      unfold step CcPof.ThreadPool.poolDestroy
      rw [hd]
    have hpc₁ : s₁.pc (.worker w) = .wait := by
      show (s.pc (.worker w)).wake = .wait
      rw [hw]
      rfl
    have h₂ : step s₁ (.advance (.worker w)) =
        some ({ s₁ with queueLock := none }.goto (.worker w) .waiting) := by
      unfold step advance
      dsimp only
      rw [hpc₁]
    refine ⟨{ s₁ with queueLock := none }.goto (.worker w) .waiting, ?_, hflag, rfl, w, ?_⟩
    · show (step s .poolDestroy).bind _ = _
      rw [h₁]
      show (step s₁ (.advance (.worker w))).bind _ = _
      rw [h₂]
      rfl
    · exact Pool.pc_goto_self ..

end Step

/-- The only worker is in the wait set when `pool_destroy` is called, and leaves. -/
def destroyWhileWaiting : List (Act Unit Bool 1) :=
  [.advance soleWorker, .advance soleWorker, .advance soleWorker, .poolDestroy, .poolDestroy,
    .poolDestroy, .poolDestroy, .advance soleWorker, .advance soleWorker]

theorem no_sleeper_destroyWhileWaiting :
    ∃ s, ((threadPool Unit Bool 1).restrict BroadcastOk).exec (poolInit Unit Bool 1)
        destroyWhileWaiting = some s ∧
      s.shutdown = true ∧ s.destroyer = .join 0 ∧ s.pc (.worker 0) = .testShutdown ∧
      ¬ s.Sleeper := by
  refine ⟨_, rfl, rfl, rfl, rfl, ?_⟩
  exact no_sleeper.1 _ (TransitionSystem.reachable_of_exec _ (l := destroyWhileWaiting) rfl)

/-- The only worker has tested the condition when `pool_destroy` is called. -/
def destroyBeforeWait : List (Act Unit Bool 1) :=
  [.advance soleWorker, .advance soleWorker, .poolDestroy, .poolDestroy, .poolDestroy,
    .poolDestroy, .advance soleWorker]

theorem sleeps_through_shutdown :
    ∃ s, (threadPool Unit Bool 1).exec (poolInit Unit Bool 1) destroyBeforeWait = some s ∧
      s.Sleeper := by
  refine ⟨_, rfl, rfl, rfl, 0, rfl⟩

end CcPof.ThreadPool

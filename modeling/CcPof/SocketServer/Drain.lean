import CcPof.SocketServer.Counting
import CcPof.SocketServer.LockProgress

/-!
# Coming to rest

Some of the workers go on alone and take in no client: what they have is handled and closed. Every
such run is finite, and it ends with these workers in `epoll_wait`, or behind their loop.
-/

namespace CcPof.SocketServer

variable {minThreads maxThreads : Nat} {s s' : Server} {i : Nat} {w w' : Worker} {env : Env}
  {a : Act} {moves : Nat → WorkerPc → Bool}

/-- The answers that bring a worker to its end: `accept` fails, the handler returns 0, and no other
worker is created. -/
def WorkerPc.drains : WorkerPc → Env → Bool
  | poll, .fd _ => true
  | poll, _ => false
  | accept, env | rearm _, env => env = .fail
  | handle _, env => env = .code 0
  | add _ (.create j), env => env = if j < 1 then .fail else .ok
  | _, env => env = .ok

/-- The workers of `moves` go on, and another thread that has the lock. -/
def Drains (moves : Nat → WorkerPc → Bool) (s : Server) : Act → Prop
  | .worker i env => ∀ w ∈ s.workers[i]?, moves i w.pc = true ∧ w.pc.drains env = true
  | .start _ => s.gSpinlock = some .starter
  | .shutdown => s.gSpinlock = some .closer
  | .send _ => False

instance (s : Server) : ∀ a, Decidable (Drains moves s a)
  | .worker _ _ => inferInstanceAs (Decidable (∀ _ ∈ _, _))
  | .start _ | .shutdown => inferInstanceAs (Decidable (_ = _))
  | .send _ => isFalse id

/-! ## A rank -/

def AddPc.toDrain : AddPc → Nat
  | testMin => 16
  | testBusy => 15
  | testEqual _ => 14
  | testMax => 13
  | lock => 12
  | guard => 11
  | incr _ => 10
  | create j => if j < 1 then 9 else 8
  | unlock => 7
  | ret => 6

/-- How far it is to `epoll_wait`, and from there to the end of the next client. -/
def WorkerPc.toDrain : WorkerPc → Nat
  | testLifecycle => 27
  | setNonBlocking _ | testIdle => 26
  | setKeepAlive _ | testSpare => 25
  | epollAdd _ | lockTimeout | lockClosed => 24
  | lockCount _ | retest | uncount => 23
  | count _ | unlockTimeout _ | unlockClosed _ => 22
  | accept | unlockCount | testExit => 21
  | poll => 20
  | lockBusy _ | lockExit _ => 19
  | busy _ | uncountWorker _ => 18
  | unlockBusy _ | unlockExit .. => 17
  | add _ pc => pc.toDrain
  | handle _ => 5
  | lockIdle .. => 4
  | idle .. => 3
  | unlockIdle .. => 2
  | rearm _ | free _ => 1
  | close _ | exited _ => 0

/-- A client that is closed pays for the way back to `epoll_wait`. -/
def Server.toDrain (s : Server) : Nat :=
  30 * s.openFds.length + (s.workers.map (·.pc.toDrain)).sum +
    30 * s.starter.rank s.qss.minThreads + s.closer.rank

theorem AddRead.toDrain_lt {q : QSocketServer} {pc pc' : AddPc} (h : AddRead q 1 pc pc') :
    pc'.toDrain < pc.toDrain := by
  cases h with
  | testMin | testEqual | testMax => split <;> exact Nat.le_of_ble_eq_true rfl
  | @mallocFail j hj =>
    obtain rfl : j = 0 := by omega
    exact Nat.le_of_ble_eq_true rfl
  | @done j =>
    show 7 < if j < 1 then 9 else 8
    split <;> decide
  | _ => exact Nat.le_of_ble_eq_true rfl

theorem WorkerRead.toDrain_lt {q : QSocketServer} {pc pc' : WorkerPc} (h : WorkerRead q pc env pc')
    (hdrains : pc.drains env = true) : pc'.toDrain < pc.toDrain := by
  cases h with
  | add h => exact h.toDrain_lt
  | testLifecycle | testIdle | testSpare => split <;> exact Nat.le_of_ble_eq_true rfl
  | timeout | pollFail | setNonBlockingFail | setKeepAliveFail | epollAddFail => cases hdrains
  | _ => exact Nat.le_of_ble_eq_true rfl

theorem WorkerPc.toDrain_locked {pc pc' : WorkerPc} (h : pc.locked = some pc') :
    pc'.toDrain < pc.toDrain := by
  unfold WorkerPc.locked at h
  split at h <;> cases h <;> exact Nat.le_of_ble_eq_true rfl

theorem WorkerPc.toDrain_unlocked {pc pc' : WorkerPc} (h : pc.unlocked = some pc') :
    pc'.toDrain < pc.toDrain := by
  unfold WorkerPc.unlocked at h
  split at h <;> cases h
  case h_4 | h_5 | h_6 | h_7 => split <;> exact Nat.le_of_ble_eq_true rfl
  all_goals exact Nat.le_of_ble_eq_true rfl

/-- A worker that drains changes itself only, and pays for it. -/
theorem drain_worker (hS : Sockets s) (hw : s.workers[i]? = some w) (hdrains : w.pc.drains env = true)
    (hs : WorkerStep s i w env s') : ∃ w', s'.workers = s.workers.set i w' ∧
      30 * s'.openFds.length + w'.pc.toDrain < 30 * s.openFds.length + w.pc.toDrain := by
  have hlt {w' : Worker} {s' : Server} (hworkers : s'.workers = s.workers.set i w')
      (hopen : s'.openFds = s.openFds) (hlt : w'.pc.toDrain < w.pc.toDrain) :
      ∃ w', s'.workers = s.workers.set i w' ∧
        30 * s'.openFds.length + w'.pc.toDrain < 30 * s.openFds.length + w.pc.toDrain := by
    refine ⟨w', hworkers, ?_⟩
    rw [hopen]
    exact Nat.add_lt_add_left hlt _
  cases hs with
  | read hread => exact hlt rfl rfl (hread.toDrain_lt hdrains)
  | lock hpc _ => exact hlt rfl rfl (WorkerPc.toDrain_locked hpc)
  | unlock hpc => exact hlt rfl rfl (WorkerPc.toDrain_unlocked hpc)
  | pollServer hpc | accept hpc | rearm hpc =>
    rw [hpc] at hdrains
    cases hdrains
  | create hpc hj =>
    -- `malloc` fails for another worker.
    rw [hpc, WorkerPc.drains, if_pos hj] at hdrains
    cases hdrains
  | @close cs hpc =>
    have hopen := (hS.owned w (List.mem_of_getElem? hw) cs (by rw [hpc]; rfl)).1
    have hlength := List.length_erase_of_mem hopen
    have hpos := List.length_pos_of_mem hopen
    refine ⟨_, rfl, ?_⟩
    rw [hpc]
    show 30 * (s.openFds.erase cs).length + 24 < 30 * s.openFds.length + 0
    omega
  | @incr cs j hpc =>
    refine hlt rfl rfl ?_
    rw [hpc]
    show (if j + 1 < 1 then 9 else 8) < 10
    split <;> decide
  | pollClient hpc | acceptFail hpc | epollAdd hpc | count hpc | busy hpc | idle hpc
  | uncountLast hpc | uncount hpc | leave hpc | stay hpc | uncountWorker hpc | free hpc =>
    refine hlt rfl rfl ?_
    rw [hpc]
    exact Nat.le_of_ble_eq_true rfl

theorem drain_starter (hs : StartStep s env s') (hholds : s.starter.holds = true) :
    s'.toDrain < s.toDrain := by
  have hrank := rank_starter rfl hs hholds
  have hsum : (s'.workers.map (·.pc.toDrain)).sum ≤ (s.workers.map (·.pc.toDrain)).sum + 20 := by
    cases hs with
    | create =>
      -- The new worker is in `epoll_wait`.
      rw [Server.workers_createWorker, List.map_append, List.sum_append]
      exact Nat.le_refl _
    | _ => exact Nat.le_add_right _ 20
  have hmin : s'.qss.minThreads = s.qss.minThreads := by cases hs <;> rfl
  have hopen : s'.openFds = s.openFds := by cases hs <;> rfl
  have hcloser := closer_start hs
  unfold Server.toDrain
  rw [hmin, hopen, hcloser]
  omega

theorem toDrain_step (hM : Mutex s) (hS : Sockets s) (hd : Drains moves s a) (hs : Step s a s') :
    s'.toDrain < s.toDrain := by
  cases hs with
  | @worker i w env _ hw hs =>
    obtain ⟨w', hworkers, hlt⟩ := drain_worker hS hw (hd w hw).2 hs
    have hsum := sum_map_set (f := fun v : Worker => v.pc.toDrain) hw w'
    have hmin : s'.qss.minThreads = s.qss.minThreads := by cases hs <;> rfl
    unfold Server.toDrain
    rw [hworkers, starter_worker hs, closer_worker hs, hmin]
    omega
  | start hs => exact drain_starter hs ((hM .starter).mp hd)
  | shutdown hs =>
    have hrank := rank_closer hs ((hM .closer).mp hd)
    have hrest : s'.openFds = s.openFds ∧ s'.workers = s.workers ∧
        s'.qss.minThreads = s.qss.minThreads := by
      cases hs <;> exact ⟨rfl, rfl, rfl⟩
    unfold Server.toDrain
    rw [hrest.1, hrest.2.1, hrest.2.2, starter_shutdown hs]
    omega
  | send => exact hd.elim

/-! ## Rest -/

theorem worker_drains (hended : (Place.worker w.pc).ended = false)
    (hlock : s.gSpinlock = none ∨ w.pc.holds = true)
    (hpoll : w.pc = .poll → ∃ cs, s.armed cs = true) :
    ∃ env, w.pc.drains env = true ∧ (workerStep s i w env).isSome = true := by
  obtain ⟨pc, decrements⟩ := w
  cases pc with
  | poll =>
    obtain ⟨cs, harmed⟩ := hpoll rfl
    refine ⟨.fd cs, rfl, ?_⟩
    show Option.isSome (ite _ _ _) = true
    rw [if_pos harmed]
    rfl
  | accept => exact ⟨.fail, rfl, rfl⟩
  | rearm => exact ⟨.fail, rfl, rfl⟩
  | handle => exact ⟨.code 0, rfl, rfl⟩
  | lockCount | lockBusy | lockIdle | lockClosed | lockTimeout | lockExit =>
    exact ⟨.ok, rfl, isSome_of_free hlock⟩
  | uncount | retest =>
    refine ⟨.ok, rfl, ?_⟩
    show Option.isSome (ite _ _ _) = true
    split <;> rfl
  | exited => cases hended
  | add cs pc =>
    cases pc with
    | lock => exact ⟨.ok, rfl, isSome_of_free hlock⟩
    | create j =>
      by_cases hj : j < 1
      · refine ⟨.fail, by simp [WorkerPc.drains, hj], ?_⟩
        show (Option.map _ (Option.map _ (ite _ _ _))).isSome = true
        rw [if_pos hj]
        rfl
      · refine ⟨.ok, by simp [WorkerPc.drains, hj], ?_⟩
        show Option.isSome (ite _ _ _) = true
        rw [if_neg hj]
        rfl
    | _ => exact ⟨.ok, rfl, rfl⟩
  | _ => exact ⟨.ok, rfl, rfl⟩

/-- The workers of `moves` wait for an event, have left, or may not close a client yet. -/
def AtRest (moves : Nat → WorkerPc → Bool) (s : Server) : Prop :=
  ∀ (i : Nat) w, s.workers[i]? = some w → moves i w.pc = true →
    (w.pc = .poll ∧ ∀ cs, s.armed cs = false) ∨ (∃ exitCode, w.pc = .exited exitCode) ∨
      ∃ cs, w.pc = .close cs ∧ ¬ CloseOk s cs

/-- `accept` may fail, and `shutdownSocketServer` may go on. -/
def Room (s : Server) : Prop :=
  0 < s.census.opened + s.census.closing ∨
    s.census.accepting = 0 ∧ s.qss.lifecycleStatus ≠ 2

theorem Room.orderly_worker (h : Room s) (hw : s.workers[i]? = some w)
    (hdrains : w.pc.drains env = true) (hclose : ∀ cs ∈ w.pc.closes, CloseOk s cs) :
    Orderly s (.worker i env) := by
  intro v hv
  obtain rfl : w = v := Option.some.inj (hw.symm.trans hv)
  refine ⟨fun hpc => ?_, fun hprepares hfail => ?_, hclose⟩
  · rw [hpc] at hdrains
    have hone : 1 ≤ s.census.accepting := one_le_tally hw (by rw [hpc]; rfl)
    rw [AcceptOk, if_pos (of_decide_eq_true hdrains)]
    intro _
    rcases h with hclient | ⟨hnone, -⟩
    · show 1 < s.census.opened + s.census.closing + s.census.accepting
      omega
    · omega
  · subst hfail
    generalize w.pc = pc at hdrains hprepares
    cases pc <;> cases hprepares <;> cases hdrains

theorem Room.orderly_shutdown (h : Room s) : Orderly s .shutdown := by
  intro _ hrunning
  rcases h with hclient | ⟨-, hstatus⟩
  · have haccepting : 0 ≤ s.census.accepting := tally_nonneg
    show 0 < s.census.opened + s.census.closing + s.census.accepting
    omega
  · exact absurd hrunning hstatus

/-- What the steps of `moves` keep. -/
structure Keeps (moves : Nat → WorkerPc → Bool) (I : Server → Prop) : Prop where
  mutex : ∀ {s}, I s → Mutex s
  sockets : ∀ {s}, I s → Sockets s
  room : ∀ {s}, I s → Room s
  holder : ∀ {s} {i : Nat} {w}, I s → s.workers[i]? = some w → w.pc.holds = true →
    moves i w.pc = true
  step : ∀ {s s' a}, I s → Orderly s a → Drains moves s a → step s a = some s' → I s'

/-- The steps of `moves`, in a run that keeps to `Orderly` -/
def draining (minThreads maxThreads : Nat) (moves : Nat → WorkerPc → Bool) :
    TransitionSystem Server Act :=
  ((socketServer minThreads maxThreads).restrict Orderly).restrict (Drains moves)

theorem draining_step (hok : Orderly s a) (hd : Drains moves s a) :
    (draining minThreads maxThreads moves).step s a = step s a := by
  unfold draining TransitionSystem.restrict
  dsimp only
  rw [if_pos hd, if_pos hok]
  rfl

section Stuck

variable {I : Server → Prop} (hI : Keeps moves I) (hs : I s)
  (hstuck : ∀ a, (draining minThreads maxThreads moves).step s a = none)
include hI hs hstuck

theorem Keeps.stuck_worker (hw : s.workers[i]? = some w) (hmoves : moves i w.pc = true)
    (hlock : s.gSpinlock = none ∨ w.pc.holds = true) (hended : (Place.worker w.pc).ended = false)
    (hpoll : w.pc = .poll → ∃ cs, s.armed cs = true) : ∃ cs, w.pc = .close cs ∧ ¬ CloseOk s cs := by
  obtain ⟨env, hdrains, hsome⟩ := worker_drains hended hlock hpoll
  by_contra hclose
  have hok : Orderly s (.worker i env) := by
    refine (hI.room hs).orderly_worker hw hdrains fun cs hcs => ?_
    by_contra hblocked
    refine hclose ⟨cs, ?_, hblocked⟩
    generalize w.pc = pc at hcs
    cases pc <;> cases hcs
    rfl
  have hd : Drains moves s (.worker i env) := by
    intro v hv
    obtain rfl : w = v := Option.some.inj (hw.symm.trans hv)
    exact ⟨hmoves, hdrains⟩
  have hnone := hstuck (.worker i env)
  rw [draining_step hok hd, SocketServer.step, hw] at hnone
  rw [show workerStep s i w env = none from hnone] at hsome
  cases hsome

theorem Keeps.stuck_free : s.gSpinlock = none := by
  by_contra hheld
  obtain ⟨t, ht⟩ := Option.ne_none_iff_exists'.mp hheld
  have hholds := (hI.mutex hs t).mp ht
  obtain ⟨p, hp, hended⟩ := alive_of_holds hholds
  cases t with
  | worker j =>
    rw [Server.place, Option.map_eq_some_iff] at hp
    obtain ⟨w, hw, rfl⟩ := hp
    rw [holds_worker hw] at hholds
    have hpoll : w.pc = .poll → ∃ cs, s.armed cs = true := by
      intro hpc
      rw [hpc] at hholds
      cases hholds
    obtain ⟨cs, hpc, -⟩ := hI.stuck_worker hs hstuck hw (hI.holder hs hw hholds) (.inr hholds)
      hended hpoll
    rw [hpc] at hholds
    cases hholds
  | starter =>
    cases hp
    have hsome := starter_enabled hended (.inr hholds)
    have hnone := hstuck (.start .ok)
    rw [draining_step (show Orderly s (.start .ok) from trivial) ht] at hnone
    rw [show startStep s .ok = none from hnone] at hsome
    cases hsome
  | closer =>
    cases hp
    have hsome := closer_enabled hended (.inr hholds)
    have hnone := hstuck .shutdown
    rw [draining_step (hI.room hs).orderly_shutdown ht] at hnone
    rw [show shutdownStep s = none from hnone] at hsome
    cases hsome

theorem Keeps.stuck_atRest : AtRest moves s := by
  intro i w hw hmoves
  have hfree := hI.stuck_free hs hstuck
  by_cases hended : (Place.worker w.pc).ended = true
  · right; left
    generalize w.pc = pc at hended
    cases pc <;> first | exact ⟨_, rfl⟩ | cases hended
  by_cases hpoll : w.pc = .poll ∧ ∀ cs, s.armed cs = false
  · exact .inl hpoll
  · right; right
    refine hI.stuck_worker hs hstuck hw hmoves (.inl hfree) (Bool.eq_false_iff.mpr hended) ?_
    intro hpc
    by_contra hnone
    exact hpoll ⟨hpc, fun cs => Bool.eq_false_iff.mpr fun harmed => hnone ⟨cs, harmed⟩⟩

end Stuck

/-- The workers of `moves` come to rest, whatever the others are doing. -/
theorem Keeps.exists_rest (minThreads maxThreads : Nat) {I : Server → Prop} (hI : Keeps moves I)
    (hs : I s) :
    ∃ l t, ((socketServer minThreads maxThreads).restrict Orderly).exec s l = some t ∧ I t ∧
      AtRest moves t := by
  have hsettles : (draining minThreads maxThreads moves).Settles (fun _ => True) I (AtRest moves)
      Server.toDrain := by
    constructor
    · intro s s' a hs _ hstep
      obtain ⟨hd, hstep⟩ := TransitionSystem.step_of_restrict hstep
      obtain ⟨hok, hstep⟩ := TransitionSystem.step_of_restrict hstep
      exact ⟨hI.step hs hok hd hstep,
        toDrain_step (hI.mutex hs) (hI.sockets hs) hd (step_cases hstep)⟩
    · exact fun hs hstuck => hI.stuck_atRest hs fun a => hstuck a trivial
  obtain ⟨l, t, -, hexec, ht, hrest⟩ := hsettles.exists_rest hs
  exact ⟨l, t, TransitionSystem.exec_of_restrict hexec, ht, hrest⟩

end CcPof.SocketServer

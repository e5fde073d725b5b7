import CcPof.Lib.Tally
import CcPof.SocketServer.Lock

/-!
# The backlog of the listening socket

`server_s` is registered with `EPOLLIN|EPOLLET`: one event stands for all connections that came
before it was delivered, and `onAcceptRoutine` accepts one of them. When `accept` finds none, it
takes `server_s` out of the epoll set.
-/

namespace CcPof.SocketServer

variable {minThreads maxThreads : Nat}

/-! ## The server and its listening socket -/

/-- The server with what the kernel knows of `server_s`: whether it listens, how many connections
wait, and whether there is an event that `epoll_wait` has not delivered. -/
structure Net where
  server : Server
  listens : Bool
  backlog : Nat
  event : Bool

inductive NetAct
  | server (a : Act)
  | listen
  | arrive
  | abort

/-- What a statement of the server does to the socket -/
def Net.kernel (n : Net) : Act → Option Net
  | .worker i env =>
      match n.server.workers[i]?.map Worker.pc, env with
      | some .poll, .ok => if n.event then some { n with event := false } else none
      | some .accept, .fd _ =>
          if 0 < n.backlog then some { n with backlog := n.backlog - 1 } else none
      -- `EAGAIN`, or `EINVAL` when the socket is shut down
      | some .accept, .fail => if n.backlog = 0 ∨ n.listens = false then some n else none
      | _, _ => some n
  | .start env =>
      match n.server.starter, env with
      -- `EPOLL_CTL_ADD` reports the connections that came since `listen`.
      | .setUp, .ok => if n.listens then some { n with event := 0 < n.backlog } else none
      | .setUp, .fail => some { n with listens := false, backlog := 0 }
      | _, _ => some n
  | .shutdown =>
      match n.server.closer with
      | .shutdownServer => some { n with listens := false, event := true }
      | _ => some n
  | .send _ => some n

def netStep (n : Net) : NetAct → Option Net
  | .server a => (n.kernel a).bind fun m => (step n.server a).map fun s => { m with server := s }
  | .listen => if n.server.starter = .setUp then some { n with listens := true } else none
  | .arrive => if n.listens then some { n with backlog := n.backlog + 1, event := true } else none
  | .abort => if 0 < n.backlog then some { n with backlog := n.backlog - 1 } else none

def net (minThreads maxThreads : Nat) : TransitionSystem Net NetAct where
  init := ⟨serverInit minThreads maxThreads, false, 0, false⟩
  step := netStep

def WorkerPc.accepts : WorkerPc → Bool
  | accept => true
  | _ => false

/-- The workers that have got an event of `server_s` and not called `accept` yet -/
def Net.accepting (n : Net) : Int := tally (·.pc.accepts) n.server.workers

/-- `accept` does not fail, and a connection comes when no more connections wait than workers are
about to accept. -/
def NetOk (n : Net) : NetAct → Prop
  | .server (.worker i env) => n.server.qss.lifecycleStatus ≤ 2 →
      ∀ w ∈ n.server.workers[i]?, w.pc = .accept → env ≠ .fail
  | .arrive => n.server.qss.lifecycleStatus ≤ 2 → n.backlog ≤ n.accepting
  | .server (.start _) | .server .shutdown | .server (.send _) | .listen | .abort => True

instance (n : Net) : ∀ a, Decidable (NetOk n a)
  | .server (.worker _ _) => inferInstanceAs (Decidable (_ → ∀ _ ∈ _, _))
  | .arrive => inferInstanceAs (Decidable (_ → _))
  | .server (.start _) | .server .shutdown | .server (.send _) | .listen | .abort => isTrue trivial

def WorkerPc.waits : WorkerPc → Bool
  | poll | exited _ => true
  | _ => false

/-- A connection waits, and no worker will be told of it. -/
def Net.Stranded (n : Net) : Prop :=
  (∀ w ∈ n.server.workers, w.pc.waits = true) ∧ n.event = false ∧ 0 < n.backlog

variable {n n' : Net} {s s' : Server} {i : Nat} {w : Worker} {env : Env}

/-! ## What a step can do -/

/-- What a statement of a worker does to the socket: it takes the event, or a connection. -/
inductive KernelWorker (n : Net) : WorkerPc → Env → Net → Prop
  | deliver : n.event = true → KernelWorker n .poll .ok { n with event := false }
  | accept {cs} : 0 < n.backlog →
      KernelWorker n .accept (.fd cs) { n with backlog := n.backlog - 1 }
  | acceptFail : KernelWorker n .accept .fail n
  | other {pc env} : ¬ (pc = .poll ∧ env = .ok) →
      (pc = .accept → env ≠ .fail ∧ ∀ cs, env ≠ .fd cs) → KernelWorker n pc env n

theorem kernel_worker_cases (hw : n.server.workers[i]? = some w)
    (h : n.kernel (.worker i env) = some n') : KernelWorker n w.pc env n' := by
  simp only [Net.kernel, hw, Option.map_some] at h
  split at h
  case h_1 hpc =>
    split at h <;> cases h
    rw [Option.some.inj hpc]
    exact .deliver ‹_›
  case h_2 hpc =>
    split at h <;> cases h
    rw [Option.some.inj hpc]
    exact .accept ‹_›
  case h_3 hpc =>
    split at h <;> cases h
    rw [Option.some.inj hpc]
    exact .acceptFail
  case h_4 hpoll haccept hfail =>
    cases h
    apply KernelWorker.other
    · rintro ⟨hpc, henv⟩
      exact hpoll (congrArg some hpc) henv
    · intro hpc
      exact ⟨hfail (congrArg some hpc), fun cs => haccept cs (congrArg some hpc)⟩

/-- The step of the network, with what the kernel and the server do in it. -/
inductive NetStep (n : Net) : NetAct → Net → Prop
  | server {a : Act} {m : Net} {s' : Server} : n.kernel a = some m → step n.server a = some s' →
      NetStep n (.server a) { m with server := s' }
  | listen : NetStep n .listen { n with listens := true }
  | arrive : NetStep n .arrive { n with backlog := n.backlog + 1, event := true }
  | abort : 0 < n.backlog → NetStep n .abort { n with backlog := n.backlog - 1 }

theorem netStep_cases {a : NetAct} (hs : netStep n a = some n') : NetStep n a n' := by
  cases a with
  | server a =>
    rw [netStep, Option.bind_eq_some_iff] at hs
    rcases hs with ⟨m, hm, hs⟩
    rw [Option.map_eq_some_iff] at hs
    rcases hs with ⟨s', hs', rfl⟩
    exact .server hm hs'
  | listen =>
    rw [netStep] at hs
    split at hs <;> cases hs
    exact .listen
  | arrive =>
    rw [netStep] at hs
    split at hs <;> cases hs
    exact .arrive
  | abort =>
    rw [netStep] at hs
    split at hs <;> cases hs
    exact .abort ‹_›

theorem WorkerRead.accepts {q : QSocketServer} {pc pc' : WorkerPc} (h : WorkerRead q pc env pc') :
    pc.accepts = false ∧ pc'.accepts = false ∧ ¬ (pc = .poll ∧ env = .ok) := by
  cases h with
  | testLifecycle | testIdle | testSpare => exact ⟨rfl, by split <;> rfl, nofun⟩
  | _ => exact ⟨rfl, rfl, nofun⟩

theorem WorkerPc.accepts_of_locked {pc pc' : WorkerPc} (h : pc.locked = some pc') :
    pc.accepts = false ∧ pc'.accepts = false ∧ pc ≠ .poll := by
  unfold WorkerPc.locked at h
  split at h <;> cases h <;> exact ⟨rfl, rfl, nofun⟩

theorem WorkerPc.accepts_of_unlocked {pc pc' : WorkerPc} (h : pc.unlocked = some pc') :
    pc.accepts = false ∧ pc'.accepts = false ∧ pc ≠ .poll := by
  unfold WorkerPc.unlocked at h
  split at h <;> cases h
  case h_4 | h_5 | h_6 | h_7 => exact ⟨rfl, by split <;> rfl, nofun⟩
  all_goals exact ⟨rfl, rfl, nofun⟩

/-- An event of `server_s` brings a worker in front of `accept`, and the call takes it away. -/
theorem accepting_worker (hw : s.workers[i]? = some w) (hs : WorkerStep s i w env s') :
    tally (·.pc.accepts) s'.workers = tally (·.pc.accepts) s.workers - w.pc.accepts.toInt +
      if w.pc = .poll ∧ env = .ok then 1 else 0 := by
  have hset {w' : Worker} (hworkers : s'.workers = s.workers.set i w')
      (hpc' : w'.pc.accepts = false) (hpc : ¬ (w.pc = .poll ∧ env = .ok)) :
      tally (·.pc.accepts) s'.workers = tally (·.pc.accepts) s.workers - w.pc.accepts.toInt +
        if w.pc = .poll ∧ env = .ok then 1 else 0 := by
    rw [hworkers, tally_set hw, hpc', if_neg hpc]
    rfl
  cases hs with
  | read hread => exact hset rfl hread.accepts.2.1 hread.accepts.2.2
  | lock hpc _ =>
    have hplace := WorkerPc.accepts_of_locked hpc
    exact hset rfl hplace.2.1 fun h => hplace.2.2 h.1
  | unlock hpc =>
    have hplace := WorkerPc.accepts_of_unlocked hpc
    exact hset rfl hplace.2.1 fun h => hplace.2.2 h.1
  | pollServer hpc _ =>
    rw [Server.workers_setWorker, tally_set hw, if_pos ⟨hpc, rfl⟩]
    rfl
  | create hpc _ =>
    rw [Server.workers_createWorker, tally_append_singleton, Server.workers_setWorker, tally_set hw,
      hpc]
    rfl
  | pollClient => exact hset rfl rfl nofun
  | accept => exact hset rfl rfl nofun
  | acceptFail => exact hset rfl rfl nofun
  | epollAdd hpc | count hpc | busy hpc | incr hpc | idle hpc | rearm hpc | close hpc
  | uncountLast hpc | uncount hpc | leave hpc | stay hpc | uncountWorker hpc | free hpc =>
    exact hset rfl rfl (by rw [hpc]; nofun)

theorem WorkerStep.accept_env (hs : WorkerStep s i w env s') (hpc : w.pc = .accept) :
    env = .fail ∨ ∃ cs, env = .fd cs := by
  have haccepts : w.pc.accepts = true := by
    rw [hpc]
    rfl
  cases hs with
  | accept => exact .inr ⟨_, rfl⟩
  | acceptFail => exact .inl rfl
  | read hread =>
    rw [hread.accepts.1] at haccepts
    cases haccepts
  | lock h _ =>
    rw [(WorkerPc.accepts_of_locked h).1] at haccepts
    cases haccepts
  | unlock h =>
    rw [(WorkerPc.accepts_of_unlocked h).1] at haccepts
    cases haccepts
  | pollServer h | pollClient h | epollAdd h | count h | busy h | create h | incr h | idle h | rearm h
  | close h | uncountLast h | uncount h | leave h | stay h | uncountWorker h | free h =>
    rw [hpc] at h
    cases h

/-- The starter creates workers only, and they wait for events first. -/
theorem accepting_start (hs : StartStep s env s') :
    tally (·.pc.accepts) s'.workers = tally (·.pc.accepts) s.workers := by
  cases hs with
  | create =>
    rw [Server.workers_createWorker, tally_append_singleton]
    exact Int.add_zero _
  | _ => rfl

/-! ## Every connection is covered -/

/-- `server_s` has been added to the epoll set. -/
def StartPc.registered : StartPc → Bool
  | createSender | add _ | setRunning => true
  | returned ret => ret = 1
  | _ => false

theorem LifecycleInv.registered (h : LifecycleInv s) (hstatus : s.qss.lifecycleStatus = 2) :
    s.starter.registered = true := by
  have hstarter := h.starter
  rw [hstatus] at hstarter
  cases hpc : s.starter with
  | returned ret =>
    rw [hpc, StartPc.status] at hstarter
    split at hstarter
    · exact decide_eq_true ‹_›
    · cases hstarter
  | _ =>
    rw [hpc] at hstarter
    cases hstarter

theorem LifecycleInv.not_shutting (h : LifecycleInv s) (hstatus : s.qss.lifecycleStatus ≤ 2) :
    s.closer ≠ .shutdownServer := by
  intro hpc
  have hcloser := h.closer
  rw [hpc] at hcloser
  have hstopping := hcloser.mp rfl
  omega

/-- How many more connections will be accepted than wait -/
def Net.slack (n : Net) : Int := n.event.toInt + n.accepting - n.backlog

structure NetInv (n : Net) : Prop where
  registered : n.server.qss.lifecycleStatus ≤ 2 → n.server.starter.registered = true →
    n.server.serverArmed = true
  covered : n.server.qss.lifecycleStatus ≤ 2 → 0 ≤ n.slack

theorem serverArmed_worker (hs : WorkerStep s i w env s') :
    s'.serverArmed = s.serverArmed ∨ w.pc = .accept ∧ env = .fail := by
  cases hs with
  | acceptFail hpc => exact .inr ⟨hpc, rfl⟩
  | _ => exact .inl rfl

theorem serverArmed_start (h : s.starter.registered = true → s.serverArmed = true)
    (hs : StartStep s env s') (h' : s'.starter.registered = true) : s'.serverArmed = true := by
  cases hs with
  | setUp => rfl
  | @unlock ok _ => cases ok <;> cases h'
  | createSender hpc | addLock hpc | addUnlock hpc | addRet hpc | incr hpc | create hpc
  | addRead hpc | setRunning hpc => exact h (by rw [hpc]; rfl)
  | _ => cases h'

theorem serverArmed_shutdown (hs : ShutdownStep s s') : s'.serverArmed = s.serverArmed := by
  cases hs <;> rfl

/-- A worker takes an event or a connection and stands for it, unless `accept` fails. -/
theorem slack_worker (hw : n.server.workers[i]? = some w) (hkernel : KernelWorker n w.pc env n')
    (hs : WorkerStep n.server i w env s') :
    ({ n' with server := s' } : Net).slack = n.slack ∨ (w.pc = .accept ∧ env = .fail) ∧
      ({ n' with server := s' } : Net).slack = n.slack - 1 := by
  have haccepting := accepting_worker hw hs
  unfold Net.slack Net.accepting
  generalize hpc : w.pc = pc at hkernel haccepting ⊢
  cases hkernel with
  | deliver hevent =>
    -- The event becomes a worker in front of `accept`.
    have hpoll : WorkerPc.poll.accepts = false := rfl
    rw [if_pos ⟨rfl, rfl⟩, hpoll, Bool.toInt_false, Int.sub_zero] at haccepting
    left
    rw [hevent]
    dsimp only [Bool.toInt_true, Bool.toInt_false]
    omega
  | accept hpos =>
    have haccept : WorkerPc.accept.accepts = true := rfl
    rw [if_neg nofun, haccept, Bool.toInt_true, Int.add_zero] at haccepting
    left
    dsimp only
    omega
  | acceptFail =>
    have haccept : WorkerPc.accept.accepts = true := rfl
    rw [if_neg nofun, haccept, Bool.toInt_true, Int.add_zero] at haccepting
    right
    refine ⟨⟨rfl, rfl⟩, ?_⟩
    dsimp only
    omega
  | other hpoll haccept =>
    -- A worker in front of `accept` gets a descriptor or a failure, and neither is left here.
    have hnot : pc.accepts = false := by
      by_contra haccepts
      have hpc' : pc = .accept := by
        cases pc <;> first | rfl | exact absurd rfl haccepts
      rcases hs.accept_env (hpc.trans hpc') with rfl | ⟨cs, rfl⟩
      · exact (haccept hpc').1 rfl
      · exact (haccept hpc').2 cs rfl
    rw [if_neg hpoll, hnot, Bool.toInt_false, Int.sub_zero, Int.add_zero] at haccepting
    left
    rw [haccepting]

/-- Behind the set-up the starter leaves the socket alone. -/
theorem slack_start (hpc : n.server.starter ≠ .setUp) (hkernel : n.kernel (.start env) = some n')
    (hs : StartStep n.server env s') : ({ n' with server := s' } : Net).slack = n.slack := by
  have hsame := accepting_start hs
  unfold Net.slack Net.accepting
  unfold Net.kernel at hkernel
  dsimp only at hkernel
  split at hkernel
  case h_1 h => exact absurd h hpc
  case h_2 h => exact absurd h hpc
  case h_3 =>
    cases hkernel
    rw [hsame]

theorem slack_shutdown (hpc : n.server.closer ≠ .shutdownServer)
    (hkernel : n.kernel .shutdown = some n') (hs : ShutdownStep n.server s') :
    ({ n' with server := s' } : Net).slack = n.slack := by
  have hworkers : s'.workers = n.server.workers := by cases hs <;> rfl
  unfold Net.slack Net.accepting
  unfold Net.kernel at hkernel
  dsimp only at hkernel
  split at hkernel
  case h_1 h => exact absurd h hpc
  case h_2 =>
    cases hkernel
    rw [hworkers]

theorem NetInv.worker (h : NetInv n) (hle : n.server.qss.lifecycleStatus ≤ s'.qss.lifecycleStatus)
    (hok : NetOk n (.server (.worker i env))) (hw : n.server.workers[i]? = some w)
    (hkernel : KernelWorker n w.pc env n') (hs : WorkerStep n.server i w env s') :
    NetInv { n' with server := s' } := by
  have hfail : s'.qss.lifecycleStatus ≤ 2 → w.pc = .accept → env ≠ .fail :=
    fun hstatus => hok (Nat.le_trans hle hstatus) w hw
  constructor
  · intro hstatus hregistered
    rw [starter_worker hs] at hregistered
    rcases serverArmed_worker hs with hsame | ⟨hpc, henv⟩
    · exact hsame.trans (h.registered (Nat.le_trans hle hstatus) hregistered)
    · exact absurd henv (hfail hstatus hpc)
  · intro hstatus
    rcases slack_worker hw hkernel hs with hsame | ⟨⟨hpc, henv⟩, -⟩
    · rw [hsame]
      exact h.covered (Nat.le_trans hle hstatus)
    · exact absurd henv (hfail hstatus hpc)

theorem NetInv.start (h : NetInv n) (hle : n.server.qss.lifecycleStatus ≤ s'.qss.lifecycleStatus)
    (hkernel : n.kernel (.start env) = some n') (hs : StartStep n.server env s') :
    NetInv { n' with server := s' } := by
  refine ⟨fun hstatus => serverArmed_start (h.registered (Nat.le_trans hle hstatus)) hs, ?_⟩
  intro hstatus
  have hcovered := h.covered (Nat.le_trans hle hstatus)
  by_cases hpc : n.server.starter = .setUp
  · have hnonneg : 0 ≤ tally (·.pc.accepts) s'.workers := tally_nonneg
    have hsame := accepting_start hs
    unfold Net.slack Net.accepting at hcovered ⊢
    simp only [Net.kernel, hpc] at hkernel
    cases env with
    | ok =>
      dsimp only at hkernel
      split at hkernel <;> cases hkernel
      -- `EPOLL_CTL_ADD` raises an event if a connection waits.
      have hevent : n.event.toInt ≤ 1 := by cases n.event <;> decide
      show 0 ≤ (decide (0 < n.backlog)).toInt + tally (·.pc.accepts) s'.workers - n.backlog
      rcases Nat.eq_zero_or_pos n.backlog with hzero | hpos
      · rw [hzero, decide_eq_false (Nat.lt_irrefl 0), Bool.toInt_false]
        omega
      · rw [decide_eq_true hpos, Bool.toInt_true]
        omega
    | fail =>
      cases hkernel
      have hevent := toInt_nonneg n.event
      show 0 ≤ n.event.toInt + tally (·.pc.accepts) s'.workers - (0 : Nat)
      omega
    | _ =>
      cases hkernel
      rw [hsame]
      exact hcovered
  · rw [slack_start hpc hkernel hs]
    exact hcovered

theorem NetInv.shutdown (h : NetInv n) (hL : LifecycleInv n.server)
    (hle : n.server.qss.lifecycleStatus ≤ s'.qss.lifecycleStatus)
    (hkernel : n.kernel .shutdown = some n') (hs : ShutdownStep n.server s') :
    NetInv { n' with server := s' } := by
  constructor
  · intro hstatus hregistered
    rw [starter_shutdown hs] at hregistered
    exact (serverArmed_shutdown hs).trans (h.registered (Nat.le_trans hle hstatus) hregistered)
  · intro hstatus
    rw [slack_shutdown (hL.not_shutting (Nat.le_trans hle hstatus)) hkernel hs]
    exact h.covered (Nat.le_trans hle hstatus)

theorem lifecycleStatus_le {a : Act} (h : LifecycleInv s) (hs : Step s a s') :
    s.qss.lifecycleStatus ≤ s'.qss.lifecycleStatus := by
  rcases lifecycleStatus_step h hs with hstatus | hstatus <;> omega

theorem NetInv.step {a : NetAct} (h : NetInv n) (hL : LifecycleInv n.server) (hok : NetOk n a)
    (hs : netStep n a = some n') : NetInv n' := by
  cases netStep_cases hs with
  | server hkernel hstep =>
    have hle := lifecycleStatus_le hL (step_cases hstep)
    cases step_cases hstep with
    | worker hw hs => exact h.worker hle hok hw (kernel_worker_cases hw hkernel) hs
    | start hs => exact h.start hle hkernel hs
    | shutdown hs => exact h.shutdown hL hle hkernel hs
    | send hsend =>
      cases hkernel
      rw [sendStep_eq hsend]
      exact ⟨h.registered, h.covered⟩
  | listen => exact ⟨h.registered, h.covered⟩
  | arrive =>
    -- The new event stands for the new connection, whatever event there was before.
    refine ⟨h.registered, ?_⟩
    intro hstatus
    have hroom : n.backlog ≤ n.accepting := hok hstatus
    show 0 ≤ 1 + n.accepting - ((n.backlog + 1 : Nat) : Int)
    omega
  | abort =>
    refine ⟨h.registered, ?_⟩
    intro hstatus
    have hcovered := h.covered hstatus
    unfold Net.slack at hcovered
    show 0 ≤ n.event.toInt + n.accepting - ((n.backlog - 1 : Nat) : Int)
    omega

theorem lifecycleInv_netStep {a : NetAct} (h : LifecycleInv n.server)
    (hs : netStep n a = some n') : LifecycleInv n'.server ∧
      n.server.qss.lifecycleStatus ≤ n'.server.qss.lifecycleStatus := by
  cases netStep_cases hs with
  | server _ hstep => exact ⟨h.step (step_cases hstep), lifecycleStatus_le h (step_cases hstep)⟩
  | listen | arrive | abort => exact ⟨h, Nat.le_refl _⟩

theorem lifecycleStatus_exec {l : List NetAct} (h : LifecycleInv n.server)
    (hs : (net minThreads maxThreads).exec n l = some n') :
    n.server.qss.lifecycleStatus ≤ n'.server.qss.lifecycleStatus := by
  induction l generalizing n with
  | nil =>
    cases hs
    exact Nat.le_refl _
  | cons a l ih =>
    rw [TransitionSystem.exec, Option.bind_eq_some_iff] at hs
    rcases hs with ⟨m, hm, hs⟩
    rcases lifecycleInv_netStep h hm with ⟨hLm, hle⟩
    exact Nat.le_trans hle (ih hLm hs)

theorem netInv_invariant : ((net minThreads maxThreads).restrict NetOk).Invariant fun n =>
    LifecycleInv n.server ∧ NetInv n := by
  apply TransitionSystem.Invariant.restrict
  · exact ⟨lifecycleInv_invariant.init, nofun, fun _ => Int.le_refl 0⟩
  · intro n n' a hI hok hs
    exact ⟨(lifecycleInv_netStep hI.1 hs).1, hI.2.step hI.1 hok hs⟩

/-- A connection that is not covered stays so, unless one is aborted. -/
theorem uncovered_step {a : NetAct} (h : n.slack < 0) (hL : LifecycleInv n.server)
    (hstatus : n.server.qss.lifecycleStatus = 2) (ha : a ≠ .abort) (hs : netStep n a = some n') :
    n'.slack < 0 := by
  cases netStep_cases hs with
  | server hkernel hstep =>
    cases step_cases hstep with
    | worker hw hs =>
      rcases slack_worker hw (kernel_worker_cases hw hkernel) hs with hsame | ⟨-, hless⟩ <;> omega
    | start hs =>
      rw [slack_start ?_ hkernel hs]
      · exact h
      · intro hpc
        have hregistered := hL.registered hstatus
        rw [hpc] at hregistered
        cases hregistered
    | shutdown hs =>
      rw [slack_shutdown (hL.not_shutting (Nat.le_of_eq hstatus)) hkernel hs]
      exact h
    | send hsend =>
      cases hkernel
      rw [sendStep_eq hsend]
      exact h
  | listen => exact h
  | arrive =>
    have hevent := toInt_nonneg n.event
    unfold Net.slack at h
    show 1 + n.accepting - ((n.backlog + 1 : Nat) : Int) < 0
    omega
  | abort => exact absurd rfl ha

theorem uncovered_exec {l : List NetAct} (h : n.slack < 0) (hL : LifecycleInv n.server)
    (hstatus : 2 ≤ n.server.qss.lifecycleStatus) (hl : ∀ a ∈ l, a ≠ .abort)
    (hs : (net minThreads maxThreads).exec n l = some n')
    (hstatus' : n'.server.qss.lifecycleStatus = 2) : n'.slack < 0 := by
  induction l generalizing n with
  | nil =>
    cases hs
    exact h
  | cons a l ih =>
    rw [TransitionSystem.exec, Option.bind_eq_some_iff] at hs
    rcases hs with ⟨m, hm, hs⟩
    rcases lifecycleInv_netStep hL hm with ⟨hLm, hle⟩
    have hle' := lifecycleStatus_exec hLm hs
    have hnow : n.server.qss.lifecycleStatus = 2 := by omega
    have hm' := uncovered_step h hL hnow (hl a List.mem_cons_self) hm
    exact ih hm' hLm (by omega) (fun b hb => hl b (List.mem_cons_of_mem a hb)) hs

/-- When all workers wait and no event is left, the slack is what waits. -/
theorem Net.slack_of_waits (hwaits : ∀ w ∈ n.server.workers, w.pc.waits = true)
    (hevent : n.event = false) : n.slack = - n.backlog := by
  have hnone : n.accepting = 0 := by
    rw [Net.accepting, tally_eq_zero_iff]
    intro w hw
    have hpc := hwaits w hw
    cases hw : w.pc <;> rw [hw] at hpc <;> first | rfl | cases hpc
  rw [Net.slack, hnone, hevent, Bool.toInt_false]
  omega

theorem lifecycleInv_net (h : (net minThreads maxThreads).Reachable n) : LifecycleInv n.server := by
  induction h with
  | init => exact lifecycleInv_invariant.init
  | step _ hs ih => exact (lifecycleInv_netStep ih hs).1

/-- While `accept` finds a connection each time, and a connection comes only when the others are
covered, `server_s` stays registered and no connection is stranded. One that comes too early strands
a connection, unless another is aborted, as soon as all workers wait; one `accept` that fails is the
last one. -/
theorem connections_served :
    (∀ n, ((net minThreads maxThreads).restrict NetOk).Reachable n →
      n.server.qss.lifecycleStatus = 2 → n.server.serverArmed = true ∧ ¬ n.Stranded) ∧
    ∀ n n' a, (net minThreads maxThreads).Reachable n → n.server.qss.lifecycleStatus = 2 →
      ¬ NetOk n a → netStep n a = some n' →
      n'.server.serverArmed = false ∨
        ∀ l m, (net minThreads maxThreads).exec n' l = some m → (∀ b ∈ l, b ≠ .abort) →
          m.server.qss.lifecycleStatus = 2 → (∀ w ∈ m.server.workers, w.pc.waits = true) →
          m.event = false → m.Stranded := by
  constructor
  · intro n hn hstatus
    rcases netInv_invariant.of_reachable hn with ⟨hL, hI⟩
    have hle : n.server.qss.lifecycleStatus ≤ 2 := Nat.le_of_eq hstatus
    refine ⟨hI.registered hle (hL.registered hstatus), ?_⟩
    rintro ⟨hwaits, hevent, hpos⟩
    have hcovered := hI.covered hle
    rw [Net.slack_of_waits hwaits hevent] at hcovered
    omega
  · intro n n' a hn hstatus hok hs
    have hL := lifecycleInv_net hn
    rcases lifecycleInv_netStep hL hs with ⟨hL', hle⟩
    cases netStep_cases hs with
    | @server a m s' hkernel hstep =>
      match a with
      | .worker i env =>
        left
        -- `accept` has failed, and takes `server_s` out of the set.
        simp only [NetOk, Classical.not_forall, not_not] at hok
        rcases hok with ⟨-, w, hw, hpc, rfl⟩
        rw [step, show n.server.workers[i]? = some w from hw, Option.bind_some] at hstep
        simp only [workerStep, hpc] at hstep
        cases hstep
        rfl
      | .start _ | .shutdown | .send _ => exact absurd trivial hok
    | arrive =>
      right
      intro l m hl habort hstatus' hwaits hevent
      have hroom : ¬ (n.backlog ≤ n.accepting) := fun h => hok fun _ => h
      have hslack : ({ n with backlog := n.backlog + 1, event := true } : Net).slack < 0 := by
        show 1 + n.accepting - ((n.backlog + 1 : Nat) : Int) < 0
        omega
      have hm := uncovered_exec hslack hL' (by omega) habort hl hstatus'
      rw [Net.slack_of_waits hwaits hevent] at hm
      exact ⟨hwaits, hevent, by omega⟩
    | listen | abort => exact absurd trivial hok

/-- The server is started and a connection arrives. -/
def startListening (minThreads : Nat) : List NetAct :=
  List.replicate 4 (NetAct.server (.start .ok)) ++ [NetAct.listen] ++
    List.replicate (9 + 2 * minThreads) (NetAct.server (.start .ok))

/-- The worker 0 gets the event of `server_s` and accepts one connection. -/
def acceptOne (cs : Fd) : List NetAct :=
  [NetAct.server (.worker 0 .ok), .server (.worker 0 (.fd cs))] ++
    List.replicate 6 (NetAct.server (.worker 0 .ok))

theorem connections_served_oneByOne :
    ∃ n, ((net 1 1).restrict NetOk).exec (net 1 1).init
        (startListening 1 ++ [NetAct.arrive] ++ acceptOne 5 ++ [NetAct.arrive] ++ acceptOne 6) =
          some n ∧
      n.server.openFds = [6, 5] ∧ n.server.serverArmed = true ∧ ¬ n.Stranded := by
  have hexec : (((net 1 1).restrict NetOk).exec (net 1 1).init
      (startListening 1 ++ [NetAct.arrive] ++ acceptOne 5 ++ [NetAct.arrive] ++ acceptOne 6)).map
        (fun n => (n.server.openFds, n.server.qss.lifecycleStatus)) = some ([6, 5], 2) := by
    decide +kernel
  rw [Option.map_eq_some_iff] at hexec
  rcases hexec with ⟨n, hn, hobs⟩
  rw [Prod.mk.injEq] at hobs
  have hserved := connections_served.1 n (TransitionSystem.reachable_of_exec _ hn) hobs.2
  exact ⟨n, hn, hobs.1, hserved⟩

/-- Two connections come before the event is delivered, and one is accepted. Or one comes and is
aborted, and `accept` takes `server_s` out of the epoll set. -/
theorem connection_stranded :
    (∃ n, (net 1 1).exec (net 1 1).init
        (startListening 1 ++ [NetAct.arrive, .arrive] ++ acceptOne 5) = some n ∧
      n.server.qss.lifecycleStatus = 2 ∧ n.Stranded) ∧
    ∃ n, (net 1 1).exec (net 1 1).init (startListening 1 ++ [NetAct.arrive, .abort] ++
        [NetAct.server (.worker 0 .ok), .server (.worker 0 .fail)]) = some n ∧
      n.server.qss.lifecycleStatus = 2 ∧ n.server.serverArmed = false := by
  refine ⟨⟨_, rfl, rfl, ?_, rfl, ?_⟩, _, rfl, rfl, rfl⟩
  · decide +kernel
  · decide +kernel

end CcPof.SocketServer

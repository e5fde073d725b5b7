import CcPof.SocketServer.Sockets
import Mathlib.Data.List.Perm.Subperm

/-!
# Counting the clients

`CSocketsCounter` is right while no worker is between `accept` and its increment, or between `close`
and its decrement. `ClientsOk` says what a run must not do for that: a client is lost, closed before
it is counted or accepted too late, or the exit is signaled too early or never.
-/

namespace CcPof.SocketServer

variable {minThreads maxThreads : Nat} {s s' : Server} {i : Nat} {w w' : Worker} {env : Env}

/-- The worker has accepted a client and not counted it. -/
def WorkerPc.pending : WorkerPc → Bool
  | setNonBlocking _ | setKeepAlive _ | epollAdd _ | lockCount _ | count _ => true
  | _ => false

/-- The worker has closed a client's socket, which is counted. -/
def WorkerPc.closing : WorkerPc → Bool
  | lockClosed | uncount => true
  | _ => false

def WorkerPc.accepting : WorkerPc → Bool
  | accept => true
  | _ => false

/-- The worker is in `onAcceptRoutine`, or cleans up behind a socket error. -/
def WorkerPc.inRoutine : WorkerPc → Bool
  | accept | setNonBlocking _ | setKeepAlive _ | epollAdd _ | lockCount _ | count _ => true
  | unlockCount | close _ | lockClosed | uncount | unlockClosed _ => true
  | _ => false

def Quiet (s : Server) : Prop := ∀ w ∈ s.workers, w.pc.inRoutine = false

/-- The socket that the worker has accepted, and counts when it gets the lock. -/
def WorkerPc.fresh : WorkerPc → Option Fd
  | setNonBlocking cs | setKeepAlive cs | epollAdd cs | lockCount cs => some cs
  | _ => none

/-- The socket that the worker closes next -/
def WorkerPc.closes : WorkerPc → Option Fd
  | close cs => some cs
  | _ => none

/-- The numbers that the count of the clients is about -/
structure Census where
  counter : Int
  pending : Int
  opened : Int
  closing : Int
  accepting : Int

def Server.census (s : Server) : Census where
  counter := s.qss.cSocketsCounter
  pending := tally (·.pc.pending) s.workers
  opened := s.openFds.length
  closing := tally (·.pc.closing) s.workers
  accepting := tally (·.pc.accepting) s.workers

/-- What `CSocketsCounter` has, or will have, above the clients that are open or cleaned up -/
def Census.balance (c : Census) : Int := c.counter + c.pending - (c.opened + c.closing)

/-- The clients that are open or cleaned up, and the ones that `accept` may bring -/
def Census.present (c : Census) : Int := c.opened + c.closing + c.accepting

/-! ## What may go wrong -/

/-- `accept` brings no client when the exit is signaled. When the server stops, it does not fail for
the last one. -/
def AcceptOk (s : Server) (env : Env) : Prop :=
  if env = .fail then s.qss.lifecycleStatus = 3 → 1 < s.census.present else s.qss.lifecycleStatus ≠ 4

instance : Decidable (AcceptOk s env) := inferInstanceAs (Decidable (ite _ _ _))

/-- A client is not closed while the worker that has accepted it waits for the lock to count it. -/
def CloseOk (s : Server) (cs : Fd) : Prop := ∀ v ∈ s.workers, v.pc ≠ .lockCount cs

instance {cs : Fd} : Decidable (CloseOk s cs) := inferInstanceAs (Decidable (∀ _ ∈ _, _))

def WorkerOk (s : Server) (pc : WorkerPc) (env : Env) : Prop :=
  (pc = .accept → AcceptOk s env) ∧ (pc.prepares = true → env ≠ .fail) ∧
  ∀ cs ∈ pc.closes, CloseOk s cs

instance {pc : WorkerPc} : Decidable (WorkerOk s pc env) := inferInstanceAs (Decidable (_ ∧ _ ∧ _))

/-- No client is lost, closed too early or accepted too late, and `shutdownSocketServer` finds one. -/
def Orderly (s : Server) : Act → Prop
  | .worker i env => ∀ w ∈ s.workers[i]?, WorkerOk s w.pc env
  | .shutdown => s.closer = .test → s.qss.lifecycleStatus = 2 → 0 < s.census.present
  | .start _ | .send _ => True

instance (s : Server) : ∀ a, Decidable (Orderly s a)
  | .worker _ _ => inferInstanceAs (Decidable (∀ _ ∈ _, _))
  | .shutdown => inferInstanceAs (Decidable (_ → _))
  | .start _ | .send _ => isTrue trivial

/-- Every client that is not counted yet is about to be closed. -/
def NoneToCome (s : Server) : Prop :=
  ∀ v ∈ s.workers, ∀ cs ∈ v.pc.fresh, ∃ u ∈ s.workers, u.pc = .close cs

instance : Decidable (NoneToCome s) := inferInstanceAs (Decidable (∀ _ ∈ _, _))

/-- The exit is signaled when no client is to come. -/
def SignalOk (s : Server) : Act → Prop
  | .worker i _ => ∀ w ∈ s.workers[i]?, w.pc = .uncount → s.qss.cSocketsCounter = 1 →
      3 ≤ s.qss.lifecycleStatus → NoneToCome s
  | _ => True

instance (s : Server) : ∀ a, Decidable (SignalOk s a)
  | .worker _ _ => inferInstanceAs (Decidable (∀ _ ∈ _, _))
  | .start _ | .shutdown | .send _ => isTrue trivial

def ClientsOk (s : Server) (a : Act) : Prop := Orderly s a ∧ SignalOk s a

instance (s : Server) (a : Act) : Decidable (ClientsOk s a) := inferInstanceAs (Decidable (_ ∧ _))

/-! ## What a step does to the numbers -/

inductive Counts (c : Census) (pc : WorkerPc) (env : Env) : Census → Prop
  | same : Counts c pc env c
  | arrive : pc = .poll → Counts c pc env { c with accepting := c.accepting + 1 }
  | refuse : pc = .accept → env = .fail →
      Counts c pc env { c with accepting := c.accepting - 1 }
  | accept : pc = .accept → env ≠ .fail → Counts c pc env { c with
      accepting := c.accepting - 1, pending := c.pending + 1, opened := c.opened + 1 }
  | lose : pc.prepares = true → env = .fail → Counts c pc env { c with pending := c.pending - 1 }
  | count {cs} : pc = .count cs → Counts c pc env { c with
      pending := c.pending - 1, counter := c.counter + 1 }
  | close {cs} : pc = .close cs → Counts c pc env { c with
      opened := c.opened - 1, closing := c.closing + 1 }
  | uncount : pc = .uncount → Counts c pc env { c with
      closing := c.closing - 1, counter := c.counter - 1 }

/-- The worker is in the same part of the count, or stays outside of it. -/
def WorkerPc.SameClient (pc pc' : WorkerPc) : Prop :=
  pc'.pending = pc.pending ∧ pc'.closing = pc.closing ∧ pc'.accepting = pc.accepting

theorem WorkerPc.sameClient_of_locked {pc pc' : WorkerPc} (h : pc.locked = some pc') :
    pc.SameClient pc' := by
  unfold WorkerPc.locked at h
  split at h <;> cases h <;> exact ⟨rfl, rfl, rfl⟩

theorem WorkerPc.sameClient_of_unlocked {pc pc' : WorkerPc} (h : pc.unlocked = some pc') :
    pc.SameClient pc' := by
  unfold WorkerPc.unlocked at h
  split at h <;> cases h
  case h_4 | h_5 | h_6 | h_7 => split <;> exact ⟨rfl, rfl, rfl⟩
  all_goals exact ⟨rfl, rfl, rfl⟩

theorem WorkerRead.sameClient {q : QSocketServer} {pc pc' : WorkerPc}
    (h : WorkerRead q pc env pc') :
    pc.SameClient pc' ∨ pc.prepares = true ∧ env = .fail ∧ pc' = .poll := by
  cases h with
  | setNonBlockingFail | setKeepAliveFail | epollAddFail => exact .inr ⟨rfl, rfl, rfl⟩
  | testLifecycle | testIdle | testSpare => split <;> exact .inl ⟨rfl, rfl, rfl⟩
  | _ => exact .inl ⟨rfl, rfl, rfl⟩

theorem WorkerPc.pending_of_prepares {pc : WorkerPc} (h : pc.prepares = true) :
    pc.pending = true ∧ pc.closing = false ∧ pc.accepting = false := by
  cases pc <;> first | exact ⟨rfl, rfl, rfl⟩ | cases h

theorem tally_createWorker {p : Worker → Bool} (hp : p ⟨.poll, 0⟩ = false) :
    tally p s.createWorker.workers = tally p s.workers := by
  rw [Server.workers_createWorker, tally_append_singleton, hp]
  exact Int.add_zero _

theorem census_createWorker : s.createWorker.census = s.census := by
  unfold Server.census
  rw [tally_createWorker rfl, tally_createWorker rfl, tally_createWorker rfl]
  rfl

theorem one_le_tally {p : Worker → Bool} (hw : s.workers[i]? = some w) (hp : p w = true) :
    1 ≤ tally p s.workers := tally_pos_iff.mpr ⟨w, List.mem_of_getElem? hw, hp⟩

/-- A worker that goes on to `w'`, where the numbers of the server become `n` and `o`. -/
theorem census_set (hw : s.workers[i]? = some w) (hworkers : s'.workers = s.workers.set i w') :
    s'.census = ⟨s'.qss.cSocketsCounter,
      s.census.pending - w.pc.pending.toInt + w'.pc.pending.toInt, s'.openFds.length,
      s.census.closing - w.pc.closing.toInt + w'.pc.closing.toInt,
      s.census.accepting - w.pc.accepting.toInt + w'.pc.accepting.toInt⟩ := by
  unfold Server.census
  rw [hworkers, tally_set hw, tally_set hw, tally_set hw]

theorem census_keep (hw : s.workers[i]? = some w) (hworkers : s'.workers = s.workers.set i w')
    (hcounter : s'.qss.cSocketsCounter = s.qss.cSocketsCounter) (hopen : s'.openFds = s.openFds)
    (hplace : w.pc.SameClient w'.pc) : s'.census = s.census := by
  rw [census_set hw hworkers, hcounter, hopen, hplace.1, hplace.2.1, hplace.2.2]
  rw [Int.sub_add_cancel, Int.sub_add_cancel, Int.sub_add_cancel]
  rfl

theorem Counts.of_eq {c d d' : Census} {pc : WorkerPc} (h : Counts c pc env d) (hd : d' = d) :
    Counts c pc env d' := hd ▸ h

theorem census_worker (hS : Sockets s) (hw : s.workers[i]? = some w)
    (hs : WorkerStep s i w env s') : Counts s.census w.pc env s'.census := by
  have hsame {w' : Worker} {s' : Server} (hworkers : s'.workers = s.workers.set i w')
      (hcounter : s'.qss.cSocketsCounter = s.qss.cSocketsCounter) (hopen : s'.openFds = s.openFds)
      (hplace : w.pc.SameClient w'.pc) : Counts s.census w.pc env s'.census :=
    Counts.same.of_eq (census_keep hw hworkers hcounter hopen hplace)
  cases hs with
  | @read _ pc hread =>
    rcases hread.sameClient with hplace | ⟨hprepares, hfail, rfl⟩
    · exact hsame rfl rfl rfl hplace
    · -- The client stays open and nobody will count it.
      have hplace := WorkerPc.pending_of_prepares hprepares
      refine (Counts.lose hprepares hfail).of_eq ((census_set hw rfl).trans ?_)
      rw [hplace.1, hplace.2.1, hplace.2.2]
      simp [Server.census, Server.setWorker, WorkerPc.pending, WorkerPc.closing, WorkerPc.accepting]
  | lock hpc _ => exact hsame rfl rfl rfl (WorkerPc.sameClient_of_locked hpc)
  | unlock hpc => exact hsame rfl rfl rfl (WorkerPc.sameClient_of_unlocked hpc)
  | @create cs j hpc _ =>
    rw [census_createWorker]
    exact hsame rfl rfl rfl (by rw [hpc]; exact ⟨rfl, rfl, rfl⟩)
  | pollClient hpc | epollAdd hpc | busy hpc | incr hpc | idle hpc | rearm hpc | leave hpc
  | stay hpc | uncountWorker hpc | free hpc =>
    exact hsame rfl rfl rfl (by rw [hpc]; exact ⟨rfl, rfl, rfl⟩)
  | pollServer hpc =>
    refine (Counts.arrive hpc).of_eq ((census_set hw rfl).trans ?_)
    simp [hpc, Server.census, Server.setWorker, WorkerPc.pending, WorkerPc.closing,
      WorkerPc.accepting]
  | acceptFail hpc =>
    refine (Counts.refuse hpc rfl).of_eq ((census_set hw rfl).trans ?_)
    simp [hpc, Server.census, Server.setWorker, WorkerPc.pending, WorkerPc.closing,
      WorkerPc.accepting]
  | @accept cs hpc _ _ =>
    have hfd : Env.fd cs ≠ .fail := nofun
    refine (Counts.accept hpc hfd).of_eq ((census_set hw rfl).trans ?_)
    simp [hpc, Server.census, Server.setWorker, WorkerPc.pending, WorkerPc.closing,
      WorkerPc.accepting]
  | count hpc =>
    refine (Counts.count hpc).of_eq ((census_set hw rfl).trans ?_)
    simp [hpc, Server.census, Server.setWorker, WorkerPc.pending, WorkerPc.closing,
      WorkerPc.accepting]
  | @close cs hpc =>
    have hopen := (hS.owned w (List.mem_of_getElem? hw) cs (by rw [hpc]; rfl)).1
    have hpos := List.length_pos_of_mem hopen
    refine (Counts.close hpc).of_eq ((census_set hw rfl).trans ?_)
    simp [hpc, Server.census, Server.setWorker, WorkerPc.pending, WorkerPc.closing,
      WorkerPc.accepting, List.length_erase_of_mem hopen]
    omega
  | uncountLast hpc _ _ | uncount hpc _ =>
    refine (Counts.uncount hpc).of_eq ((census_set hw rfl).trans ?_)
    simp [hpc, Server.census, Server.setWorker, WorkerPc.pending, WorkerPc.closing,
      WorkerPc.accepting]

theorem census_shutdown (hs : ShutdownStep s s') : s'.census = s.census := by
  cases hs <;> rfl

theorem census_start (hs : StartStep s env s') : s'.census = s.census := by
  cases hs with
  | create => exact census_createWorker
  | _ => rfl

theorem census_send (hs : sendStep s env = some s') : s'.census = s.census := by
  rw [sendStep_eq hs]
  rfl

/-! ## Clients that are not counted yet -/

/-- They are open, and one worker is to count each. -/
structure FreshInv (s : Server) : Prop where
  isOpen : ∀ w ∈ s.workers, ∀ cs, w.pc.fresh = some cs → cs ∈ s.openFds
  distinct : ∀ (i j : Nat) w v cs, s.workers[i]? = some w → s.workers[j]? = some v →
    w.pc.fresh = some cs → v.pc.fresh = some cs → i = j

theorem FreshInv.set (h : FreshInv s) (hworkers : s'.workers = s.workers.set i w')
    (hopen : ∀ (j : Nat) v cs, j ≠ i → s.workers[j]? = some v → v.pc.fresh = some cs →
      cs ∈ s'.openFds)
    (hfresh : ∀ cs, w'.pc.fresh = some cs → cs ∈ s'.openFds ∧
      ∀ (j : Nat) v, j ≠ i → s.workers[j]? = some v → v.pc.fresh ≠ some cs) : FreshInv s' := by
  constructor
  · intro v hv cs hcs
    rw [hworkers] at hv
    obtain ⟨j, hj⟩ := List.mem_iff_getElem?.mp hv
    rcases getElem?_set_cases hj with ⟨-, rfl⟩ | ⟨hji, hj⟩
    · exact (hfresh cs hcs).1
    · exact hopen j v cs hji hj hcs
  · intro j k v u cs hj hk hv hu
    rw [hworkers] at hj hk
    rcases getElem?_set_cases hj with ⟨rfl, rfl⟩ | ⟨hji, hj'⟩ <;>
      rcases getElem?_set_cases hk with ⟨rfl, rfl⟩ | ⟨hki, hk⟩
    · rfl
    · exact absurd hu ((hfresh cs hv).2 k u hki hk)
    · exact absurd hv ((hfresh cs hu).2 j v hji hj')
    · exact h.distinct j k v u cs hj' hk hv hu

/-- A worker that still has the same client to count, or no longer. -/
theorem FreshInv.keep (h : FreshInv s) (hw : s.workers[i]? = some w)
    (hworkers : s'.workers = s.workers.set i w') (hopen : s'.openFds = s.openFds)
    (hfresh : ∀ cs, w'.pc.fresh = some cs → w.pc.fresh = some cs) : FreshInv s' := by
  refine h.set hworkers ?_ ?_
  · intro j v cs _ hv hcs
    rw [hopen]
    exact h.isOpen v (List.mem_of_getElem? hv) cs hcs
  · intro cs hcs
    have hcs := hfresh cs hcs
    rw [hopen]
    refine ⟨h.isOpen w (List.mem_of_getElem? hw) cs hcs, fun j v hj hv hv' => ?_⟩
    exact hj (h.distinct j i v w cs hv hw hv' hcs)

theorem FreshInv.frame (h : FreshInv s) (hworkers : s'.workers = s.workers)
    (hopen : s'.openFds = s.openFds) : FreshInv s' where
  isOpen := by rw [hworkers, hopen]; exact h.isOpen
  distinct := by rw [hworkers]; exact h.distinct

theorem FreshInv.createWorker (h : FreshInv s) : FreshInv s.createWorker := by
  have hold : ∀ (j : Nat) v cs, s.createWorker.workers[j]? = some v → v.pc.fresh = some cs →
      s.workers[j]? = some v := by
    intro j v cs hj hv
    rw [Server.workers_createWorker] at hj
    rcases getElem?_concat_cases hj with hj | rfl
    · exact hj
    · cases hv
  constructor
  · intro v hv cs hcs
    obtain ⟨j, hj⟩ := List.mem_iff_getElem?.mp hv
    exact h.isOpen v (List.mem_of_getElem? (hold j v cs hj hcs)) cs hcs
  · intro j k v u cs hj hk hv hu
    exact h.distinct j k v u cs (hold j v cs hj hv) (hold k u cs hk hu) hv hu

theorem WorkerRead.fresh {q : QSocketServer} {pc pc' : WorkerPc} (h : WorkerRead q pc env pc')
    (cs : Fd) (hcs : pc'.fresh = some cs) : pc.fresh = some cs := by
  cases h with
  | setNonBlocking | setKeepAlive => exact hcs
  | testLifecycle | testIdle | testSpare => split at hcs <;> cases hcs
  | _ => cases hcs

theorem WorkerPc.fresh_of_locked {pc pc' : WorkerPc} (h : pc.locked = some pc') :
    pc'.fresh = none := by
  unfold WorkerPc.locked at h
  split at h <;> cases h <;> rfl

theorem WorkerPc.fresh_of_unlocked {pc pc' : WorkerPc} (h : pc.unlocked = some pc') :
    pc'.fresh = none := by
  unfold WorkerPc.unlocked at h
  split at h <;> cases h
  case h_4 | h_5 | h_6 | h_7 => split <;> rfl
  all_goals rfl

theorem WorkerPc.client_of_fresh {pc : WorkerPc} {cs : Fd} (h : pc.fresh = some cs) :
    pc.client = some cs ∨ pc = .lockCount cs := by
  unfold WorkerPc.fresh at h
  split at h <;> cases h
  case h_4 => exact .inr rfl
  all_goals exact .inl rfl

theorem FreshInv.worker (h : FreshInv s) (hS : Sockets s) (hw : s.workers[i]? = some w)
    (hok : ∀ cs ∈ w.pc.closes, CloseOk s cs) (hs : WorkerStep s i w env s') : FreshInv s' := by
  have hnone {w' : Worker} {s' : Server} (hworkers : s'.workers = s.workers.set i w')
      (hopen : s'.openFds = s.openFds) (hfresh : w'.pc.fresh = none) : FreshInv s' :=
    h.keep hw hworkers hopen fun cs hcs => by rw [hfresh] at hcs; cases hcs
  cases hs with
  | read hread => exact h.keep hw rfl rfl hread.fresh
  | lock hpc _ => exact hnone rfl rfl (WorkerPc.fresh_of_locked hpc)
  | unlock hpc => exact hnone rfl rfl (WorkerPc.fresh_of_unlocked hpc)
  | @create cs j hpc _ =>
    have hset : FreshInv (s.setWorker i { w with pc := .add cs (.incr j) }) := hnone rfl rfl rfl
    exact hset.createWorker
  | epollAdd hpc => exact h.keep hw rfl rfl (by rw [hpc]; exact fun _ hcs => hcs)
  | @accept cs hpc _ hclosed =>
    refine h.set rfl ?_ ?_
    · intro j v d _ hv hd
      exact List.mem_cons_of_mem cs (h.isOpen v (List.mem_of_getElem? hv) d hd)
    · intro d hd
      cases hd
      refine ⟨List.mem_cons_self, fun j v _ hv hcs => ?_⟩
      exact hclosed (h.isOpen v (List.mem_of_getElem? hv) cs hcs)
  | @close cs hpc =>
    have hclient : w.pc.client = some cs := by
      rw [hpc]
      rfl
    have hclose := hok cs (by rw [hpc]; rfl)
    refine h.set rfl ?_ nofun
    intro j v d hj hv hd
    refine (List.mem_erase_of_ne ?_).mpr (h.isOpen v (List.mem_of_getElem? hv) d hd)
    rintro rfl
    -- The worker that closes the socket is the only one that has it.
    rcases WorkerPc.client_of_fresh hd with hd | hd
    · exact hj (hS.distinct j i v w d hv hw hd hclient)
    · exact hclose v (List.mem_of_getElem? hv) hd
  | pollServer | pollClient | acceptFail | count | busy | incr | idle | rearm | uncountLast
  | uncount | leave | stay | uncountWorker | free => exact hnone rfl rfl rfl

theorem FreshInv.step {a : Act} (h : FreshInv s) (hS : Sockets s) (hok : Orderly s a)
    (hs : Step s a s') : FreshInv s' := by
  cases hs with
  | worker hw hs => exact h.worker hS hw (hok _ hw).2.2 hs
  | start hs =>
    cases hs with
    | @create j _ _ =>
      have hnext : FreshInv { s with starter := .add (.incr j) } := h.frame rfl rfl
      exact hnext.createWorker
    | _ => exact h.frame rfl rfl
  | shutdown hs => cases hs <;> exact h.frame rfl rfl
  | send hs =>
    rw [sendStep_eq hs]
    exact h.frame rfl rfl

theorem held_step {a : Act} (h : Held s) (hok : Orderly s a) (hs : Step s a s') : Held s' := by
  cases hs with
  | worker hw hs => exact h.worker hw (hok _ hw).2.1 hs
  | start hs =>
    cases hs with
    | create => exact h.frame (List.subset_append_left _ _) rfl rfl
    | _ => exact h.frame (List.Subset.refl _) rfl rfl
  | shutdown hs => cases hs <;> exact h.frame (List.Subset.refl _) rfl rfl
  | send hs =>
    rw [sendStep_eq hs]
    exact h.frame (List.Subset.refl _) rfl rfl

/-! The sockets of the workers that are to count one -/

def Server.freshFds (s : Server) : List Fd := s.workers.filterMap (·.pc.fresh)

theorem mem_freshFds {cs : Fd} : cs ∈ s.freshFds ↔ ∃ w ∈ s.workers, w.pc.fresh = some cs :=
  List.mem_filterMap

theorem FreshInv.nodup_freshFds (h : FreshInv s) : s.freshFds.Nodup := by
  rw [Server.freshFds, List.Nodup, List.pairwise_filterMap, List.pairwise_iff_getElem]
  rintro j k hj hk hjk cs hcs d hd rfl
  have heq := h.distinct j k _ _ cs (List.getElem?_eq_getElem hj) (List.getElem?_eq_getElem hk) hcs hd
  omega

theorem FreshInv.subperm (h : FreshInv s) : s.freshFds.Subperm s.openFds := by
  refine h.nodup_freshFds.subperm fun cs hcs => ?_
  obtain ⟨w, hw, hcs⟩ := mem_freshFds.mp hcs
  exact h.isOpen w hw cs hcs

theorem census_pending (hcount : ∀ v ∈ s.workers, ∀ cs, v.pc ≠ .count cs) :
    s.census.pending = s.freshFds.length := by
  rw [Server.freshFds, List.length_filterMap_eq_countP]
  refine congrArg Int.ofNat (List.countP_congr fun v hv => ?_)
  have hv := hcount v hv
  generalize v.pc = pc at hv
  cases pc <;> simp [WorkerPc.pending, WorkerPc.fresh] at hv ⊢

/-- Only one thread has the lock. -/
theorem Mutex.not_count (hM : Mutex s) (hw : s.workers[i]? = some w) (hheld : w.pc.holds = true)
    (hpc : ∀ cs, w.pc ≠ .count cs) : ∀ v ∈ s.workers, ∀ cs, v.pc ≠ .count cs := by
  intro v hv cs hcs
  obtain ⟨j, hj⟩ := List.mem_iff_getElem?.mp hv
  have hi := (hM (.worker i)).mpr (by rw [holds_worker hw, hheld])
  rw [(hM (.worker j)).mpr (by rw [holds_worker hj, hcs]; rfl)] at hi
  cases hi
  rw [hj] at hw
  cases hw
  exact hpc cs hcs

end CcPof.SocketServer

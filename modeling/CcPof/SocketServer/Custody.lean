import CcPof.Lib.Resources
import CcPof.SocketServer.Clients
import CcPof.SocketServer.Lifetime
import Mathlib.Data.List.Nodup

/-!
# Every accepted descriptor has an owner

Between its `accept` and its `close` a client's descriptor is in the hands of a worker, or it is
registered in `epollFD` with a `QSSEPollEvent` of its own. `onAcceptRoutine` returns without a
`close` when a call behind `accept` fails, and the last worker closes `epollFD` whoever is registered
there.
-/

namespace CcPof.SocketServer

variable {minThreads maxThreads : Nat}

/-! ## The server with its descriptors and events -/

/-- The server, the client descriptors that `accept` returned and `close` got, the events that were
allocated and freed for them, and the descriptors that are registered in `epollFD`. -/
structure Custody where
  server : Server
  fds : Resources Fd
  events : Resources Fd
  registered : Fd → Bool

/-- What a statement of a worker does to the descriptors and their events -/
def Custody.record (c : Custody) : WorkerPc → Env → Custody
  | .accept, .fd cs => { c with fds := c.fds.acquire cs }
  | .epollAdd cs, .ok => { c with
      events := c.events.acquire cs
      registered := Function.update c.registered cs true }
  -- `free(qssEPEvent)`
  | .epollAdd cs, .fail => { c with events := (c.events.acquire cs).release cs }
  | .close cs, .ok => { c with
      fds := c.fds.release cs
      events := c.events.release cs
      registered := Function.update c.registered cs false }
  -- `close(qss->epollFD)`
  | .free _, .ok => { c with registered := fun _ => false }
  | _, _ => c

def Custody.after (c : Custody) (a : Act) (s : Server) : Custody :=
  match a with
  | .worker i env =>
      match c.server.workers[i]? with
      | some w => { c.record w.pc env with server := s }
      | none => { c with server := s }
  | .start _ | .shutdown | .send _ => { c with server := s }

def custody (minThreads maxThreads : Nat) : TransitionSystem Custody Act where
  init := ⟨serverInit minThreads maxThreads, .empty, .empty, fun _ => false⟩
  step c a := (step c.server a).map (c.after a)

/-- A descriptor is open, registered and has one live event, or it was closed as often as it was
accepted, and its events are freed. -/
def Custody.Owned (c : Custody) (cs : Fd) : Prop :=
  (cs ∈ c.fds.live ∧ c.registered cs = true ∧
    c.fds.acquired.count cs = c.fds.released.count cs + 1 ∧
    c.events.live.count cs = 1 ∧ c.events.acquired.count cs = c.events.released.count cs + 1) ∨
  (cs ∉ c.fds.live ∧ c.registered cs = false ∧
    c.fds.acquired.count cs = c.fds.released.count cs ∧
    c.events.live.count cs = 0 ∧ c.events.acquired.count cs = c.events.released.count cs)

/-- No routine handles the descriptor. -/
def Server.Unhandled (s : Server) (cs : Fd) : Prop := ∀ w ∈ s.workers, w.pc.client ≠ some cs

/-- `onAcceptRoutine` fails in `accept` only, and no client is left when the server is freed. -/
def CustodyOk (c : Custody) : Act → Prop
  | .worker i env => ∀ w ∈ c.server.workers[i]?,
      (w.pc.prepares = true → env ≠ .fail) ∧ (w.pc.frees = true → c.server.openFds = [])
  | .start _ | .shutdown | .send _ => True

instance (c : Custody) : ∀ a, Decidable (CustodyOk c a)
  | .worker _ _ => inferInstanceAs (Decidable (∀ _ ∈ _, _ ∧ _))
  | .start _ | .shutdown | .send _ => isTrue trivial

variable {c c' : Custody} {s s' : Server} {i : Nat} {w w' : Worker} {env : Env} {cs : Fd}

/-! ## The descriptors that are not registered yet -/

def WorkerPc.preparing : WorkerPc → Option Fd
  | setNonBlocking cs | setKeepAlive cs | epollAdd cs => some cs
  | _ => none

/-- A worker is between `accept` and `EPOLL_CTL_ADD` of the descriptor. -/
def Server.Preparing (s : Server) (cs : Fd) : Prop := ∃ w ∈ s.workers, w.pc.preparing = some cs

theorem WorkerPc.client_of_preparing {pc : WorkerPc} (h : pc.preparing = some cs) :
    pc.client = some cs := by
  unfold WorkerPc.preparing at h
  split at h <;> cases h <;> rfl

theorem WorkerRead.preparing_eq {q : QSocketServer} {pc pc' : WorkerPc} (h : WorkerRead q pc env pc')
    (hok : pc.prepares = true → env ≠ .fail) : pc'.preparing = pc.preparing := by
  cases h with
  | setNonBlockingFail | setKeepAliveFail | epollAddFail => exact absurd rfl (hok rfl)
  | testLifecycle | testIdle | testSpare => split <;> rfl
  | _ => rfl

theorem WorkerPc.preparing_of_locked {pc pc' : WorkerPc} (h : pc.locked = some pc') :
    pc'.preparing = pc.preparing := by
  unfold WorkerPc.locked at h
  split at h <;> cases h <;> rfl

theorem WorkerPc.preparing_of_unlocked {pc pc' : WorkerPc} (h : pc.unlocked = some pc') :
    pc'.preparing = pc.preparing := by
  unfold WorkerPc.unlocked at h
  split at h <;> cases h
  case h_4 | h_5 | h_6 | h_7 => split <;> rfl
  all_goals rfl

theorem preparing_set (hw : s.workers[i]? = some w) (hworkers : s'.workers = s.workers.set i w') :
    s'.Preparing cs ↔ w'.pc.preparing = some cs ∨
      ∃ j v, j ≠ i ∧ s.workers[j]? = some v ∧ v.pc.preparing = some cs := by
  have hi : i < s.workers.length := (List.getElem?_eq_some_iff.mp hw).1
  constructor
  · rintro ⟨v, hv, hcs⟩
    rw [hworkers] at hv
    rcases List.mem_iff_getElem?.mp hv with ⟨j, hj⟩
    rcases getElem?_set_cases hj with ⟨-, rfl⟩ | ⟨hji, hj⟩
    · exact Or.inl hcs
    · exact Or.inr ⟨j, v, hji, hj, hcs⟩
  · rintro (hcs | ⟨j, v, hji, hj, hcs⟩)
    · refine ⟨w', ?_, hcs⟩
      rw [hworkers]
      exact List.mem_of_getElem? (List.getElem?_set_self hi)
    · refine ⟨v, ?_, hcs⟩
      rw [hworkers]
      apply List.mem_of_getElem? (i := j)
      rw [List.getElem?_set_ne hji.symm]
      exact hj

theorem preparing_self (hw : s.workers[i]? = some w) :
    s.Preparing cs ↔ w.pc.preparing = some cs ∨
      ∃ j v, j ≠ i ∧ s.workers[j]? = some v ∧ v.pc.preparing = some cs := by
  apply preparing_set hw
  rcases List.getElem?_eq_some_iff.mp hw with ⟨hi, rfl⟩
  exact (List.set_getElem_self hi).symm

theorem preparing_keep (hw : s.workers[i]? = some w) (hworkers : s'.workers = s.workers.set i w')
    (hpc : w'.pc.preparing = some cs ↔ w.pc.preparing = some cs) :
    s'.Preparing cs ↔ s.Preparing cs := by
  rw [preparing_set hw hworkers, preparing_self hw, hpc]

/-- The worker `i` alone can have the descriptor. -/
theorem preparing_of_free (hw : s.workers[i]? = some w) (hworkers : s'.workers = s.workers.set i w')
    (hfree : Free s i cs) : s'.Preparing cs ↔ w'.pc.preparing = some cs := by
  rw [preparing_set hw hworkers]
  apply or_iff_left
  rintro ⟨j, v, hji, hj, hcs⟩
  exact hfree j v hji hj (WorkerPc.client_of_preparing hcs)

theorem preparing_createWorker : s.createWorker.Preparing cs ↔ s.Preparing cs := by
  unfold Server.Preparing
  simp [WorkerPc.preparing]

/-! ## The invariant -/

structure CustodyInv (c : Custody) : Prop where
  fds : c.fds.Balanced
  open_eq : c.fds.live = c.server.openFds
  nodup : c.server.openFds.Nodup
  events : c.events.Balanced
  once : c.events.live.Nodup
  event_iff : ∀ cs, cs ∈ c.events.live ↔ c.registered cs = true
  registered_iff : ∀ cs, c.registered cs = true ↔
    cs ∈ c.server.openFds ∧ ¬ c.server.Preparing cs

/-- A step that concerns no descriptor. -/
theorem CustodyInv.frame (h : CustodyInv c) (hopen : s'.openFds = c.server.openFds)
    (hpreparing : ∀ cs, s'.Preparing cs ↔ c.server.Preparing cs) :
    CustodyInv { c with server := s' } where
  fds := h.fds
  open_eq := h.open_eq.trans hopen.symm
  nodup := by
    rw [hopen]
    exact h.nodup
  events := h.events
  once := h.once
  event_iff := h.event_iff
  registered_iff cs := by
    rw [hopen, hpreparing cs]
    exact h.registered_iff cs

theorem CustodyInv.keep (h : CustodyInv c) (hw : c.server.workers[i]? = some w)
    (hworkers : s'.workers = c.server.workers.set i w') (hopen : s'.openFds = c.server.openFds)
    (hpc : w'.pc.preparing = w.pc.preparing) : CustodyInv { c with server := s' } :=
  h.frame hopen fun _ => preparing_keep hw hworkers (by rw [hpc])

/-- `accept` returns a descriptor that was not open; it is the worker's to register. -/
theorem CustodyInv.accept (h : CustodyInv c) (hw : c.server.workers[i]? = some w)
    (hworkers : s'.workers = c.server.workers.set i w') (hcs : cs ∉ c.server.openFds)
    (hopen : s'.openFds = cs :: c.server.openFds) (hpc : w.pc.preparing = none)
    (hpc' : w'.pc.preparing = some cs) :
    CustodyInv { c with server := s', fds := c.fds.acquire cs } where
  fds := h.fds.acquire cs
  open_eq := by
    rw [hopen, ← h.open_eq]
    rfl
  nodup := by
    rw [hopen]
    exact List.nodup_cons.mpr ⟨hcs, h.nodup⟩
  events := h.events
  once := h.once
  event_iff := h.event_iff
  registered_iff d := by
    show c.registered d = true ↔ d ∈ s'.openFds ∧ ¬ s'.Preparing d
    rw [h.registered_iff d, hopen, List.mem_cons]
    by_cases hd : d = cs
    · -- It is open, and the worker has still to register it.
      subst hd
      have hpreparing : s'.Preparing d := (preparing_set hw hworkers).mpr (Or.inl hpc')
      exact iff_of_false (fun hreg => hcs hreg.1) fun hreg => hreg.2 hpreparing
    · have hsame : s'.Preparing d ↔ c.server.Preparing d := by
        apply preparing_keep hw hworkers
        rw [hpc, hpc']
        exact iff_of_false (fun heq => hd (Option.some.inj heq).symm) nofun
      rw [hsame, or_iff_right hd]

/-- The worker hands the descriptor over to `epollFD`, with a new event. -/
theorem CustodyInv.register (h : CustodyInv c) (hS : Sockets c.server)
    (hw : c.server.workers[i]? = some w) (hworkers : s'.workers = c.server.workers.set i w')
    (hopen : s'.openFds = c.server.openFds) (hpc : w.pc.preparing = some cs)
    (hpc' : w'.pc.preparing = none) :
    CustodyInv { c with
      server := s'
      events := c.events.acquire cs
      registered := Function.update c.registered cs true } := by
  have hclient := WorkerPc.client_of_preparing hpc
  have hpreparing : c.server.Preparing cs := (preparing_self hw).mpr (Or.inl hpc)
  have hnew : cs ∉ c.events.live := by
    rw [h.event_iff cs, h.registered_iff cs]
    exact fun hreg => hreg.2 hpreparing
  refine ⟨h.fds, h.open_eq.trans hopen.symm, by rw [hopen]; exact h.nodup, h.events.acquire cs,
    List.nodup_cons.mpr ⟨hnew, h.once⟩, ?_, ?_⟩
  · exact Resources.mem_acquire_iff h.event_iff cs
  · intro d
    show Function.update c.registered cs true d = true ↔ d ∈ s'.openFds ∧ ¬ s'.Preparing d
    rw [hopen]
    by_cases hd : d = cs
    · subst hd
      have howned := (hS.owned w (List.mem_of_getElem? hw) d hclient).1
      rw [Function.update_self, preparing_of_free hw hworkers (hS.free_of_client hw hclient), hpc']
      exact iff_of_true rfl ⟨howned, nofun⟩
    · have hsame : s'.Preparing d ↔ c.server.Preparing d := by
        apply preparing_keep hw hworkers
        rw [hpc, hpc']
        exact iff_of_false nofun fun heq => hd (Option.some.inj heq).symm
      rw [Function.update_of_ne hd, hsame, h.registered_iff d]

/-- The worker closes the descriptor that it handles, and frees its event. -/
theorem CustodyInv.close (h : CustodyInv c) (hS : Sockets c.server)
    (hw : c.server.workers[i]? = some w) (hworkers : s'.workers = c.server.workers.set i w')
    (hopen : s'.openFds = c.server.openFds.erase cs) (hclient : w.pc.client = some cs)
    (hpc : w.pc.preparing = none) (hpc' : w'.pc.preparing = none) :
    CustodyInv { c with
      server := s'
      fds := c.fds.release cs
      events := c.events.release cs
      registered := Function.update c.registered cs false } := by
  have howned := (hS.owned w (List.mem_of_getElem? hw) cs hclient).1
  have hfree := hS.free_of_client hw hclient
  have hregistered : c.registered cs = true := by
    rw [h.registered_iff cs, preparing_self hw, hpc]
    refine ⟨howned, ?_⟩
    rintro (heq | ⟨j, v, hji, hj, hcs⟩)
    · cases heq
    · exact hfree j v hji hj (WorkerPc.client_of_preparing hcs)
  have hevent := (h.event_iff cs).mpr hregistered
  refine ⟨h.fds.release (h.open_eq ▸ howned), ?_, ?_, h.events.release hevent, h.once.erase cs, ?_, ?_⟩
  · rw [hopen, ← h.open_eq]
    rfl
  · rw [hopen]
    exact h.nodup.erase cs
  · exact Resources.mem_release_iff h.event_iff h.once cs
  · intro d
    show Function.update c.registered cs false d = true ↔ d ∈ s'.openFds ∧ ¬ s'.Preparing d
    rw [hopen, h.nodup.mem_erase_iff]
    by_cases hd : d = cs
    · rw [hd, Function.update_self]
      exact iff_of_false nofun fun hmem => hmem.1.1 rfl
    · have hsame : s'.Preparing d ↔ c.server.Preparing d := by
        apply preparing_keep hw hworkers
        rw [hpc, hpc']
      rw [Function.update_of_ne hd, and_iff_right hd, hsame, h.registered_iff d]

/-- With no client left, nothing is lost when `epollFD` is closed. -/
theorem CustodyInv.closeEpoll (h : CustodyInv c) (hnone : c.server.openFds = [])
    (hopen : s'.openFds = c.server.openFds) :
    CustodyInv { c with server := s', registered := fun _ => false } := by
  have hquiet : ∀ cs, c.registered cs = false := by
    intro cs
    by_contra hreg
    rw [Bool.not_eq_false, h.registered_iff cs, hnone] at hreg
    cases hreg.1
  refine ⟨h.fds, h.open_eq.trans hopen.symm, by rw [hopen]; exact h.nodup, h.events, h.once, ?_, ?_⟩
  · intro cs
    rw [h.event_iff cs, hquiet cs]
  · intro cs
    show false = true ↔ cs ∈ s'.openFds ∧ ¬ s'.Preparing cs
    rw [hopen, hnone]
    exact iff_of_false nofun fun hmem => nomatch hmem.1

/-! ## Every step keeps it -/

theorem record_of_read {q : QSocketServer} {pc pc' : WorkerPc} (h : WorkerRead q pc env pc')
    (hok : pc.prepares = true → env ≠ .fail) : c.record pc env = c := by
  cases h with
  | epollAddFail => exact absurd rfl (hok rfl)
  | _ => rfl

theorem record_of_locked {pc pc' : WorkerPc} (h : pc.locked = some pc') : c.record pc .ok = c := by
  unfold WorkerPc.locked at h
  split at h <;> cases h <;> rfl

theorem record_of_unlocked {pc pc' : WorkerPc} (h : pc.unlocked = some pc') :
    c.record pc .ok = c := by
  unfold WorkerPc.unlocked at h
  split at h <;> cases h <;> rfl

theorem CustodyInv.worker (h : CustodyInv c) (hS : Sockets c.server)
    (hw : c.server.workers[i]? = some w) (hprepares : w.pc.prepares = true → env ≠ .fail)
    (hfrees : w.pc.frees = true → c.server.openFds = []) (hs : WorkerStep c.server i w env s') :
    CustodyInv { c.record w.pc env with server := s' } := by
  cases hs with
  | read hread =>
    rw [record_of_read hread hprepares]
    exact h.keep hw rfl rfl (hread.preparing_eq hprepares)
  | lock hpc _ =>
    rw [record_of_locked hpc]
    exact h.keep hw rfl rfl (WorkerPc.preparing_of_locked hpc)
  | unlock hpc =>
    rw [record_of_unlocked hpc]
    exact h.keep hw rfl rfl (WorkerPc.preparing_of_unlocked hpc)
  | @create cs j hpc _ =>
    have hset : CustodyInv { c with
        server := c.server.setWorker i { w with pc := .add cs (.incr j) } } :=
      h.keep hw rfl rfl (by rw [hpc]; rfl)
    rw [hpc]
    exact hset.frame rfl fun _ => preparing_createWorker
  | accept hpc _ hcs =>
    rw [hpc]
    exact h.accept hw rfl hcs rfl (by rw [hpc]; rfl) rfl
  | epollAdd hpc =>
    rw [hpc]
    exact h.register hS hw rfl rfl (by rw [hpc]; rfl) rfl
  | close hpc =>
    rw [hpc]
    exact h.close hS hw rfl rfl (by rw [hpc]; rfl) (by rw [hpc]; rfl) rfl
  | free hpc =>
    rw [hpc] at hfrees ⊢
    exact h.closeEpoll (hfrees rfl) rfl
  | pollServer hpc | pollClient hpc | acceptFail hpc | count hpc | busy hpc | incr hpc | idle hpc
  | rearm hpc | uncountLast hpc | uncount hpc | leave hpc | stay hpc | uncountWorker hpc =>
    rw [hpc]
    exact h.keep hw rfl rfl (by rw [hpc]; rfl)

theorem custody_cases {a : Act} (hs : (custody minThreads maxThreads).step c a = some c') :
    ∃ s', step c.server a = some s' ∧ c' = c.after a s' := by
  have hs : (step c.server a).map (c.after a) = some c' := hs
  rw [Option.map_eq_some_iff] at hs
  rcases hs with ⟨s', hs', heq⟩
  exact ⟨s', hs', heq.symm⟩

theorem Custody.server_after {a : Act} : (c.after a s).server = s := by
  cases a with
  | worker i env =>
    show (match c.server.workers[i]? with
      | some w => { c.record w.pc env with server := s }
      | none => { c with server := s }).server = s
    cases c.server.workers[i]? <;> rfl
  | _ => rfl

theorem CustodyInv.step {a : Act} (h : CustodyInv c) (hS : Sockets c.server) (hok : CustodyOk c a)
    (hs : Step c.server a s') : CustodyInv (c.after a s') := by
  cases hs with
  | @worker i w env _ hw hs =>
    have hw' := hok w hw
    rw [Custody.after]
    simp only [hw]
    exact h.worker hS hw hw'.1 hw'.2 hs
  | start hs =>
    cases hs with
    | create => exact h.frame rfl fun _ => preparing_createWorker
    | _ => exact h.frame rfl fun _ => Iff.rfl
  | shutdown hs => cases hs <;> exact h.frame rfl fun _ => Iff.rfl
  | send hs =>
    rw [sendStep_eq hs]
    exact h.frame rfl fun _ => Iff.rfl

theorem custodyInv_init : CustodyInv (custody minThreads maxThreads).init where
  fds := Resources.balanced_empty
  open_eq := rfl
  nodup := List.nodup_nil
  events := Resources.balanced_empty
  once := List.nodup_nil
  event_iff _ := iff_of_false List.not_mem_nil nofun
  registered_iff _ := iff_of_false nofun fun h => nomatch h.1

theorem custodyInv_invariant : ((custody minThreads maxThreads).restrict CustodyOk).Invariant
    fun c => ((((Mutex c.server ∧ LifecycleInv c.server) ∧
      WorkersInv minThreads maxThreads c.server) ∧ CleanupInv c.server) ∧ Sockets c.server) ∧
      CustodyInv c := by
  apply TransitionSystem.Invariant.restrict
  · exact ⟨⟨cleanupInv_invariant.init, sockets_init⟩, custodyInv_init⟩
  · intro c c' a hI hok hs
    rcases custody_cases hs with ⟨s', hs', rfl⟩
    rw [Custody.server_after]
    have hstep := step_cases hs'
    exact ⟨⟨cleanupInv_invariant.step hI.1.1 hs', sockets_step hI.1.2 hstep⟩,
      hI.2.step hI.1.2 hok hstep⟩

/-! ## Owned or closed -/

theorem CustodyInv.owned (h : CustodyInv c) (hcs : c.server.Unhandled cs) : c.Owned cs := by
  have hpreparing : ¬ c.server.Preparing cs := by
    rintro ⟨w, hw, hpc⟩
    exact hcs w hw (WorkerPc.client_of_preparing hpc)
  have hreg := h.registered_iff cs
  rw [and_iff_left hpreparing, ← h.open_eq] at hreg
  have hevent := h.event_iff cs
  have hfds := h.fds.count cs
  have hevents := h.events.count cs
  -- The number may have been used before: its calls are counted.
  by_cases hopen : cs ∈ c.fds.live
  · have hnodup : c.fds.live.Nodup := by
      rw [h.open_eq]
      exact h.nodup
    rw [List.count_eq_one_of_mem hnodup hopen] at hfds
    have hlive := List.count_eq_one_of_mem h.once (hevent.mpr (hreg.mpr hopen))
    rw [hlive] at hevents
    exact Or.inl ⟨hopen, hreg.mpr hopen, hfds, hlive, hevents⟩
  · have hquiet : ¬ c.registered cs = true := fun hr => hopen (hreg.mp hr)
    have hlive := List.count_eq_zero_of_not_mem fun hmem => hquiet (hevent.mp hmem)
    rw [List.count_eq_zero_of_not_mem hopen, Nat.add_zero] at hfds
    rw [hlive, Nat.add_zero] at hevents
    exact Or.inr ⟨hopen, Bool.eq_false_iff.mpr hquiet, hfds, hlive, hevents⟩

/-! ## What is lost otherwise -/

/-- An open descriptor that is not registered has no owner but a routine. -/
theorem not_owned (cs : Fd) (hopen : cs ∈ c.fds.live) (hquiet : c.registered cs = false) :
    ¬ c.Owned cs := by
  rintro (⟨-, hreg, -⟩ | ⟨hclosed, -⟩)
  · rw [hquiet] at hreg
    cases hreg
  · exact hclosed hopen

theorem WorkerPc.exists_preparing {pc : WorkerPc} (h : pc.prepares = true) :
    ∃ cs, pc.preparing = some cs := by
  unfold WorkerPc.prepares at h
  split at h
  · exact ⟨_, rfl⟩
  · exact ⟨_, rfl⟩
  · exact ⟨_, rfl⟩
  · cases h

theorem record_fail {pc : WorkerPc} (hpc : pc.prepares = true) :
    (c.record pc .fail).fds = c.fds ∧ (c.record pc .fail).registered = c.registered := by
  unfold WorkerPc.prepares at hpc
  split at hpc
  · exact ⟨rfl, rfl⟩
  · exact ⟨rfl, rfl⟩
  · exact ⟨rfl, rfl⟩
  · cases hpc

theorem CustodyInv.mem_acquired (h : CustodyInv c) (hcs : cs ∈ c.fds.live) : cs ∈ c.fds.acquired :=
  h.fds.mem_iff.mpr (List.mem_append_right _ hcs)

theorem CustodyInv.lost_of_fail (h : CustodyInv c) (hS : Sockets c.server)
    (hw : c.server.workers[i]? = some w) (hpc : w.pc.prepares = true)
    (hs : WorkerStep c.server i w .fail s') :
    s'.qss = c.server.qss ∧ ∃ cs ∈ (c.record w.pc .fail).fds.acquired, s'.Unhandled cs ∧
      ¬ ({ c.record w.pc .fail with server := s' } : Custody).Owned cs := by
  rcases WorkerPc.exists_preparing hpc with ⟨cs, hcs⟩
  have hclient := WorkerPc.client_of_preparing hcs
  have howned := (hS.owned w (List.mem_of_getElem? hw) cs hclient).1
  rw [← h.open_eq] at howned
  have hfree := hS.free_of_client hw hclient
  rcases record_fail (c := c) hpc with ⟨hfds, hreg⟩
  rw [hs.prepares_fail hpc]
  refine ⟨rfl, cs, ?_, ?_, not_owned cs ?_ ?_⟩
  · rw [hfds]
    exact h.mem_acquired howned
  · intro v hv hclient'
    rw [Server.workers_setWorker] at hv
    rcases List.mem_iff_getElem?.mp hv with ⟨j, hj⟩
    rcases getElem?_set_cases hj with ⟨-, rfl⟩ | ⟨hji, hj⟩
    · cases hclient'
    · exact hfree j v hji hj hclient'
  · show cs ∈ (c.record w.pc .fail).fds.live
    rw [hfds]
    exact howned
  · show (c.record w.pc .fail).registered cs = false
    rw [hreg, Bool.eq_false_iff, Ne, h.registered_iff cs]
    exact fun hr => hr.2 ((preparing_self hw).mpr (Or.inl hcs))

theorem WorkerPc.client_of_gone {pc : WorkerPc} (h : pc.gone = true) : pc.client = none := by
  cases pc <;> first | rfl | cases h

theorem CustodyInv.lost_of_free (h : CustodyInv c) (hC : CleanupInv c.server)
    (hw : c.server.workers[i]? = some w) (hpc : w.pc.frees = true) (hopen : c.server.openFds ≠ [])
    (hs : WorkerStep c.server i w env s') :
    s'.qss = c.server.qss ∧ ∃ cs ∈ (c.record w.pc env).fds.acquired, s'.Unhandled cs ∧
      ¬ ({ c.record w.pc env with server := s' } : Custody).Owned cs := by
  rcases List.exists_mem_of_ne_nil _ hopen with ⟨cs, hcs⟩
  rw [← h.open_eq] at hcs
  have hclearing : w.pc.clearing = true := by
    cases hpc' : w.pc <;> rw [hpc'] at hpc <;> first | rfl | cases hpc
  -- All other workers have exited.
  have hpos : 0 < c.server.clearups := by
    have htally := one_le_tally hw (p := (·.pc.clearing)) hclearing
    unfold Server.clearups
    omega
  rcases hs.of_frees hpc with ⟨exitCode, hpc', rfl, rfl⟩
  rw [hpc']
  refine ⟨rfl, cs, h.mem_acquired hcs, ?_, not_owned cs hcs rfl⟩
  intro v hv hclient
  rcases List.mem_or_eq_of_mem_set hv with hv | rfl
  · rw [WorkerPc.client_of_gone (hC.gone hpos v hv)] at hclient
    cases hclient
  · cases hclient

/-- While `onAcceptRoutine` fails in `accept` only, and no client is left when the server is freed,
every descriptor that no routine handles is registered with one event, or closed with its events
freed. The first step that breaks this loses a descriptor, and counts nothing. -/
theorem descriptors_owned :
    (∀ c, ((custody minThreads maxThreads).restrict CustodyOk).Reachable c →
      ∀ cs ∈ c.fds.acquired, c.server.Unhandled cs → c.Owned cs) ∧
    ∀ c c' a, ((custody minThreads maxThreads).restrict CustodyOk).Reachable c → ¬ CustodyOk c a →
      (custody minThreads maxThreads).step c a = some c' →
      c'.server.qss = c.server.qss ∧
        ∃ cs ∈ c'.fds.acquired, c'.server.Unhandled cs ∧ ¬ c'.Owned cs := by
  constructor
  · intro c hc cs _ hcs
    exact (custodyInv_invariant.of_reachable hc).2.owned hcs
  · intro c c' a hc hok hs
    rcases custodyInv_invariant.of_reachable hc with ⟨⟨⟨-, hC⟩, hS⟩, hI⟩
    rcases custody_cases hs with ⟨s', hs', rfl⟩
    cases step_cases hs' with
    | @worker i w env _ hw hs =>
      have hlost : s'.qss = c.server.qss ∧ ∃ cs ∈ (c.record w.pc env).fds.acquired,
          s'.Unhandled cs ∧ ¬ ({ c.record w.pc env with server := s' } : Custody).Owned cs := by
        have hbroken : (w.pc.prepares = true ∧ env = .fail) ∨
            (w.pc.frees = true ∧ c.server.openFds ≠ []) := by
          by_contra hno
          rw [not_or, not_and, not_and, ne_eq] at hno
          apply hok
          intro v hv
          rw [hw] at hv
          cases hv
          exact ⟨hno.1, fun hfrees => not_not.mp (hno.2 hfrees)⟩
        rcases hbroken with ⟨hpc, rfl⟩ | ⟨hpc, hopen⟩
        · exact hI.lost_of_fail hS hw hpc hs
        · exact hI.lost_of_free hC hw hpc hopen hs
      rw [Custody.after]
      simp only [hw]
      exact hlost
    | start | shutdown | send => exact absurd trivial hok

/-- A client is accepted and served once, and another is accepted and sends nothing more. -/
def serveTwo : List Act :=
  startServer 1 ++ [Act.worker 0 .ok, .worker 0 (.fd 5)] ++ List.replicate 6 (Act.worker 0 .ok) ++
    [Act.worker 0 (.fd 5)] ++ List.replicate 8 (Act.worker 0 .ok) ++ [Act.worker 0 (.code 0)] ++
    List.replicate 7 (Act.worker 0 .ok) ++ [Act.worker 0 .ok, .worker 0 (.fd 6)] ++
    List.replicate 6 (Act.worker 0 .ok)

theorem descriptors_owned_serveTwo :
    ∃ c, ((custody 1 1).restrict CustodyOk).exec (custody 1 1).init serveTwo = some c ∧
      c.fds.acquired = [6, 5] ∧ c.fds.released = [5] ∧ c.Owned 5 ∧ c.Owned 6 := by
  have hexec : (((custody 1 1).restrict CustodyOk).exec (custody 1 1).init serveTwo).map
      (fun c => (c.fds.acquired, c.fds.released, c.server.workers.map (·.pc))) =
        some ([6, 5], [5], [.poll]) := by decide +kernel
  rw [Option.map_eq_some_iff] at hexec
  rcases hexec with ⟨c, hc, hobs⟩
  rw [Prod.mk.injEq, Prod.mk.injEq] at hobs
  rcases hobs with ⟨hacquired, hreleased, hworkers⟩
  have howned := descriptors_owned.1 c (TransitionSystem.reachable_of_exec _ hc)
  have hunhandled : ∀ cs, c.server.Unhandled cs := by
    intro cs w hw hclient
    have hpc : w.pc ∈ c.server.workers.map (·.pc) := List.mem_map.mpr ⟨w, hw, rfl⟩
    rw [hworkers, List.mem_singleton] at hpc
    rw [hpc] at hclient
    cases hclient
  rw [hacquired] at howned
  exact ⟨c, hc, hacquired, hreleased, howned 5 (by decide) (hunhandled 5),
    howned 6 (by decide) (hunhandled 6)⟩

def acceptThenFail : List Act :=
  startServer 1 ++ [Act.worker 0 .ok, .worker 0 (.fd 5), .worker 0 .fail]

/-- `fcntl` fails on the accepted descriptor: it stays open, and nobody will read from it. -/
theorem descriptor_lost :
    ∃ c, (custody 1 1).exec (custody 1 1).init acceptThenFail = some c ∧
      c.server.qss.lifecycleStatus = 2 ∧ 5 ∈ c.fds.acquired ∧ c.server.Unhandled 5 ∧
      ¬ c.Owned 5 := by
  have hrun : ∃ c, (custody 1 1).exec (custody 1 1).init acceptThenFail = some c ∧
      c.server.qss.lifecycleStatus = 2 ∧ c.fds.acquired = [5] ∧
      c.server.workers.map (·.pc.client) = [none] ∧ c.fds.live = [5] ∧ c.registered 5 = false :=
    ⟨_, rfl, rfl, rfl, rfl, rfl, rfl⟩
  rcases hrun with ⟨c, hc, hstatus, hacquired, hclients, hlive, hquiet⟩
  refine ⟨c, hc, hstatus, by rw [hacquired]; exact List.mem_cons_self, ?_,
    not_owned 5 (by rw [hlive]; exact List.mem_cons_self) hquiet⟩
  intro w hw hclient
  have hmem : w.pc.client ∈ c.server.workers.map (·.pc.client) := List.mem_map.mpr ⟨w, hw, rfl⟩
  rw [hclients, List.mem_singleton, hclient] at hmem
  cases hmem

end CcPof.SocketServer

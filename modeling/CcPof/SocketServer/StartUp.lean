import CcPof.Lib.Resources
import CcPof.SocketServer.Model

/-!
# Starting the server

`startSocketServer` from its first statement to its last. Each of its system calls may fail, and
each failure has a clean-up of its own; `lifecycleStatus` was set to 1 before all of them. The
descriptors and blocks are those that the call itself opens and allocates.
-/

namespace CcPof.SocketServer

abbrev Socket := Int

def invalidSocket : Socket := -1

def socketError : Int := -1

/-- What the system calls answer, in the order in which they are made: `-1` is a failure. `event`,
`param` and `params` are the blocks that `malloc` returns. -/
structure SysCalls where
  socket : Socket
  getFl : Int
  setFl : Int
  bind : Int
  listen : Int
  epollCreate : Int
  bSendEpollCreate : Int
  event : Nat
  epollCtl : Int
  param : Nat
  params : Nat → Option Nat

/-- The fields of `QSocketServer` that `startSocketServer` writes, and what it holds. -/
structure Start where
  qss : QSocketServer
  serverS : Socket
  epollFD : Int
  bSendEpollFD : Int
  fds : Resources Int
  blocks : Resources Nat

namespace Start

/-- The kernel opens `fd`, if the call did not fail. -/
def opened (s : Start) (fd : Int) : Start :=
  if fd = -1 then s else { s with fds := s.fds.acquire fd }

def storeServerS (s : Start) (fd : Socket) : Start := { s.opened fd with serverS := fd }

def storeEpollFD (s : Start) (fd : Int) : Start := { s.opened fd with epollFD := fd }

def storeBSendEpollFD (s : Start) (fd : Int) : Start := { s.opened fd with bSendEpollFD := fd }

def close (s : Start) (fd : Int) : Start := { s with fds := s.fds.release fd }

def malloc (s : Start) (b : Nat) : Start := { s with blocks := s.blocks.acquire b }

def free (s : Start) (b : Nat) : Start := { s with blocks := s.blocks.release b }

def setStatus (s : Start) (lifecycleStatus : Nat) : Start :=
  { s with qss := { s.qss with lifecycleStatus := lifecycleStatus } }

/-- At its start the call has opened and allocated nothing. -/
def called (s : Start) : Start := { s with fds := .empty, blocks := .empty }

end Start

def setNonBlocking (c : SysCalls) : Int :=
  if c.getFl = -1 then c.getFl
  else if c.setFl = -1 then c.setFl
  else 1

def soLogger (s : Start) (fd : Socket) : Start := if 0 < fd then s.close fd else s

/-- `addQSSWorker`, when no other thread runs; a worker is created for each block of `malloc`. -/
def addQSSWorker (s : Start) (addCounter : Nat) (mallocs : Nat → Option Nat) : Start :=
  let q := s.qss
  if q.workerCounter < q.minThreads ∨
      q.currentBusyWorkers = q.workerCounter ∧ q.workerCounter < q.maxThreads then
    if q.workerCounter + addCounter ≤ q.maxThreads then
      let params := (List.range addCounter).filterMap mallocs
      { params.foldl Start.malloc s with
        qss := { q with workerCounter := q.workerCounter + params.length } }
    else s
  else s

/-- `startSocketServer` from the event of `server_s` on -/
def startThreads (s : Start) (c : SysCalls) : Start × Int :=
  let s := s.malloc c.event
  if c.epollCtl = -1 then ((soLogger s s.serverS).free c.event, 0)
  else
    -- the thread of the blocking senders
    let s := s.malloc c.param
    let s := addQSSWorker s s.qss.minThreads c.params
    (s.setStatus 2, 1)

/-- `startSocketServer` from the first `epoll_create1` on -/
def startEpoll (s : Start) (c : SysCalls) : Start × Int :=
  let s := s.storeEpollFD c.epollCreate
  if s.epollFD = -1 then (soLogger s s.serverS, 0)
  else
    let s := s.storeBSendEpollFD c.bSendEpollCreate
    if s.bSendEpollFD = -1 then (soLogger s s.serverS, 0)
    else startThreads s c

def startSocketServer (s : Start) (c : SysCalls) : Start × Int :=
  let s := s.called
  if s.qss.lifecycleStatus = 0 then
    let s := (s.setStatus 1).storeServerS c.socket
    if setNonBlocking c = -1 then (soLogger s 0, 0)
    else if s.serverS = invalidSocket then (soLogger s 0, 0)
    else if c.bind = socketError then (soLogger s s.serverS, 0)
    else if c.listen = socketError then (soLogger s s.serverS, 0)
    else startEpoll s c
  else (s, 0)

/-- What the kernel promises: `fcntl` fails on `-1`, and a descriptor that it opens is not open. -/
structure SysCalls.Valid (c : SysCalls) : Prop where
  fcntl : c.socket = -1 → c.getFl = -1
  epollFD : c.epollCreate ≠ -1 → c.epollCreate ≠ c.socket
  bSendEpollFD : c.bSendEpollCreate ≠ -1 → c.bSendEpollCreate ≠ c.socket ∧
    c.bSendEpollCreate ≠ c.epollCreate

/-- No system call fails. -/
structure SysCalls.Succeed (c : SysCalls) : Prop where
  socket : c.socket ≠ -1
  getFl : c.getFl ≠ -1
  setFl : c.setFl ≠ -1
  bind : c.bind ≠ -1
  listen : c.listen ≠ -1
  epollCreate : c.epollCreate ≠ -1
  bSendEpollCreate : c.bSendEpollCreate ≠ -1
  epollCtl : c.epollCtl ≠ -1

/-- What a start should leave: a server that may be started again and nothing that is open or
allocated, or a running server with its three descriptors. -/
structure StartedCleanly (s : Start) (ret : Int) : Prop where
  failed : ret = 0 → s.qss.lifecycleStatus = 0 ∧ s.fds.released.Perm s.fds.acquired ∧
    s.blocks.released.Perm s.blocks.acquired
  succeeded : ret = 1 → s.qss.lifecycleStatus = 2 ∧ s.serverS ∈ s.fds.live ∧
    s.epollFD ∈ s.fds.live ∧ s.bSendEpollFD ∈ s.fds.live ∧ s.serverS ≠ s.epollFD ∧
    s.serverS ≠ s.bSendEpollFD ∧ s.epollFD ≠ s.bSendEpollFD

/-- The failures behind which no descriptor is left: no socket, or one that `SOlogger` closes before
there is an epoll descriptor. -/
def SysCalls.LeavesNothing (c : SysCalls) : Prop :=
  c.socket = -1 ∨ setNonBlocking c ≠ -1 ∧ 0 < c.socket ∧
    (c.bind = -1 ∨ c.listen = -1 ∨ c.epollCreate = -1)

/-! ## What the call holds -/

/-- The call has advanced the state of the server, and holds these descriptors and blocks. -/
structure Holding (s : Start) (l : List Int) (bs : List Nat) : Prop where
  status : s.qss.lifecycleStatus = 1
  fds : s.fds.Balanced
  open_eq : s.fds.live = l
  blocks : s.blocks.Balanced
  live_eq : s.blocks.live = bs

variable {s s' : Start} {c : SysCalls} {l : List Int} {bs : List Nat} {fd : Int} {b : Nat}

theorem Holding.opened (h : Holding s l bs) (hfd : fd ≠ -1) : Holding (s.opened fd) (fd :: l) bs := by
  rw [Start.opened, if_neg hfd]
  exact ⟨h.status, h.fds.acquire fd, congrArg (fd :: ·) h.open_eq, h.blocks, h.live_eq⟩

theorem Holding.opened_fail (h : Holding s l bs) (hfd : fd = -1) : Holding (s.opened fd) l bs := by
  rw [Start.opened, if_pos hfd]
  exact h

/-- The numbers that the server stores do not count. -/
theorem Holding.store (h : Holding s l bs) (serverS : Socket) (epollFD bSendEpollFD : Int) :
    Holding { s with serverS, epollFD, bSendEpollFD } l bs :=
  ⟨h.status, h.fds, h.open_eq, h.blocks, h.live_eq⟩

theorem Holding.soLogger (h : Holding s l bs) (hfd : fd ∈ l) :
    Holding (soLogger s fd) (if 0 < fd then l.erase fd else l) bs := by
  unfold SocketServer.soLogger
  split
  · have hlive : fd ∈ s.fds.live := by
      rw [h.open_eq]
      exact hfd
    exact ⟨h.status, h.fds.release hlive, congrArg (·.erase fd) h.open_eq, h.blocks, h.live_eq⟩
  · exact h

theorem Holding.malloc (h : Holding s l bs) (b : Nat) :
    Holding (s.malloc b) l (b :: bs) :=
  ⟨h.status, h.fds, h.open_eq, h.blocks.acquire b, congrArg (b :: ·) h.live_eq⟩

theorem Holding.free (h : Holding s l (b :: bs)) : Holding (s.free b) l bs := by
  have hlive : b ∈ s.blocks.live := by
    rw [h.live_eq]
    exact List.mem_cons_self
  refine ⟨h.status, h.fds, h.open_eq, h.blocks.release hlive, ?_⟩
  show s.blocks.live.erase b = bs
  rw [h.live_eq, List.erase_cons_head]

theorem addQSSWorker_frame (s : Start) (n : Nat) (mallocs : Nat → Option Nat) :
    (addQSSWorker s n mallocs).fds = s.fds ∧ (addQSSWorker s n mallocs).serverS = s.serverS ∧
      (addQSSWorker s n mallocs).epollFD = s.epollFD ∧
      (addQSSWorker s n mallocs).bSendEpollFD = s.bSendEpollFD := by
  have hmalloc : ∀ (l : List Nat) (s : Start), (l.foldl Start.malloc s).fds = s.fds ∧
      (l.foldl Start.malloc s).serverS = s.serverS ∧
      (l.foldl Start.malloc s).epollFD = s.epollFD ∧
      (l.foldl Start.malloc s).bSendEpollFD = s.bSendEpollFD := by
    intro l
    induction l with
    | nil => exact fun s => ⟨rfl, rfl, rfl, rfl⟩
    | cons b l ih => exact fun s => ih (s.malloc b)
  unfold addQSSWorker
  dsimp only
  split
  · split
    · exact hmalloc _ s
    · exact ⟨rfl, rfl, rfl, rfl⟩
  · exact ⟨rfl, rfl, rfl, rfl⟩

/-! ## The ends of the call -/

theorem SysCalls.Valid.socket_ok (hv : c.Valid) (h : setNonBlocking c ≠ -1) :
    c.socket ≠ -1 ∧ c.getFl ≠ -1 ∧ c.setFl ≠ -1 := by
  unfold setNonBlocking at h
  split at h
  · exact absurd ‹c.getFl = -1› h
  · split at h
    · exact absurd ‹c.setFl = -1› h
    · exact ⟨fun hsocket => ‹¬ c.getFl = -1› (hv.fcntl hsocket), ‹_›, ‹_›⟩

/-- A call that failed: the server is in state 1, and the descriptors `left` are open. -/
structure Failed (c : SysCalls) (r : Start × Int) (left : List Int) : Prop where
  ret : r.2 = 0
  holding : Holding r.1 left []
  failed : ¬ c.Succeed
  left_iff : left = [] ↔ c.LeavesNothing

structure Succeeded (c : SysCalls) (r : Start × Int) : Prop where
  ret : r.2 = 1
  status : r.1.qss.lifecycleStatus = 2
  open_eq : r.1.fds.live = [c.bSendEpollCreate, c.epollCreate, c.socket]
  serverS : r.1.serverS = c.socket
  epollFD : r.1.epollFD = c.epollCreate
  bSendEpollFD : r.1.bSendEpollFD = c.bSendEpollCreate
  succeed : c.Succeed

/-- A failure in which `SOlogger` closes the listening socket, while `left` are open too. -/
theorem Holding.closing (left : List Int) (h : Holding s (left ++ [c.socket]) [])
    (hserver : s.serverS = c.socket) (hleft : c.socket ∉ left) (hfailed : ¬ c.Succeed)
    (hiff : left = [] ∧ 0 < c.socket ↔ c.LeavesNothing) :
    ∃ left, Failed c (SocketServer.soLogger s s.serverS, 0) left := by
  have hclosed := h.soLogger (List.mem_append_right left List.mem_cons_self)
  rw [hserver]
  refine ⟨_, rfl, hclosed, hfailed, ?_⟩
  rw [← hiff, List.erase_append_right _ hleft, List.erase_cons_head, List.append_nil]
  split
  · exact (and_iff_left ‹_›).symm
  · refine iff_of_false ?_ fun hboth => absurd hboth.2 ‹_›
    exact List.append_ne_nil_of_right_ne_nil left (List.cons_ne_nil _ _)

theorem SysCalls.Valid.leavesNothing_iff (hv : c.Valid) (h : setNonBlocking c ≠ -1) :
    c.LeavesNothing ↔ 0 < c.socket ∧ (c.bind = -1 ∨ c.listen = -1 ∨ c.epollCreate = -1) := by
  unfold SysCalls.LeavesNothing
  rw [or_iff_right (hv.socket_ok h).1, and_iff_right h]

@[simp] theorem Start.serverS_opened : (s.opened fd).serverS = s.serverS := by
  unfold Start.opened
  split <;> rfl

@[simp] theorem Start.epollFD_opened : (s.opened fd).epollFD = s.epollFD := by
  unfold Start.opened
  split <;> rfl

theorem startThreads_cases (h : Holding s [c.bSendEpollCreate, c.epollCreate, c.socket] [])
    (hserver : s.serverS = c.socket) (hepollFD : s.epollFD = c.epollCreate)
    (hbSend : s.bSendEpollFD = c.bSendEpollCreate)
    (hfresh : c.socket ∉ [c.bSendEpollCreate, c.epollCreate]) (hnone : ¬ c.LeavesNothing)
    (hok : c.epollCtl ≠ -1 → c.Succeed) :
    Succeeded c (startThreads s c) ∨ ∃ left, Failed c (startThreads s c) left := by
  unfold startThreads
  dsimp only
  have hserver' : (s.malloc c.event).serverS = c.socket := hserver
  by_cases hctl : c.epollCtl = -1
  · right
    rw [if_pos hctl, hserver']
    have hmem : c.socket ∈ [c.bSendEpollCreate, c.epollCreate, c.socket] := by simp
    have hclosed := (h.malloc c.event).soLogger hmem
    refine ⟨_, rfl, hclosed.free, fun hok => hok.epollCtl hctl, iff_of_false ?_ hnone⟩
    -- Both epoll descriptors stay open.
    split
    · have herase : [c.bSendEpollCreate, c.epollCreate, c.socket].erase c.socket =
          [c.bSendEpollCreate, c.epollCreate] := by
        show ([c.bSendEpollCreate, c.epollCreate] ++ [c.socket]).erase c.socket = _
        rw [List.erase_append_right _ hfresh, List.erase_cons_head, List.append_nil]
      rw [herase]
      exact List.cons_ne_nil _ _
    · exact List.cons_ne_nil _ _
  · left
    rw [if_neg hctl]
    rcases addQSSWorker_frame ((s.malloc c.event).malloc c.param)
      ((s.malloc c.event).malloc c.param).qss.minThreads c.params with ⟨hfds, hS, hE, hB⟩
    exact {
      ret := rfl
      status := rfl
      open_eq := (congrArg Resources.live hfds).trans h.open_eq
      serverS := hS.trans hserver
      epollFD := hE.trans hepollFD
      bSendEpollFD := hB.trans hbSend
      succeed := hok hctl }

theorem startEpoll_cases (h : Holding s [c.socket] []) (hv : c.Valid)
    (hserver : s.serverS = c.socket) (hblock : setNonBlocking c ≠ -1) (hbind : c.bind ≠ -1)
    (hlisten : c.listen ≠ -1) :
    Succeeded c (startEpoll s c) ∨ ∃ left, Failed c (startEpoll s c) left := by
  rcases hv.socket_ok hblock with ⟨hsocket, hgetFl, hsetFl⟩
  have hiff := hv.leavesNothing_iff hblock
  have hserver₂ : (s.storeEpollFD c.epollCreate).serverS = c.socket := by
    rw [← hserver]
    exact Start.serverS_opened
  unfold startEpoll
  dsimp only
  by_cases hepoll : c.epollCreate = -1
  · right
    have h₂ : Holding (s.storeEpollFD c.epollCreate) [c.socket] [] :=
      (h.opened_fail hepoll).store ..
    rw [if_pos (show (s.storeEpollFD c.epollCreate).epollFD = -1 from hepoll)]
    exact Holding.closing [] h₂ hserver₂ List.not_mem_nil
      (fun hok => hok.epollCreate hepoll) (by rw [hiff]; simp [hepoll])
  have h₂ : Holding (s.storeEpollFD c.epollCreate) [c.epollCreate, c.socket] [] :=
    (h.opened hepoll).store ..
  rw [if_neg (show (s.storeEpollFD c.epollCreate).epollFD ≠ -1 from hepoll)]
  -- From here on `SOlogger` closes the listening socket only.
  have hnone : ¬ c.LeavesNothing := by
    rw [hiff]
    rintro ⟨-, hfail | hfail | hfail⟩
    · exact hbind hfail
    · exact hlisten hfail
    · exact hepoll hfail
  have hfresh := (hv.epollFD hepoll).symm
  generalize hs₂ : s.storeEpollFD c.epollCreate = s₂ at h₂ hserver₂
  have hserver₃ : (s₂.storeBSendEpollFD c.bSendEpollCreate).serverS = c.socket := by
    rw [← hserver₂]
    exact Start.serverS_opened
  by_cases hbSend : c.bSendEpollCreate = -1
  · right
    have h₃ : Holding (s₂.storeBSendEpollFD c.bSendEpollCreate) [c.epollCreate, c.socket] [] :=
      (h₂.opened_fail hbSend).store ..
    rw [if_pos (show (s₂.storeBSendEpollFD c.bSendEpollCreate).bSendEpollFD = -1 from hbSend)]
    exact Holding.closing [c.epollCreate] h₃ hserver₃ (by simpa using hfresh)
      (fun hok => hok.bSendEpollCreate hbSend) (iff_of_false (fun h => nomatch h.1) hnone)
  · rw [if_neg (show (s₂.storeBSendEpollFD c.bSendEpollCreate).bSendEpollFD ≠ -1 from hbSend)]
    apply startThreads_cases ((h₂.opened hbSend).store ..) hserver₃ _ rfl _ hnone
    · exact fun hctl => ⟨hsocket, hgetFl, hsetFl, hbind, hlisten, hepoll, hbSend, hctl⟩
    · rw [← hs₂]
      exact Start.epollFD_opened
    · simpa using ⟨(hv.bSendEpollFD hbSend).1.symm, hfresh⟩

theorem startSocketServer_of_blocking (h : Holding s [] []) (hblock : setNonBlocking c = -1) :
    ∃ left, Failed c (soLogger (s.storeServerS c.socket) 0, 0) left := by
  by_cases hsocket : c.socket = -1
  · have h₁ : Holding (s.storeServerS c.socket) [] [] := (h.opened_fail hsocket).store ..
    exact ⟨[], rfl, h₁, fun hok => hok.socket hsocket, iff_of_true rfl (Or.inl hsocket)⟩
  · -- `SOlogger` gets 0 for the descriptor here.
    have h₁ : Holding (s.storeServerS c.socket) [c.socket] [] := (h.opened hsocket).store ..
    refine ⟨[c.socket], rfl, h₁, ?_, iff_of_false nofun ?_⟩
    · intro hok
      rw [setNonBlocking, if_neg hok.getFl, if_neg hok.setFl] at hblock
      cases hblock
    · rintro (hnone | ⟨hblock', -⟩)
      · exact hsocket hnone
      · exact hblock' hblock

/-- Each end of `startSocketServer` on a server in state 0. -/
theorem startSocketServer_cases (h : s.qss.lifecycleStatus = 0) (hv : c.Valid) :
    Succeeded c (startSocketServer s c) ∨ ∃ left, Failed c (startSocketServer s c) left := by
  have h₀ : Holding (s.called.setStatus 1) [] [] :=
    ⟨rfl, Resources.balanced_empty, rfl, Resources.balanced_empty, rfl⟩
  have hcalled : s.called.qss.lifecycleStatus = 0 := h
  unfold startSocketServer
  dsimp only
  rw [if_pos hcalled]
  by_cases hblock : setNonBlocking c = -1
  · right
    rw [if_pos hblock]
    exact startSocketServer_of_blocking h₀ hblock
  rcases hv.socket_ok hblock with ⟨hsocket, hgetFl, hsetFl⟩
  have hiff := hv.leavesNothing_iff hblock
  generalize hs₁ : (s.called.setStatus 1).storeServerS c.socket = s₁
  have hserver : s₁.serverS = c.socket := by
    rw [← hs₁]
    rfl
  have h₁ : Holding s₁ [c.socket] [] := by
    rw [← hs₁]
    exact (h₀.opened hsocket).store ..
  rw [if_neg hblock, if_neg (show s₁.serverS ≠ invalidSocket from hserver ▸ hsocket)]
  by_cases hbind : c.bind = socketError
  · right
    rw [if_pos hbind]
    exact Holding.closing [] h₁ hserver List.not_mem_nil (fun hok => hok.bind hbind)
      (by rw [hiff]; simp [show c.bind = -1 from hbind])
  by_cases hlisten : c.listen = socketError
  · right
    rw [if_neg hbind, if_pos hlisten]
    exact Holding.closing [] h₁ hserver List.not_mem_nil (fun hok => hok.listen hlisten)
      (by rw [hiff]; simp [show c.listen = -1 from hlisten])
  rw [if_neg hbind, if_neg hlisten]
  exact startEpoll_cases h₁ hv hserver hblock hbind hlisten

theorem Succeeded.startedCleanly {r : Start × Int} (h : Succeeded c r) (hv : c.Valid) :
    StartedCleanly r.1 r.2 := by
  constructor
  · intro hret
    rw [h.ret] at hret
    cases hret
  · intro _
    have hepoll := hv.epollFD h.succeed.epollCreate
    have hbSend := hv.bSendEpollFD h.succeed.bSendEpollCreate
    rw [h.open_eq, h.serverS, h.epollFD, h.bSendEpollFD]
    exact ⟨h.status, by simp, by simp, by simp, hepoll.symm, hbSend.1.symm, hbSend.2.symm⟩

/-- A start is clean if and only if no system call fails. One that fails leaves the server in a state
in which it is not started again; all blocks are freed, and all descriptors are closed unless the
socket cannot be made non-blocking, or is number 0, or an epoll descriptor is there already. -/
theorem start_clean_iff (h : s.qss.lifecycleStatus = 0) (hv : c.Valid) :
    (StartedCleanly (startSocketServer s c).1 (startSocketServer s c).2 ↔ c.Succeed) ∧
    (¬ c.Succeed → (startSocketServer s c).2 = 0 ∧
      (∀ c', (startSocketServer (startSocketServer s c).1 c').2 = 0) ∧
      (startSocketServer s c).1.blocks.released.Perm (startSocketServer s c).1.blocks.acquired ∧
      ((startSocketServer s c).1.fds.released.Perm (startSocketServer s c).1.fds.acquired ↔
        c.LeavesNothing)) := by
  rcases startSocketServer_cases h hv with hdone | ⟨left, hfailed⟩
  · exact ⟨iff_of_true (hdone.startedCleanly hv) hdone.succeed, fun hok => absurd hdone.succeed hok⟩
  · have hholding := hfailed.holding
    refine ⟨iff_of_false ?_ hfailed.failed, fun _ => ⟨hfailed.ret, ?_, ?_, ?_⟩⟩
    · intro hclean
      have hstatus := (hclean.failed hfailed.ret).1
      rw [hholding.status] at hstatus
      cases hstatus
    · intro c'
      have hrefused : (startSocketServer s c).1.called.qss.lifecycleStatus ≠ 0 := by
        show (startSocketServer s c).1.qss.lifecycleStatus ≠ 0
        rw [hholding.status]
        exact Nat.one_ne_zero
      rw [startSocketServer, if_neg hrefused]
    · exact hholding.blocks.released_iff.mpr hholding.live_eq
    · rw [hholding.fds.released_iff, hholding.open_eq]
      exact hfailed.left_iff

/-- A server that was just created, and a kernel that opens the descriptors 5, 6 and 7. -/
def newStart : Start := ⟨createSocketServer 1 2, 0, 0, 0, .empty, .empty⟩

def allSucceed : SysCalls where
  socket := 5
  getFl := 2
  setFl := 0
  bind := 0
  listen := 0
  epollCreate := 6
  bSendEpollCreate := 7
  event := 100
  epollCtl := 0
  param := 200
  params := fun i => some (300 + i)

theorem start_clean_iff_allSucceed :
    StartedCleanly (startSocketServer newStart allSucceed).1 (startSocketServer newStart allSucceed).2 :=
  (start_clean_iff rfl ⟨by decide, by decide, by decide⟩).1.mpr
    ⟨by decide, by decide, by decide, by decide, by decide, by decide, by decide, by decide⟩

/-- The port is in use: `bind` fails, and the server is never started. -/
theorem start_not_clean :
    (startSocketServer newStart { allSucceed with bind := -1 }).2 = 0 ∧
      (startSocketServer newStart { allSucceed with bind := -1 }).1.qss.lifecycleStatus = 1 ∧
      ¬ StartedCleanly (startSocketServer newStart { allSucceed with bind := -1 }).1
        (startSocketServer newStart { allSucceed with bind := -1 }).2 := by
  refine ⟨rfl, rfl, ?_⟩
  intro hclean
  cases (hclean.failed rfl).1

end CcPof.SocketServer

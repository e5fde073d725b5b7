import CcPof.Lib.Transition
import Mathlib.Logic.Function.Basic

/-!
# The socket server

`startSocketServer`, `epollWorkerRoutine`, `blockingSendEpollerRoutine` and `shutdownSocketServer`
as the statements of their threads, taken in any order. A program counter names the statement that
its thread executes next; the tests outside of the lock read one variable of the server each. What
the kernel and the handler of a connection decide is part of the label of a step. A new thread finds
its parameter filled in, and its two statements before the loop are left out.
-/

namespace CcPof.SocketServer

abbrev Fd := Nat

/-- `QSocketServer`, the fields that the threads read and write after `createSocketServer` -/
structure QSocketServer where
  minThreads : Nat
  maxThreads : Nat
  lifecycleStatus : Nat
  workerCounter : Int
  currentBusyWorkers : Int
  cSocketsCounter : Int
  deriving DecidableEq, Repr

def createSocketServer (minThreads maxThreads : Nat) : QSocketServer where
  minThreads
  maxThreads
  lifecycleStatus := 0
  workerCounter := 0
  currentBusyWorkers := 0
  cSocketsCounter := 0

/-- The statements of `addQSSWorker`. The four tests are those of its first `if`. -/
inductive AddPc
  | testMin
  | testBusy
  | testEqual (busy : Int)
  | testMax
  | lock
  | guard
  | create (i : Nat)
  | incr (i : Nat)
  | unlock
  | ret
  deriving DecidableEq, Repr

inductive WorkerPc
  | poll
  -- onAcceptRoutine
  | accept
  | setNonBlocking (cs : Fd)
  | setKeepAlive (cs : Fd)
  | epollAdd (cs : Fd)
  | lockCount (cs : Fd)
  | count (cs : Fd)
  | unlockCount
  -- an event of a client
  | lockBusy (cs : Fd)
  | busy (cs : Fd)
  | unlockBusy (cs : Fd)
  | add (cs : Fd) (pc : AddPc)
  | handle (cs : Fd)
  | lockIdle (cs : Fd) (handleCode : Int)
  | idle (cs : Fd) (handleCode : Int)
  | unlockIdle (cs : Fd) (handleCode : Int)
  | rearm (cs : Fd)
  -- SOErrOccurred
  | close (cs : Fd)
  | lockClosed
  | uncount
  | unlockClosed (exitCode : Nat)
  -- timeout
  | testLifecycle
  | testIdle
  | testSpare
  | testExit
  | lockTimeout
  | retest
  | unlockTimeout (exitCode : Nat)
  -- behind the loop
  | lockExit (exitCode : Nat)
  | uncountWorker (exitCode : Nat)
  | unlockExit (exitCode : Nat) (clearup : Bool)
  | free (exitCode : Nat)
  | exited (exitCode : Nat)
  deriving DecidableEq, Repr

inductive StartPc
  | idle
  | lock
  | test
  | unlock (ok : Bool)
  | setUp
  | createSender
  | add (pc : AddPc)
  | setRunning
  | returned (ret : Int)
  deriving DecidableEq, Repr

inductive ShutdownPc
  | idle
  | lock
  | test
  | unlock (ok : Bool)
  | shutdownServer
  | shutdownClients
  | returned (ret : Int)
  deriving DecidableEq, Repr

/-- `blockingSendEpollerRoutine`; in `waiting` the call of `epoll_wait` blocks. -/
inductive SendPc
  | idle
  | start
  | wait
  | waiting
  | signal
  | ended
  deriving DecidableEq, Repr

inductive Tid
  | worker (i : Nat)
  | starter
  | closer
  deriving DecidableEq

/-- A worker, and how often it has decremented `workerCounter`. -/
structure Worker where
  pc : WorkerPc
  decrements : Nat
  deriving DecidableEq, Repr

/-- The server, the kernel's view of its sockets and the threads. `openFds` are the client sockets
that are accepted and not closed, `armed` those for which `epoll_wait` may report an event.
`cleared` counts how often the structure was freed. -/
structure Server where
  qss : QSocketServer
  gSpinlock : Option Tid
  listening : Bool
  serverArmed : Bool
  openFds : List Fd
  armed : Fd → Bool
  workers : List Worker
  starter : StartPc
  closer : ShutdownPc
  sender : SendPc
  cleared : Nat

def serverInit (minThreads maxThreads : Nat) : Server where
  qss := createSocketServer minThreads maxThreads
  gSpinlock := none
  listening := false
  serverArmed := false
  openFds := []
  armed := fun _ => false
  workers := []
  starter := .idle
  closer := .idle
  sender := .idle
  cleared := 0

/-- What the kernel or the handler answers: success, failure, a socket, no event in time, or the
handler's return value. -/
inductive Env
  | ok
  | fail
  | fd (cs : Fd)
  | timeout
  | code (ret : Int)
  deriving DecidableEq, Repr

def Server.setWorker (s : Server) (i : Nat) (w : Worker) : Server :=
  { s with workers := s.workers.set i w }

/-- `pthread_create(&pParam->th, NULL, epollWorkerRoutine, pParam)` -/
def Server.createWorker (s : Server) : Server := { s with workers := s.workers ++ [⟨.poll, 0⟩] }

/-! ## `addQSSWorker` -/

/-- The statements that only read. -/
def AddPc.next (q : QSocketServer) (addCounter : Nat) : AddPc → Env → Option AddPc
  | .testMin, .ok => some (if q.workerCounter < q.minThreads then .lock else .testBusy)
  | .testBusy, .ok => some (.testEqual q.currentBusyWorkers)
  | .testEqual busy, .ok => some (if busy = q.workerCounter then .testMax else .ret)
  | .testMax, .ok => some (if q.workerCounter < q.maxThreads then .lock else .ret)
  | .guard, .ok =>
      some (if q.workerCounter + addCounter ≤ q.maxThreads then .create 0 else .unlock)
  | .create i, .ok => if i < addCounter then none else some .unlock
  -- malloc
  | .create i, .fail => if i < addCounter then some (.create (i + 1)) else none
  | _, _ => none

/-! ## Workers -/

/-- The statements of a worker that only read, or change nothing that the server knows of. -/
def WorkerPc.next (q : QSocketServer) : WorkerPc → Env → Option WorkerPc
  | .poll, .timeout => some .testLifecycle
  | .poll, .fail => some (.lockExit 1)
  | .setNonBlocking cs, .ok => some (.setKeepAlive cs)
  | .setKeepAlive cs, .ok => some (.epollAdd cs)
  -- `return 0`, without a close of the socket
  | .setNonBlocking _, .fail | .setKeepAlive _, .fail | .epollAdd _, .fail => some .poll
  | .add cs .ret, .ok => some (.handle cs)
  | .add cs pc, env => (pc.next q 1 env).map (.add cs)
  | .handle cs, .code handleCode => some (.lockIdle cs handleCode)
  | .rearm cs, .fail => some (.close cs)
  | .testLifecycle, .ok => some (if q.lifecycleStatus ≤ 3 then .testIdle else .testExit)
  | .testIdle, .ok => some (if q.currentBusyWorkers = 0 then .testSpare else .testExit)
  | .testSpare, .ok => some (if q.workerCounter > q.minThreads then .lockTimeout else .testExit)
  | .testExit, .ok => some (if q.lifecycleStatus ≥ 4 then .lockExit 4 else .poll)
  | _, _ => none

/-- The statement behind a `pthread_spin_lock`. -/
def WorkerPc.locked : WorkerPc → Option WorkerPc
  | .lockCount cs => some (.count cs)
  | .lockBusy cs => some (.busy cs)
  | .add cs .lock => some (.add cs .guard)
  | .lockIdle cs handleCode => some (.idle cs handleCode)
  | .lockClosed => some .uncount
  | .lockTimeout => some .retest
  | .lockExit exitCode => some (.uncountWorker exitCode)
  | _ => none

/-- The statement behind a `pthread_spin_unlock`. -/
def WorkerPc.unlocked : WorkerPc → Option WorkerPc
  | .unlockCount => some .poll
  | .unlockBusy cs => some (.add cs .testMin)
  | .add cs .unlock => some (.add cs .ret)
  | .unlockIdle cs handleCode => some (if 0 < handleCode then .rearm cs else .close cs)
  | .unlockClosed exitCode => some (if exitCode = 0 then .poll else .lockExit exitCode)
  | .unlockTimeout exitCode => some (if exitCode = 0 then .poll else .exited exitCode)
  | .unlockExit exitCode clearup => some (if clearup then .free exitCode else .exited exitCode)
  | _ => none

/-- The next statement of the worker `i`. -/
def workerStep (s : Server) (i : Nat) (w : Worker) (env : Env) : Option Server :=
  let q := s.qss
  let goto (s : Server) (pc : WorkerPc) : Server := s.setWorker i { w with pc := pc }
  match w.pc, env with
  | .poll, .ok => if s.serverArmed then some (goto s .accept) else none
  | .poll, .fd cs =>
      if s.armed cs then
        some (goto { s with armed := Function.update s.armed cs false } (.lockBusy cs))
      else none
  | .accept, .fd cs =>
      if s.listening ∧ cs ∉ s.openFds then
        some (goto { s with openFds := cs :: s.openFds } (.setNonBlocking cs))
      else none
  -- `epoll_ctl(qss->epollFD, EPOLL_CTL_DEL, qss->server_s, NULL)`
  | .accept, .fail => some (goto { s with serverArmed := false } .poll)
  | .epollAdd cs, .ok => some (goto { s with armed := Function.update s.armed cs true } (.lockCount cs))
  | .count _, .ok =>
      some (goto { s with qss := { q with cSocketsCounter := q.cSocketsCounter + 1 } } .unlockCount)
  | .busy cs, .ok =>
      some (goto { s with qss := { q with currentBusyWorkers := q.currentBusyWorkers + 1 } }
        (.unlockBusy cs))
  | .add cs (.incr j), .ok =>
      some (goto { s with qss := { q with workerCounter := q.workerCounter + 1 } }
        (.add cs (.create (j + 1))))
  | .idle cs handleCode, .ok =>
      some (goto { s with qss := { q with currentBusyWorkers := q.currentBusyWorkers - 1 } }
        (.unlockIdle cs handleCode))
  | .rearm cs, .ok => some (goto { s with armed := Function.update s.armed cs true } .poll)
  | .close cs, .ok => some (goto { s with openFds := s.openFds.erase cs } .lockClosed)
  | .uncount, .ok =>
      if q.cSocketsCounter - 1 = 0 ∧ q.lifecycleStatus ≥ 3 then
        some (goto { s with qss := { q with
          cSocketsCounter := q.cSocketsCounter - 1
          lifecycleStatus := 4 } } (.unlockClosed 3))
      else
        some (goto { s with qss := { q with cSocketsCounter := q.cSocketsCounter - 1 } }
          (.unlockClosed 0))
  | .retest, .ok =>
      if q.lifecycleStatus ≤ 3 ∧ q.currentBusyWorkers = 0 ∧ q.workerCounter > q.minThreads then
        some ({ s with qss := { q with workerCounter := q.workerCounter - 1 } }.setWorker i
          ⟨.unlockTimeout 2, w.decrements + 1⟩)
      else some (goto s (.unlockTimeout 0))
  | .uncountWorker exitCode, .ok =>
      some ({ s with qss := { q with workerCounter := q.workerCounter - 1 } }.setWorker i
        ⟨.unlockExit exitCode (q.workerCounter - 1 = 0 ∧ q.lifecycleStatus ≥ 4), w.decrements + 1⟩)
  | .free exitCode, .ok => some (goto { s with cleared := s.cleared + 1 } (.exited exitCode))
  | .add cs (.create j), .ok =>
      if j < 1 then some (goto s (.add cs (.incr j))).createWorker
      else some (goto s (.add cs .unlock))
  | pc, env =>
      match pc.locked, pc.unlocked, env with
      | some pc', _, .ok =>
          if s.gSpinlock = none then some (goto { s with gSpinlock := some (.worker i) } pc')
          else none
      | _, some pc', .ok => some (goto { s with gSpinlock := none } pc')
      | _, _, env => (pc.next q env).map (goto s)

/-! ## The other threads -/

def startStep (s : Server) (env : Env) : Option Server :=
  let q := s.qss
  match s.starter, env with
  | .idle, .ok => some { s with starter := .lock }
  | .lock, .ok =>
      if s.gSpinlock = none then some { s with gSpinlock := some .starter, starter := .test }
      else none
  | .test, .ok =>
      if q.lifecycleStatus = 0 then
        some { s with qss := { q with lifecycleStatus := 1 }, starter := .unlock true }
      else some { s with starter := .unlock false }
  | .unlock ok, .ok =>
      some { s with gSpinlock := none, starter := if ok then .setUp else .returned 0 }
  -- the listening socket, the two epoll descriptors and the event of server_s
  | .setUp, .ok => some { s with listening := true, serverArmed := true, starter := .createSender }
  | .setUp, .fail => some { s with starter := .returned 0 }
  | .createSender, .ok => some { s with sender := .start, starter := .add .testMin }
  | .add .lock, .ok =>
      if s.gSpinlock = none then some { s with gSpinlock := some .starter, starter := .add .guard }
      else none
  | .add .unlock, .ok => some { s with gSpinlock := none, starter := .add .ret }
  | .add .ret, .ok => some { s with starter := .setRunning }
  | .add (.incr j), .ok =>
      some { s with
        qss := { q with workerCounter := q.workerCounter + 1 }
        starter := .add (.create (j + 1)) }
  | .add (.create j), .ok =>
      if j < q.minThreads then some { s with starter := .add (.incr j) }.createWorker
      else some { s with starter := .add .unlock }
  | .add pc, env => (pc.next q q.minThreads env).map fun pc => { s with starter := .add pc }
  | .setRunning, .ok =>
      some { s with qss := { q with lifecycleStatus := 2 }, starter := .returned 1 }
  | _, _ => none

def shutdownStep (s : Server) : Option Server :=
  let q := s.qss
  match s.closer with
  | .idle => some { s with closer := .lock }
  | .lock =>
      if s.gSpinlock = none then some { s with gSpinlock := some .closer, closer := .test }
      else none
  | .test =>
      if q.lifecycleStatus = 2 then
        some { s with qss := { q with lifecycleStatus := 3 }, closer := .unlock true }
      else some { s with closer := .unlock false }
  | .unlock ok =>
      some { s with gSpinlock := none, closer := if ok then .shutdownServer else .returned 0 }
  | .shutdownServer => some { s with listening := false, closer := .shutdownClients }
  | .shutdownClients => some { s with closer := .returned 1 }
  | .returned _ => none

/-- `epoll_wait` returns events, or -1. -/
def sendStep (s : Server) (env : Env) : Option Server :=
  match s.sender, env with
  | .start, .ok => some { s with sender := .wait }
  | .wait, .ok => some { s with sender := .waiting }
  | .waiting, .ok => some { s with sender := .signal }
  | .waiting, .fail => some { s with sender := .ended }
  | .signal, .ok => some { s with sender := .wait }
  | _, _ => none

inductive Act
  | worker (i : Nat) (env : Env)
  | start (env : Env)
  | shutdown
  | send (env : Env)

def step (s : Server) : Act → Option Server
  | .worker i env => s.workers[i]?.bind fun w => workerStep s i w env
  | .start env => startStep s env
  | .shutdown => shutdownStep s
  | .send env => sendStep s env

/-- `startSocketServer`, with no failure and no other thread in between -/
def startServer (minThreads : Nat) : List Act := List.replicate (13 + 2 * minThreads) (.start .ok)

def socketServer (minThreads maxThreads : Nat) : TransitionSystem Server Act where
  init := serverInit minThreads maxThreads
  step := step

/-! ## What a step can do -/

inductive AddRead (q : QSocketServer) (addCounter : Nat) : AddPc → AddPc → Prop
  | testMin : AddRead q addCounter .testMin
      (if q.workerCounter < q.minThreads then .lock else .testBusy)
  | testBusy : AddRead q addCounter .testBusy (.testEqual q.currentBusyWorkers)
  | testEqual {busy} : AddRead q addCounter (.testEqual busy)
      (if busy = q.workerCounter then .testMax else .ret)
  | testMax : AddRead q addCounter .testMax
      (if q.workerCounter < q.maxThreads then .lock else .ret)
  | room : q.workerCounter + addCounter ≤ q.maxThreads → AddRead q addCounter .guard (.create 0)
  | full : AddRead q addCounter .guard .unlock
  | mallocFail {i} : i < addCounter → AddRead q addCounter (.create i) (.create (i + 1))
  | done {i} : AddRead q addCounter (.create i) .unlock

theorem AddPc.next_cases {q : QSocketServer} {addCounter : Nat} {pc pc' : AddPc} {env : Env}
    (h : pc.next q addCounter env = some pc') : AddRead q addCounter pc pc' := by
  unfold AddPc.next at h
  split at h
  case h_5 =>
    split at h <;> cases h
    · exact .room ‹_›
    · exact .full
  case h_6 =>
    split at h <;> cases h
    exact .done
  case h_7 =>
    split at h <;> cases h
    exact .mallocFail ‹_›
  case h_8 => cases h
  all_goals
    cases h
    constructor

inductive WorkerRead (q : QSocketServer) : WorkerPc → Env → WorkerPc → Prop
  | timeout : WorkerRead q .poll .timeout .testLifecycle
  | pollFail : WorkerRead q .poll .fail (.lockExit 1)
  | setNonBlocking {cs} : WorkerRead q (.setNonBlocking cs) .ok (.setKeepAlive cs)
  | setKeepAlive {cs} : WorkerRead q (.setKeepAlive cs) .ok (.epollAdd cs)
  | setNonBlockingFail {cs} : WorkerRead q (.setNonBlocking cs) .fail .poll
  | setKeepAliveFail {cs} : WorkerRead q (.setKeepAlive cs) .fail .poll
  | epollAddFail {cs} : WorkerRead q (.epollAdd cs) .fail .poll
  | addRet {cs} : WorkerRead q (.add cs .ret) .ok (.handle cs)
  | add {cs env pc pc'} : AddRead q 1 pc pc' → WorkerRead q (.add cs pc) env (.add cs pc')
  | handle {cs handleCode} : WorkerRead q (.handle cs) (.code handleCode) (.lockIdle cs handleCode)
  | rearmFail {cs} : WorkerRead q (.rearm cs) .fail (.close cs)
  | testLifecycle : WorkerRead q .testLifecycle .ok
      (if q.lifecycleStatus ≤ 3 then .testIdle else .testExit)
  | testIdle : WorkerRead q .testIdle .ok
      (if q.currentBusyWorkers = 0 then .testSpare else .testExit)
  | testSpare : WorkerRead q .testSpare .ok
      (if q.workerCounter > q.minThreads then .lockTimeout else .testExit)
  | exit : 4 ≤ q.lifecycleStatus → WorkerRead q .testExit .ok (.lockExit 4)
  | noExit : WorkerRead q .testExit .ok .poll

theorem WorkerPc.next_cases {q : QSocketServer} {pc pc' : WorkerPc} {env : Env}
    (h : pc.next q env = some pc') : WorkerRead q pc env pc' := by
  unfold WorkerPc.next at h
  split at h
  case h_9 =>
    rw [Option.map_eq_some_iff] at h
    rcases h with ⟨pc', hpc, rfl⟩
    exact .add (AddPc.next_cases hpc)
  case h_15 =>
    split at h <;> cases h
    · exact .exit ‹_›
    · exact .noExit
  case h_16 => cases h
  all_goals
    cases h
    constructor

/-- The step of a worker, with the guards of each case. -/
inductive WorkerStep (s : Server) (i : Nat) (w : Worker) : Env → Server → Prop
  | read {env pc} : WorkerRead s.qss w.pc env pc →
      WorkerStep s i w env (s.setWorker i { w with pc := pc })
  | lock {pc} : w.pc.locked = some pc → s.gSpinlock = none →
      WorkerStep s i w .ok ({ s with gSpinlock := some (.worker i) }.setWorker i { w with pc := pc })
  | unlock {pc} : w.pc.unlocked = some pc →
      WorkerStep s i w .ok ({ s with gSpinlock := none }.setWorker i { w with pc := pc })
  | pollServer : w.pc = .poll → s.serverArmed = true →
      WorkerStep s i w .ok (s.setWorker i { w with pc := .accept })
  | pollClient {cs} : w.pc = .poll → s.armed cs = true →
      WorkerStep s i w (.fd cs) ({ s with armed := Function.update s.armed cs false }.setWorker i
        { w with pc := .lockBusy cs })
  | accept {cs} : w.pc = .accept → s.listening = true → cs ∉ s.openFds →
      WorkerStep s i w (.fd cs) ({ s with openFds := cs :: s.openFds }.setWorker i
        { w with pc := .setNonBlocking cs })
  | acceptFail : w.pc = .accept →
      WorkerStep s i w .fail ({ s with serverArmed := false }.setWorker i { w with pc := .poll })
  | epollAdd {cs} : w.pc = .epollAdd cs →
      WorkerStep s i w .ok ({ s with armed := Function.update s.armed cs true }.setWorker i
        { w with pc := .lockCount cs })
  | count {cs} : w.pc = .count cs →
      WorkerStep s i w .ok ({ s with qss := { s.qss with
        cSocketsCounter := s.qss.cSocketsCounter + 1 } }.setWorker i { w with pc := .unlockCount })
  | busy {cs} : w.pc = .busy cs →
      WorkerStep s i w .ok ({ s with qss := { s.qss with
        currentBusyWorkers := s.qss.currentBusyWorkers + 1 } }.setWorker i
          { w with pc := .unlockBusy cs })
  | create {cs j} : w.pc = .add cs (.create j) → j < 1 →
      WorkerStep s i w .ok (s.setWorker i { w with pc := .add cs (.incr j) }).createWorker
  | incr {cs j} : w.pc = .add cs (.incr j) →
      WorkerStep s i w .ok ({ s with qss := { s.qss with
        workerCounter := s.qss.workerCounter + 1 } }.setWorker i
          { w with pc := .add cs (.create (j + 1)) })
  | idle {cs handleCode} : w.pc = .idle cs handleCode →
      WorkerStep s i w .ok ({ s with qss := { s.qss with
        currentBusyWorkers := s.qss.currentBusyWorkers - 1 } }.setWorker i
          { w with pc := .unlockIdle cs handleCode })
  | rearm {cs} : w.pc = .rearm cs →
      WorkerStep s i w .ok ({ s with armed := Function.update s.armed cs true }.setWorker i
        { w with pc := .poll })
  | close {cs} : w.pc = .close cs →
      WorkerStep s i w .ok ({ s with openFds := s.openFds.erase cs }.setWorker i
        { w with pc := .lockClosed })
  | uncountLast : w.pc = .uncount → s.qss.cSocketsCounter - 1 = 0 → 3 ≤ s.qss.lifecycleStatus →
      WorkerStep s i w .ok ({ s with qss := { s.qss with
        cSocketsCounter := s.qss.cSocketsCounter - 1
        lifecycleStatus := 4 } }.setWorker i { w with pc := .unlockClosed 3 })
  | uncount : w.pc = .uncount →
      ¬ (s.qss.cSocketsCounter - 1 = 0 ∧ 3 ≤ s.qss.lifecycleStatus) →
      WorkerStep s i w .ok ({ s with qss := { s.qss with
        cSocketsCounter := s.qss.cSocketsCounter - 1 } }.setWorker i { w with pc := .unlockClosed 0 })
  | leave : w.pc = .retest → s.qss.lifecycleStatus ≤ 3 → s.qss.currentBusyWorkers = 0 →
      s.qss.minThreads < s.qss.workerCounter →
      WorkerStep s i w .ok ({ s with qss := { s.qss with
        workerCounter := s.qss.workerCounter - 1 } }.setWorker i
          ⟨.unlockTimeout 2, w.decrements + 1⟩)
  | stay : w.pc = .retest →
      WorkerStep s i w .ok (s.setWorker i { w with pc := .unlockTimeout 0 })
  | uncountWorker {exitCode} : w.pc = .uncountWorker exitCode →
      WorkerStep s i w .ok ({ s with qss := { s.qss with
        workerCounter := s.qss.workerCounter - 1 } }.setWorker i
          ⟨.unlockExit exitCode (s.qss.workerCounter - 1 = 0 ∧ 4 ≤ s.qss.lifecycleStatus),
            w.decrements + 1⟩)
  | free {exitCode} : w.pc = .free exitCode →
      WorkerStep s i w .ok ({ s with cleared := s.cleared + 1 }.setWorker i
        { w with pc := .exited exitCode })

theorem workerStep_cases {s s' : Server} {i : Nat} {w : Worker} {env : Env}
    (hs : workerStep s i w env = some s') : WorkerStep s i w env s' := by
  unfold workerStep at hs
  dsimp only at hs
  split at hs
  case h_1 _ _ hpc =>
    split at hs <;> cases hs
    exact .pollServer hpc ‹_›
  case h_2 _ _ cs hpc =>
    split at hs <;> cases hs
    exact .pollClient hpc ‹_›
  case h_3 _ _ cs hpc =>
    split at hs <;> cases hs
    rename_i h
    exact .accept hpc h.1 h.2
  case h_4 _ _ hpc =>
    cases hs
    exact .acceptFail hpc
  case h_5 _ _ cs hpc =>
    cases hs
    exact .epollAdd hpc
  case h_6 _ _ cs hpc =>
    cases hs
    exact .count hpc
  case h_7 _ _ cs hpc =>
    cases hs
    exact .busy hpc
  case h_8 _ _ cs j hpc =>
    cases hs
    exact .incr hpc
  case h_9 _ _ cs handleCode hpc =>
    cases hs
    exact .idle hpc
  case h_10 _ _ cs hpc =>
    cases hs
    exact .rearm hpc
  case h_11 _ _ cs hpc =>
    cases hs
    exact .close hpc
  case h_12 _ _ hpc =>
    split at hs <;> cases hs <;> rename_i h
    · exact .uncountLast hpc h.1 h.2
    · exact .uncount hpc h
  case h_13 _ _ hpc =>
    split at hs <;> cases hs <;> rename_i h
    · exact .leave hpc h.1 h.2.1 h.2.2
    · exact .stay hpc
  case h_14 _ _ exitCode hpc =>
    cases hs
    exact .uncountWorker hpc
  case h_15 _ _ exitCode hpc =>
    cases hs
    exact .free hpc
  case h_16 _ _ cs j hpc =>
    split at hs <;> cases hs <;> rename_i hj
    · exact .create hpc hj
    · apply WorkerStep.read
      rw [hpc]
      exact .add .done
  case h_17 =>
    split at hs
    · split at hs <;> cases hs
      exact .lock ‹w.pc.locked = some _› ‹_›
    · cases hs
      exact .unlock ‹w.pc.unlocked = some _›
    · rw [Option.map_eq_some_iff] at hs
      rcases hs with ⟨pc, hpc, rfl⟩
      exact .read (WorkerPc.next_cases hpc)

inductive StartStep (s : Server) : Env → Server → Prop
  | call : s.starter = .idle → StartStep s .ok { s with starter := .lock }
  | lock : s.starter = .lock → s.gSpinlock = none →
      StartStep s .ok { s with gSpinlock := some .starter, starter := .test }
  | testCreated : s.starter = .test → s.qss.lifecycleStatus = 0 →
      StartStep s .ok { s with
        qss := { s.qss with lifecycleStatus := 1 }
        starter := .unlock true }
  | testStarted : s.starter = .test → s.qss.lifecycleStatus ≠ 0 →
      StartStep s .ok { s with starter := .unlock false }
  | unlock {ok} : s.starter = .unlock ok →
      StartStep s .ok { s with
        gSpinlock := none
        starter := if ok then .setUp else .returned 0 }
  | setUp : s.starter = .setUp →
      StartStep s .ok { s with listening := true, serverArmed := true, starter := .createSender }
  | setUpFail : s.starter = .setUp → StartStep s .fail { s with starter := .returned 0 }
  | createSender : s.starter = .createSender →
      StartStep s .ok { s with sender := .start, starter := .add .testMin }
  | addLock : s.starter = .add .lock → s.gSpinlock = none →
      StartStep s .ok { s with gSpinlock := some .starter, starter := .add .guard }
  | addUnlock : s.starter = .add .unlock →
      StartStep s .ok { s with gSpinlock := none, starter := .add .ret }
  | addRet : s.starter = .add .ret → StartStep s .ok { s with starter := .setRunning }
  | incr {j} : s.starter = .add (.incr j) →
      StartStep s .ok { s with
        qss := { s.qss with workerCounter := s.qss.workerCounter + 1 }
        starter := .add (.create (j + 1)) }
  | create {j} : s.starter = .add (.create j) → j < s.qss.minThreads →
      StartStep s .ok { s with starter := .add (.incr j) }.createWorker
  | addRead {env pc pc'} : s.starter = .add pc → AddRead s.qss s.qss.minThreads pc pc' →
      StartStep s env { s with starter := .add pc' }
  | setRunning : s.starter = .setRunning →
      StartStep s .ok { s with qss := { s.qss with lifecycleStatus := 2 }, starter := .returned 1 }

theorem startStep_cases {s s' : Server} {env : Env} (hs : startStep s env = some s') :
    StartStep s env s' := by
  unfold startStep at hs
  dsimp only at hs
  split at hs
  case h_1 _ _ hpc =>
    cases hs
    exact .call hpc
  case h_2 _ _ hpc =>
    split at hs <;> cases hs
    exact .lock hpc ‹_›
  case h_3 _ _ hpc =>
    split at hs <;> cases hs
    · exact .testCreated hpc ‹_›
    · exact .testStarted hpc ‹_›
  case h_4 _ _ ok hpc =>
    cases hs
    exact .unlock hpc
  case h_5 _ _ hpc =>
    cases hs
    exact .setUp hpc
  case h_6 _ _ hpc =>
    cases hs
    exact .setUpFail hpc
  case h_7 _ _ hpc =>
    cases hs
    exact .createSender hpc
  case h_8 _ _ hpc =>
    split at hs <;> cases hs
    exact .addLock hpc ‹_›
  case h_9 _ _ hpc =>
    cases hs
    exact .addUnlock hpc
  case h_10 _ _ hpc =>
    cases hs
    exact .addRet hpc
  case h_11 _ _ j hpc =>
    cases hs
    exact .incr hpc
  case h_12 _ _ j hpc =>
    split at hs <;> cases hs <;> rename_i hj
    · exact .create hpc hj
    · exact .addRead hpc .done
  case h_13 _ pc hpc _ _ _ _ _ =>
    rw [Option.map_eq_some_iff] at hs
    rcases hs with ⟨pc', hpc', rfl⟩
    exact .addRead hpc (AddPc.next_cases hpc')
  case h_14 _ _ hpc =>
    cases hs
    exact .setRunning hpc
  case h_15 => cases hs

inductive ShutdownStep (s : Server) : Server → Prop
  | call : s.closer = .idle → ShutdownStep s { s with closer := .lock }
  | lock : s.closer = .lock → s.gSpinlock = none →
      ShutdownStep s { s with gSpinlock := some .closer, closer := .test }
  | testRunning : s.closer = .test → s.qss.lifecycleStatus = 2 →
      ShutdownStep s { s with
        qss := { s.qss with lifecycleStatus := 3 }
        closer := .unlock true }
  | testOther : s.closer = .test → s.qss.lifecycleStatus ≠ 2 →
      ShutdownStep s { s with closer := .unlock false }
  | unlock {ok} : s.closer = .unlock ok →
      ShutdownStep s { s with
        gSpinlock := none
        closer := if ok then .shutdownServer else .returned 0 }
  | shutdownServer : s.closer = .shutdownServer →
      ShutdownStep s { s with listening := false, closer := .shutdownClients }
  | shutdownClients : s.closer = .shutdownClients → ShutdownStep s { s with closer := .returned 1 }

theorem shutdownStep_cases {s s' : Server} (hs : shutdownStep s = some s') : ShutdownStep s s' := by
  unfold shutdownStep at hs
  dsimp only at hs
  split at hs
  case h_1 hpc =>
    cases hs
    exact .call hpc
  case h_2 hpc =>
    split at hs <;> cases hs
    exact .lock hpc ‹_›
  case h_3 hpc =>
    split at hs <;> cases hs
    · exact .testRunning hpc ‹_›
    · exact .testOther hpc ‹_›
  case h_4 ok hpc =>
    cases hs
    exact .unlock hpc
  case h_5 hpc =>
    cases hs
    exact .shutdownServer hpc
  case h_6 hpc =>
    cases hs
    exact .shutdownClients hpc
  case h_7 => cases hs

/-- The thread of the blocking senders changes its own place only. -/
theorem sendStep_eq {s s' : Server} {env : Env} (hs : sendStep s env = some s') :
    s' = { s with sender := s'.sender } := by
  unfold sendStep at hs
  split at hs <;> cases hs <;> rfl

inductive Step (s : Server) : Act → Server → Prop
  | worker {i w env s'} : s.workers[i]? = some w → WorkerStep s i w env s' →
      Step s (.worker i env) s'
  | start {env s'} : StartStep s env s' → Step s (.start env) s'
  | shutdown {s'} : ShutdownStep s s' → Step s .shutdown s'
  | send {env s'} : sendStep s env = some s' → Step s (.send env) s'

theorem step_cases {s s' : Server} {a : Act} (hs : step s a = some s') : Step s a s' := by
  cases a with
  | worker i env =>
    rw [step, Option.bind_eq_some_iff] at hs
    rcases hs with ⟨w, hw, hs⟩
    exact .worker hw (workerStep_cases hs)
  | start env => exact .start (startStep_cases hs)
  | shutdown => exact .shutdown (shutdownStep_cases hs)
  | send env => exact .send hs

end CcPof.SocketServer

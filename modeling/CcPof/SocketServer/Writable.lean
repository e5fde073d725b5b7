import CcPof.SocketServer.BlockingSender
import Mathlib.Data.List.Nodup
import Mathlib.Logic.Function.Basic

/-!
# The wait for a writable socket

`internalBlockingSender` on any number of connections beside the thread of
`blockingSendEpollerRoutine`. Behind an `EAGAIN` a worker arms its event in `BSendEpollFD` and waits
on `writableMonitor`; the epoller signals it, and both take the `writableLock` of the event for it.
One worker at a time serves a connection, so a connection is one thread here.
-/

namespace CcPof.Writable

open BlockingSender (Conn Label)

variable {ι : Type} {i : ι}

/-! ## 1. The worker of a connection -/

inductive Holder
  | worker
  | epoller
  deriving DecidableEq, Repr

/-- How far the worker is in the block `wait writable`; `relock` is the end of
`pthread_cond_timedwait`. At `unlock` the answer is `flag`. -/
inductive Place
  | outside
  | lock
  | ctl
  | wait
  | waiting
  | relock (ok : Bool)
  | unlock (ok : Bool)
  /-- behind the `EPOLL_CTL_DEL` of the end of the connection -/
  | closing
  | freed
  deriving DecidableEq, Repr

/-- The event of a connection and the variables of the call on it. Of the kernel, `armed` is whether
`BSendEpollFD` may report the event; `EPOLLONESHOT` lets it do so once. -/
structure QSSEPollEvent where
  conn : Conn
  place : Place
  writableLock : Option Holder
  armed : Bool

def registered : QSSEPollEvent where
  conn := BlockingSender.registered
  place := .outside
  writableLock := none
  armed := false

inductive WorkerAct
  | send (label : Label)
  | lock
  | ctl (ok : Bool)
  | wait
  | timeout
  /-- a wake-up without a signal -/
  | spurious
  | relock
  | unlock
  | del
  | free

def callOver (conn : Conn) : Bool :=
  match conn.pc with
  | .idle | .returned _ => true
  | _ => false

/-- On in the loops: behind `EAGAIN` comes the block. -/
def QSSEPollEvent.goOn (e : QSSEPollEvent) (conn : Conn) : QSSEPollEvent :=
  { e with conn := conn, place := if conn.pc = .epollCtl then .lock else .outside }

def QSSEPollEvent.step (e : QSSEPollEvent) : WorkerAct → Option QSSEPollEvent
  | .send label =>
      if e.place = .outside then (BlockingSender.step e.conn label).map e.goOn else none
  | .lock =>
      if e.place = .lock ∧ e.writableLock = none then
        some { e with place := .ctl, writableLock := some .worker }
      else none
  | .ctl ok =>
      if e.place = .ctl then
        if ok = true then
          (BlockingSender.step e.conn .ok).map fun conn =>
            { e with conn := conn, place := .wait, armed := true }
        else some { e with place := .unlock false }
      else none
  -- The wait gives the lock back and begins in one.
  | .wait =>
      if e.place = .wait then some { e with place := .waiting, writableLock := none } else none
  | .timeout => if e.place = .waiting then some { e with place := .relock false } else none
  | .spurious => if e.place = .waiting then some { e with place := .relock true } else none
  | .relock =>
      match e.place with
      | .relock ok =>
          if e.writableLock = none then
            some { e with place := .unlock ok, writableLock := some .worker }
          else none
      | _ => none
  | .unlock =>
      match e.place with
      | .unlock ok =>
          (BlockingSender.step e.conn (if ok = true then .ok else .fail)).map fun conn =>
            { e.goOn conn with writableLock := none }
      | _ => none
  -- `SOErrOccurred`: the handler has given up the connection, or the client has.
  | .del =>
      if e.place = .outside ∧ callOver e.conn = true then
        some { e with place := .closing, armed := false }
      else none
  | .free => if e.place = .closing then some { e with place := .freed } else none

/-! ## 2. The epoller -/

/-- One of `epEvents`: its pointer, and whether `EPOLLOUT` is among its flags. An error or a hang-up
is reported without it. -/
structure EpollEvent (ι : Type) where
  ptr : ι
  out : Bool
  deriving DecidableEq, Repr

inductive EpollerPc (ι : Type)
  | poll
  | lock (ptr : ι) (rest : List (EpollEvent ι))
  | signal (ptr : ι) (rest : List (EpollEvent ι))
  | unlock (ptr : ι) (rest : List (EpollEvent ι))
  | ended
  /-- It has touched a lock or a monitor that is not there. -/
  | fault (ptr : ι)
  deriving DecidableEq, Repr

def forLoop : List (EpollEvent ι) → EpollerPc ι
  | [] => .poll
  | ev :: rest => if ev.out = true then .lock ev.ptr rest else forLoop rest

def writables (events : List (EpollEvent ι)) : List ι := (events.filter (·.out)).map (·.ptr)

/-- The events that the epoller still signals, from those that it has been given -/
def EpollerPc.pending : EpollerPc ι → List ι
  | lock ptr rest | signal ptr rest => ptr :: writables rest
  | unlock _ rest => writables rest
  | _ => []

theorem pending_forLoop (events : List (EpollEvent ι)) :
    (forLoop events).pending = writables events := by
  induction events with
  | nil => rfl
  | cons ev rest ih =>
    unfold forLoop writables
    by_cases hout : ev.out = true
    · rw [if_pos hout, List.filter_cons_of_pos hout]
      rfl
    · rw [if_neg hout, List.filter_cons_of_neg hout]
      exact ih

theorem mem_writables {events : List (EpollEvent ι)} (hi : i ∈ events.map (·.ptr))
    (hout : (⟨i, false⟩ : EpollEvent ι) ∉ events) : i ∈ writables events := by
  obtain ⟨⟨ptr, out⟩, hev, rfl⟩ := List.mem_map.mp hi
  cases out with
  | true => exact List.mem_map.mpr ⟨_, List.mem_filter.mpr ⟨hev, rfl⟩, rfl⟩
  | false => exact absurd hev hout

theorem nodup_writables {events : List (EpollEvent ι)} (h : (events.map (·.ptr)).Nodup) :
    (writables events).Nodup :=
  h.sublist (List.filter_sublist.map _)

theorem mem_of_writables {events : List (EpollEvent ι)} (h : i ∈ writables events) :
    i ∈ events.map (·.ptr) :=
  (List.filter_sublist.map _).subset h

theorem forLoop_cases (events : List (EpollEvent ι)) :
    forLoop events = .poll ∨ ∃ ptr rest, forLoop events = .lock ptr rest := by
  induction events with
  | nil => exact .inl rfl
  | cons ev rest ih =>
    unfold forLoop
    split
    · exact .inr ⟨ev.ptr, rest, rfl⟩
    · exact ih

theorem forLoop_ne (events : List (EpollEvent ι)) (i : ι) :
    (∀ rest, forLoop events ≠ .unlock i rest) ∧ forLoop events ≠ .fault i := by
  rcases forLoop_cases events with hpoll | ⟨ptr, rest, hlock⟩
  · rw [hpoll]
    exact ⟨nofun, nofun⟩
  · rw [hlock]
    exact ⟨nofun, nofun⟩

inductive EpollerAct (ι : Type)
  | report (events : List (EpollEvent ι))
  | fail
  | run

structure Threads (ι : Type) where
  event : ι → QSSEPollEvent
  epoller : EpollerPc ι

variable [DecidableEq ι] {s s' : Threads ι}

def Threads.setEvent (s : Threads ι) (i : ι) (e : QSSEPollEvent) : Threads ι :=
  { s with event := Function.update s.event i e }

/-- `writableLock` and `writableMonitor` have been initialised and not destroyed. -/
def QSSEPollEvent.live (e : QSSEPollEvent) : Bool :=
  e.conn.bSendEpollFDRelated && decide (e.place ≠ .freed)

/-- `pthread_cond_signal` wakes the worker if it is waiting. -/
def QSSEPollEvent.signal (e : QSSEPollEvent) : QSSEPollEvent :=
  if e.place = .waiting then { e with place := .relock true } else e

def Threads.report (s : Threads ι) (events : List (EpollEvent ι)) : Threads ι where
  event := fun i =>
    if i ∈ events.map (·.ptr) then { s.event i with armed := false } else s.event i
  epoller := forLoop events

def epollerStep (maxThreads : Nat) (s : Threads ι) (a : EpollerAct ι) : Option (Threads ι) :=
  match s.epoller, a with
  | .poll, .report events =>
      if events ≠ [] ∧ events.length ≤ maxThreads ∧ (events.map (·.ptr)).Nodup ∧
          ∀ ev ∈ events, (s.event ev.ptr).armed = true then
        some (s.report events)
      else none
  | .poll, .fail => some { s with epoller := .ended }
  | .lock ptr rest, .run =>
      if (s.event ptr).live = true then
        if (s.event ptr).writableLock = none then
          some { s.setEvent ptr { s.event ptr with writableLock := some .epoller } with
            epoller := .signal ptr rest }
        else none
      else some { s with epoller := .fault ptr }
  | .signal ptr rest, .run =>
      if (s.event ptr).live = true then
        some { s.setEvent ptr (s.event ptr).signal with epoller := .unlock ptr rest }
      else some { s with epoller := .fault ptr }
  | .unlock ptr rest, .run =>
      if (s.event ptr).live = true then
        some { s.setEvent ptr { s.event ptr with writableLock := none } with
          epoller := forLoop rest }
      else some { s with epoller := .fault ptr }
  | _, _ => none

inductive Act (ι : Type)
  | worker (i : ι) (a : WorkerAct)
  | epoller (a : EpollerAct ι)

def step (maxThreads : Nat) (s : Threads ι) : Act ι → Option (Threads ι)
  | .worker i a => ((s.event i).step a).map (s.setEvent i)
  | .epoller a => epollerStep maxThreads s a

def threadsInit : Threads ι where
  event := fun _ => registered
  epoller := .poll

def blockingSenders (ι : Type) [DecidableEq ι] (maxThreads : Nat) :
    TransitionSystem (Threads ι) (Act ι) where
  init := threadsInit
  step := step maxThreads

/-! ## 3. What a step can do -/

variable {maxThreads : Nat} {e e' : QSSEPollEvent} {conn : Conn}

inductive EventStep (e : QSSEPollEvent) : WorkerAct → QSSEPollEvent → Prop
  | send {label : Label} {conn : Conn} : e.place = .outside →
      BlockingSender.step e.conn label = some conn → EventStep e (.send label) (e.goOn conn)
  | lock : e.place = .lock → e.writableLock = none →
      EventStep e .lock { e with place := .ctl, writableLock := some .worker }
  | armed {conn : Conn} : e.place = .ctl → BlockingSender.step e.conn .ok = some conn →
      EventStep e (.ctl true) { e with conn := conn, place := .wait, armed := true }
  | ctlFail : e.place = .ctl → EventStep e (.ctl false) { e with place := .unlock false }
  | wait : e.place = .wait →
      EventStep e .wait { e with place := .waiting, writableLock := none }
  | timeout : e.place = .waiting → EventStep e .timeout { e with place := .relock false }
  | spurious : e.place = .waiting → EventStep e .spurious { e with place := .relock true }
  | relock {ok : Bool} : e.place = .relock ok → e.writableLock = none →
      EventStep e .relock { e with place := .unlock ok, writableLock := some .worker }
  | unlock {ok : Bool} {conn : Conn} : e.place = .unlock ok →
      BlockingSender.step e.conn (if ok = true then .ok else .fail) = some conn →
      EventStep e .unlock { e.goOn conn with writableLock := none }
  | del : e.place = .outside → callOver e.conn = true →
      EventStep e .del { e with place := .closing, armed := false }
  | free : e.place = .closing → EventStep e .free { e with place := .freed }

theorem eventStep {a : WorkerAct} (hs : e.step a = some e') : EventStep e a e' := by
  cases a with
  | send label =>
    simp only [QSSEPollEvent.step] at hs
    split at hs
    · obtain ⟨conn, hconn, rfl⟩ := Option.map_eq_some_iff.mp hs
      exact .send ‹_› hconn
    · cases hs
  | lock =>
    simp only [QSSEPollEvent.step] at hs
    split at hs <;> cases hs
    rename_i hguard
    exact .lock hguard.1 hguard.2
  | ctl ok =>
    cases ok with
    | true =>
      simp only [QSSEPollEvent.step, if_true] at hs
      split at hs
      · obtain ⟨conn, hconn, rfl⟩ := Option.map_eq_some_iff.mp hs
        exact .armed ‹_› hconn
      · cases hs
    | false =>
      simp only [QSSEPollEvent.step] at hs
      split at hs <;> cases hs
      exact .ctlFail ‹_›
  | wait | timeout | spurious | free =>
    simp only [QSSEPollEvent.step] at hs
    split at hs <;> cases hs
    constructor
    assumption
  | relock =>
    simp only [QSSEPollEvent.step] at hs
    split at hs
    · split at hs <;> cases hs
      exact .relock ‹_› ‹_›
    · cases hs
  | unlock =>
    simp only [QSSEPollEvent.step] at hs
    split at hs
    · obtain ⟨conn, hconn, rfl⟩ := Option.map_eq_some_iff.mp hs
      exact .unlock ‹_› hconn
    · cases hs
  | del =>
    simp only [QSSEPollEvent.step] at hs
    split at hs <;> cases hs
    rename_i hguard
    exact .del hguard.1 hguard.2

inductive EpollerStep (maxThreads : Nat) (s : Threads ι) : EpollerAct ι → Threads ι → Prop
  | report {events : List (EpollEvent ι)} : s.epoller = .poll → events.length ≤ maxThreads →
      (events.map (·.ptr)).Nodup → (∀ ev ∈ events, (s.event ev.ptr).armed = true) →
      EpollerStep maxThreads s (.report events) (s.report events)
  | fail : s.epoller = .poll → EpollerStep maxThreads s .fail { s with epoller := .ended }
  | lock {ptr : ι} {rest : List (EpollEvent ι)} : s.epoller = .lock ptr rest →
      (s.event ptr).live = true → (s.event ptr).writableLock = none →
      EpollerStep maxThreads s .run
        { s.setEvent ptr { s.event ptr with writableLock := some .epoller } with
          epoller := .signal ptr rest }
  | signal {ptr : ι} {rest : List (EpollEvent ι)} : s.epoller = .signal ptr rest →
      (s.event ptr).live = true →
      EpollerStep maxThreads s .run
        { s.setEvent ptr (s.event ptr).signal with epoller := .unlock ptr rest }
  | unlock {ptr : ι} {rest : List (EpollEvent ι)} : s.epoller = .unlock ptr rest →
      (s.event ptr).live = true →
      EpollerStep maxThreads s .run
        { s.setEvent ptr { s.event ptr with writableLock := none } with epoller := forLoop rest }
  | fault {ptr : ι} {rest : List (EpollEvent ι)} : (s.epoller = .lock ptr rest ∨
      s.epoller = .signal ptr rest ∨ s.epoller = .unlock ptr rest) → (s.event ptr).live = false →
      EpollerStep maxThreads s .run { s with epoller := .fault ptr }

theorem epollerStep_cases {a : EpollerAct ι} (hs : epollerStep maxThreads s a = some s') :
    EpollerStep maxThreads s a s' := by
  unfold epollerStep at hs
  split at hs
  case h_1 hpc =>
    split at hs <;> cases hs
    rename_i hguard
    exact .report hpc hguard.2.1 hguard.2.2.1 hguard.2.2.2
  case h_2 hpc =>
    cases hs
    exact .fail hpc
  case h_3 hpc =>
    split at hs
    · split at hs <;> cases hs
      exact .lock hpc ‹_› ‹_›
    · cases hs
      exact .fault (.inl hpc) (Bool.eq_false_iff.mpr ‹_›)
  case h_4 hpc =>
    split at hs <;> cases hs
    · exact .signal hpc ‹_›
    · exact .fault (.inr (.inl hpc)) (Bool.eq_false_iff.mpr ‹_›)
  case h_5 hpc =>
    split at hs <;> cases hs
    · exact .unlock hpc ‹_›
    · exact .fault (.inr (.inr hpc)) (Bool.eq_false_iff.mpr ‹_›)
  case h_6 => cases hs

inductive Step (maxThreads : Nat) (s : Threads ι) : Act ι → Threads ι → Prop
  | worker {i : ι} {a : WorkerAct} {e : QSSEPollEvent} : EventStep (s.event i) a e →
      Step maxThreads s (.worker i a) (s.setEvent i e)
  | epoller {a : EpollerAct ι} {s' : Threads ι} : EpollerStep maxThreads s a s' →
      Step maxThreads s (.epoller a) s'

theorem step_cases {a : Act ι} (hs : step maxThreads s a = some s') : Step maxThreads s a s' := by
  cases a with
  | worker i a =>
    obtain ⟨e, he, rfl⟩ := Option.map_eq_some_iff.mp hs
    exact .worker (eventStep he)
  | epoller a => exact .epoller (epollerStep_cases hs)

/-! What a step does as seen from one connection: to its event, and to the epoller. -/

inductive Seen (i : ι) (e : QSSEPollEvent) (pc : EpollerPc ι) :
    Act ι → QSSEPollEvent → EpollerPc ι → Prop
  | worker {a : WorkerAct} {e' : QSSEPollEvent} : EventStep e a e' → Seen i e pc (.worker i a) e' pc
  | other {j : ι} {a : WorkerAct} : j ≠ i → Seen i e pc (.worker j a) e pc
  | report {events : List (EpollEvent ι)} : pc = .poll → (events.map (·.ptr)).Nodup →
      i ∈ events.map (·.ptr) → e.armed = true →
      Seen i e pc (.epoller (.report events)) { e with armed := false } (forLoop events)
  | reportOther {events : List (EpollEvent ι)} : pc = .poll → (events.map (·.ptr)).Nodup →
      i ∉ events.map (·.ptr) → Seen i e pc (.epoller (.report events)) e (forLoop events)
  | fail : pc = .poll → Seen i e pc (.epoller .fail) e .ended
  | lock {rest : List (EpollEvent ι)} : pc = .lock i rest → e.writableLock = none →
      Seen i e pc (.epoller .run) { e with writableLock := some .epoller } (.signal i rest)
  | lockOther {ptr : ι} {rest : List (EpollEvent ι)} : pc = .lock ptr rest → i ≠ ptr →
      Seen i e pc (.epoller .run) e (.signal ptr rest)
  | signal {rest : List (EpollEvent ι)} : pc = .signal i rest →
      Seen i e pc (.epoller .run) e.signal (.unlock i rest)
  | signalOther {ptr : ι} {rest : List (EpollEvent ι)} : pc = .signal ptr rest → i ≠ ptr →
      Seen i e pc (.epoller .run) e (.unlock ptr rest)
  | unlock {rest : List (EpollEvent ι)} : pc = .unlock i rest →
      Seen i e pc (.epoller .run) { e with writableLock := none } (forLoop rest)
  | unlockOther {ptr : ι} {rest : List (EpollEvent ι)} : pc = .unlock ptr rest → i ≠ ptr →
      Seen i e pc (.epoller .run) e (forLoop rest)
  | fault {ptr : ι} {rest : List (EpollEvent ι)} :
      (pc = .lock ptr rest ∨ pc = .signal ptr rest ∨ pc = .unlock ptr rest) →
      (ptr = i → e.live = false) → Seen i e pc (.epoller .run) e (.fault ptr)

theorem seen_setEvent {a : Act ι} {ptr : ι} {pc : EpollerPc ι}
    (hself : i = ptr → Seen i (s.event i) s.epoller a e pc)
    (hne : i ≠ ptr → Seen i (s.event i) s.epoller a (s.event i) pc) :
    Seen i (s.event i) s.epoller a ((s.setEvent ptr e).event i) pc := by
  show Seen i _ _ a (Function.update s.event ptr e i) pc
  rw [Function.update_apply]
  split
  · exact hself ‹_›
  · exact hne ‹_›

theorem Step.seen {a : Act ι} (hs : Step maxThreads s a s') (i : ι) :
    Seen i (s.event i) s.epoller a (s'.event i) s'.epoller := by
  cases hs with
  | @worker j a e he =>
    refine seen_setEvent ?_ ?_
    · rintro rfl
      exact .worker he
    · intro hne
      exact .other hne.symm
  | epoller hs =>
    cases hs with
    | @report events hpc _ hnodup harmed =>
      by_cases hi : i ∈ events.map (·.ptr)
      · rw [show (s.report events).event i = { s.event i with armed := false } from if_pos hi]
        obtain ⟨ev, hev, rfl⟩ := List.mem_map.mp hi
        exact .report hpc hnodup hi (harmed ev hev)
      · rw [show (s.report events).event i = s.event i from if_neg hi]
        exact .reportOther hpc hnodup hi
    | fail hpc => exact .fail hpc
    | lock hpc _ hfree =>
      refine seen_setEvent ?_ ?_
      · rintro rfl
        exact .lock hpc hfree
      · exact fun hne => .lockOther hpc hne
    | signal hpc _ =>
      refine seen_setEvent ?_ ?_
      · rintro rfl
        exact .signal hpc
      · exact fun hne => .signalOther hpc hne
    | unlock hpc _ =>
      refine seen_setEvent ?_ ?_
      · rintro rfl
        exact .unlock hpc
      · exact fun hne => .unlockOther hpc hne
    | fault hpc hlive => exact .fault hpc (fun heq => heq ▸ hlive)

/-! ## 4. The lock of an event -/

variable {pc pc' : EpollerPc ι} {a : Act ι}

def Place.holds : Place → Bool
  | ctl | wait | unlock _ => true
  | _ => false

/-- The epoller has the lock of the event `i`. -/
def EpollerPc.holds (i : ι) : EpollerPc ι → Bool
  | signal ptr _ | unlock ptr _ => decide (ptr = i)
  | _ => false

def EpollerPc.faulted : EpollerPc ι → Bool
  | fault _ => true
  | _ => false

/-- Who has the lock of the event. An epoller that has faulted may have left it. -/
structure Excl (i : ι) (e : QSSEPollEvent) (pc : EpollerPc ι) : Prop where
  worker : e.writableLock = some .worker ↔ e.place.holds = true
  epoller : pc.holds i = true → e.writableLock = some .epoller
  left : e.writableLock = some .epoller → pc.holds i = true ∨ pc.faulted = true

theorem excl_init (i : ι) : Excl i registered .poll :=
  ⟨iff_of_false nofun nofun, nofun, nofun⟩

theorem holds_goOn (e : QSSEPollEvent) (conn : Conn) : (e.goOn conn).place.holds = false := by
  show (ite (conn.pc = .epollCtl) Place.lock Place.outside).holds = false
  split <;> rfl

theorem holds_forLoop (i : ι) (events : List (EpollEvent ι)) :
    (forLoop events).holds i = false := by
  rcases forLoop_cases events with hpoll | ⟨ptr, rest, hlock⟩
  · rw [hpoll]
    rfl
  · rw [hlock]
    rfl

theorem Excl.not_worker (h : Excl i e pc) (hplace : e.place.holds = false) :
    e.writableLock ≠ some .worker := by
  intro hlock
  rw [h.worker.mp hlock] at hplace
  cases hplace

theorem Excl.not_epoller (h : Excl i e pc) (hplace : e.place.holds = true) :
    pc.holds i = false := by
  rw [Bool.eq_false_iff]
  intro hheld
  have hlock := h.worker.mpr hplace
  rw [h.epoller hheld] at hlock
  cases hlock

/-- The worker does not take the lock from the epoller. -/
theorem EventStep.excl {a : WorkerAct} (hs : EventStep e a e') (h : Excl i e pc) :
    Excl i e' pc := by
  cases hs with
  | @send _ conn hplace _ =>
    refine ⟨iff_of_false (h.not_worker (by rw [hplace]; rfl)) ?_, h.epoller, h.left⟩
    rw [holds_goOn]
    nofun
  | lock _ hfree | relock _ hfree =>
    -- The lock was free, so the epoller is elsewhere.
    refine ⟨iff_of_true rfl rfl, fun hheld => ?_, nofun⟩
    rw [h.epoller hheld] at hfree
    cases hfree
  | armed hplace | ctlFail hplace =>
    exact ⟨iff_of_true (h.worker.mpr (by rw [hplace]; rfl)) rfl, h.epoller, h.left⟩
  | wait hplace =>
    have hnone := h.not_epoller (by rw [hplace]; rfl)
    exact ⟨iff_of_false nofun nofun, fun hheld => absurd hheld (by rw [hnone]; nofun), nofun⟩
  | @unlock _ conn hplace _ =>
    have hnone := h.not_epoller (by rw [hplace]; rfl)
    refine ⟨iff_of_false nofun ?_, fun hheld => absurd hheld (by rw [hnone]; nofun), nofun⟩
    rw [show Place.holds _ = _ from holds_goOn e conn]
    nofun
  | timeout hplace | spurious hplace | del hplace _ | free hplace =>
    exact ⟨iff_of_false (h.not_worker (by rw [hplace]; rfl)) nofun, h.epoller, h.left⟩

/-- Nothing has happened to the lock, and the epoller has it neither before nor after. -/
theorem Excl.keep (h : Excl i e pc) (hbefore : pc.holds i = false ∧ pc.faulted = false)
    (hafter : pc'.holds i = false) : Excl i e pc' := by
  refine ⟨h.worker, fun hheld => absurd hheld (by rw [hafter]; nofun), fun hlock => ?_⟩
  rcases h.left hlock with hheld | hfaulted
  · rw [hbefore.1] at hheld
    cases hheld
  · rw [hbefore.2] at hfaulted
    cases hfaulted

theorem Excl.signal (h : Excl i e pc) (hpc : pc.holds i = true) (rest : List (EpollEvent ι)) :
    Excl i e.signal (.unlock i rest) := by
  have hlock : e.signal.writableLock = some .epoller := by
    unfold QSSEPollEvent.signal
    split <;> exact h.epoller hpc
  refine ⟨iff_of_false (by rw [hlock]; nofun) ?_, fun _ => hlock,
    fun _ => .inl (decide_eq_true rfl)⟩
  -- A worker that has the lock is not moved by a signal.
  intro hheld
  unfold QSSEPollEvent.signal at hheld
  split at hheld
  · cases hheld
  · rw [h.not_epoller hheld] at hpc
    cases hpc

theorem Excl.step (h : Excl i e pc) (hs : Seen i e pc a e' pc') : Excl i e' pc' := by
  cases hs with
  | worker hs => exact hs.excl h
  | other => exact h
  | @report events hpc | @reportOther events hpc =>
    have hkept := h.keep (by rw [hpc]; exact ⟨rfl, rfl⟩) (holds_forLoop i events)
    exact ⟨hkept.worker, hkept.epoller, hkept.left⟩
  | fail hpc => exact h.keep (by rw [hpc]; exact ⟨rfl, rfl⟩) rfl
  | fault => exact ⟨h.worker, nofun, fun _ => .inr rfl⟩
  | lock hpc hfree =>
    refine ⟨iff_of_false nofun fun hheld => ?_, fun _ => rfl, fun _ => .inl (decide_eq_true rfl)⟩
    rw [h.worker.mpr hheld] at hfree
    cases hfree
  | lockOther hpc hne => exact h.keep (by rw [hpc]; exact ⟨rfl, rfl⟩) (decide_eq_false hne.symm)
  | @signal rest hpc => exact h.signal (by rw [hpc]; exact decide_eq_true rfl) rest
  | signalOther hpc hne =>
    exact h.keep (by rw [hpc]; exact ⟨decide_eq_false hne.symm, rfl⟩) (decide_eq_false hne.symm)
  | @unlock rest hpc =>
    refine ⟨iff_of_false nofun fun hheld => ?_, fun hheld => ?_, nofun⟩
    · have hnone := h.not_epoller hheld
      rw [hpc] at hnone
      exact of_decide_eq_false hnone rfl
    · rw [holds_forLoop] at hheld
      cases hheld
  | unlockOther hpc hne =>
    exact h.keep (by rw [hpc]; exact ⟨decide_eq_false hne.symm, rfl⟩) (holds_forLoop i _)

/-! ## 5. No report is lost -/

def Place.waits : Place → Bool
  | wait | waiting => true
  | _ => false

/-- The event `i` is reported without `EPOLLOUT`: the epoller skips it. -/
def silent (i : ι) : Act ι → Bool
  | .epoller (.report events) => decide (⟨i, false⟩ ∈ events)
  | _ => false

/-- A worker that waits is going to be woken: its event is armed, or the epoller has it. -/
def Awaited (i : ι) (e : QSSEPollEvent) (pc : EpollerPc ι) : Prop :=
  e.place.waits = true → e.armed = true ∨ i ∈ pc.pending ∨ pc.faulted = true

theorem waits_goOn (e : QSSEPollEvent) (conn : Conn) : (e.goOn conn).place.waits = false := by
  show (ite (conn.pc = .epollCtl) Place.lock Place.outside).waits = false
  split <;> rfl

omit [DecidableEq ι] in
theorem EventStep.awaited {a : WorkerAct} (hs : EventStep e a e') (h : Awaited i e pc) :
    Awaited i e' pc := by
  cases hs with
  | @send _ conn _ _ | @unlock _ conn _ _ =>
    intro hwaits
    rw [show Place.waits _ = _ from waits_goOn e conn] at hwaits
    cases hwaits
  | armed => exact fun _ => .inl rfl
  -- The event stays armed while the worker goes to sleep.
  | wait hplace => exact fun _ => h (by rw [hplace]; rfl)
  | lock | ctlFail | timeout | spurious | relock | del | free => exact nofun

/-- The worker gets the signal: it has given the lock back, so it is waiting. -/
theorem Excl.waiting_of_signal {rest : List (EpollEvent ι)} (h : Excl i e (.signal i rest))
    (hwaits : e.place.waits = true) : e.place = .waiting := by
  have hlock := h.epoller (decide_eq_true rfl)
  cases hplace : e.place with
  | waiting => rfl
  | wait =>
    rw [h.worker.mpr (by rw [hplace]; rfl)] at hlock
    cases hlock
  | _ =>
    rw [hplace] at hwaits
    cases hwaits

theorem signal_of_waiting (h : e.place = .waiting) : e.signal = { e with place := .relock true } :=
  if_pos h

theorem signal_of_not_waits (h : e.place.waits = false) : e.signal = e := by
  apply if_neg
  intro hplace
  rw [hplace] at h
  cases h

theorem Awaited.step (h : Awaited i e pc) (hx : Excl i e pc) (ha : silent i a = false)
    (hs : Seen i e pc a e' pc') : Awaited i e' pc' := by
  cases hs with
  | worker hs => exact hs.awaited h
  | other => exact h
  | @report events hpc _ hi _ =>
    intro _
    right; left
    rw [pending_forLoop]
    exact mem_writables hi (of_decide_eq_false ha)
  | reportOther hpc _ _ =>
    intro hwaits
    rcases h hwaits with harmed | hpending | hfaulted
    · exact .inl harmed
    · rw [hpc] at hpending
      cases hpending
    · rw [hpc] at hfaulted
      cases hfaulted
  | fail hpc | lock hpc _ | lockOther hpc _ =>
    rw [hpc] at h
    exact h
  | @signal rest hpc =>
    intro hwaits
    rw [hpc] at hx
    -- Behind the signal the worker of the event waits no more.
    cases hbefore : e.place.waits with
    | true =>
      rw [signal_of_waiting (hx.waiting_of_signal hbefore)] at hwaits
      cases hwaits
    | false =>
      rw [signal_of_not_waits hbefore, hbefore] at hwaits
      cases hwaits
  | signalOther hpc hne =>
    rw [hpc] at h
    intro hwaits
    exact (h hwaits).imp_right fun hor => hor.imp_left (List.mem_of_ne_of_mem hne)
  | unlock hpc | unlockOther hpc _ =>
    rw [hpc] at h
    intro hwaits
    rw [pending_forLoop]
    exact (h hwaits).imp_right fun hor => .inl (hor.resolve_right nofun)
  | fault => exact fun _ => .inr (.inr rfl)

theorem awaited_invariant (maxThreads : Nat) (i : ι) :
    ((blockingSenders ι maxThreads).restrict fun _ a => silent i a = false).Invariant fun s =>
      Excl i (s.event i) s.epoller ∧ Awaited i (s.event i) s.epoller :=
  TransitionSystem.Invariant.restrict ⟨excl_init i, nofun⟩ fun ⟨hx, h⟩ ha hs =>
    have hseen := (step_cases hs).seen i
    ⟨hx.step hseen, h.step hx ha hseen⟩

/-- **No report is lost.** In a run that never reports the event without `EPOLLOUT`, a worker that
waits for it has it armed, or the epoller is on its way to signal it, however the worker and the
epoller interleave between `epoll_ctl` and the wait. -/
theorem writable_not_lost
    (h : ((blockingSenders ι maxThreads).restrict fun _ a => silent i a = false).Reachable s)
    (hwaiting : (s.event i).place = .waiting) (hfaulted : s.epoller.faulted = false) :
    (s.event i).armed = true ∨ i ∈ s.epoller.pending := by
  have hawaited := ((awaited_invariant maxThreads i).of_reachable h).2
  rcases hawaited (by rw [hwaiting]; rfl) with harmed | hpending | htrue
  · exact .inl harmed
  · exact .inr hpending
  · rw [hfaulted] at htrue
    cases htrue

/-- The event is reported before its worker waits: the epoller comes to the lock too early. -/
def reportedEarly : List (Act Nat) :=
  [.worker 0 (.send (.call ⟨[1, 2], by decide, by decide⟩)), .worker 0 (.send .eagain),
    .worker 0 .lock, .worker 0 (.ctl true), .epoller (.report [⟨0, true⟩]), .worker 0 .wait]

theorem writable_not_lost_reportedEarly :
    ∃ s, ((blockingSenders Nat 4).restrict fun _ a => silent 0 a = false).exec threadsInit
        reportedEarly = some s ∧ (s.event 0).place = .waiting ∧ s.epoller = .lock 0 [] ∧
      ((s.event 0).armed = true ∨ 0 ∈ s.epoller.pending) := by
  have hrun : (((blockingSenders Nat 4).restrict fun _ a => silent 0 a = false).exec threadsInit
      reportedEarly).map (fun s => ((s.event 0).place, s.epoller)) =
        some (.waiting, .lock 0 []) := by rfl
  obtain ⟨s, hexec, hs⟩ := Option.map_eq_some_iff.mp hrun
  obtain ⟨hplace, hpc⟩ := Prod.mk.inj hs
  have hreach := TransitionSystem.reachable_of_exec _ hexec
  exact ⟨s, hexec, hplace, hpc, writable_not_lost hreach hplace (by rw [hpc]; rfl)⟩

/-! ## 6. A connection by itself -/

omit [DecidableEq ι] in
theorem EventStep.conn_reachable {a : WorkerAct} (hs : EventStep e a e')
    (h : BlockingSender.connection.Reachable e.conn) :
    BlockingSender.connection.Reachable e'.conn := by
  cases hs with
  | @send label _ _ hconn => exact h.step (a := label) hconn
  | armed _ hconn => exact h.step (a := .ok) hconn
  | @unlock ok _ _ hconn => exact h.step (a := if ok = true then .ok else .fail) hconn
  | lock | ctlFail | wait | timeout | spurious | relock | del | free => exact h

omit [DecidableEq ι] in
theorem Seen.conn_reachable (hs : Seen i e pc a e' pc')
    (h : BlockingSender.connection.Reachable e.conn) :
    BlockingSender.connection.Reachable e'.conn := by
  cases hs with
  | worker hs => exact hs.conn_reachable h
  | signal =>
    have hconn : e.signal.conn = e.conn := by
      unfold QSSEPollEvent.signal
      split <;> rfl
    rw [hconn]
    exact h
  | other | report | reportOther | fail | lock | lockOther | signalOther | unlock | unlockOther
  | fault => exact h

/-- Whatever the epoller does, a connection goes through the sender as if it were alone. -/
theorem conn_reachable (h : (blockingSenders ι maxThreads).Reachable s) (i : ι) :
    BlockingSender.connection.Reachable (s.event i).conn := by
  induction h with
  | init => exact .init
  | step _ hs ih => exact ((step_cases hs).seen i).conn_reachable ih

end CcPof.Writable

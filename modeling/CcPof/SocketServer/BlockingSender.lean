import CcPof.Lib.Transition
import Mathlib.Data.List.Infix

/-!
# The blocking sender

`internalBlockingSender` on one connection, call after call. The calls of `send`, `epoll_ctl` and
`pthread_cond_timedwait` are answered by labels, in any order and as often as the two loops ask.
-/

namespace CcPof.BlockingSender

def maxBufSize : Nat := 1024

/-- What `_InternalProtocolHandler` has received and sends back -/
structure Received where
  bytes : List UInt8
  pos : 0 < bytes.length
  le : bytes.length ≤ maxBufSize

/-- `curEpoll_ctl_opt` -/
inductive EpollOp
  | add
  | mod
  deriving DecidableEq, Repr

inductive Pc
  | idle
  | send
  | epollCtl
  | timedwait
  | returned (ret : Int)
  deriving DecidableEq, Repr

/-- A connection and the variables of the call on it; `sbuf` is `_sbuf - _buf`. Of the kernel,
`accepted` is what the calls of `send` have taken of the buffer, and `ctls` are the operations on
`BSendEpollFD` since the connection was accepted. -/
structure Conn where
  bSendEpollFDRelated : Bool
  ctls : List EpollOp
  buf : List UInt8
  sum : Nat
  sbuf : Nat
  ret : Int
  accepted : List UInt8
  pc : Pc
  deriving Repr

def Conn.nbs (c : Conn) : Nat := c.buf.length

/-- The answers: `sent 0` and the negative ones of `send`, and those of the other two calls. A wake-up
without a signal is an `ok` of the wait. -/
inductive Label
  | call (received : Received)
  | sent (count : Nat)
  | eagain
  | error
  | ok
  | fail

/-- Behind the inner loop; `again` is `errno==EAGAIN`. -/
def behindLoop (c : Conn) (again : Bool) : Conn :=
  if c.sum = c.nbs ∨ c.ret = 0 then { c with pc := .returned c.ret }
  else if c.ret = -1 then
    if again ∧ c.sum < c.nbs then
      { c with
        bSendEpollFDRelated := true
        ctls := c.ctls ++ [if c.bSendEpollFDRelated then .mod else .add]
        pc := .epollCtl }
    -- `ret=nbs;//it is ok;`
    else if again ∧ c.sum = c.nbs then { c with ret := c.nbs, pc := .returned c.nbs }
    else { c with pc := .returned c.ret }
  else { c with pc := .send }

/-- The condition of the inner loop, up to the call of `send`. -/
def innerLoop (c : Conn) : Conn :=
  if c.sum < c.nbs then { c with pc := .send } else behindLoop c false

def step (c : Conn) : Label → Option Conn
  | .call received =>
      match c.pc with
      | .idle | .returned _ =>
          some (innerLoop { c with
            buf := received.bytes, sum := 0, sbuf := 0, ret := 0, accepted := [] })
      | _ => none
  | .sent count =>
      if c.pc = .send ∧ count ≤ c.nbs - c.sum then
        if 0 < count then
          some (innerLoop { c with
            ret := count
            accepted := c.accepted ++ (c.buf.drop c.sbuf).take count
            sum := c.sum + count
            sbuf := c.sbuf + count })
        else some (behindLoop { c with ret := 0 } false)
      else none
  | .eagain => if c.pc = .send then some (behindLoop { c with ret := -1 } true) else none
  | .error => if c.pc = .send then some (behindLoop { c with ret := -1 } false) else none
  | .ok =>
      match c.pc with
      | .epollCtl => some { c with pc := .timedwait }
      | .timedwait => some (innerLoop c)
      | _ => none
  | .fail =>
      match c.pc with
      | .epollCtl | .timedwait => some { c with pc := .returned c.ret }
      | _ => none

/-- The connection that `onAcceptRoutine` registers -/
def registered : Conn where
  bSendEpollFDRelated := false
  ctls := []
  buf := []
  sum := 0
  sbuf := 0
  ret := 0
  accepted := []
  pc := .idle

def connection : TransitionSystem Conn Label where
  init := registered
  step := step

/-! ## What a call keeps -/

/-- The first operation adds the connection, and the others modify it. -/
def AddedOnce : List EpollOp → Prop
  | [] => True
  | op :: ops => op = .add ∧ ∀ op ∈ ops, op = .mod

/-- The two variables of the progress agree, and with what the kernel has. -/
structure Progress (c : Conn) : Prop where
  accepted : c.accepted = c.buf.take c.sum
  sbuf : c.sbuf = c.sum
  le : c.sum ≤ c.nbs
  related : c.bSendEpollFDRelated = true ↔ c.ctls ≠ []
  ctls : AddedOnce c.ctls

/-- What each place knows of `sum` and `ret` -/
def AtPlace (c : Conn) : Prop :=
  match c.pc with
  | .idle => True
  | .send => c.sum < c.nbs
  | .epollCtl | .timedwait => c.sum < c.nbs ∧ c.ret = -1
  | .returned ret => 0 < ret ↔ c.sum = c.nbs

variable {c : Conn}

theorem AddedOnce.append {ctls : List EpollOp} (h : AddedOnce ctls) (related : Bool)
    (hrelated : related = true ↔ ctls ≠ []) :
    AddedOnce (ctls ++ [if related then .mod else .add]) := by
  cases ctls with
  | nil =>
    have hfalse : related = false := by
      rw [← Bool.not_eq_true, hrelated]
      exact fun hne => hne rfl
    rw [hfalse]
    exact ⟨rfl, fun op hop => absurd hop List.not_mem_nil⟩
  | cons op ops =>
    rw [hrelated.mpr (List.cons_ne_nil op ops)]
    refine ⟨h.1, fun o ho => ?_⟩
    rcases List.mem_append.mp ho with ho | ho
    · exact h.2 o ho
    · exact List.mem_singleton.mp ho

theorem Progress.toPlace (h : Progress c) (pc : Pc) : Progress { c with pc := pc } :=
  ⟨h.accepted, h.sbuf, h.le, h.related, h.ctls⟩

/-- Behind the loop the buffer is done, or the last call of `send` has returned 0 or -1. -/
theorem Progress.behindLoop (h : Progress c) (again : Bool)
    (hret : c.sum = c.nbs ∧ 0 < c.ret ∨ c.sum < c.nbs ∧ (c.ret = 0 ∨ c.ret = -1)) :
    Progress (behindLoop c again) ∧ AtPlace (behindLoop c again) := by
  unfold BlockingSender.behindLoop
  rcases hret with ⟨hsum, hpos⟩ | ⟨hsum, hzero | hneg⟩
  · rw [if_pos (Or.inl hsum)]
    exact ⟨h.toPlace _, iff_of_true hpos hsum⟩
  · rw [if_pos (Or.inr hzero)]
    refine ⟨h.toPlace _, iff_of_false ?_ (Nat.ne_of_lt hsum)⟩
    rw [hzero]
    exact Int.lt_irrefl 0
  · have hnot : ¬ (c.sum = c.nbs ∨ c.ret = 0) := by omega
    rw [if_neg hnot, if_pos hneg]
    by_cases hagain : again = true
    · rw [if_pos ⟨hagain, hsum⟩]
      refine ⟨⟨h.accepted, h.sbuf, h.le, ?_, h.ctls.append _ h.related⟩, hsum, hneg⟩
      exact iff_of_true rfl (List.append_ne_nil_of_right_ne_nil _ (List.cons_ne_nil _ _))
    · -- another error: the call gives up
      rw [if_neg (fun hboth => hagain hboth.1), if_neg (fun hboth => hagain hboth.1)]
      refine ⟨h.toPlace _, iff_of_false ?_ (Nat.ne_of_lt hsum)⟩
      rw [hneg]
      decide

/-- The call of `send` that ends the inner loop takes nothing. -/
theorem Progress.ended (h : Progress c) {ret : Int} (again : Bool) (hsum : c.sum < c.nbs)
    (hret : ret = 0 ∨ ret = -1) :
    Progress (BlockingSender.behindLoop { c with ret := ret } again) ∧
      AtPlace (BlockingSender.behindLoop { c with ret := ret } again) := by
  have hprogress : Progress { c with ret := ret } :=
    ⟨h.accepted, h.sbuf, h.le, h.related, h.ctls⟩
  exact hprogress.behindLoop again (Or.inr ⟨hsum, hret⟩)

theorem Progress.innerLoop (h : Progress c) (hret : c.sum = c.nbs → 0 < c.ret) :
    Progress (innerLoop c) ∧ AtPlace (innerLoop c) := by
  unfold BlockingSender.innerLoop
  by_cases hsum : c.sum < c.nbs
  · rw [if_pos hsum]
    exact ⟨h.toPlace _, hsum⟩
  · rw [if_neg hsum]
    have hdone : c.sum = c.nbs := Nat.le_antisymm h.le (Nat.le_of_not_lt hsum)
    exact h.behindLoop false (Or.inl ⟨hdone, hret hdone⟩)

theorem Progress.call (h : Progress c) (received : Received) :
    Progress (BlockingSender.innerLoop { c with
        buf := received.bytes, sum := 0, sbuf := 0, ret := 0, accepted := [] }) ∧
      AtPlace (BlockingSender.innerLoop { c with
        buf := received.bytes, sum := 0, sbuf := 0, ret := 0, accepted := [] }) := by
  apply Progress.innerLoop
  · exact ⟨rfl, rfl, Nat.zero_le _, h.related, h.ctls⟩
  · intro hdone
    have hpos := received.pos
    exact absurd hdone (Nat.ne_of_lt hpos)

/-- A call of `send` takes the bytes behind those that were taken before. -/
theorem Progress.sent (h : Progress c) {count : Nat} (hpos : 0 < count)
    (hcount : count ≤ c.nbs - c.sum) :
    Progress (BlockingSender.innerLoop { c with
        ret := count
        accepted := c.accepted ++ (c.buf.drop c.sbuf).take count
        sum := c.sum + count
        sbuf := c.sbuf + count }) ∧
      AtPlace (BlockingSender.innerLoop { c with
        ret := count
        accepted := c.accepted ++ (c.buf.drop c.sbuf).take count
        sum := c.sum + count
        sbuf := c.sbuf + count }) := by
  have hle := h.le
  apply Progress.innerLoop
  · constructor
    · show c.accepted ++ (c.buf.drop c.sbuf).take count = c.buf.take (c.sum + count)
      rw [h.accepted, h.sbuf, List.take_add]
    · exact congrArg (· + count) h.sbuf
    · show c.sum + count ≤ c.nbs
      omega
    · exact h.related
    · exact h.ctls
  · intro _
    exact Int.natCast_pos.mpr hpos

theorem place_step {c' : Conn} {a : Label} (h : Progress c) (hplace : AtPlace c)
    (hs : step c a = some c') : Progress c' ∧ AtPlace c' := by
  unfold AtPlace at hplace
  cases a with
  | call received =>
    simp only [step] at hs
    split at hs <;> cases hs
    · exact h.call received
    · exact h.call received
  | sent count =>
    simp only [step] at hs
    split at hs
    · rename_i hguard
      obtain ⟨hpc, hcount⟩ := hguard
      rw [hpc] at hplace
      split at hs <;> cases hs
      · exact h.sent ‹_› hcount
      · exact h.ended false hplace (Or.inl rfl)
    · cases hs
  | eagain | error =>
    simp only [step] at hs
    split at hs
    · rename_i hpc
      rw [hpc] at hplace
      cases hs
      exact h.ended _ hplace (Or.inr rfl)
    · cases hs
  | ok =>
    simp only [step] at hs
    split at hs
    · rename_i hpc
      rw [hpc] at hplace
      cases hs
      exact ⟨h.toPlace _, hplace⟩
    · rename_i hpc
      rw [hpc] at hplace
      cases hs
      exact h.innerLoop fun hdone => absurd hdone (Nat.ne_of_lt hplace.1)
    · cases hs
  | fail =>
    simp only [step] at hs
    split at hs
    case h_1 hpc | h_2 hpc =>
      -- The connection is given up with `ret` still -1.
      rw [hpc] at hplace
      cases hs
      refine ⟨h.toPlace _, iff_of_false ?_ (Nat.ne_of_lt hplace.1)⟩
      rw [hplace.2]
      decide
    case h_3 => cases hs

theorem progress_invariant : connection.Invariant fun c => Progress c ∧ AtPlace c where
  init := ⟨⟨rfl, rfl, Nat.le_refl 0, iff_of_false Bool.false_ne_true fun hne => hne rfl, trivial⟩,
    trivial⟩
  step h hs := place_step h.1 h.2 hs

/-- **What `internalBlockingSender` delivers** is a prefix of the buffer, and the whole buffer just when
the result is positive; the connection is added to the other epoll set once. -/
theorem blockingSender_delivers (h : connection.Reachable c) :
    c.accepted <+: c.buf ∧
      (∀ ret, c.pc = .returned ret → (0 < ret ↔ c.accepted = c.buf)) ∧ AddedOnce c.ctls := by
  obtain ⟨hprogress, hplace⟩ := progress_invariant.of_reachable h
  refine ⟨?_, ?_, hprogress.ctls⟩
  · rw [hprogress.accepted]
    exact List.take_prefix c.sum c.buf
  · intro ret hpc
    rw [AtPlace, hpc] at hplace
    have hle := hprogress.le
    apply hplace.trans
    rw [hprogress.accepted, List.take_eq_self_iff]
    exact ⟨fun hdone => Nat.le_of_eq hdone.symm, fun hge => Nat.le_antisymm hle hge⟩

/-- Three bytes in two parts, with a wait in between. -/
def twoParts : List Label :=
  [.call ⟨[1, 2, 3], by decide, by decide⟩, .sent 2, .eagain, .ok, .ok, .sent 1]

theorem blockingSender_delivers_twoParts :
    ∃ c, connection.exec registered twoParts = some c ∧ c.pc = .returned 1 ∧ c.ctls = [.add] ∧
      c.accepted = c.buf := by
  have hexec : connection.exec registered twoParts = some
      ⟨true, [.add], [1, 2, 3], 3, 3, 1, [1, 2, 3], .returned 1⟩ := by rfl
  obtain ⟨_, hret, _⟩ := blockingSender_delivers (connection.reachable_of_exec hexec)
  exact ⟨_, hexec, rfl, rfl, (hret 1 rfl).mp (by decide)⟩

end CcPof.BlockingSender

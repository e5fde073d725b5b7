import CcPof.Controller.ConnAccept
import CcPof.Lib.Refinement

/-!
# The loop of the controller

`cc_polling` waits for a switch and has `cc_conn_accept` make a child for it, again and again. The
parent never closes the connection that its child polls, so each switch takes one of its numbers for
good, and a later child has the connections of all switches before it.
-/

namespace CcPof.Controller

/-- A child, with the connection that `accept` returned before the `fork`. -/
structure Served extends Child where
  conn : File

/-- The parent, with the children that it has made, the last one first, and what `cc_polling` has
returned. -/
structure Polling where
  files : Descriptors File
  children : List Served
  ret : Option Int

/-- The child that `cc_conn_accept` has made of what `accept` returned, if any. -/
def Outcome.served (o : Outcome) (conn : Option File) : Option Served := do
  let child ← o.child
  let conn ← conn
  some { toChild := child, conn := conn }

/-- One pass of the loop. `status` is what is found as the value of `cc_conn_accept` where that ends
without a `return`. -/
def Polling.pass (s : Polling) (select : Select) (accept : Option (Accepted s.files)) (fork : Fork)
    (status : Int) : Polling :=
  match select with
  | .interrupted | .timeout => s
  | .failed => { s with ret := some ccError }
  -- The listening socket is the only one in the set.
  | .ready _ =>
    let o := ccConnAccept s.files accept fork
    { files := o.parent.files
      children := (o.served (accept.map (·.conn))).toList ++ s.children
      ret := if o.parent.ret.getD status < 0 then some ccError else none }

def ccPolling (files : Descriptors File) : EventSystem Polling Select where
  init := ⟨files, [], none⟩
  step s select s' := s.ret = none ∧ ∃ accept fork status, s.pass select accept fork status = s'

variable {files : Descriptors File} {s s' : Polling} {a : Accepted s.files} {select : Select}
  {l : List Select}

/-! ## 1. What a pass does -/

/-- The table of the parent stays as it is, or a child is made and its connection stays open. -/
inductive Pass (s s' : Polling) : Prop
  | same : s'.files = s.files → s'.children = s.children → Pass s s'
  | child (a : Accepted s.files) : a.fd ≤ fdSetsize → s'.files = s.files.install a.fd a.conn →
      s'.children = ⟨Child.start (s.files.install a.fd a.conn) a.fd, a.conn⟩ :: s.children →
      Pass s s'

theorem Polling.pass_cases (s : Polling) (select : Select) (accept : Option (Accepted s.files))
    (fork : Fork) (status : Int) : Pass s (s.pass select accept fork status) := by
  cases select with
  | interrupted | timeout | failed => exact .same rfl rfl
  | ready =>
    cases accept with
    | none => exact .same rfl rfl
    | some a =>
      unfold Polling.pass
      by_cases hfd : fdSetsize < a.fd
      · -- The number is too high, and the connection is closed at once.
        rw [ccConnAccept_refused hfd]
        exact .same (Descriptors.close_install a.closed) rfl
      · cases fork with
        | failed =>
          -- Without a child the connection is closed as well.
          rw [ccConnAccept_failed hfd]
          exact .same (Descriptors.close_install a.closed) rfl
        | forked =>
          rw [ccConnAccept_forked hfd]
          exact .child a (Nat.le_of_not_lt hfd) rfl rfl

theorem ccPolling_step (hs : (ccPolling files).step s select s') : Pass s s' := by
  obtain ⟨-, accept, fork, status, rfl⟩ := hs
  exact s.pass_cases select accept fork status

/-! ## 2. The numbers of the parent -/

/-- Each child costs the parent one of the numbers that `cc_conn_accept` does not refuse. -/
structure Spent (files : Descriptors File) (s : Polling) : Prop where
  kept : ∀ d, files d ≠ none → s.files d = files d
  used : s.files.used (fdSetsize + 1) = files.used (fdSetsize + 1) + s.children.length

theorem Spent.step (h : Spent files s) (hs : Pass s s') : Spent files s' := by
  cases hs with
  | same hfiles hchildren =>
    constructor
    · rw [hfiles]
      exact h.kept
    · rw [hfiles, hchildren]
      exact h.used
  | child a hle hfiles hchildren =>
    constructor
    · -- `accept` returns a number that is closed, so none of the old ones.
      intro d hd
      have hkept := h.kept d hd
      rw [hfiles, Descriptors.install_of_open a.closed (hkept ▸ hd), hkept]
    · rw [hfiles, hchildren, Descriptors.used_install (Nat.lt_succ_of_le hle) a.closed, h.used,
        List.length_cons, Nat.add_assoc]

theorem spent_init : Spent files (ccPolling files).init where
  kept _ _ := rfl
  used := (Nat.add_zero _).symm

theorem spent_of_run (h : (ccPolling files).Run (ccPolling files).init l s) : Spent files s :=
  h.keeps (fun _ hI hs => hI.step (ccPolling_step hs)) spent_init

/-- **The switches are counted.** However many switches come and go, the controller makes no more
children in its life than the numbers up to `FD_SETSIZE` that were closed when it began. -/
theorem children_bounded (h : (ccPolling files).Run (ccPolling files).init l s) :
    s.children.length + files.used (fdSetsize + 1) ≤ fdSetsize + 1 := by
  have hle : s.files.used (fdSetsize + 1) ≤ fdSetsize + 1 := Descriptors.used_le
  rwa [(spent_of_run h).used, Nat.add_comm] at hle

/-- What `accept` returns for the second of two switches. -/
def acceptSecond : Accepted ((openBelow 4).install 4 4) where
  fd := 5
  conn := 5
  closed := rfl
  fresh := by
    intro ⟨d, hd⟩
    by_cases h : d = 4
    · rw [h] at hd
      cases hd
    · rw [Descriptors.install_of_ne h, openBelow] at hd
      split at hd
      · cases hd
        omega
      · cases hd

/-- Two switches connect, and `select` returns without one in between. -/
def twoSwitches : List Select := [.ready 1, .timeout, .ready 1]

theorem run_twoSwitches : ∃ s,
    (ccPolling (openBelow 4)).Run (ccPolling (openBelow 4)).init twoSwitches s ∧
      s.children.length = 2 :=
  ⟨_, .cons ⟨rfl, some (acceptNext 4), .forked, 0, rfl⟩ (.cons ⟨rfl, none, .failed, 0, rfl⟩
    (.cons ⟨rfl, some acceptSecond, .forked, 0, rfl⟩ (.nil _))), rfl⟩

theorem children_bounded_twoSwitches : ∃ s, s.children.length = 2 ∧
    (ccPolling (openBelow 4)).Run (ccPolling (openBelow 4)).init twoSwitches s ∧
      s.children.length + (openBelow 4).used (fdSetsize + 1) ≤ fdSetsize + 1 := by
  obtain ⟨s, hrun, hlength⟩ := run_twoSwitches
  exact ⟨s, hlength, hrun, children_bounded hrun⟩

/-! ## 3. The connections of the children -/

/-- Every child polls the connection that was accepted for it, by the number in `sw_info`, and by
no other number. The parent has the connection by the same number, and so has every child that was
made later. -/
structure Shared (s : Polling) : Prop where
  polled : ∀ c ∈ s.children, c.swInfoFd = c.acceptFd ∧ c.files.Only c.acceptFd c.conn
  kept : ∀ c ∈ s.children, s.files c.acceptFd = some c.conn
  distinct : s.children.Pairwise fun later c => later.conn ≠ c.conn
  inherited : s.children.Pairwise fun later c => later.files c.acceptFd = some c.conn

/-- The number of a child's connection is open in the parent. -/
theorem Shared.open (h : Shared s) {c : Served} (hc : c ∈ s.children) :
    s.files c.acceptFd ≠ none := by
  rw [h.kept c hc]
  exact nofun

theorem Shared.step (h : Shared s) (hstd : ∀ d < ccAcceptFd, s.files d ≠ none) (hs : Pass s s') :
    Shared s' := by
  cases hs with
  | same hfiles hchildren =>
    constructor
    · rw [hchildren]
      exact h.polled
    · rw [hfiles, hchildren]
      exact h.kept
    · rw [hchildren]
      exact h.distinct
    · rw [hchildren]
      exact h.inherited
  | child a _ hfiles hchildren =>
    -- The connections of the earlier children are open already, under other numbers.
    have hkept : ∀ c ∈ s.children, s'.files c.acceptFd = some c.conn := by
      intro c hc
      rw [hfiles, Descriptors.install_of_open a.closed (h.open hc), h.kept c hc]
    -- The number is none of the standard descriptors, so the child finds its connection there.
    have hstart : Child.start (s.files.install a.fd a.conn) a.fd = ⟨s'.files, a.fd, a.fd⟩ := by
      rw [← hfiles]
      exact if_neg fun hlt => hstd a.fd hlt a.closed
    have honly : s'.files.Only a.fd a.conn := hfiles ▸ Descriptors.only_install a.fresh
    rw [hstart] at hchildren
    constructor
    · rw [hchildren, List.forall_mem_cons]
      exact ⟨⟨rfl, honly⟩, h.polled⟩
    · rw [hchildren, List.forall_mem_cons]
      exact ⟨honly.refers, hkept⟩
    · rw [hchildren, List.pairwise_cons]
      refine ⟨?_, h.distinct⟩
      -- No descriptor of the parent refers to a connection that has just come.
      intro c hc heq
      have hconn : s.files c.acceptFd = some a.conn := (h.kept c hc).trans (congrArg some heq.symm)
      exact a.fresh ⟨c.acceptFd, hconn⟩
    · rw [hchildren, List.pairwise_cons]
      exact ⟨hkept, h.inherited⟩

end CcPof.Controller

import CcPof.Lib.Descriptors

/-!
# The connection of a switch

`cc_conn_accept` accepts one connection and forks: the child polls the connection, and the parent
returns to its caller. Each process has a descriptor table of its own.
-/

namespace CcPof.Controller

/-- An open file or socket -/
abbrev File := Nat

def ccError : Int := -1
def ccNoError : Int := 0
def ccAcceptFd : Nat := 3

/-! ## `fd_set` -/

def fdSetsize : Nat := 1024
def nfdbits : Nat := 64

abbrev FdSet := Vector (BitVec 64) (fdSetsize / nfdbits)

def fdZero : FdSet := Vector.replicate _ 0#64

/-- `FD_SET`; `none` where the word lies behind the set. -/
def fdSet (fd : Nat) (fds : FdSet) : Option FdSet :=
  if h : fd / nfdbits < fdSetsize / nfdbits then
    some (fds.set (fd / nfdbits) (fds[fd / nfdbits] ||| 1#64 <<< (fd % nfdbits)))
  else none

/-! ## The child -/

/-- The child with `sw_info->fd` and `accept_fd` -/
structure Child where
  files : Descriptors File
  swInfoFd : Nat
  acceptFd : Nat

/-- The child, up to its loop -/
def Child.start (files : Descriptors File) (acceptFd : Nat) : Child :=
  if acceptFd < ccAcceptFd then
    ⟨(files.dup2 acceptFd ccAcceptFd).close acceptFd, acceptFd, ccAcceptFd⟩
  else ⟨files, acceptFd, acceptFd⟩

/-- What `select` returns: -1 with `EINTR` or another error, 0, or the number of ready descriptors. -/
inductive Select
  | interrupted
  | failed
  | timeout
  | ready (ret : Nat)
  deriving DecidableEq, Repr

/-- One pass of the loop, with the sets that it gives to `select`. -/
structure Round where
  child : Child
  readfds : Option FdSet
  writefds : Option FdSet

def Child.round (c : Child) : Round := ⟨c, fdSet c.acceptFd fdZero, fdSet c.acceptFd fdZero⟩

/-- The passes of the loop, and what the child returns. Nothing is done for a ready descriptor. -/
def Child.poll (c : Child) : List Select → List Round × Option Int
  | [] => ([], none)
  | .failed :: _ => ([c.round], some ccError)
  | .interrupted :: rets | .timeout :: rets | .ready _ :: rets =>
      (c.round :: (c.poll rets).1, (c.poll rets).2)

/-! ## `cc_conn_accept` -/

/-- What `accept` returns: a number that was not open, for a connection that nobody had. -/
structure Accepted (files : Descriptors File) where
  fd : Nat
  conn : File
  closed : files fd = none
  fresh : ¬ files.Holds conn

inductive Fork
  | failed
  | forked
  deriving DecidableEq, Repr

/-- The parent when the function is left; `ret` is `none` where it ends without a `return`. -/
structure Parent where
  files : Descriptors File
  ret : Option Int

structure Outcome where
  parent : Parent
  child : Option Child

def ccConnAccept (files : Descriptors File) (accept : Option (Accepted files)) (fork : Fork) :
    Outcome :=
  match accept with
  -- `close(-1)` closes nothing.
  | none => ⟨⟨files, some ccError⟩, none⟩
  | some a =>
    let accepted := files.install a.fd a.conn
    if fdSetsize < a.fd then ⟨⟨accepted.close a.fd, none⟩, none⟩
    else
      match fork with
      | .failed => ⟨⟨accepted.close a.fd, some ccError⟩, none⟩
      | .forked => ⟨⟨accepted, some ccNoError⟩, some (Child.start accepted a.fd)⟩

/-! ## Who owns the connection -/

/-- The polled descriptor is the connection that `sw_info` records, and the sets have room for it. -/
structure Round.Owned (r : Round) (conn : File) : Prop where
  refers : r.child.files r.child.acceptFd = some conn
  recorded : r.child.acceptFd = r.child.swInfoFd
  small : r.child.acceptFd < fdSetsize
  readInside : r.readfds ≠ none
  writeInside : r.writefds ≠ none

def Child.Owned (c : Child) (conn : File) : Prop := ∀ rets, ∀ r ∈ (c.poll rets).1, r.Owned conn

/-- The parent has no copy of the connection, and has returned a status. -/
structure Parent.Released (p : Parent) (conn : File) : Prop where
  closed : ¬ p.files.Holds conn
  defined : p.ret ≠ none

structure Outcome.Owned (o : Outcome) (conn : File) : Prop where
  child : ∀ c ∈ o.child, c.Owned conn
  parent : o.parent.Released conn

variable {files : Descriptors File} {a : Accepted files} {fork : Fork} {c : Child} {conn : File}
  {fd : Nat}

theorem fdSet_ne_none {fds : FdSet} : fdSet fd fds ≠ none ↔ fd < fdSetsize := by
  have hword : fd / nfdbits < fdSetsize / nfdbits ↔ fd < fdSetsize := by
    unfold nfdbits fdSetsize
    omega
  rw [← hword, fdSet]
  split
  · exact iff_of_true nofun ‹_›
  · exact iff_of_false (fun h => h rfl) ‹_›

/-- The loop changes nothing: all its passes are the same. -/
theorem Child.eq_round_of_mem_poll {rets : List Select} {r : Round} (hr : r ∈ (c.poll rets).1) :
    r = c.round := by
  induction rets with
  | nil => cases hr
  | cons ret rets ih =>
    cases ret with
    | failed => exact List.mem_singleton.mp hr
    | interrupted | timeout | ready =>
      rcases List.mem_cons.mp hr with rfl | hr
      · rfl
      · exact ih hr

theorem Child.owned_iff : c.Owned conn ↔ c.round.Owned conn := by
  constructor
  · intro h
    exact h [.timeout] c.round List.mem_cons_self
  · intro h rets r hr
    rw [Child.eq_round_of_mem_poll hr]
    exact h

/-- In the child the connection has one descriptor, and this is the one that it polls. -/
theorem Child.only_start (h : files.Only fd conn) :
    (Child.start files fd).files.Only (Child.start files fd).acceptFd conn := by
  unfold Child.start
  split
  · exact h.dup2_close (by omega)
  · exact h

theorem Child.owned_start (h : files.Only fd conn) :
    (Child.start files fd).Owned conn ↔ ccAcceptFd ≤ fd ∧ fd < fdSetsize := by
  rw [Child.owned_iff]
  have hrefers := (Child.only_start h).refers
  constructor
  · intro hround
    have hrecorded := hround.recorded
    have hsmall := hround.small
    simp only [Child.round, Child.start] at hrecorded hsmall
    split at hrecorded
    · dsimp only at hrecorded
      omega
    · rename_i hge
      rw [if_neg hge] at hsmall
      exact ⟨Nat.le_of_not_lt hge, hsmall⟩
  · rintro ⟨hle, hlt⟩
    have hstart : Child.start files fd = ⟨files, fd, fd⟩ := if_neg (Nat.not_lt.mpr hle)
    rw [hstart] at hrefers ⊢
    exact ⟨hrefers, rfl, hlt, fdSet_ne_none.mpr hlt, fdSet_ne_none.mpr hlt⟩

theorem ccConnAccept_refused (h : fdSetsize < a.fd) :
    ccConnAccept files (some a) fork =
      ⟨⟨(files.install a.fd a.conn).close a.fd, none⟩, none⟩ := if_pos h

theorem ccConnAccept_failed (h : ¬ fdSetsize < a.fd) :
    ccConnAccept files (some a) .failed =
      ⟨⟨(files.install a.fd a.conn).close a.fd, some ccError⟩, none⟩ := if_neg h

theorem ccConnAccept_forked (h : ¬ fdSetsize < a.fd) :
    ccConnAccept files (some a) .forked =
      ⟨⟨files.install a.fd a.conn, some ccNoError⟩,
        some (Child.start (files.install a.fd a.conn) a.fd)⟩ := if_neg h

theorem child_owned_iff : (∀ c ∈ (ccConnAccept files (some a) fork).child, c.Owned a.conn) ↔
    (fork = .forked → a.fd ≤ fdSetsize → ccAcceptFd ≤ a.fd ∧ a.fd < fdSetsize) := by
  by_cases hfd : fdSetsize < a.fd
  · rw [ccConnAccept_refused hfd]
    apply iff_of_true nofun
    intro _ hle
    exact absurd hfd (Nat.not_lt.mpr hle)
  · cases fork with
    | failed =>
      rw [ccConnAccept_failed hfd]
      exact iff_of_true nofun nofun
    | forked =>
      rw [ccConnAccept_forked hfd]
      have hchild := Child.owned_start (Descriptors.only_install (a := a.fd) a.fresh)
      constructor
      · intro h _ _
        exact hchild.mp (h _ rfl)
      · intro h c hc
        cases hc
        exact hchild.mpr (h rfl (Nat.le_of_not_lt hfd))

theorem parent_closed_iff : ¬ (ccConnAccept files (some a) fork).parent.files.Holds a.conn ↔
    fork = .failed ∨ fdSetsize < a.fd := by
  have honly := Descriptors.only_install (a := a.fd) a.fresh
  by_cases hfd : fdSetsize < a.fd
  · rw [ccConnAccept_refused hfd]
    exact iff_of_true honly.not_holds_close (Or.inr hfd)
  · cases fork with
    | failed =>
      rw [ccConnAccept_failed hfd]
      exact iff_of_true honly.not_holds_close (Or.inl rfl)
    | forked =>
      rw [ccConnAccept_forked hfd]
      apply iff_of_false
      · intro h
        exact h ⟨a.fd, honly.refers⟩
      · rintro (h | h)
        · cases h
        · exact hfd h

theorem parent_defined_iff : (ccConnAccept files (some a) fork).parent.ret ≠ none ↔
    a.fd ≤ fdSetsize := by
  by_cases hfd : fdSetsize < a.fd
  · rw [ccConnAccept_refused hfd]
    exact iff_of_false (fun h => h rfl) (Nat.not_le.mpr hfd)
  · apply iff_of_true ?_ (Nat.le_of_not_lt hfd)
    cases fork with
    | failed =>
      rw [ccConnAccept_failed hfd]
      exact nofun
    | forked =>
      rw [ccConnAccept_forked hfd]
      exact nofun

/-- The connection is owned as it should be only when `fork` fails. The child does its part between
the two boundaries; the parent keeps a copy of every connection that it has handed on. -/
theorem ccConnAccept_owned_iff (files : Descriptors File) (a : Accepted files) (fork : Fork) :
    let o := ccConnAccept files (some a) fork
    (o.Owned a.conn ↔ fork = .failed ∧ a.fd ≤ fdSetsize) ∧
    ((∀ c ∈ o.child, c.Owned a.conn) ↔
      (fork = .forked → a.fd ≤ fdSetsize → ccAcceptFd ≤ a.fd ∧ a.fd < fdSetsize)) ∧
    (¬ o.parent.files.Holds a.conn ↔ fork = .failed ∨ fdSetsize < a.fd) ∧
    (o.parent.ret ≠ none ↔ a.fd ≤ fdSetsize) := by
  refine ⟨?_, child_owned_iff, parent_closed_iff, parent_defined_iff⟩
  constructor
  · intro h
    have hle := parent_defined_iff.mp h.parent.defined
    rcases parent_closed_iff.mp h.parent.closed with hfork | hfd
    · exact ⟨hfork, hle⟩
    · exact absurd hfd (Nat.not_lt.mpr hle)
  · rintro ⟨rfl, hle⟩
    exact ⟨child_owned_iff.mpr nofun,
      parent_closed_iff.mpr (Or.inl rfl), parent_defined_iff.mpr hle⟩

/-- The descriptors below `n` are open, and `accept` takes the next one. -/
def openBelow (n : Nat) : Descriptors File := fun d => if d < n then some d else none

def acceptNext (n : Nat) : Accepted (openBelow n) where
  fd := n
  conn := n
  closed := if_neg (Nat.lt_irrefl n)
  fresh := by
    rintro ⟨d, hd⟩
    unfold openBelow at hd
    split at hd
    · cases hd
      omega
    · cases hd

/-- The parent keeps the descriptor 4 of a child that it has started. A child moves 1 to 3 and has
1 recorded, the sets end before 1024, and 1025 is refused without a status. -/
theorem ccConnAccept_not_owned :
    let o n := ccConnAccept (openBelow n) (some (acceptNext n)) .forked
    ((o 4).parent.files 4 = some 4 ∧ (o 4).parent.ret = some ccNoError ∧ ¬ (o 4).Owned 4) ∧
    (o 1).child.map (fun c => (c.swInfoFd, c.acceptFd, c.files 1)) = some (1, 3, none) ∧
    (o 1024).child.map (fun c => fdSet c.acceptFd fdZero) = some none ∧
    (o 1025).parent.ret = none :=
  ⟨⟨rfl, rfl, fun h => h.parent.closed ⟨4, rfl⟩⟩, rfl, rfl, rfl⟩

end CcPof.Controller

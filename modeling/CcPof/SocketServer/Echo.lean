import CcPof.SocketServer.BlockingSender

/-!
# The echo

`_InternalProtocolHandler`, the handler of a server that is created without one, over the whole life
of a connection: each event of the client makes it receive once and send back what it got, and the
worker arms the client again when that went well. What the client sends is one stream, that
`recv` cuts in any way, and so is what it gets.
-/

namespace CcPof.Echo

open BlockingSender

/-- Where the worker is with the client; in `returned` the handler has returned. -/
inductive Pc
  | armed
  | recv
  | sending
  | returned (ret : Int)
  | closed
  deriving DecidableEq, Repr

/-- The client has sent the bytes of `arrived`, and `received` of them have been read. `echoed` has
what the calls of `_blockingSender` that are over have sent. -/
structure Client where
  conn : Conn
  arrived : List UInt8
  received : Nat
  echoed : List UInt8
  pc : Pc

/-- All that the client gets -/
def Client.sent (e : Client) : List UInt8 :=
  if e.pc = .sending then e.echoed ++ e.conn.accepted else e.echoed

/-- What `recv` may put in `buf`: some of the bytes that are there, in their order. -/
def Client.Readable (e : Client) (count : Nat) : Prop :=
  0 < count ∧ count ≤ maxBufSize ∧ e.received + count ≤ e.arrived.length

instance (e : Client) (count : Nat) : Decidable (e.Readable count) :=
  inferInstanceAs (Decidable (_ ∧ _ ∧ _))

theorem Client.Readable.length {e : Client} {count : Nat} (h : e.Readable count) :
    ((e.arrived.drop e.received).take count).length = count := by
  rw [List.length_take, List.length_drop]
  have hle := h.2.2
  omega

def Client.read (e : Client) (count : Nat) (h : e.Readable count) : Received where
  bytes := (e.arrived.drop e.received).take count
  pos := by
    rw [h.length]
    exact h.1
  le := by
    rw [h.length]
    exact h.2.1

/-- The label is not an answer to `internalBlockingSender`. -/
def isCall : BlockingSender.Label → Bool
  | .call _ => true
  | _ => false

inductive Label
  | arrive (bytes : List UInt8)
  | event
  | recv (count : Nat)
  /-- the end of the stream, or an error -/
  | recvEnd (ret : Int)
  | sender (a : BlockingSender.Label)
  | rearm
  | close

def step (e : Client) : Label → Option Client
  | .arrive bytes =>
      if e.pc = .closed then none else some { e with arrived := e.arrived ++ bytes }
  | .event => if e.pc = .armed then some { e with pc := .recv } else none
  | .recv count =>
      if h : e.pc = .recv ∧ e.Readable count then
        (BlockingSender.step e.conn (.call (e.read count h.2))).map fun conn =>
          { e with conn := conn, received := e.received + count, pc := .sending }
      else none
  | .recvEnd ret =>
      if e.pc = .recv ∧ ret ≤ 0 then some { e with pc := .returned ret } else none
  | .sender a =>
      if e.pc = .sending ∧ isCall a = false then
        (BlockingSender.step e.conn a).map fun conn =>
          match conn.pc with
          | .returned ret =>
              { e with conn := conn, echoed := e.echoed ++ conn.accepted, pc := .returned ret }
          | _ => { e with conn := conn }
      else none
  | .rearm =>
      match e.pc with
      | .returned ret => if 0 < ret then some { e with pc := .armed } else none
      | _ => none
  -- also when `epoll_ctl` fails
  | .close =>
      match e.pc with
      | .returned _ => some { e with pc := .closed }
      | _ => none

def accepted : Client where
  conn := registered
  arrived := []
  received := 0
  echoed := []
  pc := .armed

def echo : TransitionSystem Client Label where
  init := accepted
  step := step

/-! ## What the client gets -/

/-- The bytes that have been read -/
def Client.input (e : Client) : List UInt8 := e.arrived.take e.received

/-- What is echoed, by the place of the worker -/
def Echoed (e : Client) : Prop :=
  match e.pc with
  | .armed | .recv => e.echoed = e.input
  | .sending => e.echoed ++ e.conn.buf = e.input
  | .returned ret => e.echoed <+: e.input ∧ (0 < ret → e.echoed = e.input)
  | .closed => e.echoed <+: e.input

structure EchoInv (e : Client) : Prop where
  conn : connection.Reachable e.conn
  le : e.received ≤ e.arrived.length
  echoed : Echoed e

variable {e e' : Client}

/-- A call of `_blockingSender` sends a prefix, and all of it when it returns a positive number. -/
theorem accepted_front {c : Conn} (h : connection.Reachable c) :
    c.accepted <+: c.buf ∧ ∀ ret, c.pc = .returned ret → 0 < ret → c.accepted = c.buf := by
  obtain ⟨hprogress, hplace⟩ := progress_invariant.of_reachable h
  rw [hprogress.accepted]
  refine ⟨List.take_prefix c.sum c.buf, ?_⟩
  intro ret hpc hpos
  -- It returns a positive number just when `sum` has reached the length.
  rw [AtPlace, hpc] at hplace
  rw [hplace.mp hpos]
  exact List.take_length

theorem EchoInv.arrive (h : EchoInv e) (bytes : List UInt8) :
    EchoInv { e with arrived := e.arrived ++ bytes } := by
  -- New bytes come behind those that were read.
  have hinput : Client.input { e with arrived := e.arrived ++ bytes } = e.input :=
    List.take_append_of_le_length h.le
  refine ⟨h.conn, ?_, ?_⟩
  · show e.received ≤ (e.arrived ++ bytes).length
    rw [List.length_append]
    exact Nat.le_add_right_of_le h.le
  · have hechoed := h.echoed
    unfold Echoed at hechoed ⊢
    rw [hinput]
    exact hechoed

theorem buf_behindLoop (c : Conn) (again : Bool) : (behindLoop c again).buf = c.buf := by
  unfold behindLoop
  split
  · rfl
  · split
    · split
      · rfl
      · split <;> rfl
    · rfl

theorem buf_innerLoop (c : Conn) : (innerLoop c).buf = c.buf := by
  unfold innerLoop
  split
  · rfl
  · exact buf_behindLoop c false

theorem buf_call {c c' : Conn} {received : Received}
    (hs : BlockingSender.step c (.call received) = some c') : c'.buf = received.bytes := by
  simp only [BlockingSender.step] at hs
  split at hs <;> cases hs
  · exact buf_innerLoop _
  · exact buf_innerLoop _

theorem buf_step {c c' : Conn} {a : BlockingSender.Label} (ha : isCall a = false)
    (hs : BlockingSender.step c a = some c') : c'.buf = c.buf := by
  cases a with
  | call => cases ha
  | sent count =>
    simp only [BlockingSender.step] at hs
    split at hs
    · split at hs <;> cases hs
      · exact buf_innerLoop _
      · exact buf_behindLoop _ _
    · cases hs
  | eagain | error =>
    simp only [BlockingSender.step] at hs
    split at hs <;> cases hs
    exact buf_behindLoop _ _
  | ok =>
    simp only [BlockingSender.step] at hs
    split at hs <;> cases hs
    · rfl
    · exact buf_innerLoop _
  | fail =>
    simp only [BlockingSender.step] at hs
    split at hs <;> cases hs <;> rfl

/-- The input of the call that starts is the next part of the stream. -/
theorem EchoInv.recv (h : EchoInv e) {count : Nat} (hpc : e.pc = .recv) (hread : e.Readable count)
    {conn : Conn} (hs : BlockingSender.step e.conn (.call (e.read count hread)) = some conn) :
    EchoInv { e with conn := conn, received := e.received + count, pc := .sending } := by
  have hechoed : e.echoed = e.input := by
    have hechoed := h.echoed
    rw [Echoed, hpc] at hechoed
    exact hechoed
  -- The call begins on the connection as the last one left it.
  have hreach : connection.Reachable conn := h.conn.step (a := .call (e.read count hread)) hs
  refine ⟨hreach, hread.2.2, ?_⟩
  show e.echoed ++ conn.buf = e.arrived.take (e.received + count)
  rw [hechoed, buf_call hs, List.take_add]
  rfl

theorem EchoInv.sender (h : EchoInv e) {a : BlockingSender.Label} (hpc : e.pc = .sending)
    (ha : isCall a = false) {conn : Conn} (hs : BlockingSender.step e.conn a = some conn) :
    EchoInv (match conn.pc with
      | .returned ret =>
          { e with conn := conn, echoed := e.echoed ++ conn.accepted, pc := .returned ret }
      | _ => { e with conn := conn }) := by
  have hreach : connection.Reachable conn := h.conn.step hs
  obtain ⟨hfront, hall⟩ := accepted_front hreach
  have hechoed : e.echoed ++ conn.buf = e.input := by
    have hechoed := h.echoed
    rw [Echoed, hpc] at hechoed
    rw [buf_step ha hs]
    exact hechoed
  split
  · -- The call is over: what it has sent goes to `echoed`.
    rename_i ret hret
    refine ⟨hreach, h.le, ?_, ?_⟩
    · show e.echoed ++ conn.accepted <+: e.input
      rw [← hechoed]
      exact (List.prefix_append_right_inj e.echoed).mpr hfront
    · intro hpos
      show e.echoed ++ conn.accepted = e.input
      rw [hall ret hret hpos, hechoed]
  · refine ⟨hreach, h.le, ?_⟩
    rw [Echoed, hpc]
    exact hechoed

theorem EchoInv.step {a : Label} (h : EchoInv e) (hs : Echo.step e a = some e') : EchoInv e' := by
  have hechoed := h.echoed
  cases a with
  | arrive bytes =>
    simp only [Echo.step] at hs
    split at hs <;> cases hs
    exact h.arrive bytes
  | event =>
    simp only [Echo.step] at hs
    split at hs <;> cases hs
    rename_i hpc
    rw [Echoed, hpc] at hechoed
    exact ⟨h.conn, h.le, hechoed⟩
  | recv count =>
    simp only [Echo.step] at hs
    split at hs
    · rename_i hguard
      rw [Option.map_eq_some_iff] at hs
      obtain ⟨conn, hconn, rfl⟩ := hs
      exact h.recv hguard.1 hguard.2 hconn
    · cases hs
  | recvEnd ret =>
    simp only [Echo.step] at hs
    split at hs <;> cases hs
    rename_i hguard
    rw [Echoed, hguard.1] at hechoed
    exact ⟨h.conn, h.le, hechoed ▸ List.prefix_refl _, fun _ => hechoed⟩
  | sender a =>
    simp only [Echo.step] at hs
    split at hs
    · rename_i hguard
      rw [Option.map_eq_some_iff] at hs
      obtain ⟨conn, hconn, rfl⟩ := hs
      exact h.sender hguard.1 hguard.2 hconn
    · cases hs
  | rearm =>
    simp only [Echo.step] at hs
    split at hs
    · rename_i ret hpc
      rw [Echoed, hpc] at hechoed
      split at hs <;> cases hs
      exact ⟨h.conn, h.le, hechoed.2 ‹_›⟩
    · cases hs
  | close =>
    simp only [Echo.step] at hs
    split at hs <;> cases hs
    rename_i ret hpc
    rw [Echoed, hpc] at hechoed
    exact ⟨h.conn, h.le, hechoed.1⟩

theorem echoInv_invariant : echo.Invariant EchoInv where
  init := ⟨.init, Nat.le_refl 0, rfl⟩
  step h hs := h.step hs

/-- **The echo is faithful.** However the stream is cut by `recv` and `send`, and whatever fails in
between, the client gets a prefix of what it has sent and the server has read; and when its next event
is awaited it has got all of that. -/
theorem echo_in_order (h : echo.Reachable e) :
    e.sent <+: e.arrived.take e.received ∧ (e.pc = .armed → e.sent = e.arrived.take e.received) := by
  have hI := echoInv_invariant.of_reachable h
  have hechoed := hI.echoed
  unfold Echoed at hechoed
  unfold Client.sent
  -- During a call a part of `buf` is out already.
  by_cases hpc : e.pc = .sending
  · rw [if_pos hpc, hpc]
    rw [hpc] at hechoed
    refine ⟨?_, nofun⟩
    rw [show e.arrived.take e.received = e.input from rfl, ← show _ = e.input from hechoed]
    exact (List.prefix_append_right_inj e.echoed).mpr (accepted_front hI.conn).1
  · rw [if_neg hpc]
    cases hplace : e.pc with
    | sending => exact absurd hplace hpc
    | armed | recv =>
      rw [hplace] at hechoed
      exact ⟨hechoed ▸ List.prefix_refl _, fun _ => hechoed⟩
    | returned ret =>
      rw [hplace] at hechoed
      exact ⟨hechoed.1, nofun⟩
    | closed =>
      rw [hplace] at hechoed
      exact ⟨hechoed, nofun⟩

/-- Four bytes in two events, the first answer in two parts with a wait in between. -/
def twoEvents : List Label :=
  [.arrive [1, 2, 3], .event, .recv 3, .sender (.sent 2), .arrive [4], .sender .eagain,
    .sender .ok, .sender .ok, .sender (.sent 1), .rearm, .event, .recv 1, .sender (.sent 1), .rearm]

theorem echo_in_order_twoEvents :
    ∃ e, echo.exec accepted twoEvents = some e ∧ e.pc = .armed ∧ e.sent = [1, 2, 3, 4] ∧
      e.sent <+: e.arrived.take e.received ∧ (e.pc = .armed → e.sent = e.arrived.take e.received) := by
  refine ⟨_, rfl, rfl, rfl, ?_⟩
  exact echo_in_order (echo.reachable_of_exec (l := twoEvents) rfl)

end CcPof.Echo

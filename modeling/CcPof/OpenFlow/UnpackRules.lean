import CcPof.OpenFlow.Unpack

/-!
# Rules for decoders

How the primitives of the decoder monad run, and the discipline `Honest` of a decoder that never
goes on after a failed element decoder. `Honest` is closed under sequencing, so a decoder that is
put together from honest parts is honest.
-/

namespace CcPof.OpenFlow

variable {L : OflLib} {α β : Type}

/-! ## 1. Runs of the primitives -/

@[simp] theorem bind_run (x : Unpack α) (f : α → Unpack β) (s : UnpackState) :
    (x >>= f) s = match x s with
      | .ok a s' => f a s'
      | .error e s' => .error e s' := by
  show EStateM.bind x f s = _
  unfold EStateM.bind
  cases x s with
  | ok a s' => rfl
  | error e s' => rfl

@[simp] theorem map_run (f : α → β) (x : Unpack α) (s : UnpackState) :
    (f <$> x) s = match x s with
      | .ok a s' => .ok (f a) s'
      | .error e s' => .error e s' := by
  show EStateM.map f x s = _
  unfold EStateM.map
  cases x s with
  | ok a s' => rfl
  | error e s' => rfl

theorem bind_eq_ok_iff {x : Unpack α} {f : α → Unpack β} {b : β} {s s' : UnpackState} :
    (x >>= f) s = .ok b s' ↔ ∃ a t, x s = .ok a t ∧ f a t = .ok b s' := by
  rw [bind_run]
  cases hx : x s with
  | ok a t =>
    constructor
    · exact fun h => ⟨a, t, rfl, h⟩
    · rintro ⟨_, _, ⟨⟩, h⟩
      exact h
  | error e t =>
    constructor
    · rintro ⟨⟩
    · rintro ⟨_, _, ⟨⟩, _⟩

/-- A sequence that succeeds ends with the success of its last part. -/
theorem ok_of_bind {x : Unpack α} {f : α → Unpack β} {b : β} {s s' : UnpackState}
    (h : (x >>= f) s = .ok b s') : ∃ a t, f a t = .ok b s' := by
  obtain ⟨a, t, _, hf⟩ := bind_eq_ok_iff.mp h
  exact ⟨a, t, hf⟩

theorem map_eq_ok_iff {x : Unpack α} {f : α → β} {b : β} {s s' : UnpackState} :
    (f <$> x) s = .ok b s' ↔ ∃ a, x s = .ok a s' ∧ f a = b := by
  rw [map_run]
  cases x s with
  | ok a t =>
    constructor
    · rintro ⟨⟩
      exact ⟨a, rfl, rfl⟩
    · rintro ⟨_, ⟨⟩, rfl⟩
      rfl
  | error e t =>
    constructor
    · rintro ⟨⟩
    · rintro ⟨_, ⟨⟩, _⟩

theorem ok_of_map {x : Unpack α} {f : α → β} {b : β} {s s' : UnpackState}
    (h : (f <$> x) s = .ok b s') : ∃ a, f a = b := by
  obtain ⟨a, _, hb⟩ := map_eq_ok_iff.mp h
  exact ⟨a, hb⟩

@[simp] theorem pure_run (a : α) (s : UnpackState) : (pure a : Unpack α) s = .ok a s := rfl

@[simp] theorem throw_run (e : Fault) (s : UnpackState) :
    (throw e : Unpack α) s = .error e s := rfl

@[simp] theorem get_run (s : UnpackState) : (get : Unpack UnpackState) s = .ok s s := rfl

theorem subLen_run {n : Nat} {s : UnpackState} (h : n ≤ s.len) :
    subLen n s = .ok () { s with len := s.len - n } := by
  have hlt : ¬ s.len < n := by omega
  simp only [subLen, if_pos h, decide_eq_false hlt, Bool.or_false]

theorem rejectIf_run {c : Prop} [Decidable c] {e : OflErr} {s : UnpackState} (h : ¬ c) :
    rejectIf c e s = .ok () s := by
  rw [rejectIf, if_neg h]

theorem rejectIf_reject {c : Prop} [Decidable c] {e : OflErr} {s : UnpackState} (h : c) :
    rejectIf c e s = .error (.err e) s := by
  rw [rejectIf, if_pos h]

theorem requireLen_run {n : Nat} {e : OflErr} {s : UnpackState} (h : n ≤ s.len) :
    requireLen n e s = .ok () s := by
  rw [requireLen, rejectIf_run (by omega)]

theorem requireLen_reject {n : Nat} {e : OflErr} {s : UnpackState} (h : s.len < n) :
    requireLen n e s = .error (.err e) s := by
  rw [requireLen, rejectIf_reject h]

@[simp] theorem takeRest_run (buf : Mem) (off : Nat) (s : UnpackState) :
    takeRest buf off s = .ok (load buf off s.len) { s with len := 0 } := rfl

@[simp] theorem setXid_run (v : UInt32) (s : UnpackState) :
    setXid v s = .ok () { s with xid := s.xid.map fun _ => v } := rfl

theorem orReturn_ok {a : α} {s : UnpackState} : orReturn (.ok a) s = .ok a s := rfl

theorem orReturn_error {e : OflErr} {s : UnpackState} :
    (orReturn (.error e) : Unpack α) s = .error (.err e) s := rfl

theorem nested_ok {f : Nat → Except OflErr α × Nat} {a : α} {n : Nat} {s : UnpackState}
    (h : f s.len = (.ok a, n)) : nested f s = .ok (.ok a) { s with len := n } := by
  simp only [nested, h, Except.isOk, Except.toBool, Bool.not_true, Bool.or_false]

/-- An element decoder that returns an element. -/
theorem nestedOrReturn_ok {f : Nat → Except OflErr α × Nat} {a : α} {n : Nat} {s : UnpackState}
    (h : f s.len = (.ok a, n)) : nestedOrReturn f s = .ok a { s with len := n } := by
  simp only [nestedOrReturn, bind_run, nested_ok h, orReturn_ok]

/-- An element decoder that fails ends the decoder with its error. -/
theorem nestedOrReturn_error {f : Nat → Except OflErr α × Nat} {e : OflErr} {n : Nat}
    {s : UnpackState} (h : f s.len = (.error e, n)) :
    nestedOrReturn f s = .error (.err e) { s with len := n, failed := true } := by
  have hrun : nested f s = .ok (.error e) { s with len := n, failed := true } := by
    simp only [nested, h, Except.isOk, Except.toBool, Bool.not_false, Bool.or_true]
  simp only [nestedOrReturn, bind_run, hrun, orReturn_error]

/-- The state in which `ofl_msg_unpack` enters its `switch`. -/
def bodyState (buf : Mem) (bufLen : Nat) (xid : Option UInt32) : UnpackState :=
  { len := bufLen
    xid := xid.map fun _ => ntohl (get32 buf OfpHeader.xid)
    wrapped := false
    failed := false }

/-- A header with the right version and length leads to the decoder of its type. -/
theorem oflMsgUnpack_of_header (exp : Option (OflExp L)) {buf : Mem} {bufLen : Nat}
    (xid : Option UInt32) (hlen : 8 ≤ bufLen) (hversion : buf 0 = ofpVersion)
    (hlength : (ntohs (get16 buf 2)).toNat = bufLen) :
    oflMsgUnpack exp buf bufLen xid =
      unpackBody exp buf (OfpType.ofUInt8? (buf 1)) (bodyState buf bufLen xid) := by
  have hheader : unpackHeader buf bufLen ⟨bufLen, xid, false, false⟩ =
      .ok () (bodyState buf bufLen xid) := by
    simp [unpackHeader, Nat.not_lt.mpr hlen, rejectIf_run, hversion, hlength, bodyState]
  simp only [oflMsgUnpack, bind_run, hheader, OfpHeader.type]

/-- A buffer that is too short for a header is refused before anything is read. -/
theorem oflMsgUnpack_of_short (exp : Option (OflExp L)) {buf : Mem} {bufLen : Nat}
    (xid : Option UInt32) (hlen : bufLen < 8) :
    oflMsgUnpack exp buf bufLen xid =
      .error (.err badLen) ⟨bufLen, xid.map fun _ => 0, false, false⟩ := by
  simp [oflMsgUnpack, unpackHeader, hlen]

/-- Another version is refused before `*xid` is set. -/
theorem oflMsgUnpack_of_version (exp : Option (OflExp L)) {buf : Mem} {bufLen : Nat}
    (xid : Option UInt32) (hlen : 8 ≤ bufLen) (hversion : buf 0 ≠ ofpVersion) :
    oflMsgUnpack exp buf bufLen xid =
      .error (.err (.ofl .helloFailed ofphfcIncompatible)) ⟨bufLen, xid, false, false⟩ := by
  simp [oflMsgUnpack, unpackHeader, Nat.not_lt.mpr hlen, rejectIf_reject, hversion]

theorem oflMsgUnpack_of_length (exp : Option (OflExp L)) {buf : Mem} {bufLen : Nat}
    (xid : Option UInt32) (hlen : 8 ≤ bufLen) (hversion : buf 0 = ofpVersion)
    (hlength : (ntohs (get16 buf 2)).toNat ≠ bufLen) :
    oflMsgUnpack exp buf bufLen xid = .error (.err badLen) (bodyState buf bufLen xid) := by
  simp [oflMsgUnpack, unpackHeader, Nat.not_lt.mpr hlen, rejectIf_run, hversion, rejectIf_reject,
    Ne.symm hlength, bodyState]

/-- The multipart type that the message in `buf` carries. -/
def multipartType (buf : Mem) : Option OfpMultipartType :=
  OfpMultipartType.ofUInt16? (ntohs (get16 buf OfpMultipartRequest.type))

/-- A multipart message behind its header is what its body is. -/
theorem multipartRequest_run (exp : Option (OflExp L)) (buf : Mem) {s : UnpackState}
    (hlen : OfpMultipartRequest.size ≤ s.len) :
    oflMsgUnpackMultipartRequest exp buf s =
      ((fun body => .multipartRequest (ntohs (get16 buf OfpMultipartRequest.flags)) body) <$>
        unpackRequestBody exp buf (multipartType buf))
          { s with len := s.len - OfpMultipartRequest.size } := by
  simp only [oflMsgUnpackMultipartRequest, bind_run, map_run, pure_run, requireLen_run hlen,
    subLen_run hlen, multipartType]

theorem multipartReply_run (exp : Option (OflExp L)) (buf : Mem) {s : UnpackState}
    (hlen : OfpMultipartReply.size ≤ s.len) :
    oflMsgUnpackMultipartReply exp buf s =
      ((fun body => .multipartReply (ntohs (get16 buf OfpMultipartReply.flags)) body) <$>
        unpackReplyBody exp buf (multipartType buf))
          { s with len := s.len - OfpMultipartReply.size } := by
  simp only [oflMsgUnpackMultipartReply, bind_run, map_run, pure_run, requireLen_run hlen,
    subLen_run hlen, multipartType]

theorem multipartRequest_short (exp : Option (OflExp L)) (buf : Mem) {s : UnpackState}
    (hlen : s.len < OfpMultipartRequest.size) :
    oflMsgUnpackMultipartRequest exp buf s = .error (.err badLen) s := by
  simp only [oflMsgUnpackMultipartRequest, bind_run, requireLen_reject hlen]

theorem multipartReply_short (exp : Option (OflExp L)) (buf : Mem) {s : UnpackState}
    (hlen : s.len < OfpMultipartReply.size) :
    oflMsgUnpackMultipartReply exp buf s = .error (.err badLen) s := by
  simp only [oflMsgUnpackMultipartReply, bind_run, requireLen_reject hlen]

/-! ## 2. Decoders that report every element error -/

/-- A run is sound when an element decoder that failed during it shows in its error. -/
def ReportsFailure (r : EStateM.Result Fault UnpackState α) : Prop :=
  match r with
  | .ok _ s => s.failed = false
  | .error (.err _) _ => True
  | .error _ s => s.failed = false

structure Honest (x : Unpack α) : Prop where
  reports : ∀ s : UnpackState, s.failed = false → ReportsFailure (x s)

theorem Honest.bind {x : Unpack α} {f : α → Unpack β} (hx : Honest x) (hf : ∀ a, Honest (f a)) :
    Honest (x >>= f) := by
  constructor
  intro s hs
  have h := hx.reports s hs
  rw [bind_run]
  cases hr : x s with
  | ok a s' =>
    rw [hr] at h
    exact (hf a).reports s' h
  | error e s' =>
    rw [hr] at h
    cases e <;> exact h

theorem Honest.map {x : Unpack α} {f : α → β} (hx : Honest x) : Honest (f <$> x) := by
  constructor
  intro s hs
  have h := hx.reports s hs
  rw [map_run]
  cases hr : x s with
  | ok a s' =>
    rw [hr] at h
    exact h
  | error e s' =>
    rw [hr] at h
    cases e <;> exact h

theorem Honest.pure (a : α) : Honest (pure a : Unpack α) := ⟨fun _ hs => hs⟩

theorem Honest.get : Honest (get : Unpack UnpackState) := ⟨fun _ hs => hs⟩

theorem Honest.throw (e : Fault) : Honest (throw e : Unpack α) := by
  constructor
  intro s hs
  cases e with
  | err e => exact trivial
  | nullCall => exact hs
  | segv => exact hs

theorem Honest.subLen (n : Nat) : Honest (subLen n) := ⟨fun _ hs => hs⟩

theorem Honest.rejectIf (c : Prop) [Decidable c] (e : OflErr) : Honest (rejectIf c e) := by
  constructor
  intro s hs
  by_cases hc : c
  · rw [rejectIf_reject hc]
    exact trivial
  · rw [rejectIf_run hc]
    exact hs

theorem Honest.requireLen (n : Nat) (e : OflErr) : Honest (requireLen n e) :=
  ⟨fun s hs => (Honest.rejectIf (s.len < n) e).reports s hs⟩

theorem Honest.takeRest (buf : Mem) (off : Nat) : Honest (takeRest buf off) := ⟨fun _ hs => hs⟩

theorem Honest.orReturn (r : Except OflErr α) : Honest (orReturn r) := by
  cases r with
  | ok a => exact Honest.pure a
  | error e => exact Honest.throw (.err e)

theorem Honest.nestedOrReturn (f : Nat → Except OflErr α × Nat) : Honest (nestedOrReturn f) := by
  constructor
  intro s hs
  cases hf : f s.len with
  | mk r n =>
    cases r with
    | ok a =>
      rw [nestedOrReturn_ok hf]
      exact hs
    | error e =>
      rw [nestedOrReturn_error hf]
      exact trivial

theorem Honest.unpackArr (unpack : ElemDecoder α) (stride : Mem → Nat → Nat) (buf : Mem) (n : Nat) :
    ∀ pos, Honest (unpackArr unpack stride buf n pos) := by
  induction n with
  | zero => exact fun _ => Honest.pure _
  | succ n ih =>
    intro pos
    exact (Honest.nestedOrReturn _).bind fun _ => (ih _).bind fun _ => Honest.pure _

theorem Honest.unpackRest (count : Mem → (pos len : Nat) → Except OflErr Nat)
    (unpack : ElemDecoder α) (stride : Mem → Nat → Nat) (buf : Mem) (pos : Nat) :
    Honest (unpackRest count unpack stride buf pos) :=
  Honest.get.bind fun _ => (Honest.orReturn _).bind fun n => Honest.unpackArr _ _ _ n pos

/-! ## 3. Runs that succeed -/

def Succeeds (x : Unpack α) (s : UnpackState) : Prop := ∃ a s', x s = .ok a s'

theorem succeeds_pure (a : α) (s : UnpackState) : Succeeds (pure a) s := ⟨a, s, rfl⟩

theorem succeeds_bind (x : Unpack α) (f : α → Unpack β) (s : UnpackState) :
    Succeeds (x >>= f) s ↔ ∃ a t, x s = .ok a t ∧ Succeeds (f a) t := by
  unfold Succeeds
  simp only [bind_eq_ok_iff]
  constructor
  · rintro ⟨b, s', a, t, hx, hf⟩
    exact ⟨a, t, hx, b, s', hf⟩
  · rintro ⟨a, t, hx, b, s', hf⟩
    exact ⟨b, s', a, t, hx, hf⟩

theorem succeeds_map (f : α → β) (x : Unpack α) (s : UnpackState) :
    Succeeds (f <$> x) s ↔ Succeeds x s := by
  unfold Succeeds
  rw [map_run]
  cases x s with
  | ok a t => exact ⟨fun _ => ⟨a, t, rfl⟩, fun _ => ⟨f a, t, rfl⟩⟩
  | error e t =>
    constructor
    · rintro ⟨_, _, ⟨⟩⟩
    · rintro ⟨_, _, ⟨⟩⟩

/-- A step that succeeds can be left out. -/
theorem succeeds_bind_of_ok {x : Unpack α} {f : α → Unpack β} {a : α} {s t : UnpackState}
    (hx : x s = .ok a t) : Succeeds (x >>= f) s ↔ Succeeds (f a) t := by
  unfold Succeeds
  rw [bind_run, hx]

theorem succeeds_rejectIf (c : Prop) [Decidable c] (e : OflErr) (f : Unit → Unpack β)
    (s : UnpackState) : Succeeds (rejectIf c e >>= f) s ↔ ¬ c ∧ Succeeds (f ()) s := by
  by_cases hc : c
  · refine iff_of_false ?_ fun h => h.1 hc
    rw [succeeds_bind, rejectIf_reject hc]
    rintro ⟨_, _, ⟨⟩, _⟩
  · rw [succeeds_bind_of_ok (rejectIf_run hc), and_iff_right hc]

theorem succeeds_orReturn (r : Except OflErr α) (f : α → Unpack β) (s : UnpackState) :
    Succeeds (orReturn r >>= f) s ↔ ∃ a, r = .ok a ∧ Succeeds (f a) s := by
  cases r with
  | ok a =>
    rw [succeeds_bind_of_ok orReturn_ok]
    constructor
    · exact fun h => ⟨a, rfl, h⟩
    · rintro ⟨_, ⟨⟩, h⟩
      exact h
  | error e =>
    rw [succeeds_bind, orReturn_error]
    constructor
    · rintro ⟨_, _, ⟨⟩, _⟩
    · rintro ⟨_, ⟨⟩, _⟩

end CcPof.OpenFlow

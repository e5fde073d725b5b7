import CcPof.OpenFlow.Rejections

/-!
# The checks of the decoder

What `ofl_msg_unpack` and its decoders check before an early return, in the order of the code: for
each check what it asks, whether the message fails it, and what the code returns there. An error
that the decoder returns is the report of the first check that fails, or comes from outside.
-/

namespace CcPof.OpenFlow

variable {L : OflLib} {α β : Type}

/-! ## 1. The table -/

inductive Check where
  | header
  | version
  | length
  | type
  | bodyLength
  | multipartType
  | experimenter
  | tableId
  | groupCommand
  | groupType
  | groupId
  | groupBuckets
  | meterCommand
  | meterFlags
  | meterId
  | queuePort
  | statsPort
  deriving DecidableEq, Repr

/-- The pairs that name a check. A statistics request with a bad port may be called a bad request or
a failed queue operation. -/
def Check.pairs : Check → List OflErr
  | .header | .length | .bodyLength => [badLen]
  | .version => [.ofl .helloFailed ofphfcIncompatible]
  | .type => [.ofl .badRequest ofpbrcBadType]
  | .multipartType => [badMultipart]
  | .experimenter => [.ofl .badRequest ofpbrcBadExperimenter]
  | .tableId => [.ofl .badRequest ofpbrcBadTableId]
  | .groupCommand => [.ofl .groupModFailed ofpgmfcBadCommand]
  | .groupType => [.ofl .groupModFailed ofpgmfcBadType]
  | .groupId | .groupBuckets => [.ofl .groupModFailed ofpgmfcInvalidGroup]
  | .meterCommand => [.ofl .meterModFailed ofpmmfcBadCommand]
  | .meterFlags => [.ofl .meterModFailed ofpmmfcBadFlags]
  | .meterId => [.ofl .meterModFailed ofpmmfcInvalidMeter]
  | .queuePort => [.ofl .queueOpFailed ofpqofcBadPort]
  | .statsPort => [.ofl .badRequest ofpbrcBadPort, .ofl .queueOpFailed ofpqofcBadPort]

/-- A check on a message. `report` is what the code returns where the message fails it, and `none`
where the code has no test that could fire. -/
structure Guard where
  check : Check
  fails : Bool
  report : Option OflErr

def Guard.on (c : Check) (p : Prop) [Decidable p] (e : OflErr) : Guard := ⟨c, decide p, some e⟩

def Guard.untested (c : Check) (p : Prop) [Decidable p] : Guard := ⟨c, decide p, none⟩

/-- The code returns here. -/
def Guard.fires (g : Guard) : Bool := g.fails && g.report.isSome

theorem Guard.untested_fires (c : Check) (p : Prop) [Decidable p] :
    (Guard.untested c p).fires = false :=
  Bool.and_false _

def BadGroupCommand (buf : Mem) : Prop := ofpgcDelete < ntohs (get16 buf OfpGroupMod.command)

/-- The types that the protocol leaves undefined. -/
def BadGroupType (buf : Mem) : Prop :=
  ofpgtFf < (buf OfpGroupMod.type).toUInt16 ∧ (buf OfpGroupMod.type).toUInt16 < 128

def BadGroupId (buf : Mem) : Prop :=
  ofpgMax < ntohl (get32 buf OfpGroupMod.groupId) ∧
    ¬(ntohs (get16 buf OfpGroupMod.command) = ofpgcDelete ∧
      ntohl (get32 buf OfpGroupMod.groupId) = ofpgAll)

def BadMeterCommand (buf : Mem) : Prop := ofpmcDelete < ntohs (get16 buf OfpMeterMod.command)

def BadMeterFlags (buf : Mem) : Prop := (1 : UInt16) < ntohs (get16 buf OfpMeterMod.flags) >>> 3

def BadMeterId (buf : Mem) : Prop :=
  ofpmMax < ntohl (get32 buf OfpMeterMod.meterId) ∧
    ¬(ntohs (get16 buf OfpMeterMod.command) = ofpmcDelete ∧
      ntohl (get32 buf OfpMeterMod.meterId) = ofpmAll)

def BadQueuePort (buf : Mem) : Prop :=
  ntohl (get32 buf OfpQueueGetConfigRequest.port) = 0 ∨
    ofppMax < ntohl (get32 buf OfpQueueGetConfigRequest.port)

/-- The port of a statistics request stands at the offset `off` of its body. -/
def BadStatsPort (buf : Mem) (off : Nat) : Prop :=
  badStatsPort (ntohl (get32 buf (OfpMultipartRequest.body + off)))

section Decidable

variable (buf : Mem) (off : Nat)

instance : Decidable (BadGroupCommand buf) := inferInstanceAs (Decidable (_ < _))
instance : Decidable (BadGroupType buf) := inferInstanceAs (Decidable (_ ∧ _))
instance : Decidable (BadGroupId buf) := inferInstanceAs (Decidable (_ ∧ _))
instance : Decidable (BadMeterCommand buf) := inferInstanceAs (Decidable (_ < _))
instance : Decidable (BadMeterFlags buf) := inferInstanceAs (Decidable (_ < _))
instance : Decidable (BadMeterId buf) := inferInstanceAs (Decidable (_ ∧ _))
instance : Decidable (BadQueuePort buf) := inferInstanceAs (Decidable (_ ∨ _))
instance : Decidable (BadStatsPort buf off) := inferInstanceAs (Decidable (badStatsPort _))

end Decidable

/-- The two checks on the number of buckets, which `n` bytes hold. -/
def bucketGuards (L : OflLib) (buf : Mem) (n : Nat) : List Guard :=
  match L.bucketCount buf OfpGroupMod.buckets n with
  | .ok k =>
      [.on .groupBuckets (ntohs (get16 buf OfpGroupMod.command) = ofpgcDelete ∧ 0 < k)
          (.ofl .groupModFailed ofpgmfcInvalidGroup),
        .on .groupBuckets (buf OfpGroupMod.type = ofpgtIndirect ∧ k ≠ 1)
          (.ofl .groupModFailed ofpgmfcInvalidGroup)]
  | .error _ => []

/-- A request body of `n` bytes. A type that no `case` or no callback takes is an unknown one. -/
def requestGuards (exp : Option (OflExp L)) (buf : Mem) (n : Nat) :
    Option OfpMultipartType → List Guard
  | some .flow | some .aggregate =>
      [.on .bodyLength (n < OfpFlowStatsRequest.size - OfpMatch.size) badLen]
  | some .portStats =>
      [.on .bodyLength (n < OfpPortStatsRequest.size) badLen,
        .on .statsPort (BadStatsPort buf OfpPortStatsRequest.portNo) badLen]
  | some .queue =>
      [.on .bodyLength (n < OfpQueueStatsRequest.size) badLen,
        .on .statsPort (BadStatsPort buf OfpQueueStatsRequest.portNo) badLen]
  | some .group => [.on .bodyLength (n < OfpGroupStatsRequest.size) badLen]
  | some .meter | some .meterConfig =>
      [.on .bodyLength (n < OfpMeterMultipartRequest.size) badLen]
  | some .experimenter =>
      [.on .multipartType ((OflExp.statsReplyUnpack exp).isNone = true) badMultipart]
  | some .meterFeatures | none => [.on .multipartType True badMultipart]
  | some .desc | some .table | some .tableFeatures | some .groupDesc | some .groupFeatures
  | some .portDesc => []

def replyGuards (exp : Option (OflExp L)) (n : Nat) : Option OfpMultipartType → List Guard
  | some .desc => [.on .bodyLength (n < OfpDesc.size) badLen]
  | some .aggregate => [.on .bodyLength (n < OfpAggregateStatsReply.size) badLen]
  | some .groupFeatures => [.on .bodyLength (n < OfpGroupFeaturesStats.size) badLen]
  | some .experimenter =>
      [.on .multipartType ((OflExp.statsReplyUnpack exp).isNone = true) badMultipart]
  | some .meterFeatures | none => [.on .multipartType True badMultipart]
  | some .flow | some .table | some .tableFeatures | some .portStats | some .queue | some .group
  | some .groupDesc | some .meter | some .meterConfig | some .portDesc => []

/-- A message of `n` bytes behind the checks of its header. -/
def bodyGuards (exp : Option (OflExp L)) (buf : Mem) (n : Nat) : Option OfpType → List Guard
  | some .error => [.on .bodyLength (n < OfpErrorMsg.size) .oflError]
  | some .experimenter =>
      [.on .experimenter ((OflExp.msgUnpack exp).isNone = true)
        (.ofl .badRequest ofpbrcBadExperimenter)]
  | some .getConfigReply | some .setConfig => [.on .bodyLength (n < OfpSwitchConfig.size) badLen]
  | some .packetIn =>
      [.on .bodyLength (n < OfpPacketIn.size) badLen,
        .on .tableId (buf OfpPacketIn.tableId = 0xff) (.ofl .badRequest ofpbacBadArgument)]
  | some .flowRemoved =>
      [.on .bodyLength (n < OfpFlowRemoved.size - OfpMatch.size) .oflError,
        .on .tableId (buf OfpFlowRemoved.tableId = 0xff) (.ofl .badRequest ofpbacBadArgument)]
  | some .portStatus => [.on .bodyLength (n < OfpPortStatus.size) badLen]
  | some .getAsyncReply | some .setAsync => [.on .bodyLength (n < OfpAsyncConfig.size) badLen]
  | some .packetOut =>
      [.on .bodyLength (n < OfpPacketOut.size) badLen,
        .on .bodyLength (ntohl (get32 buf OfpPacketOut.bufferId) ≠ 0xffffffff ∧
          n ≠ OfpPacketOut.size + (ntohs (get16 buf OfpPacketOut.actionsLen)).toNat) badLen,
        .on .bodyLength
          (n - OfpPacketOut.size < (ntohs (get16 buf OfpPacketOut.actionsLen)).toNat) badLen]
  | some .flowMod => [.on .bodyLength (n < OfpFlowMod.size - OfpMatch.size) badLen]
  | some .groupMod =>
      [.on .bodyLength (n < OfpGroupMod.size) badLen,
        .on .groupCommand (BadGroupCommand buf) (.ofl .badRequest ofpgmfcBadCommand),
        -- the test of the code is on the swapped type: `groupTypeCheck_passes`
        .untested .groupType (BadGroupType buf),
        .on .groupId (BadGroupId buf) (.ofl .groupModFailed ofpgmfcInvalidGroup)] ++
      bucketGuards L buf (n - OfpGroupMod.size)
  | some .portMod => [.on .bodyLength (n < OfpPortMod.size) badLen]
  | some .tableMod => [.on .bodyLength (n < OfpTableMod.size) badLen]
  | some .multipartRequest =>
      .on .bodyLength (n < OfpMultipartRequest.size) badLen ::
        requestGuards exp buf (n - OfpMultipartRequest.size) (multipartType buf)
  | some .multipartReply =>
      .on .bodyLength (n < OfpMultipartReply.size) badLen ::
        replyGuards exp (n - OfpMultipartReply.size) (multipartType buf)
  | some .queueGetConfigRequest =>
      [.on .bodyLength (n < OfpGroupDescStats.size) badLen,
        .on .queuePort (BadQueuePort buf) (.ofl .queueOpFailed ofpqofcBadPort)]
  | some .queueGetConfigReply => [.on .bodyLength (n < OfpQueueGetConfigReply.size) badLen]
  | some .roleRequest | some .roleReply => [.on .bodyLength (n < OfpRoleRequest.size) badLen]
  | some .meterMod =>
      [.on .bodyLength (n < OfpMeterMod.size) badLen,
        .on .meterCommand (BadMeterCommand buf) (.ofl .badRequest ofpmmfcBadCommand),
        .on .meterFlags (BadMeterFlags buf) (.ofl .badRequest ofpmmfcBadFlags),
        .on .meterId (BadMeterId buf) (.ofl .meterModFailed ofpmmfcInvalidMeter)]
  | none => [.on .type True (.ofl .badRequest ofpgmfcBadType)]
  | some .hello | some .echoRequest | some .echoReply | some .featuresRequest
  | some .featuresReply | some .getConfigRequest | some .getAsyncRequest | some .barrierRequest
  | some .barrierReply => []

/-- The checks of `ofl_msg_unpack` on a buffer. -/
def guards (exp : Option (OflExp L)) (buf : Mem) (bufLen : Nat) : List Guard :=
  .on .header (bufLen < OfpHeader.size) badLen ::
  .on .version (buf OfpHeader.version ≠ ofpVersion) (.ofl .helloFailed ofphfcIncompatible) ::
  .on .length (bufLen ≠ (ntohs (get16 buf OfpHeader.length)).toNat) badLen ::
  bodyGuards exp buf bufLen (OfpType.ofUInt8? (buf OfpHeader.type))

/-! ## 2. What is reported -/

/-- The error is the report of the first check that fires, or comes from outside. -/
def Reported (gs : List Guard) (e : OflErr) : Prop :=
  match gs.find? Guard.fires with
  | some g => g.report = some e
  | none => e.Foreign

/-- A run that succeeds passes all checks that can fire, and one that fails reports the first. -/
def Follows (gs : List Guard) (r : EStateM.Result Fault UnpackState α) : Prop :=
  match r with
  | .ok _ _ => gs.find? Guard.fires = none
  | .error (.err e) _ => Reported gs e
  | .error _ _ => True

namespace Follows

variable {gs : List Guard} {c : Check} {e : OflErr} {s : UnpackState}

theorem cons {g : Guard} {r : EStateM.Result Fault UnpackState α} (hg : g.fires = false)
    (h : Follows gs r) : Follows (g :: gs) r := by
  have hfind : (g :: gs).find? Guard.fires = gs.find? Guard.fires := by
    rw [List.find?_cons, hg]
  unfold Follows Reported
  rw [hfind]
  exact h

theorem reject {p : Prop} [Decidable p] (hp : p) (t : UnpackState) :
    Follows (Guard.on c p e :: gs) (.error (.err e) t : EStateM.Result Fault UnpackState α) := by
  have hfires : (Guard.on c p e).fires = true := by
    simp only [Guard.on, Guard.fires, decide_eq_true hp, Option.isSome_some, Bool.and_true]
  show Reported _ e
  unfold Reported
  rw [List.find?_cons, hfires]
  rfl

theorem pass {p : Prop} [Decidable p] {r : EStateM.Result Fault UnpackState α} (hp : ¬ p)
    (h : Follows gs r) : Follows (Guard.on c p e :: gs) r :=
  cons (by simp only [Guard.on, Guard.fires, decide_eq_false hp, Bool.false_and]) h

/-- A call through a null pointer reports nothing. -/
theorem nullCall (t : UnpackState) :
    Follows gs (.error .nullCall t : EStateM.Result Fault UnpackState α) := trivial

theorem reported {t : UnpackState}
    (h : Follows gs (.error (.err e) t : EStateM.Result Fault UnpackState α)) : Reported gs e := h

theorem of_raisesOnly {es : List Fault} {x : Unpack α} (h : RaisesOnly es x)
    (hes : ∀ e, .err e ∉ es) : Follows [] (x s) := by
  have hends := h.run s
  cases hx : x s with
  | ok a t => rfl
  | error f t =>
    rw [hx] at hends
    cases f with
    | err e => exact hends.2.resolve_left (hes e)
    | nullCall => trivial
    | segv => trivial

theorem foreign {x : Unpack α} (h : RaisesOnly [] x) : Follows [] (x s) :=
  of_raisesOnly h fun _ => List.not_mem_nil

theorem map {x : Unpack α} {f : α → β} (h : Follows gs (x s)) : Follows gs ((f <$> x) s) := by
  rw [map_run]
  cases hx : x s with
  | ok a t =>
    rw [hx] at h
    exact h
  | error e t =>
    rw [hx] at h
    cases e <;> exact h

/-- Behind a decoder only errors from outside follow. -/
theorem bind {x : Unpack α} {f : α → Unpack β} (h : Follows gs (x s))
    (hf : ∀ a, RaisesOnly [] (f a)) : Follows gs ((x >>= f) s) := by
  rw [bind_run]
  cases hx : x s with
  | ok a t =>
    rw [hx] at h
    have hrest : Follows [] (f a t) := foreign (hf a)
    show Follows gs (f a t)
    unfold Follows Reported
    rw [show gs.find? Guard.fires = [].find? Guard.fires from h]
    exact hrest
  | error e t =>
    rw [hx] at h
    cases e <;> exact h

theorem rejectIf {p : Prop} [Decidable p] {f : Unit → Unpack α} (h : Follows gs (f () s)) :
    Follows (Guard.on c p e :: gs) ((rejectIf p e >>= f) s) := by
  by_cases hp : p
  · rw [bind_run, rejectIf_reject hp]
    exact reject hp s
  · rw [bind_run, rejectIf_run hp]
    exact pass hp h

theorem requireLen {n : Nat} {f : Unit → Unpack α} (h : n ≤ s.len → Follows gs (f () s)) :
    Follows (Guard.on c (s.len < n) e :: gs) ((requireLen n e >>= f) s) := by
  by_cases hlen : s.len < n
  · rw [bind_run, requireLen_reject hlen]
    exact reject hlen s
  · rw [bind_run, requireLen_run (Nat.le_of_not_lt hlen)]
    exact pass hlen (h (Nat.le_of_not_lt hlen))

theorem subLen {n : Nat} {f : Unit → Unpack α} (hlen : n ≤ s.len)
    (h : Follows gs (f () { s with len := s.len - n })) : Follows gs ((subLen n >>= f) s) := by
  rw [bind_run, subLen_run hlen]
  exact h

/-- The opening of most decoders. -/
theorem guarded {n : Nat} {f : Unit → Unpack α}
    (h : n ≤ s.len → Follows gs (f () { s with len := s.len - n })) :
    Follows (Guard.on c (s.len < n) e :: gs)
      ((CcPof.OpenFlow.requireLen n e >>= fun _ => CcPof.OpenFlow.subLen n >>= f) s) :=
  requireLen fun hlen => subLen hlen (h hlen)

/-- The decoders that check their length only. -/
theorem short {n : Nat} {f : Unit → Unpack α} (h : ∀ u, RaisesOnly [] (f u)) :
    Follows [Guard.on c (s.len < n) e] ((CcPof.OpenFlow.requireLen n e >>= f) s) :=
  requireLen fun _ => foreign (h ())

theorem get {f : UnpackState → Unpack α} (h : Follows gs (f s s)) :
    Follows gs ((get >>= f) s) := by
  rw [bind_run, get_run]
  exact h

theorem orReturn {r : Except OflErr α} {f : α → Unpack β}
    (hok : ∀ a, r = .ok a → Follows gs (f a s))
    (herror : ∀ e, r = .error e → gs = [] ∧ e.Foreign) : Follows gs ((orReturn r >>= f) s) := by
  cases r with
  | ok a =>
    rw [bind_run, orReturn_ok]
    exact hok a rfl
  | error e =>
    obtain ⟨rfl, hforeign⟩ := herror e rfl
    rw [bind_run, orReturn_error]
    exact hforeign

end Follows

-- From here on the rules are used, and no goal evaluates the run that it speaks of.
attribute [irreducible] Follows

/-! ## 3. The decoders -/

variable {exp : Option (OflExp L)} {buf : Mem} {s : UnpackState}

theorem follows_packetIn :
    Follows (bodyGuards exp buf s.len (some .packetIn)) (oflMsgUnpackPacketIn (L := L) buf s) :=
  Follows.requireLen fun _ => Follows.rejectIf <| Follows.foreign <|
    RaisesOnly.subLen.bind fun _ => (RaisesOnly.nested _).bind fun _ =>
    RaisesOnly.subLen.bind fun _ => RaisesOnly.takeRest.bind fun _ => RaisesOnly.pure _

theorem follows_flowRemoved (hL : L.ErrorsMarked exp) :
    Follows (bodyGuards exp buf s.len (some .flowRemoved))
      (oflMsgUnpackFlowRemoved (L := L) buf s) :=
  Follows.requireLen fun _ => Follows.rejectIf <| Follows.foreign <|
    RaisesOnly.subLen.bind fun _ =>
    (RaisesOnly.nestedOrReturn (hL.matchUnpack _ _ _)).bind fun _ => RaisesOnly.pure _

theorem follows_packetOut (hL : L.ErrorsMarked exp) :
    Follows (bodyGuards exp buf s.len (some .packetOut)) (oflMsgUnpackPacketOut (L := L) buf s) :=
  Follows.requireLen fun hlen => Follows.get <| Follows.rejectIf <| Follows.subLen hlen <|
    Follows.short (s := { s with len := s.len - OfpPacketOut.size }) fun _ =>
    (RaisesOnly.orReturn (hL.actionCount _ _ _)).bind fun n =>
    (RaisesOnly.unpackArrLax n _).bind fun _ => RaisesOnly.takeRest.bind fun _ => RaisesOnly.pure _

theorem bucketGuards_of_ok {n k : Nat} (h : L.bucketCount buf OfpGroupMod.buckets n = .ok k) :
    bucketGuards L buf n =
      [.on .groupBuckets (ntohs (get16 buf OfpGroupMod.command) = ofpgcDelete ∧ 0 < k)
          (.ofl .groupModFailed ofpgmfcInvalidGroup),
        .on .groupBuckets (buf OfpGroupMod.type = ofpgtIndirect ∧ k ≠ 1)
          (.ofl .groupModFailed ofpgmfcInvalidGroup)] := by
  rw [bucketGuards, h]

theorem bucketGuards_of_error {n : Nat} {e : OflErr}
    (h : L.bucketCount buf OfpGroupMod.buckets n = .error e) : bucketGuards L buf n = [] := by
  rw [bucketGuards, h]

theorem follows_groupMod (hL : L.ErrorsMarked exp) :
    Follows (bodyGuards exp buf s.len (some .groupMod)) (oflMsgUnpackGroupMod (L := L) buf s) := by
  refine Follows.guarded fun _ => Follows.rejectIf ?_
  rw [bind_run, rejectIf_run (groupTypeCheck_passes _)]
  refine Follows.cons (Guard.untested_fires _ _) ?_
  refine Follows.rejectIf (Follows.get (Follows.orReturn ?_ ?_))
  · intro n hcount
    show Follows (bucketGuards L buf (s.len - OfpGroupMod.size)) _
    rw [bucketGuards_of_ok hcount]
    exact Follows.rejectIf <| Follows.rejectIf <| Follows.foreign <|
      (RaisesOnly.unpackArr (hL.bucketUnpack _ _) n _).bind fun _ => RaisesOnly.pure _
  · intro e hcount
    exact ⟨bucketGuards_of_error hcount, hL.bucketCount _ _ _ _ hcount⟩

theorem follows_meterMod (hL : L.ErrorsMarked exp) :
    Follows (bodyGuards exp buf s.len (some .meterMod)) (oflMsgUnpackMeterMod (L := L) buf s) :=
  Follows.guarded fun _ => Follows.rejectIf <| Follows.rejectIf <| Follows.rejectIf <|
    Follows.foreign <|
    (RaisesOnly.unpackRest (hL.elemCount .meterBand _ _) (hL.elemUnpack .meterBand _)).bind
      fun _ => RaisesOnly.pure _

theorem follows_queueGetConfigRequest :
    Follows (bodyGuards exp buf s.len (some .queueGetConfigRequest))
      (oflMsgUnpackQueueGetConfigRequest buf s) :=
  Follows.requireLen fun _ => Follows.rejectIf <| Follows.foreign <|
    RaisesOnly.subLen.bind fun _ => RaisesOnly.pure _

theorem follows_callStats {tested : Option β} {called : Option (ElemDecoder α)}
    (hforeign : ∀ unpack, called = some unpack →
      ∀ buf pos len e, (unpack buf pos len).1 = .error e → e.Foreign) :
    Follows [.on .multipartType (tested.isNone = true) badMultipart]
      (callStats tested called buf s) := by
  cases tested with
  | none => exact Follows.reject rfl s
  | some t =>
    refine Follows.pass (by simp) ?_
    cases called with
    | none => exact Follows.nullCall s
    | some unpack =>
      exact Follows.foreign (RaisesOnly.nestedOrReturn (hforeign unpack rfl buf 0))

theorem follows_requestBody (hL : L.ErrorsMarked exp) (t : Option OfpMultipartType) :
    Follows (requestGuards exp buf s.len t) (unpackRequestBody exp buf t s) := by
  cases t with
  | none => exact Follows.reject trivial s
  | some t =>
    cases t with
    | meterFeatures => exact Follows.reject trivial s
    | flow | aggregate =>
      exact (Follows.short fun _ => RaisesOnly.subLen.bind fun _ =>
        (RaisesOnly.nestedOrReturn (hL.matchUnpack _ _ _)).bind fun _ => RaisesOnly.pure _).map
    | portStats | queue =>
      exact (Follows.requireLen fun _ => Follows.rejectIf <| Follows.foreign <|
        RaisesOnly.subLen.bind fun _ => RaisesOnly.pure _).map
    | group | meter | meterConfig =>
      exact (Follows.short fun _ => RaisesOnly.subLen.bind fun _ => RaisesOnly.pure _).map
    | experimenter => exact (follows_callStats hL.reqUnpack).map
    | _ => exact Follows.of_raisesOnly (raises_requestBody hL _) (by simp [requestFaults])

theorem follows_replyDesc : Follows [Guard.on .bodyLength (s.len < OfpDesc.size) badLen]
    (oflMsgUnpackReplyDesc L buf s) :=
  Follows.requireLen fun _ => Follows.of_raisesOnly
    (RaisesOnly.subLen.bind fun _ => (raises_strcpy (List.mem_singleton_self _)).bind
      fun _ => (raises_strcpy (List.mem_singleton_self _)).bind
      fun _ => (raises_strcpy (List.mem_singleton_self _)).bind
      fun _ => (raises_strcpy (List.mem_singleton_self _)).bind
      fun _ => (raises_strcpy (List.mem_singleton_self _)).bind fun _ => RaisesOnly.pure _)
    (by simp)

theorem follows_replyBody (hL : L.ErrorsMarked exp) (t : Option OfpMultipartType) :
    Follows (replyGuards exp s.len t) (unpackReplyBody exp buf t s) := by
  cases t with
  | none => exact Follows.reject trivial s
  | some t =>
    cases t with
    | meterFeatures => exact Follows.reject trivial s
    | desc => exact follows_replyDesc.map
    | aggregate | groupFeatures =>
      exact (Follows.short fun _ => RaisesOnly.subLen.bind fun _ => RaisesOnly.pure _).map
    | experimenter => exact (follows_callStats hL.replyUnpack).map
    | _ => exact Follows.of_raisesOnly (raises_replyBody hL _) (by simp [replyFaults])

theorem follows_body (hL : L.ErrorsMarked exp) (t : Option OfpType) :
    Follows (bodyGuards exp buf s.len t) (unpackBody exp buf t s) := by
  cases t with
  | none => exact Follows.reject trivial s
  | some t =>
    cases t with
    | error =>
      exact (Follows.short fun _ => RaisesOnly.subLen.bind fun _ => RaisesOnly.takeRest.bind
        fun _ => RaisesOnly.pure _).map
    | experimenter =>
      unfold unpackBody bodyGuards
      cases hunpack : OflExp.msgUnpack exp with
      | none => exact Follows.reject rfl s
      | some unpack =>
        exact Follows.pass (by simp) (Follows.foreign
          (RaisesOnly.nestedOrReturn (hL.msgUnpack unpack hunpack buf 0)).map)
    | packetIn => exact follows_packetIn.map
    | flowRemoved => exact (follows_flowRemoved hL).map
    | portStatus =>
      exact (Follows.short fun _ => RaisesOnly.subLen.bind fun _ =>
        (RaisesOnly.nestedOrReturn (hL.elemUnpack .port _ _)).bind fun _ => RaisesOnly.pure _).map
    | packetOut => exact (follows_packetOut hL).map
    | flowMod =>
      exact (Follows.short fun _ => RaisesOnly.subLen.bind fun _ =>
        (RaisesOnly.nestedOrReturn (hL.matchUnpack _ _ _)).bind fun _ =>
        (RaisesOnly.unpackRest (hL.elemCount .instruction _ _) (hL.elemUnpack .instruction _)).bind
          fun _ => RaisesOnly.pure _).map
    | groupMod => exact (follows_groupMod hL).map
    | multipartRequest =>
      exact Follows.guarded fun _ =>
        (follows_requestBody (s := { s with len := s.len - OfpMultipartRequest.size }) hL _).bind
          fun _ => RaisesOnly.pure _
    | multipartReply =>
      exact Follows.guarded fun _ =>
        (follows_replyBody (s := { s with len := s.len - OfpMultipartReply.size }) hL _).bind
          fun _ => RaisesOnly.pure _
    | queueGetConfigRequest => exact follows_queueGetConfigRequest.map
    | queueGetConfigReply =>
      exact (Follows.short fun _ => RaisesOnly.subLen.bind fun _ =>
        (RaisesOnly.unpackRest (hL.elemCount .packetQueue _ _) (hL.elemUnpack .packetQueue _)).bind
          fun _ => RaisesOnly.pure _).bind fun _ => RaisesOnly.pure _
    | meterMod => exact (follows_meterMod hL).map
    | getConfigReply | setConfig | getAsyncReply | setAsync | portMod | tableMod | roleRequest
    | roleReply =>
      exact (Follows.short fun _ => RaisesOnly.subLen.bind fun _ => RaisesOnly.pure _).map
    | _ => exact Follows.of_raisesOnly (raises_body hL _) (by simp [bodyFaults])

/-- **The causes of all rejections.** -/
theorem follows_oflMsgUnpack (hL : L.ErrorsMarked exp) (buf : Mem) (bufLen : Nat)
    (x : Option UInt32) :
    Follows (guards exp buf bufLen) (oflMsgUnpack exp buf bufLen x) := by
  by_cases hlen : bufLen < OfpHeader.size
  · rw [oflMsgUnpack_of_short exp x hlen]
    exact Follows.reject hlen _
  · refine Follows.pass hlen ?_
    have hlong : 8 ≤ bufLen := Nat.le_of_not_lt hlen
    by_cases hversion : buf OfpHeader.version = ofpVersion
    · refine Follows.pass (not_not_intro hversion) ?_
      by_cases hlength : (ntohs (get16 buf OfpHeader.length)).toNat = bufLen
      · rw [oflMsgUnpack_of_header exp x hlong hversion hlength]
        exact Follows.pass (not_not_intro hlength.symm)
          (follows_body (s := bodyState buf bufLen x) hL _)
      · rw [oflMsgUnpack_of_length exp x hlong hversion hlength]
        exact Follows.reject (Ne.symm hlength) _
    · rw [oflMsgUnpack_of_version exp x hlong hversion]
      exact Follows.reject hversion _

end CcPof.OpenFlow

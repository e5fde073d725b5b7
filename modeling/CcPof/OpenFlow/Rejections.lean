import CcPof.OpenFlow.SampleLib
import CcPof.OpenFlow.UnpackRules

/-!
# What the decoders can reject with

`RaisesOnly` bounds the faults of a decoder: those that the code raises itself, listed decoder by
decoder, and those that a function outside the repository returned. It also says that a decoder
leaves `*xid` alone. The rules follow the decoder monad, so the list of a decoder is read off its
statements.
-/

namespace CcPof.OpenFlow

variable {L : OflLib} {α β : Type}

/-! ## 1. Errors from outside -/

def OflErr.Foreign (e : OflErr) : Prop := ∃ n, e = .external n

/-- Every error that a function outside the repository returns is marked as one. -/
structure OflLib.ErrorsMarked (L : OflLib) (exp : Option (OflExp L)) : Prop where
  matchUnpack : ∀ buf src ptr len e, (L.matchUnpack buf src ptr len).1 = .error e → e.Foreign
  elemCount : ∀ k buf pos len e, L.elemCount k buf pos len = .error e → e.Foreign
  elemUnpack : ∀ k buf pos len e, (L.elemUnpack k buf pos len).1 = .error e → e.Foreign
  bucketCount : ∀ buf pos len e, L.bucketCount buf pos len = .error e → e.Foreign
  bucketUnpack : ∀ type buf pos len e, (L.bucketUnpack type buf pos len).1 = .error e → e.Foreign
  flowStatsCount : ∀ buf pos len e, L.flowStatsCount buf pos len = .error e → e.Foreign
  flowStatsUnpack : ∀ buf stat ptr len e,
    (L.flowStatsUnpack buf stat ptr len).1 = .error e → e.Foreign
  actionCount : ∀ buf pos len e, L.actionCount buf pos len = .error e → e.Foreign
  msgUnpack : ∀ unpack, OflExp.msgUnpack exp = some unpack →
    ∀ buf pos len e, (unpack buf pos len).1 = .error e → e.Foreign
  reqUnpack : ∀ unpack, OflExp.statsReqUnpack exp = some unpack →
    ∀ buf pos len e, (unpack buf pos len).1 = .error e → e.Foreign
  replyUnpack : ∀ unpack, OflExp.statsReplyUnpack exp = some unpack →
    ∀ buf pos len e, (unpack buf pos len).1 = .error e → e.Foreign

/-- The `ofl_err` as the number that it is in C. -/
def OflErr.number : OflErr → Nat
  | .ofl type code => type.toUInt16.toNat * 65536 + code.toNat
  | .oflError => 2 ^ 32 - 1
  | .external n => n

def markError (r : Except OflErr α) : Except OflErr α := r.mapError fun e => .external e.number

theorem markError_foreign {r : Except OflErr α} {e : OflErr} (h : markError r = .error e) :
    e.Foreign := by
  cases r with
  | ok a => cases h
  | error e' =>
    cases h
    exact ⟨e'.number, rfl⟩

/-- Any library with the origin of its errors marked. -/
def OflLib.marked (L : OflLib) : OflLib :=
  { L with
    matchUnpack := fun buf src ptr len =>
      (markError (L.matchUnpack buf src ptr len).1, (L.matchUnpack buf src ptr len).2)
    elemCount := fun k buf pos len => markError (L.elemCount k buf pos len)
    elemUnpack := fun k buf pos len =>
      (markError (L.elemUnpack k buf pos len).1, (L.elemUnpack k buf pos len).2)
    bucketCount := fun buf pos len => markError (L.bucketCount buf pos len)
    bucketUnpack := fun type buf pos len =>
      (markError (L.bucketUnpack type buf pos len).1, (L.bucketUnpack type buf pos len).2)
    flowStatsCount := fun buf pos len => markError (L.flowStatsCount buf pos len)
    flowStatsUnpack := fun buf stat ptr len =>
      (markError (L.flowStatsUnpack buf stat ptr len).1, (L.flowStatsUnpack buf stat ptr len).2)
    actionCount := fun buf pos len => markError (L.actionCount buf pos len) }

theorem OflLib.marked_errorsMarked (L : OflLib) : L.marked.ErrorsMarked none where
  matchUnpack := fun _ _ _ _ _ h => markError_foreign h
  elemCount := fun _ _ _ _ _ h => markError_foreign h
  elemUnpack := fun _ _ _ _ _ h => markError_foreign h
  bucketCount := fun _ _ _ _ h => markError_foreign h
  bucketUnpack := fun _ _ _ _ _ h => markError_foreign h
  flowStatsCount := fun _ _ _ _ h => markError_foreign h
  flowStatsUnpack := fun _ _ _ _ _ h => markError_foreign h
  actionCount := fun _ _ _ _ h => markError_foreign h
  msgUnpack := fun _ h => nomatch h
  reqUnpack := fun _ h => nomatch h
  replyUnpack := fun _ h => nomatch h

/-! ## 2. Rules -/

/-- The fault is in the list or comes from outside. -/
def Fault.Among (es : List Fault) : Fault → Prop
  | .err e => .err e ∈ es ∨ e.Foreign
  | f => f ∈ es

theorem Fault.Among.of_mem {es : List Fault} {f : Fault} (h : f ∈ es) : f.Among es := by
  cases f with
  | err e => exact Or.inl h
  | nullCall => exact h
  | segv => exact h

theorem Fault.Among.mono {es es' : List Fault} {f : Fault} (h : f.Among es) (hsub : es ⊆ es') :
    f.Among es' := by
  cases f with
  | err e => exact h.imp (fun hmem => hsub hmem) id
  | nullCall => exact hsub h
  | segv => exact hsub h

/-- The run ends with the same `*xid`, and if it fails, with a fault of these. -/
def EndsAmong (es : List Fault) (s : UnpackState) (r : EStateM.Result Fault UnpackState α) : Prop :=
  match r with
  | .ok _ s' => s'.xid = s.xid
  | .error f s' => s'.xid = s.xid ∧ f.Among es

structure RaisesOnly (es : List Fault) (x : Unpack α) : Prop where
  run : ∀ s, EndsAmong es s (x s)

namespace RaisesOnly

variable {es es' : List Fault}

theorem mono {x : Unpack α} (h : RaisesOnly es x) (hsub : es ⊆ es') : RaisesOnly es' x := by
  constructor
  intro s
  have hrun := h.run s
  cases hr : x s with
  | ok a s' =>
    rw [hr] at hrun
    exact hrun
  | error f s' =>
    rw [hr] at hrun
    exact ⟨hrun.1, hrun.2.mono hsub⟩

theorem bind {x : Unpack α} {f : α → Unpack β} (hx : RaisesOnly es x)
    (hf : ∀ a, RaisesOnly es (f a)) : RaisesOnly es (x >>= f) := by
  constructor
  intro s
  have h := hx.run s
  rw [bind_run]
  cases hr : x s with
  | ok a s' =>
    rw [hr] at h
    have hxid : s'.xid = s.xid := h
    have hrest := (hf a).run s'
    show EndsAmong es s (f a s')
    cases hr' : f a s' with
    | ok b s'' =>
      rw [hr'] at hrest
      exact Eq.trans hrest hxid
    | error e s'' =>
      rw [hr'] at hrest
      exact ⟨hrest.1.trans hxid, hrest.2⟩
  | error e s' =>
    rw [hr] at h
    exact h

theorem map {x : Unpack α} {f : α → β} (hx : RaisesOnly es x) : RaisesOnly es (f <$> x) := by
  constructor
  intro s
  have h := hx.run s
  rw [map_run]
  cases hr : x s with
  | ok a s' =>
    rw [hr] at h
    exact h
  | error e s' =>
    rw [hr] at h
    exact h

theorem pure (a : α) : RaisesOnly es (pure a : Unpack α) := ⟨fun _ => rfl⟩

theorem get : RaisesOnly es (get : Unpack UnpackState) := ⟨fun _ => rfl⟩

theorem throw {f : Fault} (h : f.Among es) : RaisesOnly es (throw f : Unpack α) :=
  ⟨fun _ => ⟨rfl, h⟩⟩

theorem subLen {n : Nat} : RaisesOnly es (subLen n) := ⟨fun _ => rfl⟩

theorem takeRest {buf : Mem} {off : Nat} : RaisesOnly es (takeRest buf off) := ⟨fun _ => rfl⟩

theorem rejectIf {c : Prop} [Decidable c] {e : OflErr} (h : c → .err e ∈ es) :
    RaisesOnly es (rejectIf c e) := by
  constructor
  intro s
  by_cases hc : c
  · rw [rejectIf_reject hc]
    exact ⟨rfl, Or.inl (h hc)⟩
  · rw [rejectIf_run hc]
    exact rfl

theorem requireLen {n : Nat} {e : OflErr} (h : .err e ∈ es) : RaisesOnly es (requireLen n e) :=
  ⟨fun s => (rejectIf (c := s.len < n) fun _ => h).run s⟩

/-- The opening of most decoders. -/
theorem guarded {n : Nat} {e : OflErr} {f : Unit → Unpack α} (h : .err e ∈ es)
    (hf : ∀ u, RaisesOnly es (f u)) :
    RaisesOnly es (CcPof.OpenFlow.requireLen n e >>= fun _ => CcPof.OpenFlow.subLen n >>= f) :=
  (requireLen h).bind fun _ => subLen.bind hf

theorem orReturn {r : Except OflErr α} (h : ∀ e, r = .error e → e.Foreign) :
    RaisesOnly es (orReturn r) := by
  cases r with
  | ok a => exact pure a
  | error e => exact throw (Or.inr (h e rfl))

theorem nested (f : Nat → Except OflErr α × Nat) : RaisesOnly es (nested f) := ⟨fun _ => rfl⟩

theorem nestedOrReturn {f : Nat → Except OflErr α × Nat}
    (h : ∀ len e, (f len).1 = .error e → e.Foreign) : RaisesOnly es (nestedOrReturn f) := by
  constructor
  intro s
  cases hf : f s.len with
  | mk r n =>
    cases r with
    | ok a =>
      rw [nestedOrReturn_ok hf]
      exact rfl
    | error e =>
      rw [nestedOrReturn_error hf]
      exact ⟨rfl, Or.inr (h s.len e (by rw [hf]))⟩

theorem unpackArr {unpack : ElemDecoder α} {stride : Mem → Nat → Nat} {buf : Mem}
    (h : ∀ pos len e, (unpack buf pos len).1 = .error e → e.Foreign) (n : Nat) :
    ∀ pos, RaisesOnly es (unpackArr unpack stride buf n pos) := by
  induction n with
  | zero => exact fun _ => pure _
  | succ n ih =>
    intro pos
    exact (nestedOrReturn (h pos)).bind fun _ => (ih _).bind fun _ => pure _

theorem unpackArrLax {stale : α} {unpack : ElemDecoder α} {stride : Mem → Nat → Nat} {buf : Mem}
    (n : Nat) : ∀ pos, RaisesOnly es (unpackArrLax stale unpack stride buf n pos) := by
  induction n with
  | zero => exact fun _ => pure _
  | succ n ih =>
    intro pos
    exact (nested _).bind fun _ => (ih _).bind fun _ => pure _

theorem unpackRest {count : Mem → (pos len : Nat) → Except OflErr Nat} {unpack : ElemDecoder α}
    {stride : Mem → Nat → Nat} {buf : Mem} {pos : Nat}
    (hcount : ∀ len e, count buf pos len = .error e → e.Foreign)
    (h : ∀ pos len e, (unpack buf pos len).1 = .error e → e.Foreign) :
    RaisesOnly es (unpackRest count unpack stride buf pos) :=
  get.bind fun s => (orReturn (hcount s.len)).bind fun n => unpackArr h n pos

end RaisesOnly

/-! ## 3. The decoders -/

variable {es : List Fault} {buf : Mem} {exp : Option (OflExp L)}

theorem raises_empty : RaisesOnly es oflMsgUnpackEmpty := RaisesOnly.subLen

theorem raises_error (h : .err .oflError ∈ es) : RaisesOnly es (oflMsgUnpackError buf) :=
  RaisesOnly.guarded h fun _ => RaisesOnly.takeRest.bind fun _ => RaisesOnly.pure _

theorem raises_echo : RaisesOnly es (oflMsgUnpackEcho buf) :=
  RaisesOnly.subLen.bind fun _ => RaisesOnly.takeRest.bind fun _ => RaisesOnly.pure _

theorem raises_featuresReply : RaisesOnly es (oflMsgUnpackFeaturesReply buf) :=
  RaisesOnly.subLen.bind fun _ => RaisesOnly.pure _

theorem raises_roleRequest (h : .err badLen ∈ es) : RaisesOnly es (oflMsgUnpackRoleRequest buf) :=
  RaisesOnly.guarded h fun _ => RaisesOnly.pure _

theorem raises_config (h : .err badLen ∈ es) : RaisesOnly es (unpackConfig buf) :=
  RaisesOnly.guarded h fun _ => RaisesOnly.pure _

theorem raises_asyncConfig (h : .err badLen ∈ es) : RaisesOnly es (oflMsgUnpackAsyncConfig buf) :=
  RaisesOnly.guarded h fun _ => RaisesOnly.pure _

theorem raises_portMod (h : .err badLen ∈ es) : RaisesOnly es (oflMsgUnpackPortMod buf) :=
  RaisesOnly.guarded h fun _ => RaisesOnly.pure _

theorem raises_tableMod (h : .err badLen ∈ es) : RaisesOnly es (oflMsgUnpackTableMod buf) :=
  RaisesOnly.guarded h fun _ => RaisesOnly.pure _

theorem raises_queueGetConfigRequest (h : .err badLen ∈ es)
    (hport : .err (.ofl .queueOpFailed ofpqofcBadPort) ∈ es) :
    RaisesOnly es (oflMsgUnpackQueueGetConfigRequest buf) :=
  (RaisesOnly.requireLen h).bind fun _ => (RaisesOnly.rejectIf fun _ => hport).bind fun _ =>
    RaisesOnly.subLen.bind fun _ => RaisesOnly.pure _

theorem raises_packetIn (h : .err badLen ∈ es)
    (htable : buf OfpPacketIn.tableId = 0xff → .err (.ofl .badRequest ofpbacBadArgument) ∈ es) :
    RaisesOnly es (oflMsgUnpackPacketIn (L := L) buf) :=
  (RaisesOnly.requireLen h).bind fun _ => (RaisesOnly.rejectIf htable).bind fun _ =>
    RaisesOnly.subLen.bind fun _ => (RaisesOnly.nested _).bind fun _ =>
    RaisesOnly.subLen.bind fun _ => RaisesOnly.takeRest.bind fun _ => RaisesOnly.pure _

theorem raises_flowRemoved (hL : L.ErrorsMarked exp) (h : .err .oflError ∈ es)
    (htable : buf OfpFlowRemoved.tableId = 0xff → .err (.ofl .badRequest ofpbacBadArgument) ∈ es) :
    RaisesOnly es (oflMsgUnpackFlowRemoved (L := L) buf) :=
  (RaisesOnly.requireLen h).bind fun _ => (RaisesOnly.rejectIf htable).bind fun _ =>
    RaisesOnly.subLen.bind fun _ =>
    (RaisesOnly.nestedOrReturn (hL.matchUnpack _ _ _)).bind fun _ => RaisesOnly.pure _

theorem raises_portStatus (hL : L.ErrorsMarked exp) (h : .err badLen ∈ es) :
    RaisesOnly es (oflMsgUnpackPortStatus (L := L) buf) :=
  (RaisesOnly.requireLen h).bind fun _ => RaisesOnly.subLen.bind fun _ =>
    (RaisesOnly.nestedOrReturn (hL.elemUnpack .port _ _)).bind fun _ => RaisesOnly.pure _

theorem raises_packetOut (hL : L.ErrorsMarked exp) (h : .err badLen ∈ es) :
    RaisesOnly es (oflMsgUnpackPacketOut (L := L) buf) :=
  (RaisesOnly.requireLen h).bind fun _ => RaisesOnly.get.bind fun _ =>
    (RaisesOnly.rejectIf fun _ => h).bind fun _ => RaisesOnly.subLen.bind fun _ =>
    (RaisesOnly.requireLen h).bind fun _ =>
    (RaisesOnly.orReturn (hL.actionCount _ _ _)).bind fun n =>
    (RaisesOnly.unpackArrLax n _).bind fun _ => RaisesOnly.takeRest.bind fun _ => RaisesOnly.pure _

theorem raises_flowMod (hL : L.ErrorsMarked exp) (h : .err badLen ∈ es) :
    RaisesOnly es (oflMsgUnpackFlowMod (L := L) buf) :=
  RaisesOnly.guarded h fun _ => (RaisesOnly.nestedOrReturn (hL.matchUnpack _ _ _)).bind fun _ =>
    (RaisesOnly.unpackRest (hL.elemCount .instruction _ _) (hL.elemUnpack .instruction _)).bind
      fun _ => RaisesOnly.pure _

/-- A one-byte type that is swapped as if it had two is 0 or at least 256, so the type check of the
GROUP_MOD decoder lets everything through. -/
theorem groupTypeCheck_passes (type : UInt8) :
    ¬ (ofpgtFf < ntohs type.toUInt16 ∧ ntohs type.toUInt16 < 128) := by
  have hlt := type.toNat_lt
  have hswap : (ntohs type.toUInt16).toNat = 256 * type.toNat := by
    rw [ntohs, UInt16.toNat_ofNat_of_lt' (bswap_lt 2 _), UInt8.toNat_toUInt16]
    have hbytes : toLE 2 type.toNat = [type, 0] := by
      have hzero : type.toNat / 256 = 0 := by omega
      simp [toLE, hzero]
    rw [bswap, hbytes]
    simp [ofLE]
  rw [UInt16.lt_iff_toNat_lt, UInt16.lt_iff_toNat_lt, hswap]
  have h3 : ofpgtFf.toNat = 3 := rfl
  have h128 : (128 : UInt16).toNat = 128 := rfl
  omega

theorem raises_groupMod (hL : L.ErrorsMarked exp) (h : .err badLen ∈ es)
    (hcommand : ofpgcDelete < ntohs (get16 buf OfpGroupMod.command) →
      .err (.ofl .badRequest ofpgmfcBadCommand) ∈ es)
    (hgroup : .err (.ofl .groupModFailed ofpgmfcInvalidGroup) ∈ es) :
    RaisesOnly es (oflMsgUnpackGroupMod (L := L) buf) :=
  RaisesOnly.guarded h fun _ => (RaisesOnly.rejectIf hcommand).bind fun _ =>
    (RaisesOnly.rejectIf fun hbad => absurd hbad (groupTypeCheck_passes _)).bind fun _ =>
    (RaisesOnly.rejectIf fun _ => hgroup).bind fun _ => RaisesOnly.get.bind fun _ =>
    (RaisesOnly.orReturn (hL.bucketCount _ _ _)).bind fun n =>
    (RaisesOnly.rejectIf fun _ => hgroup).bind fun _ =>
    (RaisesOnly.rejectIf fun _ => hgroup).bind fun _ =>
    (RaisesOnly.unpackArr (hL.bucketUnpack _ _) n _).bind fun _ => RaisesOnly.pure _

theorem raises_meterMod (hL : L.ErrorsMarked exp) (h : .err badLen ∈ es)
    (hcommand : ofpmcDelete < ntohs (get16 buf OfpMeterMod.command) →
      .err (.ofl .badRequest ofpmmfcBadCommand) ∈ es)
    (hflags : (1 : UInt16) < ntohs (get16 buf OfpMeterMod.flags) >>> 3 →
      .err (.ofl .badRequest ofpmmfcBadFlags) ∈ es)
    (hmeter : .err (.ofl .meterModFailed ofpmmfcInvalidMeter) ∈ es) :
    RaisesOnly es (oflMsgUnpackMeterMod (L := L) buf) :=
  RaisesOnly.guarded h fun _ => (RaisesOnly.rejectIf hcommand).bind fun _ =>
    (RaisesOnly.rejectIf hflags).bind fun _ => (RaisesOnly.rejectIf fun _ => hmeter).bind fun _ =>
    (RaisesOnly.unpackRest (hL.elemCount .meterBand _ _) (hL.elemUnpack .meterBand _)).bind
      fun _ => RaisesOnly.pure _

theorem raises_queueGetConfigReply (hL : L.ErrorsMarked exp) (h : .err badLen ∈ es) :
    RaisesOnly es (oflMsgUnpackQueueGetConfigReply (L := L) buf) :=
  RaisesOnly.guarded h fun _ =>
    (RaisesOnly.unpackRest (hL.elemCount .packetQueue _ _) (hL.elemUnpack .packetQueue _)).bind
      fun _ => RaisesOnly.pure _

/-! ## 4. Multipart bodies -/

abbrev badMultipart : OflErr := .ofl .badRequest ofpbrcBadMultipart

theorem raises_requestFlow (hL : L.ErrorsMarked exp) (h : .err badLen ∈ es) :
    RaisesOnly es (oflMsgUnpackMultipartRequestFlow (L := L) buf) :=
  RaisesOnly.guarded h fun _ =>
    (RaisesOnly.nestedOrReturn (hL.matchUnpack _ _ _)).bind fun _ => RaisesOnly.pure _

theorem raises_requestPort (h : .err badLen ∈ es) :
    RaisesOnly es (oflMsgUnpackMultipartRequestPort buf) :=
  (RaisesOnly.requireLen h).bind fun _ => (RaisesOnly.rejectIf fun _ => h).bind fun _ =>
    RaisesOnly.subLen.bind fun _ => RaisesOnly.pure _

theorem raises_requestQueue (h : .err badLen ∈ es) :
    RaisesOnly es (oflMsgUnpackMultipartRequestQueue buf) :=
  (RaisesOnly.requireLen h).bind fun _ => (RaisesOnly.rejectIf fun _ => h).bind fun _ =>
    RaisesOnly.subLen.bind fun _ => RaisesOnly.pure _

theorem raises_requestGroup (h : .err badLen ∈ es) :
    RaisesOnly es (oflMsgUnpackMultipartRequestGroup buf) :=
  RaisesOnly.guarded h fun _ => RaisesOnly.pure _

theorem raises_requestMeter (h : .err badLen ∈ es) :
    RaisesOnly es (oflMsgUnpackMeterMultipartRequest buf) :=
  RaisesOnly.guarded h fun _ => RaisesOnly.pure _

theorem raises_requestTableFeatures (hL : L.ErrorsMarked exp) :
    RaisesOnly es (oflMsgUnpackMultipartRequestTableFeatures (L := L) buf) := by
  refine RaisesOnly.get.bind fun s => ?_
  dsimp only
  split
  · exact RaisesOnly.pure _
  · exact (RaisesOnly.orReturn (hL.elemCount _ _ _ _)).bind fun n => RaisesOnly.unpackArrLax n _

/-- A callback table in which the tested pointer says nothing about the called one can end in a
`NULL` call. -/
theorem raises_callStats {tested : Option β} {called : Option (ElemDecoder α)}
    (h : tested = none → .err badMultipart ∈ es)
    (hnull : tested.isSome → called = none → .nullCall ∈ es)
    (hforeign : ∀ unpack, called = some unpack →
      ∀ buf pos len e, (unpack buf pos len).1 = .error e → e.Foreign) :
    RaisesOnly es (callStats tested called buf) := by
  cases tested with
  | none => exact RaisesOnly.throw (Or.inl (h rfl))
  | some t =>
    cases called with
    | none => exact RaisesOnly.throw (hnull rfl rfl)
    | some unpack => exact RaisesOnly.nestedOrReturn (hforeign unpack rfl buf 0)

/-- The faults of a request body, by its type. -/
def requestFaults : Option OfpMultipartType → List Fault
  | some .flow | some .aggregate | some .portStats | some .queue | some .group | some .meter
  | some .meterConfig => [.err badLen]
  | some .desc | some .table | some .groupDesc | some .groupFeatures | some .portDesc
  | some .tableFeatures => []
  | some .experimenter => [.err badMultipart, .nullCall]
  | some .meterFeatures | none => [.err badMultipart]

theorem raises_requestBody (hL : L.ErrorsMarked exp) (t : Option OfpMultipartType) :
    RaisesOnly (requestFaults t) (unpackRequestBody exp buf t) := by
  cases t with
  | none => exact RaisesOnly.throw (Fault.Among.of_mem (by simp [requestFaults]))
  | some t =>
    cases t with
    | flow => exact (raises_requestFlow hL (by simp [requestFaults])).map
    | aggregate => exact (raises_requestFlow hL (by simp [requestFaults])).map
    | portStats => exact (raises_requestPort (by simp [requestFaults])).map
    | queue => exact (raises_requestQueue (by simp [requestFaults])).map
    | group => exact (raises_requestGroup (by simp [requestFaults])).map
    | meter => exact (raises_requestMeter (by simp [requestFaults])).map
    | meterConfig => exact (raises_requestMeter (by simp [requestFaults])).map
    | tableFeatures => exact (raises_requestTableFeatures hL).map
    | meterFeatures => exact RaisesOnly.throw (Fault.Among.of_mem (by simp [requestFaults]))
    | experimenter =>
      exact (raises_callStats (fun _ => by simp [requestFaults])
        (fun _ _ => by simp [requestFaults]) hL.reqUnpack).map
    | _ => exact (RaisesOnly.pure _).bind fun _ => RaisesOnly.pure _

theorem raises_strcpy (h : .segv ∈ es) {pos : Nat} : RaisesOnly es (strcpy L buf pos) := by
  unfold strcpy
  split
  · exact RaisesOnly.throw h
  · exact RaisesOnly.pure _

theorem raises_replyDesc (h : .err badLen ∈ es) (hsegv : .segv ∈ es) :
    RaisesOnly es (oflMsgUnpackReplyDesc L buf) :=
  RaisesOnly.guarded h fun _ => (raises_strcpy hsegv).bind fun _ => (raises_strcpy hsegv).bind
    fun _ => (raises_strcpy hsegv).bind fun _ => (raises_strcpy hsegv).bind fun _ =>
    (raises_strcpy hsegv).bind fun _ => RaisesOnly.pure _

theorem raises_flowStats (hL : L.ErrorsMarked exp) (n : Nat) :
    ∀ stat ptr, RaisesOnly es (unpackFlowStats (L := L) buf n stat ptr) := by
  induction n with
  | zero => exact fun _ _ => RaisesOnly.pure _
  | succ n ih =>
    intro stat ptr
    exact RaisesOnly.get.bind fun _ =>
      (RaisesOnly.nestedOrReturn (hL.flowStatsUnpack _ _ _)).bind fun _ =>
      RaisesOnly.get.bind fun _ => (ih _ _).bind fun _ => RaisesOnly.pure _

theorem raises_replyFlow (hL : L.ErrorsMarked exp) :
    RaisesOnly es (oflMsgUnpackMultipartReplyFlow (L := L) buf) :=
  RaisesOnly.get.bind fun _ => (RaisesOnly.orReturn (hL.flowStatsCount _ _ _)).bind fun n =>
    raises_flowStats hL n _ _

theorem raises_replyAggregate (h : .err badLen ∈ es) :
    RaisesOnly es (oflMsgUnpackMultipartReplyAggregate buf) :=
  RaisesOnly.guarded h fun _ => RaisesOnly.pure _

theorem raises_replyGroupFeatures (h : .err badLen ∈ es) :
    RaisesOnly es (oflMsgUnpackMultipartReplyGroupFeatures buf) :=
  RaisesOnly.guarded h fun _ => RaisesOnly.pure _

theorem raises_replyTableFeatures (hL : L.ErrorsMarked exp) :
    RaisesOnly es (oflMsgUnpackMultipartReplyTableFeatures (L := L) buf) :=
  RaisesOnly.get.bind fun _ => (RaisesOnly.orReturn (hL.elemCount _ _ _ _)).bind fun n =>
    RaisesOnly.unpackArrLax n _

theorem raises_replyArr (hL : L.ErrorsMarked exp) (k : ElemKind) (stride : Mem → Nat → Nat) :
    RaisesOnly es (unpackReplyArr (L := L) k stride buf) :=
  RaisesOnly.unpackRest (hL.elemCount k _ _) (hL.elemUnpack k _)

/-- The faults of a reply body, by its type. -/
def replyFaults : Option OfpMultipartType → List Fault
  | some .desc => [.err badLen, .segv]
  | some .aggregate | some .groupFeatures => [.err badLen]
  | some .experimenter | some .meterFeatures | none => [.err badMultipart]
  | _ => []

theorem raises_replyBody (hL : L.ErrorsMarked exp) (t : Option OfpMultipartType) :
    RaisesOnly (replyFaults t) (unpackReplyBody exp buf t) := by
  cases t with
  | none => exact RaisesOnly.throw (Fault.Among.of_mem (by simp [replyFaults]))
  | some t =>
    cases t with
    | desc => exact (raises_replyDesc (by simp [replyFaults]) (by simp [replyFaults])).map
    | flow => exact (raises_replyFlow hL).map
    | aggregate => exact (raises_replyAggregate (by simp [replyFaults])).map
    | table => exact (raises_replyArr hL .tableStats _).map
    | tableFeatures => exact (raises_replyTableFeatures hL).map
    | portStats => exact (raises_replyArr hL .portStats _).map
    | queue => exact (raises_replyArr hL .queueStats _).map
    | group => exact (raises_replyArr hL .groupStats _).map
    | groupDesc => exact (raises_replyArr hL .groupDescStats _).map
    | groupFeatures => exact (raises_replyGroupFeatures (by simp [replyFaults])).map
    | meter => exact (raises_replyArr hL .meterStats _).map
    | meterConfig => exact (raises_replyArr hL .meterConfig _).map
    | portDesc => exact (raises_replyArr hL .port _).map
    | meterFeatures => exact RaisesOnly.throw (Fault.Among.of_mem (by simp [replyFaults]))
    | experimenter =>
      refine (raises_callStats (fun _ => by simp [replyFaults]) (fun hsome hnone => ?_)
        hL.replyUnpack).map
      rw [hnone] at hsome
      cases hsome

theorem raises_multipartRequest (hL : L.ErrorsMarked exp) (h : .err badLen ∈ es)
    (hbody : requestFaults (multipartType buf) ⊆ es) :
    RaisesOnly es (oflMsgUnpackMultipartRequest exp buf) :=
  RaisesOnly.guarded h fun _ => ((raises_requestBody hL _).mono hbody).bind fun _ =>
    RaisesOnly.pure _

theorem raises_multipartReply (hL : L.ErrorsMarked exp) (h : .err badLen ∈ es)
    (hbody : replyFaults (multipartType buf) ⊆ es) :
    RaisesOnly es (oflMsgUnpackMultipartReply exp buf) :=
  RaisesOnly.guarded h fun _ => ((raises_replyBody hL _).mono hbody).bind fun _ =>
    RaisesOnly.pure _

/-- A multipart message ends as its body does. -/
theorem oflMsgUnpackMultipartRequest_error {s : UnpackState} {f : Fault} (hlen : 16 ≤ s.len)
    (hbody : ∀ s, unpackRequestBody exp buf (multipartType buf) s = .error f s) :
    oflMsgUnpackMultipartRequest exp buf s = .error f { s with len := s.len - 16 } := by
  rw [multipartRequest_run exp buf hlen, map_run, hbody]

theorem oflMsgUnpackMultipartReply_error {s : UnpackState} {f : Fault} (hlen : 16 ≤ s.len)
    (hbody : ∀ s, unpackReplyBody exp buf (multipartType buf) s = .error f s) :
    oflMsgUnpackMultipartReply exp buf s = .error f { s with len := s.len - 16 } := by
  rw [multipartReply_run exp buf hlen, map_run, hbody]

/-! ## 5. The dispatcher -/

/-- The faults of the decoder that the message in `buf` is dispatched to. -/
def bodyFaults (buf : Mem) : Option OfpType → List Fault
  | some .hello | some .echoRequest | some .echoReply | some .featuresRequest
  | some .featuresReply | some .getConfigRequest | some .getAsyncRequest | some .barrierRequest
  | some .barrierReply => []
  | some .error => [.err .oflError]
  | some .experimenter => [.err (.ofl .badRequest ofpbrcBadExperimenter)]
  | some .packetIn => [.err badLen, .err (.ofl .badRequest ofpbacBadArgument)]
  | some .flowRemoved => [.err .oflError, .err (.ofl .badRequest ofpbacBadArgument)]
  | some .groupMod =>
      [.err badLen, .err (.ofl .badRequest ofpgmfcBadCommand),
        .err (.ofl .groupModFailed ofpgmfcInvalidGroup)]
  | some .meterMod =>
      [.err badLen, .err (.ofl .badRequest ofpmmfcBadCommand),
        .err (.ofl .badRequest ofpmmfcBadFlags), .err (.ofl .meterModFailed ofpmmfcInvalidMeter)]
  | some .queueGetConfigRequest => [.err badLen, .err (.ofl .queueOpFailed ofpqofcBadPort)]
  | some .multipartRequest => .err badLen :: requestFaults (multipartType buf)
  | some .multipartReply => .err badLen :: replyFaults (multipartType buf)
  | none => [.err (.ofl .badRequest ofpgmfcBadType)]
  | _ => [.err badLen]

/-- Every body decoder raises what `bodyFaults` lists for it. -/
theorem raises_body (hL : L.ErrorsMarked exp) (t : Option OfpType) :
    RaisesOnly (bodyFaults buf t) (unpackBody exp buf t) := by
  cases t with
  | none => exact RaisesOnly.throw (Fault.Among.of_mem (by simp [bodyFaults]))
  | some t =>
    cases t with
    | error => exact (raises_error (by simp [bodyFaults])).map
    | echoRequest => exact raises_echo.map
    | echoReply => exact raises_echo.map
    | experimenter =>
      -- Without a callback the message is refused, with one its error is handed through.
      unfold unpackBody
      cases hunpack : OflExp.msgUnpack exp with
      | none => exact RaisesOnly.throw (Fault.Among.of_mem (by simp [bodyFaults]))
      | some unpack => exact (RaisesOnly.nestedOrReturn (hL.msgUnpack unpack hunpack buf 0)).map
    | featuresReply => exact raises_featuresReply.map
    | getConfigReply => exact (raises_config (by simp [bodyFaults])).map
    | setConfig => exact (raises_config (by simp [bodyFaults])).map
    | packetIn => exact (raises_packetIn (by simp [bodyFaults]) fun _ => by simp [bodyFaults]).map
    | flowRemoved =>
      exact (raises_flowRemoved hL (by simp [bodyFaults]) fun _ => by simp [bodyFaults]).map
    | portStatus => exact (raises_portStatus hL (by simp [bodyFaults])).map
    | packetOut => exact (raises_packetOut hL (by simp [bodyFaults])).map
    | flowMod => exact (raises_flowMod hL (by simp [bodyFaults])).map
    | groupMod =>
      exact (raises_groupMod hL (by simp [bodyFaults]) (fun _ => by simp [bodyFaults])
        (by simp [bodyFaults])).map
    | portMod => exact (raises_portMod (by simp [bodyFaults])).map
    | tableMod => exact (raises_tableMod (by simp [bodyFaults])).map
    | multipartRequest =>
      exact raises_multipartRequest hL (by simp [bodyFaults]) fun _ hf => List.mem_cons_of_mem _ hf
    | multipartReply =>
      exact raises_multipartReply hL (by simp [bodyFaults]) fun _ hf => List.mem_cons_of_mem _ hf
    | queueGetConfigRequest =>
      exact (raises_queueGetConfigRequest (by simp [bodyFaults]) (by simp [bodyFaults])).map
    | queueGetConfigReply =>
      exact (raises_queueGetConfigReply hL (by simp [bodyFaults])).bind fun _ => RaisesOnly.pure _
    | roleRequest => exact (raises_roleRequest (by simp [bodyFaults])).map
    | roleReply => exact (raises_roleRequest (by simp [bodyFaults])).map
    | getAsyncReply => exact (raises_asyncConfig (by simp [bodyFaults])).map
    | setAsync => exact (raises_asyncConfig (by simp [bodyFaults])).map
    | meterMod =>
      exact (raises_meterMod hL (by simp [bodyFaults]) (fun _ => by simp [bodyFaults])
        (fun _ => by simp [bodyFaults]) (by simp [bodyFaults])).map
    | _ => exact raises_empty.bind fun _ => RaisesOnly.pure _

end CcPof.OpenFlow

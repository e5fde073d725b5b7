import CcPof.OpenFlow.SampleLib
import CcPof.OpenFlow.UnpackRules

/-!
# Truncated messages

What the decoder does with a message that is shorter than the fixed part of its wire structure. Two
decoders have no guard that stops it: FEATURES_REPLY, which only logs, and QUEUE_GET_CONFIG_REQUEST,
which compares with the wrong structure.
-/

namespace CcPof.OpenFlow

variable {L : OflLib} {α β : Type}

/-! ## 1. The fixed parts -/

/-- The fixed body struct of a multipart request, up to a match. -/
def requestBodySize : OfpMultipartType → Nat
  | .flow | .aggregate => OfpFlowStatsRequest.size - OfpMatch.size
  | .portStats => OfpPortStatsRequest.size
  | .queue => OfpQueueStatsRequest.size
  | .group => OfpGroupStatsRequest.size
  | .meter | .meterConfig => OfpMeterMultipartRequest.size
  | .experimenter => OfpExperimenterStatsHeader.size
  | .desc | .table | .groupDesc | .groupFeatures | .meterFeatures | .tableFeatures | .portDesc => 0

def replyBodySize : OfpMultipartType → Nat
  | .desc => OfpDesc.size
  | .aggregate => OfpAggregateStatsReply.size
  | .groupFeatures => OfpGroupFeaturesStats.size
  | .meterFeatures => OfpMeterFeatures.size
  | .experimenter => OfpExperimenterStatsHeader.size
  | .flow | .table | .portStats | .queue | .group | .groupDesc | .meter | .meterConfig
  | .tableFeatures | .portDesc => 0

/-- The size of the message structure, with the fixed body of a multipart message and up to the
start of a match. -/
def fixedPart (buf : Mem) : OfpType → Nat
  | .hello | .echoRequest | .echoReply | .featuresRequest | .getConfigRequest | .getAsyncRequest
  | .barrierRequest | .barrierReply => OfpHeader.size
  | .error => OfpErrorMsg.size
  | .experimenter => OfpExperimenterHeader.size
  | .featuresReply => OfpSwitchFeatures.size
  | .getConfigReply | .setConfig => OfpSwitchConfig.size
  | .packetIn => OfpPacketIn.size - OfpMatch.size
  | .flowRemoved => OfpFlowRemoved.size - OfpMatch.size
  | .portStatus => OfpPortStatus.size
  | .packetOut => OfpPacketOut.size
  | .flowMod => OfpFlowMod.size - OfpMatch.size
  | .groupMod => OfpGroupMod.size
  | .portMod => OfpPortMod.size
  | .tableMod => OfpTableMod.size
  | .multipartRequest =>
      OfpMultipartRequest.size + (multipartType buf).elim 0 requestBodySize
  | .multipartReply => OfpMultipartReply.size + (multipartType buf).elim 0 replyBodySize
  | .queueGetConfigRequest => OfpQueueGetConfigRequest.size
  | .queueGetConfigReply => OfpQueueGetConfigReply.size
  | .roleRequest | .roleReply => OfpRoleRequest.size
  | .getAsyncReply | .setAsync => OfpAsyncConfig.size
  | .meterMod => OfpMeterMod.size

/-! ## 2. Clean rejection -/

/-- The decoder returned an error, and on the way `*len` never went below zero. -/
def RejectsCleanly (r : EStateM.Result Fault UnpackState α) : Prop :=
  ∃ e s, r = .error (.err e) s ∧ s.wrapped = false

theorem RejectsCleanly.error {e : OflErr} {s : UnpackState} (hs : s.wrapped = false) :
    RejectsCleanly (.error (.err e) s : EStateM.Result Fault UnpackState α) :=
  ⟨e, s, rfl, hs⟩

theorem not_rejectsCleanly_ok {a : α} {s : UnpackState} :
    ¬ RejectsCleanly (.ok a s : EStateM.Result Fault UnpackState α) := by
  rintro ⟨e, s', h, _⟩
  cases h

theorem RejectsCleanly.bind {x : Unpack α} {f : α → Unpack β} {s : UnpackState}
    (h : RejectsCleanly (x s)) : RejectsCleanly ((x >>= f) s) := by
  obtain ⟨e, s', hx, hs⟩ := h
  rw [bind_run, hx]
  exact .error hs

theorem RejectsCleanly.map {x : Unpack α} {f : α → β} {s : UnpackState}
    (h : RejectsCleanly (x s)) : RejectsCleanly ((f <$> x) s) := by
  obtain ⟨e, s', hx, hs⟩ := h
  rw [map_run, hx]
  exact .error hs

theorem rejectsCleanly_map_iff {x : Unpack α} {f : α → β} {s : UnpackState} :
    RejectsCleanly ((f <$> x) s) ↔ RejectsCleanly (x s) := by
  rw [map_run]
  cases hx : x s with
  | ok a s' => exact iff_of_false not_rejectsCleanly_ok not_rejectsCleanly_ok
  | error e s' =>
    constructor
    · rintro ⟨e, s', h, hs⟩
      cases h
      exact .error hs
    · rintro ⟨e, s', h, hs⟩
      cases h
      exact .error hs

/-- A decoder that starts with its length guard rejects what the guard is about. -/
theorem rejectsCleanly_requireLen {n : Nat} {e : OflErr} {f : Unit → Unpack α} {s : UnpackState}
    (hlen : s.len < n) (hs : s.wrapped = false) :
    RejectsCleanly ((requireLen n e >>= f) s) := by
  rw [bind_run, requireLen_reject hlen]
  exact .error hs

theorem rejectsCleanly_nestedOrReturn {f : Nat → Except OflErr α × Nat} {s : UnpackState}
    (hf : ∃ e n, f s.len = (.error e, n)) (hs : s.wrapped = false) :
    RejectsCleanly (nestedOrReturn f s) := by
  obtain ⟨e, n, hf⟩ := hf
  rw [nestedOrReturn_error hf]
  exact .error hs

/-- The multipart dispatchers, behind their own header, reject what the decoder of the body does. -/
theorem rejectsCleanly_multipart_iff {x : Unpack α} {f : α → β} {e : OflErr} {n : Nat}
    {s : UnpackState} (hlen : n ≤ s.len) :
    RejectsCleanly ((do requireLen n e; subLen n; let a ← x; pure (f a) : Unpack β) s) ↔
      RejectsCleanly (x { s with len := s.len - n }) := by
  have hrun : (do requireLen n e; subLen n; let a ← x; pure (f a) : Unpack β) s =
      (f <$> x) { s with len := s.len - n } := by
    simp [requireLen_run hlen, subLen_run hlen]
  rw [hrun, rejectsCleanly_map_iff]

/-! ## 3. The experimenter callbacks -/

/-- The callbacks refuse what is shorter than the experimenter header that they are given. -/
structure OflExp.RefusesShort (exp : Option (OflExp L)) : Prop where
  msg : ∀ unpack, OflExp.msgUnpack exp = some unpack → ∀ buf len,
    len < OfpExperimenterHeader.size → ∃ e n, unpack buf 0 len = (.error e, n)
  request : ∀ unpack, OflExp.statsReqUnpack exp = some unpack → ∀ buf len,
    len < OfpExperimenterStatsHeader.size → ∃ e n, unpack buf 0 len = (.error e, n)
  reply : ∀ unpack, OflExp.statsReplyUnpack exp = some unpack → ∀ buf len,
    len < OfpExperimenterStatsHeader.size → ∃ e n, unpack buf 0 len = (.error e, n)

/-- The NULL call of the EXPERIMENTER request, where one callback is tested and another called. -/
def OflExp.CallsNull (exp : Option (OflExp L)) : Prop :=
  (OflExp.statsReplyUnpack exp).isSome ∧ OflExp.statsReqUnpack exp = none

/-! ## 4. Truncated messages of each type -/

/-- The truncated messages that no guard stops. -/
def UnguardedLength (exp : Option (OflExp L)) (buf : Mem) (bufLen : Nat) : OfpType → Prop
  | .featuresReply => OfpHeader.size ≤ bufLen
  | .queueGetConfigRequest =>
      OfpHeader.size ≤ bufLen ∧
        ¬ (ntohl (get32 buf OfpQueueGetConfigRequest.port) = 0 ∨
          ofppMax < ntohl (get32 buf OfpQueueGetConfigRequest.port))
  | .multipartRequest =>
      OfpMultipartRequest.size ≤ bufLen ∧ multipartType buf = some .experimenter ∧
        OflExp.CallsNull exp
  | _ => False

theorem unpackRequestBody_truncated (exp : Option (OflExp L)) (hexp : OflExp.RefusesShort exp)
    (buf : Mem) (t : OfpMultipartType) {s : UnpackState} (hs : s.wrapped = false)
    (hshort : s.len < requestBodySize t) :
    RejectsCleanly (unpackRequestBody exp buf (some t) s) ↔
      ¬ (t = .experimenter ∧ OflExp.CallsNull exp) := by
  by_cases ht : t = .experimenter
  · subst ht
    simp only [true_and, unpackRequestBody, rejectsCleanly_map_iff, OflExp.CallsNull, callStats]
    cases hreply : OflExp.statsReplyUnpack exp with
    | none => exact iff_of_true (.error hs) (fun h => Bool.noConfusion h.1)
    | some reply =>
      cases hreq : OflExp.statsReqUnpack exp with
      | none =>
        -- `reply_unpack` was tested, and `req_unpack` is the NULL pointer that is called.
        refine iff_of_false ?_ (fun h => h ⟨rfl, rfl⟩)
        rintro ⟨e, s', h, _⟩
        cases h
      | some request =>
        refine iff_of_true (rejectsCleanly_nestedOrReturn ?_ hs) (fun h => nomatch h.2)
        exact hexp.request request hreq buf s.len hshort
  · refine iff_of_true ?_ (fun h => ht h.1)
    cases t with
    | flow => exact (rejectsCleanly_requireLen hshort hs).map
    | aggregate => exact (rejectsCleanly_requireLen hshort hs).map
    | portStats => exact (rejectsCleanly_requireLen hshort hs).map
    | queue => exact (rejectsCleanly_requireLen hshort hs).map
    | group => exact (rejectsCleanly_requireLen hshort hs).map
    | meter => exact (rejectsCleanly_requireLen hshort hs).map
    | meterConfig => exact (rejectsCleanly_requireLen hshort hs).map
    | experimenter => exact absurd rfl ht
    | _ => exact absurd hshort (Nat.not_lt_zero _)

theorem unpackReplyBody_truncated (exp : Option (OflExp L)) (hexp : OflExp.RefusesShort exp)
    (buf : Mem) (t : OfpMultipartType) {s : UnpackState} (hs : s.wrapped = false)
    (hshort : s.len < replyBodySize t) :
    RejectsCleanly (unpackReplyBody exp buf (some t) s) := by
  cases t with
  | desc => exact (rejectsCleanly_requireLen hshort hs).map
  | aggregate => exact (rejectsCleanly_requireLen hshort hs).map
  | groupFeatures => exact (rejectsCleanly_requireLen hshort hs).map
  | meterFeatures => exact .error hs
  | experimenter =>
    simp only [unpackReplyBody, rejectsCleanly_map_iff, callStats]
    cases hreply : OflExp.statsReplyUnpack exp with
    | none => exact .error hs
    | some reply => exact rejectsCleanly_nestedOrReturn (hexp.reply reply hreply buf s.len hshort) hs
  | _ => exact absurd hshort (Nat.not_lt_zero _)

theorem multipartRequest_truncated (exp : Option (OflExp L)) (hexp : OflExp.RefusesShort exp)
    (buf : Mem) {s : UnpackState} (hs : s.wrapped = false)
    (hshort : s.len < fixedPart buf .multipartRequest) :
    RejectsCleanly (oflMsgUnpackMultipartRequest exp buf s) ↔
      ¬ UnguardedLength exp buf s.len .multipartRequest := by
  by_cases hlen : s.len < 16
  · exact iff_of_true (rejectsCleanly_requireLen hlen hs)
      (fun h => absurd h.1 (Nat.not_le.mpr hlen))
  · have hle : OfpMultipartRequest.size ≤ s.len := Nat.not_lt.mp hlen
    refine (rejectsCleanly_multipart_iff hle).trans ?_
    change RejectsCleanly (unpackRequestBody exp buf (multipartType buf) _) ↔ _
    simp only [UnguardedLength, hle, true_and]
    change s.len < 16 + (multipartType buf).elim 0 requestBodySize at hshort
    cases ht : multipartType buf with
    | none =>
      rw [ht] at hshort
      exact absurd hshort hlen
    | some t =>
      rw [ht, Option.elim_some] at hshort
      have hbody : s.len - 16 < requestBodySize t := by omega
      rw [Option.some_inj]
      exact unpackRequestBody_truncated exp hexp buf t hs hbody

theorem multipartReply_truncated (exp : Option (OflExp L)) (hexp : OflExp.RefusesShort exp)
    (buf : Mem) {s : UnpackState} (hs : s.wrapped = false)
    (hshort : s.len < fixedPart buf .multipartReply) :
    RejectsCleanly (oflMsgUnpackMultipartReply exp buf s) := by
  by_cases hlen : s.len < 16
  · exact rejectsCleanly_requireLen hlen hs
  · have hle : OfpMultipartReply.size ≤ s.len := Nat.not_lt.mp hlen
    refine (rejectsCleanly_multipart_iff hle).mpr ?_
    change RejectsCleanly (unpackReplyBody exp buf (multipartType buf) _)
    change s.len < 16 + (multipartType buf).elim 0 replyBodySize at hshort
    cases ht : multipartType buf with
    | none =>
      rw [ht] at hshort
      exact absurd hshort hlen
    | some t =>
      rw [ht, Option.elim_some] at hshort
      have hbody : s.len - 16 < replyBodySize t := by omega
      exact unpackReplyBody_truncated exp hexp buf t hs hbody

theorem queueGetConfigRequest_truncated (buf : Mem) {s : UnpackState} (hs : s.wrapped = false)
    (hlo : 8 ≤ s.len) :
    RejectsCleanly (oflMsgUnpackQueueGetConfigRequest buf s) ↔
      (ntohl (get32 buf 8) = 0 ∨ ofppMax < ntohl (get32 buf 8)) := by
  simp only [oflMsgUnpackQueueGetConfigRequest, OfpGroupDescStats.size, bind_run,
    requireLen_run hlo, OfpQueueGetConfigRequest.port]
  by_cases hport : ntohl (get32 buf 8) = 0 ∨ ofppMax < ntohl (get32 buf 8)
  · simp only [rejectIf_reject hport]
    exact iff_of_true (.error hs) hport
  · simp only [rejectIf_run hport]
    exact iff_of_false not_rejectsCleanly_ok hport

/-- The decoder behind the header, for each type. -/
theorem unpackBody_truncated (exp : Option (OflExp L)) (hexp : OflExp.RefusesShort exp)
    (buf : Mem) (t : OfpType) {s : UnpackState} (hs : s.wrapped = false) (hlo : 8 ≤ s.len)
    (hshort : s.len < fixedPart buf t) :
    RejectsCleanly (unpackBody exp buf (some t) s) ↔ ¬ UnguardedLength exp buf s.len t := by
  cases t with
  | featuresReply =>
    -- No guard at all: the subtraction wraps and the message is accepted.
    exact iff_of_false not_rejectsCleanly_ok (fun h => h hlo)
  | queueGetConfigRequest =>
    simp only [unpackBody, rejectsCleanly_map_iff, UnguardedLength, OfpHeader.size, hlo, true_and,
      not_not]
    exact queueGetConfigRequest_truncated buf hs hlo
  | multipartRequest => exact multipartRequest_truncated exp hexp buf hs hshort
  | multipartReply => exact iff_of_true (multipartReply_truncated exp hexp buf hs hshort) id
  | experimenter =>
    refine iff_of_true ?_ id
    unfold unpackBody
    cases hmsg : OflExp.msgUnpack exp with
    | none => exact .error hs
    | some unpack => exact (rejectsCleanly_nestedOrReturn (hexp.msg unpack hmsg buf s.len hshort) hs).map
  -- A header is all of these messages that is fixed.
  | hello => exact absurd hshort (Nat.not_lt.mpr hlo)
  | echoRequest => exact absurd hshort (Nat.not_lt.mpr hlo)
  | echoReply => exact absurd hshort (Nat.not_lt.mpr hlo)
  | featuresRequest => exact absurd hshort (Nat.not_lt.mpr hlo)
  | getConfigRequest => exact absurd hshort (Nat.not_lt.mpr hlo)
  | getAsyncRequest => exact absurd hshort (Nat.not_lt.mpr hlo)
  | barrierRequest => exact absurd hshort (Nat.not_lt.mpr hlo)
  | barrierReply => exact absurd hshort (Nat.not_lt.mpr hlo)
  | packetIn =>
    have hguard : s.len < OfpPacketIn.size := Nat.lt_of_lt_of_le hshort (Nat.sub_le _ _)
    exact iff_of_true (rejectsCleanly_requireLen hguard hs).map id
  | queueGetConfigReply => exact iff_of_true (rejectsCleanly_requireLen hshort hs).bind id
  | _ => exact iff_of_true (rejectsCleanly_requireLen hshort hs).map id

/-! ## 5. Truncated messages -/

/-- **Which truncated messages are rejected**: of the messages with a well-formed header that are
shorter than the fixed part of their type, exactly those that a guard stops. -/
theorem truncated_rejected_iff (exp : Option (OflExp L)) (hexp : OflExp.RefusesShort exp)
    (buf : Mem) (bufLen : Nat) (xid : Option UInt32) (t : OfpType)
    (hversion : buf OfpHeader.version = ofpVersion)
    (hlength : (ntohs (get16 buf OfpHeader.length)).toNat = bufLen)
    (htype : OfpType.ofUInt8? (buf OfpHeader.type) = some t)
    (hshort : bufLen < fixedPart buf t) :
    RejectsCleanly (oflMsgUnpack exp buf bufLen xid) ↔ ¬ UnguardedLength exp buf bufLen t := by
  by_cases hlen : bufLen < 8
  · rw [oflMsgUnpack_of_short exp xid hlen]
    refine iff_of_true (.error rfl) ?_
    cases t with
    | featuresReply => exact Nat.not_le.mpr hlen
    | queueGetConfigRequest => exact fun h => absurd h.1 (Nat.not_le.mpr hlen)
    | multipartRequest =>
      exact fun h => absurd (Nat.le_trans (by decide) h.1) (Nat.not_le.mpr hlen)
    | _ => exact id
  · have hlo : 8 ≤ bufLen := Nat.not_lt.mp hlen
    rw [oflMsgUnpack_of_header exp xid hlo hversion hlength]
    change RejectsCleanly (unpackBody exp buf (OfpType.ofUInt8? (buf OfpHeader.type)) _) ↔ _
    rw [htype]
    exact unpackBody_truncated exp hexp buf t rfl hlo hshort

/-- A ten-byte ERROR message is rejected by its guard. -/
theorem truncated_rejected_iff_error :
    let buf := sampleBuf [4, 1, 0, 10, 0, 0, 0, 7, 0, 1]
    RejectsCleanly (oflMsgUnpack (L := sampleLib) none buf 10 none) ↔
      ¬ UnguardedLength (L := sampleLib) none buf 10 .error :=
  truncated_rejected_iff none ⟨nofun, nofun, nofun⟩ _ 10 none .error (by decide) (by decide)
    (by decide) (by decide)

/-- A FEATURES_REPLY that is only its header is accepted, and `*len` wraps. -/
theorem featuresReply_header_only_wraps :
    let buf := sampleBuf [4, 6, 0, 8, 0, 0, 0, 7]
    buf OfpHeader.version = ofpVersion ∧ (ntohs (get16 buf OfpHeader.length)).toNat = 8 ∧
      OfpType.ofUInt8? (buf OfpHeader.type) = some .featuresReply ∧
      8 < fixedPart buf .featuresReply ∧
      (∃ m, oflMsgUnpack (L := sampleLib) none buf 8 none =
        .ok m ⟨2 ^ 64 - 24, none, true, false⟩) ∧
      ¬ RejectsCleanly (oflMsgUnpack (L := sampleLib) none buf 8 none) :=
  ⟨by decide, by decide, by decide, by decide, ⟨_, rfl⟩, not_rejectsCleanly_ok⟩

end CcPof.OpenFlow

import CcPof.OpenFlow.Pack

/-!
# The decoder

`src/cc_parse_msg.c`. A decoder runs on the memory `buf` that holds the message (and whatever
follows it) and on the state of `ofl_msg_unpack`: the remaining length `*len`, a `size_t`, and
`*xid`. Two ghost flags record what the code does not: whether some subtraction has taken `*len`
below zero, and whether some element decoder has returned an error.
-/

namespace CcPof.OpenFlow

/-! ## 1. The decoder monad -/

/-- How a decoder can end other than by success: it returns an error, calls a `NULL` callback, or
reads behind the mapped memory. -/
inductive Fault where
  | err (e : OflErr)
  | nullCall
  | segv
  deriving DecidableEq, Repr

structure UnpackState where
  len : Nat
  xid : Option UInt32
  wrapped : Bool
  failed : Bool
  deriving DecidableEq, Repr

abbrev Unpack := EStateM Fault UnpackState

/-- `*len -= n` on a `size_t`. -/
def subLen (n : Nat) : Unpack Unit := fun s =>
  .ok () { s with
    len := if n ≤ s.len then s.len - n else s.len + 2 ^ 64 - n
    wrapped := s.wrapped || decide (s.len < n) }

def rejectIf (c : Prop) [Decidable c] (e : OflErr) : Unpack Unit := fun s =>
  if c then .error (.err e) s else .ok () s

/-- The guard `if (*len < n) return e`. -/
def requireLen (n : Nat) (e : OflErr) : Unpack Unit := fun s =>
  rejectIf (s.len < n) e s

/-- `memcpy(malloc(*len), buf + off, *len); *len = 0`. -/
def takeRest (buf : Mem) (off : Nat) : Unpack (List UInt8) := fun s =>
  .ok (load buf off s.len) { s with len := 0 }

/-- `if (xid != NULL) *xid = v`. -/
def setXid (v : UInt32) : Unpack Unit := fun s =>
  .ok () { s with xid := s.xid.map fun _ => v }

def orReturn {α : Type} : Except OflErr α → Unpack α
  | .ok a => pure a
  | .error e => throw (.err e)

/-- Calls a function outside the repository that takes `len`, without looking at its result. -/
def nested {α : Type} (f : Nat → Except OflErr α × Nat) : Unpack (Except OflErr α) := fun s =>
  let r := f s.len
  .ok r.1 { s with len := r.2, failed := s.failed || !r.1.isOk }

/-- The same with `if (error) return error`. -/
def nestedOrReturn {α : Type} (f : Nat → Except OflErr α × Nat) : Unpack α := do
  orReturn (← nested f)

abbrev badLen : OflErr := .ofl .badRequest ofpbrcBadLen

variable {L : OflLib}

/-! ## 2. Array loops -/

/-- The loop over `n` entries that returns at the first error. The next entry starts `stride` bytes
behind this one. -/
def unpackArr {α : Type} (unpack : ElemDecoder α) (stride : Mem → Nat → Nat) (buf : Mem) :
    Nat → Nat → Unpack (List α)
  | 0, _ => pure []
  | n + 1, pos => do
    let a ← nestedOrReturn (unpack buf pos)
    let as ← unpackArr unpack stride buf n (pos + stride buf pos)
    pure (a :: as)

/-- The loop of the decoders that go on after an error: the slot keeps its old content. -/
def unpackArrLax {α : Type} (stale : α) (unpack : ElemDecoder α) (stride : Mem → Nat → Nat)
    (buf : Mem) : Nat → Nat → Unpack (List α)
  | 0, _ => pure []
  | n + 1, pos => do
    let r ← nested (unpack buf pos)
    let as ← unpackArrLax stale unpack stride buf n (pos + stride buf pos)
    pure (r.toOption.getD stale :: as)

/-- A stride that reads the entry's own 16-bit length field at offset `off`. -/
def lenField (off : Nat) : Mem → Nat → Nat := fun buf pos => (ntohs (get16 buf (pos + off))).toNat

/-- A stride by `sizeof`. -/
def fixedStride (n : Nat) : Mem → Nat → Nat := fun _ _ => n

/-- Count the entries of the rest of the message, then decode them. -/
def unpackRest {α : Type} (count : Mem → (pos len : Nat) → Except OflErr Nat)
    (unpack : ElemDecoder α) (stride : Mem → Nat → Nat) (buf : Mem) (pos : Nat) :
    Unpack (List α) := do
  let n ← orReturn (count buf pos (← get).len)
  unpackArr unpack stride buf n pos

/-! ## 3. Messages with a fixed body -/

def oflMsgUnpackError (buf : Mem) : Unpack OflMsgError := do
  requireLen OfpErrorMsg.size .oflError
  subLen OfpErrorMsg.size
  let data ← takeRest buf OfpErrorMsg.data
  pure {
    type := ntohs (get16 buf OfpErrorMsg.type)
    code := ntohs (get16 buf OfpErrorMsg.code)
    data := data }

def oflMsgUnpackEcho (buf : Mem) : Unpack OflMsgEcho := do
  subLen OfpHeader.size
  let data ← takeRest buf OfpHeader.size
  pure { data := data }

def oflMsgUnpackRoleRequest (buf : Mem) : Unpack OflMsgRoleRequest := do
  requireLen OfpRoleRequest.size badLen
  subLen OfpRoleRequest.size
  pure {
    role := ntohl (get32 buf OfpRoleRequest.role)
    generationId := ntoh64 (get64 buf OfpRoleRequest.generationId) }

/-- A short FEATURES_REPLY is only logged. -/
def oflMsgUnpackFeaturesReply (buf : Mem) : Unpack OflMsgFeaturesReply := do
  subLen OfpSwitchFeatures.size
  pure {
    datapathId := ntoh64 (get64 buf OfpSwitchFeatures.datapathId)
    nBuffers := ntohl (get32 buf OfpSwitchFeatures.nBuffers)
    nTables := buf OfpSwitchFeatures.nTables
    auxiliaryId := buf OfpSwitchFeatures.auxiliaryId
    capabilities := ntohl (get32 buf OfpSwitchFeatures.capabilities) }

/-- The body of `ofl_msg_unpack_get_config_reply` and of `ofl_msg_unpack_set_config`. -/
def unpackConfig (buf : Mem) : Unpack OflConfig := do
  requireLen OfpSwitchConfig.size badLen
  subLen OfpSwitchConfig.size
  pure {
    missSendLen := ntohs (get16 buf OfpSwitchConfig.missSendLen)
    flags := ntohs (get16 buf OfpSwitchConfig.flags) }

def oflMsgUnpackGetConfigReply (buf : Mem) : Unpack OflConfig := unpackConfig buf

def oflMsgUnpackSetConfig (buf : Mem) : Unpack OflConfig := unpackConfig buf

def oflMsgUnpackAsyncConfig (buf : Mem) : Unpack OflAsyncConfig := do
  requireLen OfpAsyncConfig.size badLen
  subLen OfpAsyncConfig.size
  pure {
    packetInMask := fun i => get32 buf (OfpAsyncConfig.packetInMask + 4 * i)
    portStatusMask := fun i => get32 buf (OfpAsyncConfig.portStatusMask + 4 * i)
    flowRemovedMask := fun i => get32 buf (OfpAsyncConfig.flowRemovedMask + 4 * i) }

def oflMsgUnpackPortMod (buf : Mem) : Unpack OflMsgPortMod := do
  requireLen OfpPortMod.size badLen
  subLen OfpPortMod.size
  pure {
    portNo := ntohl (get32 buf OfpPortMod.portNo)
    hwAddr := fun i => buf (OfpPortMod.hwAddr + i)
    config := ntohl (get32 buf OfpPortMod.config)
    mask := ntohl (get32 buf OfpPortMod.mask)
    advertise := ntohl (get32 buf OfpPortMod.advertise) }

def oflMsgUnpackTableMod (buf : Mem) : Unpack OflMsgTableMod := do
  requireLen OfpTableMod.size badLen
  subLen OfpTableMod.size
  pure {
    tableId := buf OfpTableMod.tableId
    config := ntohl (get32 buf OfpTableMod.config) }

/-- The guard names `struct ofp_group_desc_stats`, 8 bytes, and not the 16-byte request. -/
def oflMsgUnpackQueueGetConfigRequest (buf : Mem) : Unpack UInt32 := do
  requireLen OfpGroupDescStats.size badLen
  let port := ntohl (get32 buf OfpQueueGetConfigRequest.port)
  rejectIf (port = 0 ∨ ofppMax < port) (.ofl .queueOpFailed ofpqofcBadPort)
  subLen OfpQueueGetConfigRequest.size
  pure port

def oflMsgUnpackEmpty : Unpack Unit := subLen OfpHeader.size

/-! ## 4. Messages with a match or an array -/

/-- The result of the match decoder is not checked, and the two padding bytes are taken off `*len`
without a guard. -/
def oflMsgUnpackPacketIn (buf : Mem) : Unpack (OflMsgPacketIn L) := do
  requireLen OfpPacketIn.size badLen
  rejectIf (buf OfpPacketIn.tableId = 0xff) (.ofl .badRequest ofpbacBadArgument)
  subLen (OfpPacketIn.size - OfpMatch.size)
  let r ← nested (L.matchUnpack buf OfpPacketIn.fmatch (OfpPacketIn.size - 4))
  let fmatch := r.toOption.getD L.staleMatch
  let ptr := roundUp (OfpPacketIn.size - 4 + (L.matchLength fmatch).toNat) 8 + 2
  subLen 2
  let data ← takeRest buf ptr
  pure {
    bufferId := ntohl (get32 buf OfpPacketIn.bufferId)
    totalLen := ntohs (get16 buf OfpPacketIn.totalLen)
    reason := buf OfpPacketIn.reason
    tableId := buf OfpPacketIn.tableId
    cookie := ntoh64 (get64 buf OfpPacketIn.cookie)
    fmatch := fmatch
    data := data }

/-- `priority` goes through `ntoh64`; `hard_timeout` is set to 0. -/
def oflMsgUnpackFlowRemoved (buf : Mem) : Unpack (OflMsgFlowRemoved L) := do
  requireLen (OfpFlowRemoved.size - OfpMatch.size) .oflError
  rejectIf (buf OfpFlowRemoved.tableId = 0xff) (.ofl .badRequest ofpbacBadArgument)
  subLen (OfpFlowRemoved.size - OfpMatch.size)
  let fmatch ← nestedOrReturn
    (L.matchUnpack buf OfpFlowRemoved.fmatch (OfpFlowRemoved.size - 4))
  pure {
    reason := buf OfpFlowRemoved.reason
    stats := {
      tableId := buf OfpFlowRemoved.tableId
      durationSec := ntohl (get32 buf OfpFlowRemoved.durationSec)
      durationNsec := ntohl (get32 buf OfpFlowRemoved.durationNsec)
      priority := (ntoh64 (get16 buf OfpFlowRemoved.priority).toUInt64).toUInt16
      idleTimeout := ntohs (get16 buf OfpFlowRemoved.idleTimeout)
      hardTimeout := 0
      cookie := ntoh64 (get64 buf OfpFlowRemoved.cookie)
      packetCount := ntoh64 (get64 buf OfpFlowRemoved.packetCount)
      byteCount := ntoh64 (get64 buf OfpFlowRemoved.byteCount)
      fmatch := fmatch } }

def oflMsgUnpackPortStatus (buf : Mem) : Unpack (OflMsgPortStatus L) := do
  requireLen OfpPortStatus.size badLen
  subLen (OfpPortStatus.size - OfpPort.size)
  let desc ← nestedOrReturn (L.elemUnpack .port buf OfpPortStatus.desc)
  pure { reason := buf OfpPortStatus.reason, desc := desc }

/-- A failing action frees the message and the loop goes on with it. `in_port` is never read. -/
def oflMsgUnpackPacketOut (buf : Mem) : Unpack (OflMsgPacketOut L) := do
  requireLen OfpPacketOut.size badLen
  let bufferId := ntohl (get32 buf OfpPacketOut.bufferId)
  let actionsLen := (ntohs (get16 buf OfpPacketOut.actionsLen)).toNat
  rejectIf (bufferId ≠ 0xffffffff ∧ (← get).len ≠ OfpPacketOut.size + actionsLen) badLen
  subLen OfpPacketOut.size
  requireLen actionsLen badLen
  let n ← orReturn (L.actionCount buf OfpPacketOut.actions actionsLen)
  let actions ← unpackArrLax L.staleAction L.actionUnpack (lenField OfpActionHeader.len) buf n
    OfpPacketOut.actions
  let data ← takeRest buf (OfpPacketOut.actions + actionsLen)
  pure { bufferId := bufferId, inPort := L.staleInPort, actions := actions, data := data }

def oflMsgUnpackFlowMod (buf : Mem) : Unpack (OflMsgFlowMod L) := do
  requireLen (OfpFlowMod.size - OfpMatch.size) badLen
  subLen (OfpFlowMod.size - OfpMatch.size)
  let matchPos := OfpFlowMod.size - 4
  let fmatch ← nestedOrReturn (L.matchUnpack buf OfpFlowMod.fmatch matchPos)
  let inst := roundUp (matchPos + (L.matchLength fmatch).toNat) 8
  let instructions ← unpackRest (L.elemCount .instruction) (L.elemUnpack .instruction)
    (lenField OfpInstruction.len) buf inst
  pure {
    cookie := ntoh64 (get64 buf OfpFlowMod.cookie)
    cookieMask := ntoh64 (get64 buf OfpFlowMod.cookieMask)
    tableId := buf OfpFlowMod.tableId
    command := buf OfpFlowMod.command
    idleTimeout := ntohs (get16 buf OfpFlowMod.idleTimeout)
    hardTimeout := ntohs (get16 buf OfpFlowMod.hardTimeout)
    priority := ntohs (get16 buf OfpFlowMod.priority)
    bufferId := ntohl (get32 buf OfpFlowMod.bufferId)
    outPort := ntohl (get32 buf OfpFlowMod.outPort)
    outGroup := ntohl (get32 buf OfpFlowMod.outGroup)
    flags := ntohs (get16 buf OfpFlowMod.flags)
    fmatch := fmatch
    instructions := instructions }

/-- The type check swaps the one-byte `type` as if it had two. -/
def oflMsgUnpackGroupMod (buf : Mem) : Unpack (OflMsgGroupMod L) := do
  requireLen OfpGroupMod.size badLen
  subLen OfpGroupMod.size
  let command := ntohs (get16 buf OfpGroupMod.command)
  let type := buf OfpGroupMod.type
  let groupId := ntohl (get32 buf OfpGroupMod.groupId)
  rejectIf (ofpgcDelete < command) (.ofl .badRequest ofpgmfcBadCommand)
  rejectIf (ofpgtFf < ntohs type.toUInt16 ∧ ntohs type.toUInt16 < 128)
    (.ofl .badRequest ofpgmfcBadType)
  rejectIf (ofpgMax < groupId ∧ ¬(command = ofpgcDelete ∧ groupId = ofpgAll))
    (.ofl .groupModFailed ofpgmfcInvalidGroup)
  let n ← orReturn (L.bucketCount buf OfpGroupMod.buckets (← get).len)
  rejectIf (command = ofpgcDelete ∧ 0 < n) (.ofl .groupModFailed ofpgmfcInvalidGroup)
  rejectIf (type = ofpgtIndirect ∧ n ≠ 1) (.ofl .groupModFailed ofpgmfcInvalidGroup)
  let buckets ← unpackArr (L.bucketUnpack type) (lenField OfpBucket.len) buf n OfpGroupMod.buckets
  pure { command := command, type := type, groupId := groupId, buckets := buckets }

def oflMsgUnpackMeterMod (buf : Mem) : Unpack (OflMsgMeterMod L) := do
  requireLen OfpMeterMod.size badLen
  subLen OfpMeterMod.size
  let command := ntohs (get16 buf OfpMeterMod.command)
  let flags := ntohs (get16 buf OfpMeterMod.flags)
  let meterId := ntohl (get32 buf OfpMeterMod.meterId)
  rejectIf (ofpmcDelete < command) (.ofl .badRequest ofpmmfcBadCommand)
  rejectIf ((1 : UInt16) < flags >>> 3) (.ofl .badRequest ofpmmfcBadFlags)
  rejectIf (ofpmMax < meterId ∧ ¬(command = ofpmcDelete ∧ meterId = ofpmAll))
    (.ofl .meterModFailed ofpmmfcInvalidMeter)
  let bands ← unpackRest (L.elemCount .meterBand) (L.elemUnpack .meterBand)
    (lenField OfpMeterBandHeader.len) buf OfpMeterMod.bands
  pure { command := command, flags := flags, meterId := meterId, bands := bands }

def oflMsgUnpackQueueGetConfigReply (buf : Mem) :
    Unpack (UInt32 × List (L.Elem .packetQueue)) := do
  requireLen OfpQueueGetConfigReply.size badLen
  subLen OfpQueueGetConfigReply.size
  let queues ← unpackRest (L.elemCount .packetQueue) (L.elemUnpack .packetQueue)
    (lenField OfpPacketQueue.len) buf OfpQueueGetConfigReply.queues
  pure (ntohl (get32 buf OfpQueueGetConfigReply.port), queues)

/-! ## 5. Multipart requests -/

def oflMsgUnpackMultipartRequestFlow (buf : Mem) : Unpack (OflMsgMultipartRequestFlow L) := do
  requireLen (OfpFlowStatsRequest.size - OfpMatch.size) badLen
  subLen (OfpFlowStatsRequest.size - OfpMatch.size)
  let sm := OfpMultipartRequest.body
  let matchPos := OfpMultipartRequest.size + OfpFlowStatsRequest.size - 4
  let fmatch ← nestedOrReturn (L.matchUnpack buf (sm + OfpFlowStatsRequest.fmatch) matchPos)
  pure {
    tableId := buf (sm + OfpFlowStatsRequest.tableId)
    outPort := ntohl (get32 buf (sm + OfpFlowStatsRequest.outPort))
    outGroup := ntohl (get32 buf (sm + OfpFlowStatsRequest.outGroup))
    cookie := ntoh64 (get64 buf (sm + OfpFlowStatsRequest.cookie))
    cookieMask := ntoh64 (get64 buf (sm + OfpFlowStatsRequest.cookieMask))
    fmatch := fmatch }

/-- The port check shared by the PORT_STATS and the QUEUE request. -/
def badStatsPort (portNo : UInt32) : Prop := portNo = 0 ∨ ofppMax < portNo ∧ portNo ≠ ofppAny

instance (portNo : UInt32) : Decidable (badStatsPort portNo) := inferInstanceAs (Decidable (_ ∨ _))

def oflMsgUnpackMultipartRequestPort (buf : Mem) : Unpack UInt32 := do
  requireLen OfpPortStatsRequest.size badLen
  let portNo := ntohl (get32 buf (OfpMultipartRequest.body + OfpPortStatsRequest.portNo))
  rejectIf (badStatsPort portNo) badLen
  subLen OfpPortStatsRequest.size
  pure portNo

/-- `len -= sizeof(...)` moves the local pointer, not the length. -/
def oflMsgUnpackMultipartRequestEmpty : Unpack Unit := pure ()

def oflMsgUnpackMultipartRequestTableFeatures (buf : Mem) :
    Unpack (List (L.Elem .tableFeatures)) := do
  let len := (← get).len
  if len = 0 then pure []
  else
    let n ← orReturn (L.elemCount .tableFeatures buf OfpMultipartRequest.body len)
    unpackArrLax L.staleTableFeatures (L.elemUnpack .tableFeatures)
      (lenField OfpTableFeatures.length) buf n OfpMultipartRequest.body

def oflMsgUnpackMultipartRequestQueue (buf : Mem) : Unpack OflMsgMultipartRequestQueue := do
  requireLen OfpQueueStatsRequest.size badLen
  let portNo := ntohl (get32 buf (OfpMultipartRequest.body + OfpQueueStatsRequest.portNo))
  rejectIf (badStatsPort portNo) badLen
  subLen OfpQueueStatsRequest.size
  pure {
    portNo := portNo
    queueId := ntohl (get32 buf (OfpMultipartRequest.body + OfpQueueStatsRequest.queueId)) }

def oflMsgUnpackMultipartRequestGroup (buf : Mem) : Unpack UInt32 := do
  requireLen OfpGroupStatsRequest.size badLen
  subLen OfpGroupStatsRequest.size
  pure (ntohl (get32 buf (OfpMultipartRequest.body + OfpGroupStatsRequest.groupId)))

def oflMsgUnpackMeterMultipartRequest (buf : Mem) : Unpack UInt32 := do
  requireLen OfpMeterMultipartRequest.size badLen
  subLen OfpMeterMultipartRequest.size
  pure (ntohl (get32 buf (OfpMultipartRequest.body + OfpMeterMultipartRequest.meterId)))

/-- The EXPERIMENTER case: `tested` is the pointer that the code tests for `NULL`, `called` the one
that it calls. -/
def callStats {α β : Type} (tested : Option β) (called : Option (ElemDecoder α)) (buf : Mem) :
    Unpack α :=
  match tested, called with
  | none, _ => throw (.err (.ofl .badRequest ofpbrcBadMultipart))
  | some _, none => throw .nullCall
  | some _, some unpack => nestedOrReturn (unpack buf 0)

def OflExp.statsReqUnpack (exp : Option (OflExp L)) : Option (ElemDecoder L.ExpRequest) :=
  exp.bind fun e => e.stats.bind OflExpStats.reqUnpack

def OflExp.statsReplyUnpack (exp : Option (OflExp L)) : Option (ElemDecoder L.ExpReply) :=
  exp.bind fun e => e.stats.bind OflExpStats.replyUnpack

def OflExp.msgUnpack (exp : Option (OflExp L)) : Option (ElemDecoder L.ExpMsg) :=
  exp.bind fun e => e.msg.bind OflExpMsg.unpack

/-- The `switch` over the multipart type of a request. -/
def unpackRequestBody (exp : Option (OflExp L)) (buf : Mem) :
    Option OfpMultipartType → Unpack (MultipartRequest L)
  | some .desc => do oflMsgUnpackMultipartRequestEmpty; pure .desc
  | some .flow => .flow <$> oflMsgUnpackMultipartRequestFlow buf
  | some .aggregate => .aggregate <$> oflMsgUnpackMultipartRequestFlow buf
  | some .table => do oflMsgUnpackMultipartRequestEmpty; pure .table
  | some .tableFeatures => .tableFeatures <$> oflMsgUnpackMultipartRequestTableFeatures buf
  | some .portStats => .portStats <$> oflMsgUnpackMultipartRequestPort buf
  | some .queue => .queue <$> oflMsgUnpackMultipartRequestQueue buf
  | some .group => .group <$> oflMsgUnpackMultipartRequestGroup buf
  | some .groupDesc => do oflMsgUnpackMultipartRequestEmpty; pure .groupDesc
  | some .groupFeatures => do oflMsgUnpackMultipartRequestEmpty; pure .groupFeatures
  | some .meter => .meter <$> oflMsgUnpackMeterMultipartRequest buf
  | some .meterConfig => .meterConfig <$> oflMsgUnpackMeterMultipartRequest buf
  | some .portDesc => do oflMsgUnpackMultipartRequestEmpty; pure .portDesc
  -- tests `reply_unpack` and calls `req_unpack`
  | some .experimenter =>
      .experimenter <$> callStats (OflExp.statsReplyUnpack exp) (OflExp.statsReqUnpack exp) buf
  | some .meterFeatures | none => throw (.err (.ofl .badRequest ofpbrcBadMultipart))

def oflMsgUnpackMultipartRequest (exp : Option (OflExp L)) (buf : Mem) : Unpack (OflMsg L) := do
  requireLen OfpMultipartRequest.size badLen
  subLen OfpMultipartRequest.size
  let body ← unpackRequestBody exp buf
    (OfpMultipartType.ofUInt16? (ntohs (get16 buf OfpMultipartRequest.type)))
  pure (.multipartRequest (ntohs (get16 buf OfpMultipartRequest.flags)) body)

/-! ## 6. Multipart replies -/

/-- `strlen` over memory that is mapped for `n` more bytes. -/
def strlen (buf : Mem) : (pos n : Nat) → Option Nat
  | _, 0 => none
  | pos, n + 1 => if buf pos = 0 then some 0 else (strlen buf (pos + 1) n).map (· + 1)

/-- `strcpy(malloc(strlen(s) + 1), s)`: nothing stops it at the end of the field. -/
def strcpy (L : OflLib) (buf : Mem) (pos : Nat) : Unpack (List UInt8) :=
  match strlen buf pos (L.mappedEnd - pos) with
  | none => throw .segv
  | some n => pure (load buf pos (n + 1))

def oflMsgUnpackReplyDesc (L : OflLib) (buf : Mem) : Unpack OflMsgReplyDesc := do
  requireLen OfpDesc.size badLen
  subLen OfpDesc.size
  let sm := OfpMultipartReply.body
  let mfrDesc ← strcpy L buf (sm + OfpDesc.mfrDesc)
  let hwDesc ← strcpy L buf (sm + OfpDesc.hwDesc)
  let swDesc ← strcpy L buf (sm + OfpDesc.swDesc)
  let serialNum ← strcpy L buf (sm + OfpDesc.serialNum)
  let dpDesc ← strcpy L buf (sm + OfpDesc.dpDesc)
  pure { mfrDesc, hwDesc, swDesc, serialNum, dpDesc }

/-- The FLOW loop: `stat` advances by the entry's length field, `ptr` by what was consumed. -/
def unpackFlowStats (buf : Mem) : (n stat ptr : Nat) → Unpack (List L.FlowStats)
  | 0, _, _ => pure []
  | n + 1, stat, ptr => do
    let iniLen := (← get).len
    let a ← nestedOrReturn (L.flowStatsUnpack buf stat ptr)
    let ptr := ptr + iniLen - (← get).len
    let as ← unpackFlowStats buf n (stat + lenField OfpFlowStats.length buf stat) ptr
    pure (a :: as)

def oflMsgUnpackMultipartReplyFlow (buf : Mem) : Unpack (List L.FlowStats) := do
  let n ← orReturn (L.flowStatsCount buf OfpMultipartReply.body (← get).len)
  unpackFlowStats buf n OfpMultipartReply.body OfpMultipartReply.size

def oflMsgUnpackMultipartReplyAggregate (buf : Mem) : Unpack OflMsgMultipartReplyAggregate := do
  requireLen OfpAggregateStatsReply.size badLen
  subLen OfpAggregateStatsReply.size
  let sm := OfpMultipartReply.body
  pure {
    packetCount := ntoh64 (get64 buf (sm + OfpAggregateStatsReply.packetCount))
    byteCount := ntoh64 (get64 buf (sm + OfpAggregateStatsReply.byteCount))
    flowCount := ntohl (get32 buf (sm + OfpAggregateStatsReply.flowCount)) }

/-- An array-bodied reply. -/
def unpackReplyArr (k : ElemKind) (stride : Mem → Nat → Nat) (buf : Mem) :
    Unpack (List (L.Elem k)) :=
  unpackRest (L.elemCount k) (L.elemUnpack k) stride buf OfpMultipartReply.body

def oflMsgUnpackMultipartReplyTable (buf : Mem) : Unpack (List (L.Elem .tableStats)) :=
  unpackReplyArr .tableStats (fixedStride OfpTableStats.size) buf

def oflMsgUnpackMultipartReplyPort (buf : Mem) : Unpack (List (L.Elem .portStats)) :=
  unpackReplyArr .portStats (fixedStride OfpPortStats.size) buf

def oflMsgUnpackMultipartReplyQueue (buf : Mem) : Unpack (List (L.Elem .queueStats)) :=
  unpackReplyArr .queueStats (fixedStride OfpQueueStats.size) buf

def oflMsgUnpackMultipartReplyGroup (buf : Mem) : Unpack (List (L.Elem .groupStats)) :=
  unpackReplyArr .groupStats (lenField OfpGroupStats.length) buf

def oflMsgUnpackMultipartReplyGroupDesc (buf : Mem) : Unpack (List (L.Elem .groupDescStats)) :=
  unpackReplyArr .groupDescStats (lenField OfpGroupDescStats.length) buf

def oflMsgUnpackMultipartReplyGroupFeatures (buf : Mem) :
    Unpack OflMsgMultipartReplyGroupFeatures := do
  requireLen OfpGroupFeaturesStats.size badLen
  subLen OfpGroupFeaturesStats.size
  let sm := OfpMultipartReply.body
  pure {
    types := ntohl (get32 buf (sm + OfpGroupFeaturesStats.types))
    capabilities := ntohl (get32 buf (sm + OfpGroupFeaturesStats.capabilities))
    maxGroups := fun i => ntohl (get32 buf (sm + OfpGroupFeaturesStats.maxGroups + 4 * i))
    actions := fun i => ntohl (get32 buf (sm + OfpGroupFeaturesStats.actions + 4 * i)) }

/-- The result of the element decoder is not checked. -/
def oflMsgUnpackMultipartReplyTableFeatures (buf : Mem) :
    Unpack (List (L.Elem .tableFeatures)) := do
  let n ← orReturn (L.elemCount .tableFeatures buf OfpMultipartReply.body (← get).len)
  unpackArrLax L.staleTableFeatures (L.elemUnpack .tableFeatures)
    (lenField OfpTableFeatures.length) buf n OfpMultipartReply.body

def oflMsgUnpackMultipartReplyMeterStats (buf : Mem) : Unpack (List (L.Elem .meterStats)) :=
  unpackReplyArr .meterStats (lenField OfpMeterStats.len) buf

def oflMsgUnpackMultipartReplyMeterConfig (buf : Mem) : Unpack (List (L.Elem .meterConfig)) :=
  unpackReplyArr .meterConfig (lenField OfpMeterConfig.length) buf

def oflMsgUnpackMultipartReplyPortDesc (buf : Mem) : Unpack (List (L.Elem .port)) :=
  unpackReplyArr .port (fixedStride OfpPort.size) buf

/-- The `switch` over the multipart type of a reply. -/
def unpackReplyBody (exp : Option (OflExp L)) (buf : Mem) :
    Option OfpMultipartType → Unpack (MultipartReply L)
  | some .desc => .desc <$> oflMsgUnpackReplyDesc L buf
  | some .flow => .flow <$> oflMsgUnpackMultipartReplyFlow buf
  | some .aggregate => .aggregate <$> oflMsgUnpackMultipartReplyAggregate buf
  | some .table => .table <$> oflMsgUnpackMultipartReplyTable buf
  | some .tableFeatures => .tableFeatures <$> oflMsgUnpackMultipartReplyTableFeatures buf
  | some .portStats => .portStats <$> oflMsgUnpackMultipartReplyPort buf
  | some .queue => .queue <$> oflMsgUnpackMultipartReplyQueue buf
  | some .group => .group <$> oflMsgUnpackMultipartReplyGroup buf
  | some .groupDesc => .groupDesc <$> oflMsgUnpackMultipartReplyGroupDesc buf
  | some .groupFeatures => .groupFeatures <$> oflMsgUnpackMultipartReplyGroupFeatures buf
  | some .meter => .meter <$> oflMsgUnpackMultipartReplyMeterStats buf
  | some .meterConfig => .meterConfig <$> oflMsgUnpackMultipartReplyMeterConfig buf
  | some .portDesc => .portDesc <$> oflMsgUnpackMultipartReplyPortDesc buf
  | some .experimenter =>
      .experimenter <$> callStats (OflExp.statsReplyUnpack exp) (OflExp.statsReplyUnpack exp) buf
  | some .meterFeatures | none => throw (.err (.ofl .badRequest ofpbrcBadMultipart))

def oflMsgUnpackMultipartReply (exp : Option (OflExp L)) (buf : Mem) : Unpack (OflMsg L) := do
  requireLen OfpMultipartReply.size badLen
  subLen OfpMultipartReply.size
  let body ← unpackReplyBody exp buf
    (OfpMultipartType.ofUInt16? (ntohs (get16 buf OfpMultipartReply.type)))
  pure (.multipartReply (ntohs (get16 buf OfpMultipartReply.flags)) body)

/-! ## 7. The dispatcher -/

/-- The `switch` of `ofl_msg_unpack`. Its `default` reports a group-mod code. -/
def unpackBody (exp : Option (OflExp L)) (buf : Mem) : Option OfpType → Unpack (OflMsg L)
  | some .hello => do oflMsgUnpackEmpty; pure .hello
  | some .error => .error <$> oflMsgUnpackError buf
  | some .echoRequest => .echoRequest <$> oflMsgUnpackEcho buf
  | some .echoReply => .echoReply <$> oflMsgUnpackEcho buf
  | some .experimenter =>
      match OflExp.msgUnpack exp with
      | none => throw (.err (.ofl .badRequest ofpbrcBadExperimenter))
      | some unpack => .experimenter <$> nestedOrReturn (unpack buf 0)
  | some .featuresRequest => do oflMsgUnpackEmpty; pure .featuresRequest
  | some .featuresReply => .featuresReply <$> oflMsgUnpackFeaturesReply buf
  | some .getConfigRequest => do oflMsgUnpackEmpty; pure .getConfigRequest
  | some .getConfigReply => .getConfigReply <$> oflMsgUnpackGetConfigReply buf
  | some .setConfig => .setConfig <$> oflMsgUnpackSetConfig buf
  | some .packetIn => .packetIn <$> oflMsgUnpackPacketIn buf
  | some .flowRemoved => .flowRemoved <$> oflMsgUnpackFlowRemoved buf
  | some .portStatus => .portStatus <$> oflMsgUnpackPortStatus buf
  | some .getAsyncRequest => do oflMsgUnpackEmpty; pure .getAsyncRequest
  | some .getAsyncReply => .getAsyncReply <$> oflMsgUnpackAsyncConfig buf
  | some .setAsync => .setAsync <$> oflMsgUnpackAsyncConfig buf
  | some .packetOut => .packetOut <$> oflMsgUnpackPacketOut buf
  | some .flowMod => .flowMod <$> oflMsgUnpackFlowMod buf
  | some .groupMod => .groupMod <$> oflMsgUnpackGroupMod buf
  | some .portMod => .portMod <$> oflMsgUnpackPortMod buf
  | some .tableMod => .tableMod <$> oflMsgUnpackTableMod buf
  | some .multipartRequest => oflMsgUnpackMultipartRequest exp buf
  | some .multipartReply => oflMsgUnpackMultipartReply exp buf
  | some .barrierRequest => do oflMsgUnpackEmpty; pure .barrierRequest
  | some .barrierReply => do oflMsgUnpackEmpty; pure .barrierReply
  | some .roleRequest => .roleRequest <$> oflMsgUnpackRoleRequest buf
  | some .roleReply => .roleReply <$> oflMsgUnpackRoleRequest buf
  | some .queueGetConfigRequest =>
      .queueGetConfigRequest <$> oflMsgUnpackQueueGetConfigRequest buf
  | some .queueGetConfigReply => do
      let (port, queues) ← oflMsgUnpackQueueGetConfigReply buf
      pure (.queueGetConfigReply port queues)
  | some .meterMod => .meterMod <$> oflMsgUnpackMeterMod buf
  | none => throw (.err (.ofl .badRequest ofpgmfcBadType))

/-- `ofl_msg_unpack` up to its `switch`: the header checks and `*xid`. -/
def unpackHeader (buf : Mem) (bufLen : Nat) : Unpack Unit := do
  if bufLen < OfpHeader.size then
    setXid 0
    throw (.err badLen)
  rejectIf (buf OfpHeader.version ≠ ofpVersion) (.ofl .helloFailed ofphfcIncompatible)
  setXid (ntohl (get32 buf OfpHeader.xid))
  rejectIf (bufLen ≠ (ntohs (get16 buf OfpHeader.length)).toNat) badLen

/-- `ofl_msg_unpack(buf, buf_len, &msg, xid, exp)`; `xid = none` is the `NULL` pointer. Bytes left
over at the end are only logged, so the remaining length is part of the result. -/
def oflMsgUnpack (exp : Option (OflExp L)) (buf : Mem) (bufLen : Nat) (xid : Option UInt32) :
    EStateM.Result Fault UnpackState (OflMsg L) :=
  (do
    unpackHeader buf bufLen
    unpackBody exp buf (OfpType.ofUInt8? (buf OfpHeader.type)) : Unpack (OflMsg L))
    { len := bufLen, xid := xid, wrapped := false, failed := false }

end CcPof.OpenFlow

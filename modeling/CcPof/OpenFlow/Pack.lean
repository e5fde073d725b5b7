import CcPof.OpenFlow.Action

/-!
# The encoder

`src/cc_create_msg.c`. A pack function gets the memory that `malloc` returned, `heap`, with its old
content; offsets count from the start of that block. What no statement writes keeps the old bytes.
-/

namespace CcPof.OpenFlow

variable {L : OflLib}

abbrev packed (buf : Mem) (bufLen : Nat) : PackResult := ⟨0, buf, bufLen⟩

/-- The loop `for (i...) ptr += pack(elems[i], ptr)`: the memory and the final pointer. -/
def packArr {α : Type} (pack : α → Mem → Nat → Mem × Nat) : List α → Mem → Nat → Mem × Nat
  | [], m, ptr => (m, ptr)
  | a :: as, m, ptr =>
      let (m', n) := pack a m ptr
      packArr pack as m' (ptr + n)

def oflMsgPackError (msg : OflMsgError) (heap : Mem) : PackResult :=
  let buf := put16 heap OfpErrorMsg.type (htons msg.type)
  let buf := put16 buf OfpErrorMsg.code (htons msg.code)
  packed (store buf OfpErrorMsg.data msg.data) (OfpErrorMsg.size + msg.data.length)

def oflMsgPackEcho (msg : OflMsgEcho) (heap : Mem) : PackResult :=
  packed (store heap OfpHeader.size msg.data) (OfpHeader.size + msg.data.length)

def oflMsgPackRoleRequest (msg : OflMsgRoleRequest) (heap : Mem) : PackResult :=
  let buf := put32 heap OfpRoleRequest.role (htonl msg.role)
  let buf := zero buf OfpRoleRequest.pad 4
  packed (put64 buf OfpRoleRequest.generationId (hton64 msg.generationId)) OfpRoleRequest.size

def oflMsgPackFeaturesReply (msg : OflMsgFeaturesReply) (heap : Mem) : PackResult :=
  let buf := put64 heap OfpSwitchFeatures.datapathId (hton64 msg.datapathId)
  let buf := put32 buf OfpSwitchFeatures.nBuffers (htonl msg.nBuffers)
  let buf := put8 buf OfpSwitchFeatures.nTables msg.nTables
  let buf := put8 buf OfpSwitchFeatures.auxiliaryId msg.auxiliaryId
  let buf := zero buf OfpSwitchFeatures.pad 2
  let buf := put32 buf OfpSwitchFeatures.capabilities (htonl msg.capabilities)
  packed (put32 buf OfpSwitchFeatures.reserved 0) OfpSwitchFeatures.size

def oflMsgPackGetConfigReply (config : OflConfig) (heap : Mem) : PackResult :=
  let buf := put16 heap OfpSwitchConfig.flags (htons config.flags)
  packed (put16 buf OfpSwitchConfig.missSendLen (htons config.missSendLen)) OfpSwitchConfig.size

def oflMsgPackSetConfig (config : OflConfig) (heap : Mem) : PackResult :=
  let buf := put16 heap OfpSwitchConfig.missSendLen (htons config.missSendLen)
  packed (put16 buf OfpSwitchConfig.flags (htons config.flags)) OfpSwitchConfig.size

def oflMsgPackPacketIn (msg : OflMsgPacketIn L) (heap : Mem) : PackResult :=
  let length := (L.matchLength msg.fmatch).toNat
  -- `match->length - 4` is an `int` and may be negative
  let bufLen := OfpPacketIn.size + (roundUpInt (length - 4) 8).toNat + msg.data.length + 2
  let buf := put32 heap OfpPacketIn.bufferId (htonl msg.bufferId)
  let buf := put16 buf OfpPacketIn.totalLen (htons msg.totalLen)
  let buf := put8 buf OfpPacketIn.reason msg.reason
  let buf := put8 buf OfpPacketIn.tableId msg.tableId
  let buf := put64 buf OfpPacketIn.cookie (hton64 msg.cookie)
  let buf := L.matchPack .network msg.fmatch buf OfpPacketIn.fmatch (OfpPacketIn.size - 4)
  let ptr := roundUp (OfpPacketIn.size - 4 + length) 8
  let buf := zero buf ptr 2
  packed (store buf (ptr + 2) msg.data) bufLen

/-- `priority` is a 16-bit field that is assigned a 64-bit swapped value; `hard_timeout` is never
written. -/
def oflMsgPackFlowRemoved (msg : OflMsgFlowRemoved L) (heap : Mem) : PackResult :=
  let length := (L.matchLength msg.stats.fmatch).toNat
  let buf := put64 heap OfpFlowRemoved.cookie (hton64 msg.stats.cookie)
  let buf := put16 buf OfpFlowRemoved.priority (hton64 msg.stats.priority.toUInt64).toUInt16
  let buf := put8 buf OfpFlowRemoved.reason msg.reason
  let buf := put8 buf OfpFlowRemoved.tableId msg.stats.tableId
  let buf := put32 buf OfpFlowRemoved.durationSec (htonl msg.stats.durationSec)
  let buf := put32 buf OfpFlowRemoved.durationNsec (htonl msg.stats.durationNsec)
  let buf := put16 buf OfpFlowRemoved.idleTimeout (htons msg.stats.idleTimeout)
  let buf := put64 buf OfpFlowRemoved.packetCount (hton64 msg.stats.packetCount)
  let buf := put64 buf OfpFlowRemoved.byteCount (hton64 msg.stats.byteCount)
  packed
    (L.matchPack .host msg.stats.fmatch buf OfpFlowRemoved.fmatch (OfpFlowRemoved.size - 4))
    (roundUp (OfpFlowRemoved.size - 4 + length) 8)

def oflMsgPackPortStatus (msg : OflMsgPortStatus L) (heap : Mem) : PackResult :=
  let buf := put8 heap OfpPortStatus.reason msg.reason
  let buf := zero buf OfpPortStatus.pad 7
  packed (L.elemPack .port msg.desc buf OfpPortStatus.desc).1 OfpPortStatus.size

/-- Each action gets `*buf`, offset 0, as its data pointer. -/
def oflMsgPackPacketOut (exp : Option (OflExp L)) (msg : OflMsgPacketOut L) (heap : Mem) :
    PackResult :=
  let actLen := oflActionsOfpTotalLen exp msg.actions
  let buf := put32 heap OfpPacketOut.bufferId (htonl msg.bufferId)
  let buf := put32 buf OfpPacketOut.inPort (htonl msg.inPort)
  let buf := put16 buf OfpPacketOut.actionsLen (htons (UInt16.ofNat actLen))
  let buf := zero buf OfpPacketOut.pad 6
  let (buf, ptr) := packArr (fun a m dst => oflActionsPack exp a m dst 0) msg.actions buf
    OfpPacketOut.size
  packed (store buf ptr msg.data) (OfpPacketOut.size + actLen + msg.data.length)

def oflMsgPackFlowMod (msg : OflMsgFlowMod L) (heap : Mem) : PackResult :=
  let length := (L.matchLength msg.fmatch).toNat
  let ptr := roundUp (OfpFlowMod.size - 4 + length) 8
  let buf := put64 heap OfpFlowMod.cookie (hton64 msg.cookie)
  let buf := put64 buf OfpFlowMod.cookieMask (hton64 msg.cookieMask)
  let buf := put8 buf OfpFlowMod.tableId msg.tableId
  let buf := put8 buf OfpFlowMod.command msg.command
  let buf := put16 buf OfpFlowMod.idleTimeout (htons msg.idleTimeout)
  let buf := put16 buf OfpFlowMod.hardTimeout (htons msg.hardTimeout)
  let buf := put16 buf OfpFlowMod.priority (htons msg.priority)
  let buf := put32 buf OfpFlowMod.bufferId (htonl msg.bufferId)
  let buf := put32 buf OfpFlowMod.outPort (htonl msg.outPort)
  let buf := put32 buf OfpFlowMod.outGroup (htonl msg.outGroup)
  let buf := put16 buf OfpFlowMod.flags (htons msg.flags)
  let buf := zero buf OfpFlowMod.pad 2
  let buf := L.matchPack .host msg.fmatch buf OfpFlowMod.fmatch (OfpFlowMod.size - 4)
  packed (packArr (L.elemPack .instruction) msg.instructions buf ptr).1
    (ptr + L.elemTotalLen .instruction msg.instructions)

def oflMsgPackGroupMod (msg : OflMsgGroupMod L) (heap : Mem) : PackResult :=
  let buf := put16 heap OfpGroupMod.command (htons msg.command)
  let buf := put8 buf OfpGroupMod.type msg.type
  let buf := put8 buf OfpGroupMod.pad 0
  let buf := put32 buf OfpGroupMod.groupId (htonl msg.groupId)
  packed (packArr L.bucketPack msg.buckets buf OfpGroupMod.size).1
    (OfpGroupMod.size + L.bucketTotalLen msg.buckets)

def oflMsgPackPortMod (msg : OflMsgPortMod) (heap : Mem) : PackResult :=
  let buf := put32 heap OfpPortMod.portNo (htonl msg.portNo)
  let buf := zero buf OfpPortMod.pad 4
  let buf := store buf OfpPortMod.hwAddr (List.ofFn msg.hwAddr)
  let buf := zero buf OfpPortMod.pad2 2
  let buf := put32 buf OfpPortMod.config (htonl msg.config)
  let buf := put32 buf OfpPortMod.mask (htonl msg.mask)
  let buf := put32 buf OfpPortMod.advertise (htonl msg.advertise)
  packed (zero buf OfpPortMod.pad3 4) OfpPortMod.size

def oflMsgPackTableMod (msg : OflMsgTableMod) (heap : Mem) : PackResult :=
  let buf := put8 heap OfpTableMod.tableId msg.tableId
  let buf := zero buf OfpTableMod.pad 3
  packed (put32 buf OfpTableMod.config (htonl msg.config)) OfpTableMod.size

def oflMsgPackMeterMod (msg : OflMsgMeterMod L) (heap : Mem) : PackResult :=
  let buf := put16 heap OfpMeterMod.command (htons msg.command)
  let buf := put16 buf OfpMeterMod.flags (htons msg.flags)
  let buf := put32 buf OfpMeterMod.meterId (ntohl msg.meterId)
  packed (packArr (L.elemPack .meterBand) msg.bands buf OfpMeterMod.size).1
    (OfpMeterMod.size + L.elemTotalLen .meterBand msg.bands)

/-- The masks are copied in host order. -/
def oflMsgPackAsyncConfig (config : OflAsyncConfig) (heap : Mem) : PackResult :=
  let step (buf : Mem) (i : Fin 2) : Mem :=
    let buf := put32 buf (OfpAsyncConfig.packetInMask + 4 * i) (config.packetInMask i)
    let buf := put32 buf (OfpAsyncConfig.portStatusMask + 4 * i) (config.portStatusMask i)
    put32 buf (OfpAsyncConfig.flowRemovedMask + 4 * i) (config.flowRemovedMask i)
  packed (step (step heap 0) 1) OfpAsyncConfig.size

/-! ## Multipart requests -/

def oflMsgPackMultipartRequestFlow (msg : OflMsgMultipartRequestFlow L) (heap : Mem) : PackResult :=
  let stats := OfpMultipartRequest.body
  let buf := put8 heap (stats + OfpFlowStatsRequest.tableId) msg.tableId
  let buf := zero buf (stats + OfpFlowStatsRequest.pad) 3
  let buf := put32 buf (stats + OfpFlowStatsRequest.outPort) (htonl msg.outPort)
  let buf := put32 buf (stats + OfpFlowStatsRequest.outGroup) (htonl msg.outGroup)
  let buf := zero buf (stats + OfpFlowStatsRequest.pad2) 4
  let buf := put64 buf (stats + OfpFlowStatsRequest.cookie) (hton64 msg.cookie)
  let buf := put64 buf (stats + OfpFlowStatsRequest.cookieMask) (hton64 msg.cookieMask)
  let ptr := OfpMultipartRequest.size + OfpFlowStatsRequest.size
  packed (L.matchPack .host msg.fmatch buf (stats + OfpFlowStatsRequest.fmatch) ptr)
    (OfpMultipartRequest.size + OfpFlowStatsRequest.size + (L.matchLength msg.fmatch).toNat)

def oflMsgPackMultipartRequestPort (portNo : UInt32) (heap : Mem) : PackResult :=
  let stats := OfpMultipartRequest.body
  let buf := put32 heap (stats + OfpPortStatsRequest.portNo) (htonl portNo)
  packed (zero buf (stats + OfpPortStatsRequest.pad) 4)
    (OfpMultipartRequest.size + OfpPortStatsRequest.size)

def oflMsgPackMultipartRequestQueue (msg : OflMsgMultipartRequestQueue) (heap : Mem) : PackResult :=
  let stats := OfpMultipartRequest.body
  let buf := put32 heap (stats + OfpQueueStatsRequest.portNo) (htonl msg.portNo)
  packed (put32 buf (stats + OfpQueueStatsRequest.queueId) (htonl msg.queueId))
    (OfpMultipartRequest.size + OfpQueueStatsRequest.size)

def oflMsgPackMultipartRequestGroup (groupId : UInt32) (heap : Mem) : PackResult :=
  let stats := OfpMultipartRequest.body
  let buf := put32 heap (stats + OfpGroupStatsRequest.groupId) (htonl groupId)
  packed (zero buf (stats + OfpGroupStatsRequest.pad) 4)
    (OfpMultipartRequest.size + OfpGroupStatsRequest.size)

/-- Shared by the request and the reply encoder of TABLE_FEATURES: the array is walked only when
its total length is not 0. -/
def packTableFeatures (tables : List (L.Elem .tableFeatures)) (heap : Mem) : PackResult :=
  let featuresLen := L.elemTotalLen .tableFeatures tables
  let buf :=
    if featuresLen ≠ 0 then
      (packArr (L.elemPack .tableFeatures) tables heap OfpMultipartRequest.body).1
    else heap
  packed buf (OfpMultipartRequest.size + featuresLen)

def oflMsgPackMultipartRequestTableFeatures (tables : List (L.Elem .tableFeatures)) (heap : Mem) :
    PackResult :=
  packTableFeatures tables heap

def oflMsgPackMeterMultipartRequest (meterId : UInt32) (heap : Mem) : PackResult :=
  let stats := OfpMultipartRequest.body
  let buf := put32 heap (stats + OfpMeterMultipartRequest.meterId) (htonl meterId)
  packed (zero buf (stats + OfpMeterMultipartRequest.pad) 4)
    (OfpMultipartRequest.size + OfpMeterMultipartRequest.size)

def oflMsgPackMultipartRequestEmpty (heap : Mem) : PackResult :=
  packed heap OfpMultipartRequest.size

/-- `exp->stats->req_pack`, `none` when one of the pointers on the way is `NULL`. -/
def OflExp.statsReqPack (exp : Option (OflExp L)) : Option (L.ExpRequest → Mem → PackResult) :=
  exp.bind fun e => e.stats.bind OflExpStats.reqPack

def OflExp.statsReplyPack (exp : Option (OflExp L)) : Option (L.ExpReply → Mem → PackResult) :=
  exp.bind fun e => e.stats.bind OflExpStats.replyPack

def OflExp.msgPack (exp : Option (OflExp L)) : Option (L.ExpMsg → Mem → PackResult) :=
  exp.bind fun e => e.msg.bind OflExpMsg.pack

/-- An encoder that refuses: it returns -1 and leaves `*buf` and `*buf_len` alone. -/
abbrev packRefused (heap : Mem) : PackResult := ⟨-1, heap, 0⟩

/-- The multipart header that both dispatchers write once the body is packed. -/
def packMultipartHeader (type flags : UInt16) (r : PackResult) : PackResult :=
  if r.ret ≠ 0 then r
  else
    let buf := put16 r.buf OfpMultipartRequest.type (htons type)
    let buf := put16 buf OfpMultipartRequest.flags (htons flags)
    ⟨0, zero buf OfpMultipartRequest.pad 4, r.bufLen⟩

def oflMsgPackMultipartRequest (exp : Option (OflExp L)) (flags : UInt16)
    (msg : MultipartRequest L) (heap : Mem) : PackResult :=
  packMultipartHeader msg.type flags <|
    match msg with
    | .desc => oflMsgPackMultipartRequestEmpty heap
    | .flow r | .aggregate r => oflMsgPackMultipartRequestFlow r heap
    | .table => oflMsgPackMultipartRequestEmpty heap
    | .portStats portNo => oflMsgPackMultipartRequestPort portNo heap
    | .queue r => oflMsgPackMultipartRequestQueue r heap
    | .group groupId => oflMsgPackMultipartRequestGroup groupId heap
    | .groupDesc => oflMsgPackMultipartRequestEmpty heap
    | .groupFeatures => oflMsgPackMultipartRequestEmpty heap
    | .meter meterId | .meterConfig meterId => oflMsgPackMeterMultipartRequest meterId heap
    | .meterFeatures => oflMsgPackMultipartRequestEmpty heap
    | .tableFeatures tables => oflMsgPackMultipartRequestTableFeatures tables heap
    | .portDesc => oflMsgPackMultipartRequestEmpty heap
    | .experimenter r =>
        match OflExp.statsReqPack exp with
        | none => packRefused heap
        | some reqPack => reqPack r heap
    | .unknown _ _ => packRefused heap

/-! ## Multipart replies -/

/-- `memcpy` of `n` bytes out of an allocated block, which reads on behind a shorter block. -/
def memcpyBlock (L : OflLib) (block : List UInt8) (n : Nat) : List UInt8 :=
  load (store (L.heapAfter block) 0 block) 0 n

def oflMsgPackMultipartReplyDesc (L : OflLib) (msg : OflMsgReplyDesc) (heap : Mem) : PackResult :=
  let stats := OfpMultipartReply.body
  let buf := store heap (stats + OfpDesc.mfrDesc) (memcpyBlock L msg.mfrDesc descStrLen)
  let buf := store buf (stats + OfpDesc.hwDesc) (memcpyBlock L msg.hwDesc descStrLen)
  let buf := store buf (stats + OfpDesc.swDesc) (memcpyBlock L msg.swDesc descStrLen)
  let buf := store buf (stats + OfpDesc.serialNum) (memcpyBlock L msg.serialNum serialNumLen)
  packed (store buf (stats + OfpDesc.dpDesc) (memcpyBlock L msg.dpDesc descStrLen))
    (OfpMultipartReply.size + OfpDesc.size)

/-- An array-bodied reply whose buffer is sized by `totalLen`. -/
def packReplyArr {α : Type} (pack : α → Mem → Nat → Mem × Nat) (totalLen : Nat) (stats : List α)
    (heap : Mem) : PackResult :=
  packed (packArr pack stats heap OfpMultipartReply.body).1 (OfpMultipartReply.size + totalLen)

def oflMsgPackMultipartReplyFlow (stats : List L.FlowStats) (heap : Mem) : PackResult :=
  packReplyArr L.flowStatsPack (L.flowStatsTotalLen stats) stats heap

def oflMsgPackMultipartReplyAggregate (msg : OflMsgMultipartReplyAggregate) (heap : Mem) :
    PackResult :=
  let stats := OfpMultipartReply.body
  let buf := put64 heap (stats + OfpAggregateStatsReply.packetCount) (hton64 msg.packetCount)
  let buf := put64 buf (stats + OfpAggregateStatsReply.byteCount) (hton64 msg.byteCount)
  let buf := put32 buf (stats + OfpAggregateStatsReply.flowCount) (htonl msg.flowCount)
  packed (zero buf (stats + OfpAggregateStatsReply.pad) 4)
    (OfpMultipartReply.size + OfpAggregateStatsReply.size)

def oflMsgPackMultipartReplyTable (stats : List (L.Elem .tableStats)) (heap : Mem) : PackResult :=
  packReplyArr (L.elemPack .tableStats) (stats.length * OfpTableStats.size) stats heap

def oflMsgPackMultipartReplyPort (stats : List (L.Elem .portStats)) (heap : Mem) : PackResult :=
  packReplyArr (L.elemPack .portStats) (stats.length * OfpPortStats.size) stats heap

def oflMsgPackMultipartReplyQueue (stats : List (L.Elem .queueStats)) (heap : Mem) : PackResult :=
  packReplyArr (L.elemPack .queueStats) (stats.length * OfpQueueStats.size) stats heap

def oflMsgPackMultipartReplyGroup (stats : List (L.Elem .groupStats)) (heap : Mem) : PackResult :=
  packReplyArr (L.elemPack .groupStats) (L.elemTotalLen .groupStats stats) stats heap

def oflMsgPackMultipartReplyGroupDesc (stats : List (L.Elem .groupDescStats)) (heap : Mem) :
    PackResult :=
  packReplyArr (L.elemPack .groupDescStats) (L.elemTotalLen .groupDescStats stats) stats heap

def oflMsgPackMultipartReplyGroupFeatures (msg : OflMsgMultipartReplyGroupFeatures) (heap : Mem) :
    PackResult :=
  let stats := OfpMultipartReply.body
  let buf := put32 heap (stats + OfpGroupFeaturesStats.types) (htonl msg.types)
  let buf := put32 buf (stats + OfpGroupFeaturesStats.capabilities) (htonl msg.capabilities)
  let step (buf : Mem) (i : Fin 4) : Mem :=
    let buf := put32 buf (stats + OfpGroupFeaturesStats.maxGroups + 4 * i) (htonl (msg.maxGroups i))
    put32 buf (stats + OfpGroupFeaturesStats.actions + 4 * i) (htonl (msg.actions i))
  packed (step (step (step (step buf 0) 1) 2) 3)
    (OfpMultipartReply.size + OfpGroupFeaturesStats.size)

def oflMsgPackMultipartReplyTableFeatures (tables : List (L.Elem .tableFeatures)) (heap : Mem) :
    PackResult :=
  packTableFeatures tables heap

def oflMsgPackMultipartReplyMeterStats (stats : List (L.Elem .meterStats)) (heap : Mem) :
    PackResult :=
  packReplyArr (L.elemPack .meterStats) (L.elemTotalLen .meterStats stats) stats heap

def oflMsgPackMultipartReplyMeterConf (stats : List (L.Elem .meterConfig)) (heap : Mem) :
    PackResult :=
  packReplyArr (L.elemPack .meterConfig) (L.elemTotalLen .meterConfig stats) stats heap

def oflMsgPackMultipartReplyPortStatusDesc (stats : List (L.Elem .port)) (heap : Mem) :
    PackResult :=
  packReplyArr (L.elemPack .port) (stats.length * OfpPort.size) stats heap

def oflMsgPackMultipartReplyMeterFeatures (features : OflMeterFeatures) (heap : Mem) : PackResult :=
  let feat := OfpMultipartReply.body
  let buf := put32 heap (feat + OfpMeterFeatures.maxMeter) (htonl features.maxMeter)
  let buf := put32 buf (feat + OfpMeterFeatures.bandTypes) (htonl features.bandTypes)
  let buf := put32 buf (feat + OfpMeterFeatures.capabilities) (htonl features.capabilities)
  let buf := put8 buf (feat + OfpMeterFeatures.maxBands) features.maxBands
  let buf := put8 buf (feat + OfpMeterFeatures.maxColor) features.maxColor
  packed (zero buf (feat + OfpMeterFeatures.pad) 2) (OfpMultipartReply.size + OfpMeterFeatures.size)

def oflMsgPackMultipartReply (exp : Option (OflExp L)) (flags : UInt16)
    (msg : MultipartReply L) (heap : Mem) : PackResult :=
  packMultipartHeader msg.type flags <|
    match msg with
    | .desc r => oflMsgPackMultipartReplyDesc L r heap
    | .flow stats => oflMsgPackMultipartReplyFlow stats heap
    | .aggregate r => oflMsgPackMultipartReplyAggregate r heap
    | .table stats => oflMsgPackMultipartReplyTable stats heap
    | .tableFeatures tables => oflMsgPackMultipartReplyTableFeatures tables heap
    | .portStats stats => oflMsgPackMultipartReplyPort stats heap
    | .queue stats => oflMsgPackMultipartReplyQueue stats heap
    | .group stats => oflMsgPackMultipartReplyGroup stats heap
    | .groupDesc stats => oflMsgPackMultipartReplyGroupDesc stats heap
    | .groupFeatures r => oflMsgPackMultipartReplyGroupFeatures r heap
    | .meter stats => oflMsgPackMultipartReplyMeterStats stats heap
    | .meterConfig stats => oflMsgPackMultipartReplyMeterConf stats heap
    | .meterFeatures features => oflMsgPackMultipartReplyMeterFeatures features heap
    | .portDesc stats => oflMsgPackMultipartReplyPortStatusDesc stats heap
    | .experimenter r =>
        match OflExp.statsReplyPack exp with
        | none => packRefused heap
        | some replyPack => replyPack r heap
    | .unknown _ _ => packRefused heap

/-! ## Queues and the dispatcher -/

def oflMsgPackQueueGetConfigRequest (port : UInt32) (heap : Mem) : PackResult :=
  let buf := put32 heap OfpQueueGetConfigRequest.port (htonl port)
  packed (zero buf OfpQueueGetConfigRequest.pad 4) OfpQueueGetConfigRequest.size

def oflMsgPackQueueGetConfigReply (port : UInt32) (queues : List (L.Elem .packetQueue))
    (heap : Mem) : PackResult :=
  let buf := put32 heap OfpQueueGetConfigReply.port (htonl port)
  let buf := zero buf OfpQueueGetConfigReply.pad 4
  packed (packArr (L.elemPack .packetQueue) queues buf OfpQueueGetConfigReply.queues).1
    (OfpQueueGetConfigReply.size + L.elemTotalLen .packetQueue queues)

def oflMsgPackEmpty (heap : Mem) : PackResult :=
  packed heap OfpHeader.size

/-- The `switch` of `ofl_msg_pack`. -/
def packBody (exp : Option (OflExp L)) (msg : OflMsg L) (heap : Mem) : PackResult :=
  match msg with
  | .hello => oflMsgPackEmpty heap
  | .error m => oflMsgPackError m heap
  | .echoRequest m | .echoReply m => oflMsgPackEcho m heap
  | .experimenter m =>
      match OflExp.msgPack exp with
      | none => packRefused heap
      | some pack => pack m heap
  | .featuresRequest => oflMsgPackEmpty heap
  | .featuresReply m => oflMsgPackFeaturesReply m heap
  | .getConfigRequest => oflMsgPackEmpty heap
  | .getConfigReply config => oflMsgPackGetConfigReply config heap
  | .setConfig config => oflMsgPackSetConfig config heap
  | .packetIn m => oflMsgPackPacketIn m heap
  | .flowRemoved m => oflMsgPackFlowRemoved m heap
  | .portStatus m => oflMsgPackPortStatus m heap
  | .getAsyncRequest => oflMsgPackEmpty heap
  | .getAsyncReply config | .setAsync config => oflMsgPackAsyncConfig config heap
  | .packetOut m => oflMsgPackPacketOut exp m heap
  | .flowMod m => oflMsgPackFlowMod m heap
  | .groupMod m => oflMsgPackGroupMod m heap
  | .portMod m => oflMsgPackPortMod m heap
  | .tableMod m => oflMsgPackTableMod m heap
  | .meterMod m => oflMsgPackMeterMod m heap
  | .multipartRequest flags body => oflMsgPackMultipartRequest exp flags body heap
  | .multipartReply flags body => oflMsgPackMultipartReply exp flags body heap
  | .barrierRequest => oflMsgPackEmpty heap
  | .barrierReply => oflMsgPackEmpty heap
  | .queueGetConfigRequest port => oflMsgPackQueueGetConfigRequest port heap
  | .queueGetConfigReply port queues => oflMsgPackQueueGetConfigReply port queues heap
  | .roleRequest m | .roleReply m => oflMsgPackRoleRequest m heap
  | .unknown _ _ => packRefused heap

/-- The header that `ofl_msg_pack` writes over the first 8 bytes. `htons(*buf_len)` cuts the length
to 16 bits. -/
def packHeader (type : UInt8) (xid : UInt32) (bufLen : Nat) (buf : Mem) : Mem :=
  let buf := put8 buf OfpHeader.version ofpVersion
  let buf := put8 buf OfpHeader.type type
  let buf := put16 buf OfpHeader.length (htons (UInt16.ofNat bufLen))
  put32 buf OfpHeader.xid (htonl xid)

def oflMsgPack (exp : Option (OflExp L)) (msg : OflMsg L) (xid : UInt32) (heap : Mem) :
    PackResult :=
  let r := packBody exp msg heap
  if r.ret ≠ 0 then r
  else ⟨0, packHeader msg.type xid r.bufLen r.buf, r.bufLen⟩

end CcPof.OpenFlow

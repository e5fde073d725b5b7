import CcPof.OpenFlow.External

/-!
# OFLib messages

The `ofl_msg_*` structures as the encoder and the decoder use them. Each field has the width of its
wire field. A pointer with a length is a list; the C pair of a `type` tag and a cast is a
constructor, so a message never claims to be what it is not.
-/

namespace CcPof.OpenFlow

structure OflMsgError where
  type : UInt16
  code : UInt16
  data : List UInt8

structure OflMsgEcho where
  data : List UInt8

structure OflMsgRoleRequest where
  role : UInt32
  generationId : UInt64

structure OflMsgFeaturesReply where
  datapathId : UInt64
  nBuffers : UInt32
  nTables : UInt8
  auxiliaryId : UInt8
  capabilities : UInt32

/-- `struct ofl_config`, the body of GET_CONFIG_REPLY and SET_CONFIG. -/
structure OflConfig where
  flags : UInt16
  missSendLen : UInt16

/-- `struct ofl_async_config`: three masks of two words each. -/
structure OflAsyncConfig where
  packetInMask : Fin 2 → UInt32
  portStatusMask : Fin 2 → UInt32
  flowRemovedMask : Fin 2 → UInt32

structure OflMsgPacketIn (L : OflLib) where
  bufferId : UInt32
  totalLen : UInt16
  reason : UInt8
  tableId : UInt8
  cookie : UInt64
  fmatch : L.Match
  data : List UInt8

/-- `struct ofl_flow_stats` as far as FLOW_REMOVED uses it. -/
structure OflFlowStats (L : OflLib) where
  tableId : UInt8
  durationSec : UInt32
  durationNsec : UInt32
  priority : UInt16
  idleTimeout : UInt16
  hardTimeout : UInt16
  cookie : UInt64
  packetCount : UInt64
  byteCount : UInt64
  fmatch : L.Match

structure OflMsgFlowRemoved (L : OflLib) where
  reason : UInt8
  stats : OflFlowStats L

structure OflMsgPortStatus (L : OflLib) where
  reason : UInt8
  desc : L.Elem .port

structure OflMsgPacketOut (L : OflLib) where
  bufferId : UInt32
  inPort : UInt32
  actions : List (OflAction L.ExpAction)
  data : List UInt8

structure OflMsgFlowMod (L : OflLib) where
  cookie : UInt64
  cookieMask : UInt64
  tableId : UInt8
  command : UInt8
  idleTimeout : UInt16
  hardTimeout : UInt16
  priority : UInt16
  bufferId : UInt32
  outPort : UInt32
  outGroup : UInt32
  flags : UInt16
  fmatch : L.Match
  instructions : List (L.Elem .instruction)

structure OflMsgGroupMod (L : OflLib) where
  command : UInt16
  type : UInt8
  groupId : UInt32
  buckets : List L.Bucket

structure OflMsgPortMod where
  portNo : UInt32
  hwAddr : Fin 6 → UInt8
  config : UInt32
  mask : UInt32
  advertise : UInt32

structure OflMsgTableMod where
  tableId : UInt8
  config : UInt32

structure OflMsgMeterMod (L : OflLib) where
  command : UInt16
  flags : UInt16
  meterId : UInt32
  bands : List (L.Elem .meterBand)

/-! ## Multipart messages -/

/-- `struct ofl_msg_multipart_request_flow`, shared by FLOW and AGGREGATE. -/
structure OflMsgMultipartRequestFlow (L : OflLib) where
  tableId : UInt8
  outPort : UInt32
  outGroup : UInt32
  cookie : UInt64
  cookieMask : UInt64
  fmatch : L.Match

structure OflMsgMultipartRequestQueue where
  portNo : UInt32
  queueId : UInt32

/-- The strings are the allocated blocks, terminator included where there is one. -/
structure OflMsgReplyDesc where
  mfrDesc : List UInt8
  hwDesc : List UInt8
  swDesc : List UInt8
  serialNum : List UInt8
  dpDesc : List UInt8

structure OflMsgMultipartReplyAggregate where
  packetCount : UInt64
  byteCount : UInt64
  flowCount : UInt32

structure OflMsgMultipartReplyGroupFeatures where
  types : UInt32
  capabilities : UInt32
  maxGroups : Fin 4 → UInt32
  actions : Fin 4 → UInt32

structure OflMeterFeatures where
  maxMeter : UInt32
  bandTypes : UInt32
  capabilities : UInt32
  maxBands : UInt8
  maxColor : UInt8

inductive MultipartRequest (L : OflLib) where
  | desc
  | flow (r : OflMsgMultipartRequestFlow L)
  | aggregate (r : OflMsgMultipartRequestFlow L)
  | table
  | portStats (portNo : UInt32)
  | queue (r : OflMsgMultipartRequestQueue)
  | group (groupId : UInt32)
  | groupDesc
  | groupFeatures
  | meter (meterId : UInt32)
  | meterConfig (meterId : UInt32)
  | meterFeatures
  | tableFeatures (tables : List (L.Elem .tableFeatures))
  | portDesc
  | experimenter (r : L.ExpRequest)
  | unknown (type : UInt16) (h : OfpMultipartType.ofUInt16? type = none)

inductive MultipartReply (L : OflLib) where
  | desc (r : OflMsgReplyDesc)
  | flow (stats : List L.FlowStats)
  | aggregate (r : OflMsgMultipartReplyAggregate)
  | table (stats : List (L.Elem .tableStats))
  | portStats (stats : List (L.Elem .portStats))
  | queue (stats : List (L.Elem .queueStats))
  | group (stats : List (L.Elem .groupStats))
  | groupDesc (stats : List (L.Elem .groupDescStats))
  | groupFeatures (r : OflMsgMultipartReplyGroupFeatures)
  | meter (stats : List (L.Elem .meterStats))
  | meterConfig (stats : List (L.Elem .meterConfig))
  | meterFeatures (features : OflMeterFeatures)
  | tableFeatures (tables : List (L.Elem .tableFeatures))
  | portDesc (stats : List (L.Elem .port))
  | experimenter (r : L.ExpReply)
  | unknown (type : UInt16) (h : OfpMultipartType.ofUInt16? type = none)

/-- `msg->type` of a multipart request; `unknown` covers the values without a `case`. -/
def MultipartRequest.type {L : OflLib} : MultipartRequest L → UInt16
  | desc => OfpMultipartType.desc.toUInt16
  | flow _ => OfpMultipartType.flow.toUInt16
  | aggregate _ => OfpMultipartType.aggregate.toUInt16
  | table => OfpMultipartType.table.toUInt16
  | portStats _ => OfpMultipartType.portStats.toUInt16
  | queue _ => OfpMultipartType.queue.toUInt16
  | group _ => OfpMultipartType.group.toUInt16
  | groupDesc => OfpMultipartType.groupDesc.toUInt16
  | groupFeatures => OfpMultipartType.groupFeatures.toUInt16
  | meter _ => OfpMultipartType.meter.toUInt16
  | meterConfig _ => OfpMultipartType.meterConfig.toUInt16
  | meterFeatures => OfpMultipartType.meterFeatures.toUInt16
  | tableFeatures _ => OfpMultipartType.tableFeatures.toUInt16
  | portDesc => OfpMultipartType.portDesc.toUInt16
  | experimenter _ => OfpMultipartType.experimenter.toUInt16
  | unknown type _ => type

def MultipartReply.type {L : OflLib} : MultipartReply L → UInt16
  | desc _ => OfpMultipartType.desc.toUInt16
  | flow _ => OfpMultipartType.flow.toUInt16
  | aggregate _ => OfpMultipartType.aggregate.toUInt16
  | table _ => OfpMultipartType.table.toUInt16
  | portStats _ => OfpMultipartType.portStats.toUInt16
  | queue _ => OfpMultipartType.queue.toUInt16
  | group _ => OfpMultipartType.group.toUInt16
  | groupDesc _ => OfpMultipartType.groupDesc.toUInt16
  | groupFeatures _ => OfpMultipartType.groupFeatures.toUInt16
  | meter _ => OfpMultipartType.meter.toUInt16
  | meterConfig _ => OfpMultipartType.meterConfig.toUInt16
  | meterFeatures _ => OfpMultipartType.meterFeatures.toUInt16
  | tableFeatures _ => OfpMultipartType.tableFeatures.toUInt16
  | portDesc _ => OfpMultipartType.portDesc.toUInt16
  | experimenter _ => OfpMultipartType.experimenter.toUInt16
  | unknown type _ => type

/-! ## Messages -/

inductive OflMsg (L : OflLib) where
  | hello
  | error (m : OflMsgError)
  | echoRequest (m : OflMsgEcho)
  | echoReply (m : OflMsgEcho)
  | experimenter (m : L.ExpMsg)
  | featuresRequest
  | featuresReply (m : OflMsgFeaturesReply)
  | getConfigRequest
  | getConfigReply (config : OflConfig)
  | setConfig (config : OflConfig)
  | packetIn (m : OflMsgPacketIn L)
  | flowRemoved (m : OflMsgFlowRemoved L)
  | portStatus (m : OflMsgPortStatus L)
  | packetOut (m : OflMsgPacketOut L)
  | flowMod (m : OflMsgFlowMod L)
  | groupMod (m : OflMsgGroupMod L)
  | portMod (m : OflMsgPortMod)
  | tableMod (m : OflMsgTableMod)
  | multipartRequest (flags : UInt16) (body : MultipartRequest L)
  | multipartReply (flags : UInt16) (body : MultipartReply L)
  | barrierRequest
  | barrierReply
  | queueGetConfigRequest (port : UInt32)
  | queueGetConfigReply (port : UInt32) (queues : List (L.Elem .packetQueue))
  | roleRequest (m : OflMsgRoleRequest)
  | roleReply (m : OflMsgRoleRequest)
  | getAsyncRequest
  | getAsyncReply (config : OflAsyncConfig)
  | setAsync (config : OflAsyncConfig)
  | meterMod (m : OflMsgMeterMod L)
  | unknown (type : UInt8) (h : OfpType.ofUInt8? type = none)

/-- `msg->type`, as the byte that the encoder writes. -/
def OflMsg.type {L : OflLib} : OflMsg L → UInt8
  | hello => OfpType.hello.toUInt8
  | error _ => OfpType.error.toUInt8
  | echoRequest _ => OfpType.echoRequest.toUInt8
  | echoReply _ => OfpType.echoReply.toUInt8
  | experimenter _ => OfpType.experimenter.toUInt8
  | featuresRequest => OfpType.featuresRequest.toUInt8
  | featuresReply _ => OfpType.featuresReply.toUInt8
  | getConfigRequest => OfpType.getConfigRequest.toUInt8
  | getConfigReply _ => OfpType.getConfigReply.toUInt8
  | setConfig _ => OfpType.setConfig.toUInt8
  | packetIn _ => OfpType.packetIn.toUInt8
  | flowRemoved _ => OfpType.flowRemoved.toUInt8
  | portStatus _ => OfpType.portStatus.toUInt8
  | packetOut _ => OfpType.packetOut.toUInt8
  | flowMod _ => OfpType.flowMod.toUInt8
  | groupMod _ => OfpType.groupMod.toUInt8
  | portMod _ => OfpType.portMod.toUInt8
  | tableMod _ => OfpType.tableMod.toUInt8
  | multipartRequest _ _ => OfpType.multipartRequest.toUInt8
  | multipartReply _ _ => OfpType.multipartReply.toUInt8
  | barrierRequest => OfpType.barrierRequest.toUInt8
  | barrierReply => OfpType.barrierReply.toUInt8
  | queueGetConfigRequest _ => OfpType.queueGetConfigRequest.toUInt8
  | queueGetConfigReply _ _ => OfpType.queueGetConfigReply.toUInt8
  | roleRequest _ => OfpType.roleRequest.toUInt8
  | roleReply _ => OfpType.roleReply.toUInt8
  | getAsyncRequest => OfpType.getAsyncRequest.toUInt8
  | getAsyncReply _ => OfpType.getAsyncReply.toUInt8
  | setAsync _ => OfpType.setAsync.toUInt8
  | meterMod _ => OfpType.meterMod.toUInt8
  | unknown type _ => type

end CcPof.OpenFlow

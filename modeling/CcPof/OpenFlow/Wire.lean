import CcPof.Lib.ByteMemory

/-!
# The OpenFlow 1.3 wire structures

Sizes and field offsets of the `ofp_*` structures of `include/cc_openflow_13.c`, as its
`OFP_ASSERT`s and field lists fix them, with the enumerations and constants that the encoder and
the decoder switch on. A field is named after the member of the C structure; `match` is `fmatch`.
-/

namespace CcPof.OpenFlow

/-! ## 1. Structure layouts -/

abbrev OfpHeader.size : Nat := 8
abbrev OfpHeader.version : Nat := 0
abbrev OfpHeader.type : Nat := 1
abbrev OfpHeader.length : Nat := 2
abbrev OfpHeader.xid : Nat := 4

abbrev OfpMatch.size : Nat := 8
abbrev OfpMatch.type : Nat := 0
abbrev OfpMatch.length : Nat := 2
abbrev OfpMatch.oxmFields : Nat := 4

abbrev OfpErrorMsg.size : Nat := 12
abbrev OfpErrorMsg.type : Nat := 8
abbrev OfpErrorMsg.code : Nat := 10
abbrev OfpErrorMsg.data : Nat := 12

abbrev OfpSwitchFeatures.size : Nat := 32
abbrev OfpSwitchFeatures.datapathId : Nat := 8
abbrev OfpSwitchFeatures.nBuffers : Nat := 16
abbrev OfpSwitchFeatures.nTables : Nat := 20
abbrev OfpSwitchFeatures.auxiliaryId : Nat := 21
abbrev OfpSwitchFeatures.pad : Nat := 22
abbrev OfpSwitchFeatures.capabilities : Nat := 24
abbrev OfpSwitchFeatures.reserved : Nat := 28

abbrev OfpSwitchConfig.size : Nat := 12
abbrev OfpSwitchConfig.flags : Nat := 8
abbrev OfpSwitchConfig.missSendLen : Nat := 10

abbrev OfpTableMod.size : Nat := 16
abbrev OfpTableMod.tableId : Nat := 8
abbrev OfpTableMod.pad : Nat := 9
abbrev OfpTableMod.config : Nat := 12

abbrev OfpFlowMod.size : Nat := 56
abbrev OfpFlowMod.cookie : Nat := 8
abbrev OfpFlowMod.cookieMask : Nat := 16
abbrev OfpFlowMod.tableId : Nat := 24
abbrev OfpFlowMod.command : Nat := 25
abbrev OfpFlowMod.idleTimeout : Nat := 26
abbrev OfpFlowMod.hardTimeout : Nat := 28
abbrev OfpFlowMod.priority : Nat := 30
abbrev OfpFlowMod.bufferId : Nat := 32
abbrev OfpFlowMod.outPort : Nat := 36
abbrev OfpFlowMod.outGroup : Nat := 40
abbrev OfpFlowMod.flags : Nat := 44
abbrev OfpFlowMod.pad : Nat := 46
abbrev OfpFlowMod.fmatch : Nat := 48

abbrev OfpGroupMod.size : Nat := 16
abbrev OfpGroupMod.command : Nat := 8
abbrev OfpGroupMod.type : Nat := 10
abbrev OfpGroupMod.pad : Nat := 11
abbrev OfpGroupMod.groupId : Nat := 12
abbrev OfpGroupMod.buckets : Nat := 16

abbrev OfpPortMod.size : Nat := 40
abbrev OfpPortMod.portNo : Nat := 8
abbrev OfpPortMod.pad : Nat := 12
abbrev OfpPortMod.hwAddr : Nat := 16
abbrev OfpPortMod.pad2 : Nat := 22
abbrev OfpPortMod.config : Nat := 24
abbrev OfpPortMod.mask : Nat := 28
abbrev OfpPortMod.advertise : Nat := 32
abbrev OfpPortMod.pad3 : Nat := 36

abbrev OfpMeterMod.size : Nat := 16
abbrev OfpMeterMod.command : Nat := 8
abbrev OfpMeterMod.flags : Nat := 10
abbrev OfpMeterMod.meterId : Nat := 12
abbrev OfpMeterMod.bands : Nat := 16

abbrev OfpMultipartRequest.size : Nat := 16
abbrev OfpMultipartRequest.type : Nat := 8
abbrev OfpMultipartRequest.flags : Nat := 10
abbrev OfpMultipartRequest.pad : Nat := 12
abbrev OfpMultipartRequest.body : Nat := 16

abbrev OfpMultipartReply.size : Nat := 16
abbrev OfpMultipartReply.type : Nat := 8
abbrev OfpMultipartReply.flags : Nat := 10
abbrev OfpMultipartReply.pad : Nat := 12
abbrev OfpMultipartReply.body : Nat := 16

abbrev OfpDesc.size : Nat := 1056
abbrev OfpDesc.mfrDesc : Nat := 0
abbrev OfpDesc.hwDesc : Nat := 256
abbrev OfpDesc.swDesc : Nat := 512
abbrev OfpDesc.serialNum : Nat := 768
abbrev OfpDesc.dpDesc : Nat := 800

abbrev OfpFlowStatsRequest.size : Nat := 40
abbrev OfpFlowStatsRequest.tableId : Nat := 0
abbrev OfpFlowStatsRequest.pad : Nat := 1
abbrev OfpFlowStatsRequest.outPort : Nat := 4
abbrev OfpFlowStatsRequest.outGroup : Nat := 8
abbrev OfpFlowStatsRequest.pad2 : Nat := 12
abbrev OfpFlowStatsRequest.cookie : Nat := 16
abbrev OfpFlowStatsRequest.cookieMask : Nat := 24
abbrev OfpFlowStatsRequest.fmatch : Nat := 32

abbrev OfpAggregateStatsReply.size : Nat := 24
abbrev OfpAggregateStatsReply.packetCount : Nat := 0
abbrev OfpAggregateStatsReply.byteCount : Nat := 8
abbrev OfpAggregateStatsReply.flowCount : Nat := 16
abbrev OfpAggregateStatsReply.pad : Nat := 20

abbrev OfpPortStatsRequest.size : Nat := 8
abbrev OfpPortStatsRequest.portNo : Nat := 0
abbrev OfpPortStatsRequest.pad : Nat := 4

abbrev OfpQueueStatsRequest.size : Nat := 8
abbrev OfpQueueStatsRequest.portNo : Nat := 0
abbrev OfpQueueStatsRequest.queueId : Nat := 4

abbrev OfpGroupStatsRequest.size : Nat := 8
abbrev OfpGroupStatsRequest.groupId : Nat := 0
abbrev OfpGroupStatsRequest.pad : Nat := 4

abbrev OfpGroupFeaturesStats.size : Nat := 40
abbrev OfpGroupFeaturesStats.types : Nat := 0
abbrev OfpGroupFeaturesStats.capabilities : Nat := 4
abbrev OfpGroupFeaturesStats.maxGroups : Nat := 8
abbrev OfpGroupFeaturesStats.actions : Nat := 24

abbrev OfpMeterMultipartRequest.size : Nat := 8
abbrev OfpMeterMultipartRequest.meterId : Nat := 0
abbrev OfpMeterMultipartRequest.pad : Nat := 4

abbrev OfpMeterFeatures.size : Nat := 16
abbrev OfpMeterFeatures.maxMeter : Nat := 0
abbrev OfpMeterFeatures.bandTypes : Nat := 4
abbrev OfpMeterFeatures.capabilities : Nat := 8
abbrev OfpMeterFeatures.maxBands : Nat := 12
abbrev OfpMeterFeatures.maxColor : Nat := 13
abbrev OfpMeterFeatures.pad : Nat := 14

abbrev OfpQueueGetConfigRequest.size : Nat := 16
abbrev OfpQueueGetConfigRequest.port : Nat := 8
abbrev OfpQueueGetConfigRequest.pad : Nat := 12

abbrev OfpQueueGetConfigReply.size : Nat := 16
abbrev OfpQueueGetConfigReply.port : Nat := 8
abbrev OfpQueueGetConfigReply.pad : Nat := 12
abbrev OfpQueueGetConfigReply.queues : Nat := 16

abbrev OfpPacketOut.size : Nat := 24
abbrev OfpPacketOut.bufferId : Nat := 8
abbrev OfpPacketOut.inPort : Nat := 12
abbrev OfpPacketOut.actionsLen : Nat := 16
abbrev OfpPacketOut.pad : Nat := 18
abbrev OfpPacketOut.actions : Nat := 24

abbrev OfpRoleRequest.size : Nat := 24
abbrev OfpRoleRequest.role : Nat := 8
abbrev OfpRoleRequest.pad : Nat := 12
abbrev OfpRoleRequest.generationId : Nat := 16

abbrev OfpAsyncConfig.size : Nat := 32
abbrev OfpAsyncConfig.packetInMask : Nat := 8
abbrev OfpAsyncConfig.portStatusMask : Nat := 16
abbrev OfpAsyncConfig.flowRemovedMask : Nat := 24

abbrev OfpPacketIn.size : Nat := 32
abbrev OfpPacketIn.bufferId : Nat := 8
abbrev OfpPacketIn.totalLen : Nat := 12
abbrev OfpPacketIn.reason : Nat := 14
abbrev OfpPacketIn.tableId : Nat := 15
abbrev OfpPacketIn.cookie : Nat := 16
abbrev OfpPacketIn.fmatch : Nat := 24

abbrev OfpFlowRemoved.size : Nat := 56
abbrev OfpFlowRemoved.cookie : Nat := 8
abbrev OfpFlowRemoved.priority : Nat := 16
abbrev OfpFlowRemoved.reason : Nat := 18
abbrev OfpFlowRemoved.tableId : Nat := 19
abbrev OfpFlowRemoved.durationSec : Nat := 20
abbrev OfpFlowRemoved.durationNsec : Nat := 24
abbrev OfpFlowRemoved.idleTimeout : Nat := 28
abbrev OfpFlowRemoved.hardTimeout : Nat := 30
abbrev OfpFlowRemoved.packetCount : Nat := 32
abbrev OfpFlowRemoved.byteCount : Nat := 40
abbrev OfpFlowRemoved.fmatch : Nat := 48

abbrev OfpPortStatus.size : Nat := 80
abbrev OfpPortStatus.reason : Nat := 8
abbrev OfpPortStatus.pad : Nat := 9
abbrev OfpPortStatus.desc : Nat := 16

abbrev OfpExperimenterHeader.size : Nat := 16

abbrev OfpExperimenterStatsHeader.size : Nat := 8

abbrev OfpActionHeader.size : Nat := 8
abbrev OfpActionHeader.type : Nat := 0
abbrev OfpActionHeader.len : Nat := 2
abbrev OfpActionHeader.pad : Nat := 4

abbrev OfpActionOutput.size : Nat := 16
abbrev OfpActionOutput.len : Nat := 2
abbrev OfpActionOutput.port : Nat := 4
abbrev OfpActionOutput.maxLen : Nat := 8
abbrev OfpActionOutput.pad : Nat := 10

abbrev OfpActionMplsTtl.size : Nat := 8
abbrev OfpActionMplsTtl.len : Nat := 2
abbrev OfpActionMplsTtl.mplsTtl : Nat := 4
abbrev OfpActionMplsTtl.pad : Nat := 5

abbrev OfpActionNwTtl.size : Nat := 8
abbrev OfpActionNwTtl.len : Nat := 2
abbrev OfpActionNwTtl.nwTtl : Nat := 4
abbrev OfpActionNwTtl.pad : Nat := 5

abbrev OfpActionPush.size : Nat := 8
abbrev OfpActionPush.len : Nat := 2
abbrev OfpActionPush.ethertype : Nat := 4
abbrev OfpActionPush.pad : Nat := 6

abbrev OfpActionPopMpls.size : Nat := 8
abbrev OfpActionPopMpls.len : Nat := 2
abbrev OfpActionPopMpls.ethertype : Nat := 4
abbrev OfpActionPopMpls.pad : Nat := 6

abbrev OfpActionSetQueue.size : Nat := 8
abbrev OfpActionSetQueue.len : Nat := 2
abbrev OfpActionSetQueue.queueId : Nat := 4

abbrev OfpActionGroup.size : Nat := 8
abbrev OfpActionGroup.len : Nat := 2
abbrev OfpActionGroup.groupId : Nat := 4

abbrev OfpActionSetField.size : Nat := 8
abbrev OfpActionSetField.len : Nat := 2
abbrev OfpActionSetField.field : Nat := 4

abbrev OfpInstruction.size : Nat := 8
abbrev OfpInstruction.len : Nat := 2

abbrev OfpBucket.size : Nat := 16
abbrev OfpBucket.len : Nat := 0

abbrev OfpMeterBandHeader.size : Nat := 12
abbrev OfpMeterBandHeader.len : Nat := 2

abbrev OfpPort.size : Nat := 64

abbrev OfpFlowStats.size : Nat := 56
abbrev OfpFlowStats.length : Nat := 0

abbrev OfpTableStats.size : Nat := 24

abbrev OfpPortStats.size : Nat := 112

abbrev OfpQueueStats.size : Nat := 40

abbrev OfpGroupStats.size : Nat := 40
abbrev OfpGroupStats.length : Nat := 0

abbrev OfpGroupDescStats.size : Nat := 8
abbrev OfpGroupDescStats.length : Nat := 0

abbrev OfpTableFeatures.size : Nat := 64
abbrev OfpTableFeatures.length : Nat := 0

abbrev OfpMeterStats.size : Nat := 40
abbrev OfpMeterStats.len : Nat := 4

abbrev OfpMeterConfig.size : Nat := 8
abbrev OfpMeterConfig.length : Nat := 0

abbrev OfpPacketQueue.size : Nat := 16
abbrev OfpPacketQueue.len : Nat := 8
/-! ## 2. Enumerations -/

/-- `enum ofp_type`. -/
inductive OfpType where
  | hello
  | error
  | echoRequest
  | echoReply
  | experimenter
  | featuresRequest
  | featuresReply
  | getConfigRequest
  | getConfigReply
  | setConfig
  | packetIn
  | flowRemoved
  | portStatus
  | packetOut
  | flowMod
  | groupMod
  | portMod
  | tableMod
  | multipartRequest
  | multipartReply
  | barrierRequest
  | barrierReply
  | queueGetConfigRequest
  | queueGetConfigReply
  | roleRequest
  | roleReply
  | getAsyncRequest
  | getAsyncReply
  | setAsync
  | meterMod
  deriving DecidableEq, Repr

def OfpType.toUInt8 : OfpType → UInt8
  | .hello => 0
  | .error => 1
  | .echoRequest => 2
  | .echoReply => 3
  | .experimenter => 4
  | .featuresRequest => 5
  | .featuresReply => 6
  | .getConfigRequest => 7
  | .getConfigReply => 8
  | .setConfig => 9
  | .packetIn => 10
  | .flowRemoved => 11
  | .portStatus => 12
  | .packetOut => 13
  | .flowMod => 14
  | .groupMod => 15
  | .portMod => 16
  | .tableMod => 17
  | .multipartRequest => 18
  | .multipartReply => 19
  | .barrierRequest => 20
  | .barrierReply => 21
  | .queueGetConfigRequest => 22
  | .queueGetConfigReply => 23
  | .roleRequest => 24
  | .roleReply => 25
  | .getAsyncRequest => 26
  | .getAsyncReply => 27
  | .setAsync => 28
  | .meterMod => 29

/-- The `switch` on the wire value; `none` is its `default`. -/
def OfpType.ofUInt8? (n : UInt8) : Option OfpType :=
  match n.toNat with
  | 0 => some .hello
  | 1 => some .error
  | 2 => some .echoRequest
  | 3 => some .echoReply
  | 4 => some .experimenter
  | 5 => some .featuresRequest
  | 6 => some .featuresReply
  | 7 => some .getConfigRequest
  | 8 => some .getConfigReply
  | 9 => some .setConfig
  | 10 => some .packetIn
  | 11 => some .flowRemoved
  | 12 => some .portStatus
  | 13 => some .packetOut
  | 14 => some .flowMod
  | 15 => some .groupMod
  | 16 => some .portMod
  | 17 => some .tableMod
  | 18 => some .multipartRequest
  | 19 => some .multipartReply
  | 20 => some .barrierRequest
  | 21 => some .barrierReply
  | 22 => some .queueGetConfigRequest
  | 23 => some .queueGetConfigReply
  | 24 => some .roleRequest
  | 25 => some .roleReply
  | 26 => some .getAsyncRequest
  | 27 => some .getAsyncReply
  | 28 => some .setAsync
  | 29 => some .meterMod
  | _ => none

@[simp] theorem OfpType.ofUInt8?_toUInt8 (t : OfpType) : ofUInt8? t.toUInt8 = some t := by
  cases t <;> rfl

/-- `enum ofp_multipart_types`. -/
inductive OfpMultipartType where
  | desc
  | flow
  | aggregate
  | table
  | portStats
  | queue
  | group
  | groupDesc
  | groupFeatures
  | meter
  | meterConfig
  | meterFeatures
  | tableFeatures
  | portDesc
  | experimenter
  deriving DecidableEq, Repr

def OfpMultipartType.toUInt16 : OfpMultipartType → UInt16
  | .desc => 0
  | .flow => 1
  | .aggregate => 2
  | .table => 3
  | .portStats => 4
  | .queue => 5
  | .group => 6
  | .groupDesc => 7
  | .groupFeatures => 8
  | .meter => 9
  | .meterConfig => 10
  | .meterFeatures => 11
  | .tableFeatures => 12
  | .portDesc => 13
  | .experimenter => 0xffff

/-- The `switch` on the wire value; `none` is its `default`. -/
def OfpMultipartType.ofUInt16? (n : UInt16) : Option OfpMultipartType :=
  match n.toNat with
  | 0 => some .desc
  | 1 => some .flow
  | 2 => some .aggregate
  | 3 => some .table
  | 4 => some .portStats
  | 5 => some .queue
  | 6 => some .group
  | 7 => some .groupDesc
  | 8 => some .groupFeatures
  | 9 => some .meter
  | 10 => some .meterConfig
  | 11 => some .meterFeatures
  | 12 => some .tableFeatures
  | 13 => some .portDesc
  | 0xffff => some .experimenter
  | _ => none

@[simp] theorem OfpMultipartType.ofUInt16?_toUInt16 (t : OfpMultipartType) : ofUInt16? t.toUInt16 = some t := by
  cases t <;> rfl

/-! ## 3. Constants -/

abbrev ofpVersion : UInt8 := 4
abbrev ofpEthAlen : Nat := 6
abbrev descStrLen : Nat := 256
abbrev serialNumLen : Nat := 32
abbrev ofppMax : UInt32 := 0xffffff00
abbrev ofppAny : UInt32 := 0xffffffff
abbrev ofpgMax : UInt32 := 0xffffff00
abbrev ofpgAll : UInt32 := 0xfffffffc
abbrev ofpmMax : UInt32 := 0xffff0000
abbrev ofpmAll : UInt32 := 0xffffffff
abbrev ofpgcDelete : UInt16 := 2
abbrev ofpgtIndirect : UInt8 := 2
abbrev ofpgtFf : UInt16 := 3
abbrev ofpmcDelete : UInt16 := 2

-- Offsets and sizes are literals to `simp` and, after it, to `omega`.
attribute [simp] OfpHeader.size OfpHeader.version OfpHeader.type OfpHeader.length OfpHeader.xid
  OfpMatch.size OfpMatch.type OfpMatch.length OfpMatch.oxmFields OfpErrorMsg.size OfpErrorMsg.type
  OfpErrorMsg.code OfpErrorMsg.data OfpSwitchFeatures.size OfpSwitchFeatures.datapathId
  OfpSwitchFeatures.nBuffers OfpSwitchFeatures.nTables OfpSwitchFeatures.auxiliaryId
  OfpSwitchFeatures.pad OfpSwitchFeatures.capabilities OfpSwitchFeatures.reserved
  OfpSwitchConfig.size OfpSwitchConfig.flags OfpSwitchConfig.missSendLen OfpTableMod.size
  OfpTableMod.tableId OfpTableMod.pad OfpTableMod.config OfpFlowMod.size OfpFlowMod.cookie
  OfpFlowMod.cookieMask OfpFlowMod.tableId OfpFlowMod.command OfpFlowMod.idleTimeout
  OfpFlowMod.hardTimeout OfpFlowMod.priority OfpFlowMod.bufferId OfpFlowMod.outPort
  OfpFlowMod.outGroup OfpFlowMod.flags OfpFlowMod.pad OfpFlowMod.fmatch OfpGroupMod.size
  OfpGroupMod.command OfpGroupMod.type OfpGroupMod.pad OfpGroupMod.groupId OfpGroupMod.buckets
  OfpPortMod.size OfpPortMod.portNo OfpPortMod.pad OfpPortMod.hwAddr OfpPortMod.pad2
  OfpPortMod.config OfpPortMod.mask OfpPortMod.advertise OfpPortMod.pad3 OfpMeterMod.size
  OfpMeterMod.command OfpMeterMod.flags OfpMeterMod.meterId OfpMeterMod.bands
  OfpMultipartRequest.size OfpMultipartRequest.type OfpMultipartRequest.flags
  OfpMultipartRequest.pad OfpMultipartRequest.body OfpMultipartReply.size OfpMultipartReply.type
  OfpMultipartReply.flags OfpMultipartReply.pad OfpMultipartReply.body OfpDesc.size
  OfpDesc.mfrDesc OfpDesc.hwDesc OfpDesc.swDesc OfpDesc.serialNum OfpDesc.dpDesc
  OfpFlowStatsRequest.size OfpFlowStatsRequest.tableId OfpFlowStatsRequest.pad
  OfpFlowStatsRequest.outPort OfpFlowStatsRequest.outGroup OfpFlowStatsRequest.pad2
  OfpFlowStatsRequest.cookie OfpFlowStatsRequest.cookieMask OfpFlowStatsRequest.fmatch
  OfpAggregateStatsReply.size OfpAggregateStatsReply.packetCount OfpAggregateStatsReply.byteCount
  OfpAggregateStatsReply.flowCount OfpAggregateStatsReply.pad OfpPortStatsRequest.size
  OfpPortStatsRequest.portNo OfpPortStatsRequest.pad OfpQueueStatsRequest.size
  OfpQueueStatsRequest.portNo OfpQueueStatsRequest.queueId OfpGroupStatsRequest.size
  OfpGroupStatsRequest.groupId OfpGroupStatsRequest.pad OfpGroupFeaturesStats.size
  OfpGroupFeaturesStats.types OfpGroupFeaturesStats.capabilities OfpGroupFeaturesStats.maxGroups
  OfpGroupFeaturesStats.actions OfpMeterMultipartRequest.size OfpMeterMultipartRequest.meterId
  OfpMeterMultipartRequest.pad OfpMeterFeatures.size OfpMeterFeatures.maxMeter
  OfpMeterFeatures.bandTypes OfpMeterFeatures.capabilities OfpMeterFeatures.maxBands
  OfpMeterFeatures.maxColor OfpMeterFeatures.pad OfpQueueGetConfigRequest.size
  OfpQueueGetConfigRequest.port OfpQueueGetConfigRequest.pad OfpQueueGetConfigReply.size
  OfpQueueGetConfigReply.port OfpQueueGetConfigReply.pad OfpQueueGetConfigReply.queues
  OfpPacketOut.size OfpPacketOut.bufferId OfpPacketOut.inPort OfpPacketOut.actionsLen
  OfpPacketOut.pad OfpPacketOut.actions OfpRoleRequest.size OfpRoleRequest.role OfpRoleRequest.pad
  OfpRoleRequest.generationId OfpAsyncConfig.size OfpAsyncConfig.packetInMask
  OfpAsyncConfig.portStatusMask OfpAsyncConfig.flowRemovedMask OfpPacketIn.size
  OfpPacketIn.bufferId OfpPacketIn.totalLen OfpPacketIn.reason OfpPacketIn.tableId
  OfpPacketIn.cookie OfpPacketIn.fmatch OfpFlowRemoved.size OfpFlowRemoved.cookie
  OfpFlowRemoved.priority OfpFlowRemoved.reason OfpFlowRemoved.tableId OfpFlowRemoved.durationSec
  OfpFlowRemoved.durationNsec OfpFlowRemoved.idleTimeout OfpFlowRemoved.hardTimeout
  OfpFlowRemoved.packetCount OfpFlowRemoved.byteCount OfpFlowRemoved.fmatch OfpPortStatus.size
  OfpPortStatus.reason OfpPortStatus.pad OfpPortStatus.desc OfpExperimenterHeader.size
  OfpExperimenterStatsHeader.size OfpActionHeader.size OfpActionHeader.type OfpActionHeader.len
  OfpActionHeader.pad OfpActionOutput.size OfpActionOutput.len OfpActionOutput.port
  OfpActionOutput.maxLen OfpActionOutput.pad OfpActionMplsTtl.size OfpActionMplsTtl.len
  OfpActionMplsTtl.mplsTtl OfpActionMplsTtl.pad OfpActionNwTtl.size OfpActionNwTtl.len
  OfpActionNwTtl.nwTtl OfpActionNwTtl.pad OfpActionPush.size OfpActionPush.len
  OfpActionPush.ethertype OfpActionPush.pad OfpActionPopMpls.size OfpActionPopMpls.len
  OfpActionPopMpls.ethertype OfpActionPopMpls.pad OfpActionSetQueue.size OfpActionSetQueue.len
  OfpActionSetQueue.queueId OfpActionGroup.size OfpActionGroup.len OfpActionGroup.groupId
  OfpActionSetField.size OfpActionSetField.len OfpActionSetField.field OfpInstruction.size
  OfpInstruction.len OfpBucket.size OfpBucket.len OfpMeterBandHeader.size OfpMeterBandHeader.len
  OfpPort.size OfpFlowStats.size OfpFlowStats.length OfpTableStats.size OfpPortStats.size
  OfpQueueStats.size OfpGroupStats.size OfpGroupStats.length OfpGroupDescStats.size
  OfpGroupDescStats.length OfpTableFeatures.size OfpTableFeatures.length OfpMeterStats.size
  OfpMeterStats.len OfpMeterConfig.size OfpMeterConfig.length OfpPacketQueue.size
  OfpPacketQueue.len ofpVersion ofpEthAlen descStrLen serialNumLen

/-- `enum ofp_error_type`, the members that the decoder reports. -/
inductive OfpErrorType where
  | helloFailed
  | badRequest
  | groupModFailed
  | queueOpFailed
  | meterModFailed
  deriving DecidableEq, Repr

def OfpErrorType.toUInt16 : OfpErrorType → UInt16
  | .helloFailed => 0
  | .badRequest => 1
  | .groupModFailed => 6
  | .queueOpFailed => 9
  | .meterModFailed => 12

abbrev ofphfcIncompatible : UInt16 := 0
abbrev ofpbrcBadType : UInt16 := 1
abbrev ofpbrcBadMultipart : UInt16 := 2
abbrev ofpbrcBadExperimenter : UInt16 := 3
abbrev ofpbrcEperm : UInt16 := 5
abbrev ofpbrcBadLen : UInt16 := 6
abbrev ofpbrcBadTableId : UInt16 := 9
abbrev ofpbrcIsSlave : UInt16 := 10
abbrev ofpbrcBadPort : UInt16 := 11
abbrev ofpbacBadArgument : UInt16 := 5
abbrev ofpgmfcInvalidGroup : UInt16 := 1
abbrev ofpgmfcBadType : UInt16 := 10
abbrev ofpgmfcBadCommand : UInt16 := 11
abbrev ofpmmfcInvalidMeter : UInt16 := 2
abbrev ofpmmfcBadCommand : UInt16 := 4
abbrev ofpmmfcBadFlags : UInt16 := 5
abbrev ofpqofcBadPort : UInt16 := 0

/-- `ROUND_UP(x, y)` on `size_t`. -/
def roundUp (x y : Nat) : Nat := (x + (y - 1)) / y * y

/-- `ROUND_UP(x, y)` on `int`: C division truncates towards zero. -/
def roundUpInt (x y : Int) : Int := (x + (y - 1)).tdiv y * y

end CcPof.OpenFlow

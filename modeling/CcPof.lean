import CcPof.Controller.Polling
import CcPof.LinkedList.ManyLists
import CcPof.LinkedList.Undo
import CcPof.MemPool.AllOrNothing
import CcPof.MemPool.Stacks
import CcPof.OpenFlow.Canonical
import CcPof.OpenFlow.EncoderBounds
import CcPof.OpenFlow.GroupMod
import CcPof.OpenFlow.LengthField
import CcPof.OpenFlow.Locality
import CcPof.OpenFlow.NestedErrors
import CcPof.OpenFlow.NetworkOrder
import CcPof.OpenFlow.PacketOutRoundTrip
import CcPof.OpenFlow.Support
import CcPof.Slab.Fragmentation
import CcPof.Slab.Layout
import CcPof.Slab.ObjectHeap
import CcPof.Slab.PageSizes
import CcPof.Slab.Stat
import CcPof.Slab.StrayFree
import CcPof.SocketServer.Backlog
import CcPof.SocketServer.Connection
import CcPof.SocketServer.Custody
import CcPof.SocketServer.Echo
import CcPof.SocketServer.LockProgress
import CcPof.SocketServer.Miscount
import CcPof.SocketServer.Signals
import CcPof.SocketServer.StartParam
import CcPof.SocketServer.StartUp
import CcPof.SocketServer.WindDown
import CcPof.ThreadPool.Drain
import CcPof.ThreadPool.Init
import CcPof.ThreadPool.Ledger
import CcPof.ThreadPool.Shutdown

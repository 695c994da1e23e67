import SyNetsim.Lib.OrdMap
import SyNetsim.Lib.Traverse
import SyNetsim.Lib.Bfs
import SyNetsim.Lib.Run
import SyNetsim.Lib.Progress
import SyNetsim.Lib.Flood
import SyNetsim.Lib.Graph
import SyNetsim.Lib.Medium
import SyNetsim.Lib.Loop
import SyNetsim.Lib.Memory
import SyNetsim.Lib.Bytes
import SyNetsim.Lib.Queue
import SyNetsim.Lib.Framing
import SyNetsim.Lib.Circular
import SyNetsim.Lib.Json
import SyNetsim.Timerqueue
import SyNetsim.Cll
import SyNetsim.Mq
import SyNetsim.Rbtree
import SyNetsim.Rbtree.Balance
import SyNetsim.Rbtree.Walk
import SyNetsim.Ringbuffer
import SyNetsim.Netutil
import SyNetsim.Encap
import SyNetsim.Checksum
import SyNetsim.Olsr.Proto
import SyNetsim.Olsr.Mantissa
import SyNetsim.Olsr.Context
import SyNetsim.Olsr.Compare
import SyNetsim.Olsr.Spf
import SyNetsim.Olsr.RoutingTable
import SyNetsim.Olsr.Neighbor
import SyNetsim.Olsr.Mpr
import SyNetsim.Olsr.MprSet
import SyNetsim.Olsr.UniqueBridge
import SyNetsim.Olsr.Consistency
import SyNetsim.Olsr.ShortestPath
import SyNetsim.Olsr.Hello
import SyNetsim.Olsr.Tc
import SyNetsim.Olsr.Forwarding
import SyNetsim.Olsr.Route
import SyNetsim.Olsr.Node
import SyNetsim.Olsr.UpToDate
import SyNetsim.Olsr.Entries
import SyNetsim.Olsr.Changes
import SyNetsim.Olsr.Expiry
import SyNetsim.Olsr.Lifetime
import SyNetsim.Olsr.LinkTimers
import SyNetsim.Olsr.Parse
import SyNetsim.Olsr.ParseSafe
import SyNetsim.Olsr.Seqno
import SyNetsim.Olsr.Ansn
import SyNetsim.Olsr.Flooding
import SyNetsim.Olsr.Retransmission
import SyNetsim.Olsr.DataPath
import SyNetsim.Olsr.ClassC
import SyNetsim.Olsr.Delivery
import SyNetsim.Olsr.Packet
import SyNetsim.Olsr.Symmetry
import SyNetsim.Olsr.HelloCodec
import SyNetsim.Simnet.Dummy
import SyNetsim.Simnet.EventLoop
import SyNetsim.Simnet.NetReport
import SyNetsim.Simulator.Server
import SyNetsim.Simulator.Hdlreport
import SyNetsim.Simulator.RemoteConf
import SyNetsim.Simulator.Rejected
import SyNetsim.Simulator.LinkInfo
import SyNetsim.Simulator.LinkPairs
import SyNetsim.Simphy.Frames
import SyNetsim.Simulator.ReportJson
import SyNetsim.Simulator.Config
import SyNetsim.Simulator.ConfigRange
import SyNetsim.Simulator.Childproc
import SyNetsim.Olsr.Capacity
import SyNetsim.Olsr.ReverseEdges
import SyNetsim.Olsr.RouteStats
import SyNetsim.Olsr.Advertised
import SyNetsim.Olsr.Confirmed
import SyNetsim.Olsr.Behind
import SyNetsim.Olsr.Converge
import SyNetsim.Olsr.EndToEnd
import SyNetsim.Olsr.Validity
import SyNetsim.Olsr.LostLink
import SyNetsim.Olsr.TwoHop
import SyNetsim.Timerqueue.Work
import SyNetsim.Timerqueue.Callbacks
import SyNetsim.Timerqueue.Turn
import SyNetsim.Timerqueue.Firing
import SyNetsim.Olsr.Relays

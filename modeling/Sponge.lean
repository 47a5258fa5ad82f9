import Sponge.Logic.Word
import Sponge.Logic.Runs
import Sponge.Logic.Reach
import Sponge.Logic.Dyadic
import Sponge.Logic.Cursor
import Sponge.Logic.Octets
import Sponge.Logic.OrderedMap
import Sponge.Logic.Logged
import Sponge.Logic.Component
import Sponge.Util.Buffer
import Sponge.Util.Parser
import Sponge.Util.Codec
import Sponge.Util.Checksum
import Sponge.Util.ParserAccess
import Sponge.Util.FileDescriptor
import Sponge.Util.EventLoop
import Sponge.Stream.ByteStream
import Sponge.Stream.ByteQueue
import Sponge.Stream.StreamReassembler
import Sponge.Stream.ReassemblerStore
import Sponge.Stream.ReassemblerRep
import Sponge.Stream.ReassemblerSpec
import Sponge.Stream.ReassemblerInvariant
import Sponge.Stream.ReassemblerSafety
import Sponge.Stream.IteratorAccess
import Sponge.Stream.DataIndependence
import Sponge.Tcp.WrappingIntegers
import Sponge.Tcp.TCPSegment
import Sponge.Tcp.TCPReceiver
import Sponge.Tcp.ReceiverAck
import Sponge.Tcp.ReceiverFlags
import Sponge.Tcp.ReceiverSpec
import Sponge.Tcp.Injection
import Sponge.Tcp.TCPSender
import Sponge.Tcp.SenderTiling
import Sponge.Tcp.LongStream
import Sponge.Tcp.SenderSpec
import Sponge.Tcp.SenderFlow
import Sponge.Tcp.Outstanding
import Sponge.Tcp.FillWindow
import Sponge.Tcp.RetransmissionTimer
import Sponge.Tcp.TCPConnection
import Sponge.Tcp.TCPState
import Sponge.Tcp.Endpoint
import Sponge.Tcp.LateWrites
import Sponge.Tcp.ReceiverSafety
import Sponge.Tcp.Link
import Sponge.Tcp.Closing
import Sponge.Tcp.Ending
import Sponge.Tcp.ConnectionTotal
import Sponge.Tcp.Listening
import Sponge.Tcp.OfficialStates
import Sponge.Tcp.Outgoing
import Sponge.Tcp.InOrder
import Sponge.Tcp.RightEdge
import Sponge.Tcp.StateFlags
import Sponge.Tcp.ImmediateAck
import Sponge.Tcp.Backoff
import Sponge.Tcp.Pair
import Sponge.Tcp.Network
import Sponge.Net.EthernetFrame
import Sponge.Net.ARPMessage
import Sponge.Net.LinkCodec
import Sponge.Net.IPv4Datagram
import Sponge.Net.IPv4Codec
import Sponge.Tcp.SegmentCodec
import Sponge.Net.ParserSafety
import Sponge.Tcp.TCPOverIPv4
import Sponge.Tcp.FdAdapter
import Sponge.Net.NetworkInterface
import Sponge.Net.InterfaceSteps
import Sponge.Net.TunTapAdapter
import Sponge.Net.AdapterTotal
import Sponge.Tcp.TCPSpongeSocket
import Sponge.Tcp.SocketBooks
import Sponge.Tcp.SocketEnding
import Sponge.Tcp.SocketTotal
import Sponge.Tcp.TwoSockets
import Sponge.Net.PendingOrder
import Sponge.Net.ArpAnswers
import Sponge.Net.Conservation
import Sponge.Net.ArpPacing
import Sponge.Net.Router
import Sponge.Net.RouteTable
import Sponge.Net.RouteLookup
import Sponge.Net.MergeLoop
import Sponge.Net.NearestLinks
import Sponge.Net.HostBits
import Sponge.Net.Forwarding
import Sponge.Net.Internet

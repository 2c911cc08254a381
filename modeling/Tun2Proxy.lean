import Tun2Proxy.Tcp.State
import Tun2Proxy.Udp.Unpack
import Tun2Proxy.Udp.RoundTrip
import Tun2Proxy.Udp.Overread
import Tun2Proxy.Tcp.Conn
import Tun2Proxy.Tcp.Step
import Tun2Proxy.Tcp.Section
import Tun2Proxy.Tcp.Life
import Tun2Proxy.Tcp.Registry
import Tun2Proxy.Tcp.Forward
import Tun2Proxy.Tcp.Owned
import Tun2Proxy.Tcp.Late
import Tun2Proxy.Tcp.Sleeper
import Tun2Proxy.Tcp.Contract
import Tun2Proxy.Tcp.Eof
import Tun2Proxy.Tcp.Net
import Tun2Proxy.Tcp.Shutdown
import Tun2Proxy.Tcp.Release
import Tun2Proxy.Tcp.Linked
import Tun2Proxy.Tcp.Leak
import Tun2Proxy.Tcp.Download
import Tun2Proxy.Tcp.Deadlock
import Tun2Proxy.UdpConn.Calls
import Tun2Proxy.UdpConn.Closed
import Tun2Proxy.UdpConn.Early
import Tun2Proxy.UdpConn.Registry
import Tun2Proxy.UdpConn.Unregister
import Tun2Proxy.Dns.Cache
import Tun2Proxy.Gvisor.Responses
import Tun2Proxy.Lib.Mutex
import Tun2Proxy.Lib.Range
import Tun2Proxy.Lwip.Close
import Tun2Proxy.Lwip.Entry
import Tun2Proxy.Dns.Answer
import Tun2Proxy.Dns.Shared
import Tun2Proxy.Socks.Cached
import Tun2Proxy.Socks.Section
import Tun2Proxy.Socks.Sockets
import Tun2Proxy.UdpConn.Expire
import Tun2Proxy.Lib.Calls
import Tun2Proxy.Relay.Copy
import Tun2Proxy.Relay.HalfClose
import Tun2Proxy.Socketbase.Close
import Tun2Proxy.Socks.Ids
import Tun2Proxy.Socks.Source
import Tun2Proxy.Go.HostPort
import Tun2Proxy.Go.IP
import Tun2Proxy.Go.Reader
import Tun2Proxy.Gvisor.Requests
import Tun2Proxy.Lib.Authored
import Tun2Proxy.Lib.Trace
import Tun2Proxy.Lwip.Buffers
import Tun2Proxy.Lwip.Input
import Tun2Proxy.Relay.Deadline
import Tun2Proxy.Socks.Addr
import Tun2Proxy.Socks.ReadAddr
import Tun2Proxy.Tcp.Cells
import Tun2Proxy.Tcp.HalfClose
import Tun2Proxy.Tcp.Interleave
import Tun2Proxy.Lib.Circular
import Tun2Proxy.Lwip.Receive
import Tun2Proxy.Lwip.Ooseq
import Tun2Proxy.Lwip.InSequence
import Tun2Proxy.Lwip.Window
import Tun2Proxy.Lwip.Receiver
import Tun2Proxy.Tcp.Order
import Tun2Proxy.Tcp.Fed
import Tun2Proxy.Tcp.Wire
import Tun2Proxy.Lib.Agenda
import Tun2Proxy.Lwip.Timeouts
import Tun2Proxy.Lwip.Timers
import Tun2Proxy.Lwip.Schedule
import Tun2Proxy.Lwip.Cyclic
import Tun2Proxy.Lib.OnesComplement
import Tun2Proxy.Lib.Split
import Tun2Proxy.Lwip.Acked
import Tun2Proxy.Lwip.Fin
import Tun2Proxy.Lwip.Link
import Tun2Proxy.Lwip.Sender

import Libjingle.Allocator.Announcing
import Libjingle.Allocator.Bundle
import Libjingle.Allocator.Moves
import Libjingle.Allocator.Session
import Libjingle.Base.AddressOrder
import Libjingle.Base.AddressParsing
import Libjingle.Base.AddressText
import Libjingle.Base.AsyncTcpSocket
import Libjingle.Base.BandwidthSmoother
import Libjingle.Base.BufferedReadAdapter
import Libjingle.Base.ByteBuffer
import Libjingle.Base.ByteBufferMemory
import Libjingle.Base.ByteBufferQueue
import Libjingle.Base.CacheFiles
import Libjingle.Base.DeliveryLaw
import Libjingle.Base.DeliveryOrder
import Libjingle.Base.DiskCache
import Libjingle.Base.DiskCacheSizes
import Libjingle.Base.Eviction
import Libjingle.Base.FifoBuffer
import Libjingle.Base.FifoCells
import Libjingle.Base.FifoQueue
import Libjingle.Base.FifoSound
import Libjingle.Base.HttpsProxy
import Libjingle.Base.IPPrefix
import Libjingle.Base.MessageQueue
import Libjingle.Base.Multipart
import Libjingle.Base.NatServer
import Libjingle.Base.PostedInOrder
import Libjingle.Base.ProxyBypass
import Libjingle.Base.ProxyTunnel
import Libjingle.Base.SocketAddress
import Libjingle.Base.SocksProxy
import Libjingle.Base.TcpFraming
import Libjingle.Base.TunnelData
import Libjingle.Base.VirtualConnections
import Libjingle.Base.VirtualSocketServer
import Libjingle.Base.VirtualTcp
import Libjingle.Channels.Connecting
import Libjingle.Channels.Counting
import Libjingle.Channels.InStep
import Libjingle.Channels.Muxing
import Libjingle.Channels.Proxy
import Libjingle.Channels.Settled
import Libjingle.Channels.Transport
import Libjingle.Http.Attributes
import Libjingle.Http.CacheHeaders
import Libjingle.Http.Caching
import Libjingle.Http.Dates
import Libjingle.Http.Headers
import Libjingle.Http.Leader
import Libjingle.Http.Sending
import Libjingle.Http.Server
import Libjingle.Http.ServerClose
import Libjingle.Http.ServerHonoured
import Libjingle.Http.Urls
import Libjingle.P2P.Authentication
import Libjingle.P2P.Channel
import Libjingle.P2P.Connection
import Libjingle.P2P.Deletion
import Libjingle.P2P.Driven
import Libjingle.P2P.Endpoint
import Libjingle.P2P.Hysteresis
import Libjingle.P2P.Members
import Libjingle.P2P.PingAnswer
import Libjingle.P2P.PortMessages
import Libjingle.P2P.Pruning
import Libjingle.P2P.Ranking
import Libjingle.P2P.Receiving
import Libjingle.P2P.RemoteCandidates
import Libjingle.P2P.Stamps
import Libjingle.P2P.Starvation
import Libjingle.P2P.StateTimeouts
import Libjingle.P2P.UnknownAddress
import Libjingle.P2P.Writability
import Libjingle.PseudoTcp.Api
import Libjingle.PseudoTcp.Arrivals
import Libjingle.PseudoTcp.Calls
import Libjingle.PseudoTcp.Moves
import Libjingle.PseudoTcp.NextClock
import Libjingle.PseudoTcp.Parsing
import Libjingle.PseudoTcp.Process
import Libjingle.PseudoTcp.ReceiveSafety
import Libjingle.PseudoTcp.ReceiveWindow
import Libjingle.PseudoTcp.Receiving
import Libjingle.PseudoTcp.Recovery
import Libjingle.PseudoTcp.Retransmission
import Libjingle.PseudoTcp.SegmentSize
import Libjingle.PseudoTcp.SendList
import Libjingle.PseudoTcp.SendQueue
import Libjingle.PseudoTcp.SendTiling
import Libjingle.PseudoTcp.Sending
import Libjingle.PseudoTcp.SentStream
import Libjingle.PseudoTcp.State
import Libjingle.PseudoTcp.Timer
import Libjingle.PseudoTcp.Wire
import Libjingle.Relay.Agreement
import Libjingle.Relay.Attempts
import Libjingle.Relay.Connections
import Libjingle.Relay.Entries
import Libjingle.Relay.Failover
import Libjingle.Relay.Lifetime
import Libjingle.Relay.Messages
import Libjingle.Relay.Network
import Libjingle.Relay.Permission
import Libjingle.Relay.Port
import Libjingle.Relay.Registration
import Libjingle.Relay.Server
import Libjingle.Relay.Wire
import Libjingle.Session.CandidateExchange
import Libjingle.Session.CandidateFilter
import Libjingle.Session.Lifecycle
import Libjingle.Session.Manager
import Libjingle.Session.Messages
import Libjingle.Session.Registration
import Libjingle.Session.Rejection
import Libjingle.Session.State
import Libjingle.Session.Timeout
import Libjingle.Session.Transitions
import Libjingle.Session.Wiring
import Libjingle.Std.BigEndian
import Libjingle.Std.BinaryHeap
import Libjingle.Std.CString
import Libjingle.Std.Clock
import Libjingle.Std.Codec
import Libjingle.Std.ComparatorMap
import Libjingle.Std.Incremental
import Libjingle.Std.LinkedList
import Libjingle.Std.Loop
import Libjingle.Std.Memory
import Libjingle.Std.OrderedMap
import Libjingle.Std.Recent
import Libjingle.Std.Registry
import Libjingle.Std.Ring
import Libjingle.Std.Sorting
import Libjingle.Std.StagedQueue
import Libjingle.Std.Tiling
import Libjingle.Std.Trace
import Libjingle.Std.WeakOrder
import Libjingle.Std.Wildcard
import Libjingle.Std.Word
import Libjingle.Std.XmlDocument
import Libjingle.Std.XmlMarkup
import Libjingle.Strings.Base64
import Libjingle.Strings.Base64Canonical
import Libjingle.Strings.Bounds
import Libjingle.Strings.Codecs
import Libjingle.Strings.HexDigits
import Libjingle.Strings.Html
import Libjingle.Strings.RoundTrips
import Libjingle.Strings.StringMatch
import Libjingle.Strings.Tokenize
import Libjingle.Strings.UrlEncode
import Libjingle.Stun.Building
import Libjingle.Stun.Framing
import Libjingle.Stun.Message
import Libjingle.Stun.RequestLife
import Libjingle.Stun.Requests
import Libjingle.Stun.Resending
import Libjingle.Stun.RoundTrip
import Libjingle.Stun.StunPort
import Libjingle.Tasks.Abort
import Libjingle.Tasks.Deadlines
import Libjingle.Tasks.Ledger
import Libjingle.Tasks.Lifetime
import Libjingle.Tasks.Loop
import Libjingle.Tasks.Schedule
import Libjingle.Tasks.Task
import Libjingle.Tasks.Timeouts
import Libjingle.Xml.Element
import Libjingle.Xml.ElementLists
import Libjingle.Xml.NsStack
import Libjingle.Xml.PrintedDocument
import Libjingle.Xml.Printer
import Libjingle.Xml.ReadBack
import Libjingle.Xmpp.Bookkeeping
import Libjingle.Xmpp.Calls
import Libjingle.Xmpp.Chatroom
import Libjingle.Xmpp.Closing
import Libjingle.Xmpp.Constants
import Libjingle.Xmpp.Credentials
import Libjingle.Xmpp.Delivering
import Libjingle.Xmpp.Dispatch
import Libjingle.Xmpp.Engine
import Libjingle.Xmpp.Jid
import Libjingle.Xmpp.JidAcceptance
import Libjingle.Xmpp.Leaving
import Libjingle.Xmpp.Login
import Libjingle.Xmpp.Proceeding
import Libjingle.Xmpp.PubSubState
import Libjingle.Xmpp.Queue
import Libjingle.Xmpp.RateLimit
import Libjingle.Xmpp.Roster
import Libjingle.Xmpp.RosterGroups
import Libjingle.Xmpp.Rounds
import Libjingle.Xmpp.Runs

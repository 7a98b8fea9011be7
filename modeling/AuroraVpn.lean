import AuroraVpn.Lib.Framing
import AuroraVpn.Lib.Runs
import AuroraVpn.Lib.Channel
import AuroraVpn.Lib.Log
import AuroraVpn.Lib.Ownership
import AuroraVpn.Lib.Conversation
import AuroraVpn.Basic
import AuroraVpn.Lib.BigEndian
import AuroraVpn.Lib.Utf8
import AuroraVpn.Lib.IpAddr
import AuroraVpn.Masque.Octets
import AuroraVpn.Masque.Capsule
import AuroraVpn.Masque.Receive
import AuroraVpn.Masque.Transport
import AuroraVpn.Masque.Resync
import AuroraVpn.Masque.Datagram
import AuroraVpn.Masque.Drain
import AuroraVpn.Lib.Text
import AuroraVpn.Routing.Rules
import AuroraVpn.Routing.Parse
import AuroraVpn.Chain.Rules
import AuroraVpn.Chain.Agreement
import AuroraVpn.Chain.Notes
import AuroraVpn.Lib.Codec
import AuroraVpn.Lib.Except
import AuroraVpn.Account.Store
import AuroraVpn.Account.Repair
import AuroraVpn.Account.Lawful
import AuroraVpn.Account.Config
import AuroraVpn.Account.Load
import AuroraVpn.Account.Revoked
import AuroraVpn.Account.Credential
import AuroraVpn.Account.Durable
import AuroraVpn.Account.Reload
import AuroraVpn.Lib.Program
import AuroraVpn.Account.Budget
import AuroraVpn.Account.Calls
import AuroraVpn.Account.Http
import AuroraVpn.Account.Provision
import AuroraVpn.Account.Network
import AuroraVpn.Account.Attempt
import AuroraVpn.Account.Waits
import AuroraVpn.Account.Histories
import AuroraVpn.Lib.Crash
import AuroraVpn.Account.Slots
import AuroraVpn.Account.Writes
import AuroraVpn.Account.Purchase
import AuroraVpn.Account.Refusal
import AuroraVpn.Account.Filled
import AuroraVpn.Account.Silent
import AuroraVpn.Account.OnRecord
import AuroraVpn.Account.Bought
import AuroraVpn.Socks.Handshake
import AuroraVpn.Socks.Gate
import AuroraVpn.Socks.Route
import AuroraVpn.Socks.Doors
import AuroraVpn.Socks.Connect
import AuroraVpn.Socks.Told
import AuroraVpn.Socks.Associate
import AuroraVpn.NetStack.Sockets
import AuroraVpn.NetStack.State
import AuroraVpn.NetStack.Command
import AuroraVpn.NetStack.Data
import AuroraVpn.NetStack.Service
import AuroraVpn.NetStack.Loop
import AuroraVpn.NetStack.Trace
import AuroraVpn.NetStack.Round
import AuroraVpn.NetStack.Account
import AuroraVpn.NetStack.Ownership
import AuroraVpn.NetStack.SimpleSocket
import AuroraVpn.NetStack.SocketTable
import AuroraVpn.NetStack.View
import AuroraVpn.NetStack.Upload
import AuroraVpn.NetStack.Single
import AuroraVpn.NetStack.Download
import AuroraVpn.NetStack.Close
import AuroraVpn.NetStack.Ports
import AuroraVpn.Account.Teams
import AuroraVpn.Account.Footprint
import AuroraVpn.Account.Enrolled
import AuroraVpn.Account.Open
import AuroraVpn.Account.Opened
import AuroraVpn.Account.Token
import AuroraVpn.Bridge.Config
import AuroraVpn.Bridge.Lifecycle
import AuroraVpn.Bridge.Exclusion
import AuroraVpn.Lib.EventLoop
import AuroraVpn.Masque.Quic
import AuroraVpn.Masque.H2
import AuroraVpn.Masque.Candidates
import AuroraVpn.Masque.Embedded
import AuroraVpn.Masque.Nested
import AuroraVpn.Service.Teardown
import AuroraVpn.Service.Attempts
import AuroraVpn.Service.Replaced
import AuroraVpn.Lib.Monitor
import AuroraVpn.Service.Search
import AuroraVpn.Engine.Calls
import AuroraVpn.Engine.Probing
import AuroraVpn.Engine.Classify
import AuroraVpn.Engine.Embedded
import AuroraVpn.Engine.Agreement
import AuroraVpn.Lib.Record
import AuroraVpn.Settings.Codecs
import AuroraVpn.Settings.Record
import AuroraVpn.Settings.Saves
import AuroraVpn.Upstream.Setting
import AuroraVpn.Carriers.Tor
import AuroraVpn.Carriers.Hops
import AuroraVpn.Upstream.Detour
import AuroraVpn.Upstream.Attach
import AuroraVpn.Carriers.Service
import AuroraVpn.Carriers.Starts
import AuroraVpn.Masque.Fragment
import AuroraVpn.Socks.Head
import AuroraVpn.Upstream.Header
import AuroraVpn.Lib.Encode
import AuroraVpn.Lib.IpText
import AuroraVpn.Socks.RequestLine
import AuroraVpn.Socks.Forward
import AuroraVpn.Dns.Query
import AuroraVpn.Dns.Answer
import AuroraVpn.Routing.Names
import AuroraVpn.Sniff.Hostname
import AuroraVpn.Sniff.Cut
import AuroraVpn.Sniff.Hello
import AuroraVpn.WireGuard.Candidates
import AuroraVpn.WireGuard.Anchors
import AuroraVpn.WireGuard.Reconnect
import AuroraVpn.Lib.Json
import AuroraVpn.Lib.LinkedMap
import AuroraVpn.Settings.RouteMemory
import AuroraVpn.Settings.Recalled
import AuroraVpn.Carriers.Bridges
import AuroraVpn.Bridge.Pump
import AuroraVpn.Carriers.EngineHop
import AuroraVpn.Lib.Radix
import AuroraVpn.Lib.Search
import AuroraVpn.Lib.Utf16
import AuroraVpn.Account.SignInPage
import AuroraVpn.Account.Chunked
import AuroraVpn.Account.Decoded
import AuroraVpn.Carriers.Paste
import AuroraVpn.Chain.Config
import AuroraVpn.Chain.Fingerprint
import AuroraVpn.Service.Planner
import AuroraVpn.Service.Race
import AuroraVpn.Service.RaceKeeps
import AuroraVpn.Service.RaceRuns
import AuroraVpn.WireGuard.Cps
import AuroraVpn.WireGuard.Noise
import AuroraVpn.WireGuard.Probe
import AuroraVpn.WireGuard.Tunnel
import AuroraVpn.WireGuard.TunnelTasks
import AuroraVpn.WireGuard.TunnelChecks
import AuroraVpn.WireGuard.TunnelRuns
import AuroraVpn.WireGuard.Verify
import AuroraVpn.Chain.RealityNodes
import AuroraVpn.Chain.RealityLinks

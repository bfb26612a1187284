import Rastreo.Lib.Run
import Rastreo.Lib.CString
import Rastreo.Lib.Json
import Rastreo.Simcom.Gps
import Rastreo.Simcom.Position
import Rastreo.Lib.Buffer
import Rastreo.Simcom.State
import Rastreo.Simcom.Tasks
import Rastreo.Simcom.Lockstep
import Rastreo.Simcom.Session
import Rastreo.Simcom.PostData
import Rastreo.Simcom.Cutting
import Rastreo.Simcom.Interleaved
import Rastreo.Simcom.RecvBuffer
import Rastreo.Simcom.SendBuffer
import Rastreo.Lib.Rfc6455
import Rastreo.Net.Lists
import Rastreo.Net.TcpClient
import Rastreo.Net.HttpRequest
import Rastreo.Net.WsFrames
import Rastreo.Net.WsClient
import Rastreo.Net.Sending
import Rastreo.Lib.Fragments
import Rastreo.Net.Ownership
import Rastreo.Net.Messages
import Rastreo.Net.Receiving
import Rastreo.Net.Upgrade
import Rastreo.Net.Handshake
import Rastreo.Net.Accepting
import Rastreo.Lib.Outbox
import Rastreo.Net.Transmission
import Rastreo.Net.TcpServer
import Rastreo.Net.ServerQueue
import Rastreo.Net.ServerSessions
import Rastreo.Net.ServerStream
import Rastreo.Net.CloseReply
import Rastreo.Net.Completions
import Rastreo.Net.Sessions
import Rastreo.Net.Passes
import Rastreo.Net.Guarding
import Rastreo.Drv.Debounce
import Rastreo.Net.RequestText
import Rastreo.Net.UrlParser
import Rastreo.Simcom.Timer
import Rastreo.Net.RequestTarget
import Rastreo.Drv.Mcp7940x
import Rastreo.Lib.Fields
import Rastreo.Lib.Progress
import Rastreo.Drv.PmzTime
import Rastreo.Usb.Driver
import Rastreo.Usb.Ready
import Rastreo.Usb.Detached
import Rastreo.Simcom.BodySize
import Rastreo.Simcom.Scaling
import Rastreo.Simcom.Response
import Rastreo.Simcom.Address
import Rastreo.Usb.Enumeration
import Rastreo.Drv.McpRequests
import Rastreo.Drv.Sst26
import Rastreo.Drv.Sst26Chains
import Rastreo.Drv.Sst26Flight
import Rastreo.Drv.Sst26Select
import Rastreo.Drv.Sst26Read
import Rastreo.Net.ServerSockets
import Rastreo.Net.AfterClose
import Rastreo.Net.Receiver
import Rastreo.Net.Splicing
import Rastreo.Net.FrameLength
import Rastreo.Net.OpenSlot
import Rastreo.Net.Coalesced
import Rastreo.Net.FrameLedger
import Rastreo.Net.PingTimer
import Rastreo.Net.ContentLength
import Rastreo.Net.UrlLedger
import Rastreo.Net.UrlReads
import Rastreo.Lib.Memory
import Rastreo.Net.TelnetServer
import Rastreo.Drv.Stable
import Rastreo.Drv.Registered
import Rastreo.Net.SharedSlots
import Rastreo.Drv.Blinking
import Rastreo.Drv.Retrying
import Rastreo.Drv.LocalTime
import Rastreo.Drv.Sst26Status
import Rastreo.Drv.Sst26Receive
import Rastreo.Drv.StorageFlash
import Rastreo.Net.FrameRoom
import Rastreo.Lib.Scanner
import Rastreo.Net.HttpParser
import Rastreo.Net.HttpGrammar
import Rastreo.Net.Chunked
import Rastreo.Net.ChunkedBody
import Rastreo.Net.HttpHead
import Rastreo.Net.HttpLibs
import Rastreo.Net.HttpRoundTrip
import Rastreo.Boot.Commands
import Rastreo.Boot.Exchange
import Rastreo.Boot.Image
import Rastreo.Boot.Silence
import Rastreo.Boot.Update
import Rastreo.Web.Page

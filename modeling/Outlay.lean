import Outlay.Async.System
import Outlay.Async.Broadcast
import Outlay.Async.Notify
import Outlay.Async.Mpsc
import Outlay.Async.Lru
import Outlay.Async.Stream
import Outlay.Async.Potential
import Outlay.Data.Sequence
import Outlay.Data.OrderedMap
import Outlay.Data.Escape
import Outlay.Data.Separated
import Outlay.Str
import Outlay.Env
import Outlay.Json
import Outlay.Json.Read
import Outlay.Json.Text
import Outlay.Proxy.Notification
import Outlay.Proxy.Subscribe
import Outlay.Proxy.Demux
import Outlay.Proxy.Lag
import Outlay.Proxy.Unwind
import Outlay.Proxy.Progress
import Outlay.Proxy.Poll
import Outlay.Proxy.Ending
import Outlay.Proxy.Publish
import Outlay.Proxy.Nip11
import Outlay.Proxy.Config
import Outlay.Shim.Translate
import Outlay.Shim.Task
import Outlay.Shim.Conn
import Outlay.Shim.Workers
import Outlay.Shim.Lifecycle
import Outlay.Shim.Outbound
import Outlay.Shim.Replace
import Outlay.Shim.Report
import Outlay.Shim.Acknowledge
import Outlay.Shim.Progress
import Outlay.Shim.Transport
import Outlay.Shim.Cache
import Outlay.Shim.Cells
import Outlay.Shim.Sharing
import Outlay.Shim.Eviction
import Outlay.Shim.Loopback
import Outlay.Shim.Relay
import Outlay.Shim.Pipe
import Outlay.Shim.Backpressure
import Outlay.Shim.Nip11
import Outlay.Shim.Grammar
import Outlay.Shim.Path
import Outlay.Shim.Config
import Outlay.Shim.Link
import Outlay.Shim.Server
import Outlay.Shim.Served
import Outlay.Shim.Waiting
import Outlay.Nip01
import Outlay.Deployment.System
import Outlay.Deployment.Delivery
import Outlay.Deployment.Frames
import Outlay.Deployment.Departure
import Outlay.Deployment.Document
import Outlay.Deployment.Network
import Outlay.Config
import Outlay.Relay.Bind

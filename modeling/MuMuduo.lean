import MuMuduo.Buffer.History
import MuMuduo.Buffer.Read
import MuMuduo.Poller.Agreement
import MuMuduo.Poller.Interest
import MuMuduo.EventLoop.Queue
import MuMuduo.EventLoop.Wakeup
import MuMuduo.EventLoop.Thread
import MuMuduo.Connection.Stream
import MuMuduo.Server.Names
import MuMuduo.Server.Snapshot
import MuMuduo.Server.States
import MuMuduo.Server.Ownership
import MuMuduo.Server.Shutdown
import MuMuduo.Server.Destructor
import MuMuduo.Server.Parting
import MuMuduo.Connection.Interest
import MuMuduo.Server.Dispatch
import MuMuduo.Server.Removal
import MuMuduo.Server.Farewell
import MuMuduo.Buffer.Retrieve
import MuMuduo.Connection.Notices
import MuMuduo.Server.Accept
import MuMuduo.Connection.Storage
import MuMuduo.Poller.Fairness
import MuMuduo.Poller.Shared
import MuMuduo.Buffer.Growth
import MuMuduo.Connection.Inbox
import MuMuduo.Connection.Echo
import MuMuduo.Server.Settlement
import MuMuduo.Server.Descriptors
import MuMuduo.EventLoop.Iteration
import MuMuduo.Server.Order
import MuMuduo.Server.Startup
import MuMuduo.Server.Armed
import MuMuduo.Server.Wire
import MuMuduo.Server.Storage

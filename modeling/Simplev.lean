import Simplev.Foundation.Machine
import Simplev.Foundation.Parts
import Simplev.Foundation.History
import Simplev.Foundation.Shared
import Simplev.Net.Buffer
import Simplev.Net.BufferSpec
import Simplev.Net.BufferRefinement
import Simplev.Net.TcpConnection
import Simplev.Net.TcpConnectionSpec
import Simplev.Net.Session
import Simplev.Net.Correctness.Callbacks
import Simplev.Net.SessionTurns
import Simplev.Net.Correctness.Stream
import Simplev.Net.Correctness.Backlog
import Simplev.Net.Correctness.Notifications
import Simplev.Net.Correctness.HalfClose
import Simplev.Net.Correctness.Interest
import Simplev.Net.Correctness.Silence
import Simplev.Net.Correctness.ChannelReset
import Simplev.Net.Correctness.Descriptors
import Simplev.Net.Correctness.Attempts
import Simplev.Net.Correctness.Room
import Simplev.Net.Correctness.Shrink
import Simplev.Net.Correctness.Growth
import Simplev.Net.Correctness.Scattered
import Simplev.Net.Peers
import Simplev.Base.BlockingQueue
import Simplev.Base.CountDownLatch
import Simplev.Base.LogStream
import Simplev.Base.Convert
import Simplev.Base.Mutex
import Simplev.Base.Thread
import Simplev.Base.Logging
import Simplev.Net.InetAddress
import Simplev.Net.LoopRun
import Simplev.Net.Correctness.Wakeup
import Simplev.Net.Correctness.Rounds
import Simplev.Net.Correctness.Quit
import Simplev.Net.TimerQueue
import Simplev.Net.TimerRun
import Simplev.Net.Correctness.Registry
import Simplev.Net.Correctness.Once
import Simplev.Net.Correctness.Sweep
import Simplev.Net.Correctness.Cancel
import Simplev.Net.TcpClient
import Simplev.Net.Correctness.Stop
import Simplev.Net.Correctness.Overlap
import Simplev.Net.Correctness.Cycles
import Simplev.Net.Correctness.Disconnect
import Simplev.Net.Correctness.Backoff
import Simplev.Net.ClientLife
import Simplev.Net.ServerStart
import Simplev.Net.Acceptor
import Simplev.Net.ThreadPool
import Simplev.Net.ThreadPoolBook
import Simplev.Net.Correctness.Teardown
import Simplev.Net.TcpServer
import Simplev.Net.TcpServerViews
import Simplev.Net.TcpServerTurns
import Simplev.Net.TcpServerBook
import Simplev.Net.Correctness.Lifecycle
import Simplev.Net.Correctness.Connections
import Simplev.Net.Correctness.Dispatch
import Simplev.Cases.Curl
import Simplev.Cases.CurlSockets
import Simplev.Cases.Correctness.Sockets
import Simplev.Cases.Download
import Simplev.Cases.Correctness.Quits
import Simplev.Cases.Correctness.Pieces

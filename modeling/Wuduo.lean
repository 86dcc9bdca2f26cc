import Wuduo.Buffer.ByteQueue
import Wuduo.Buffer.Capacity
import Wuduo.TcpConnection.Session
import Wuduo.TcpConnection.Lifetime
import Wuduo.TcpConnection.Draining
import Wuduo.TimerQueue.Alarm
import Wuduo.TimerQueue.Firing
import Wuduo.EventLoop.Wakeup
import Wuduo.EventLoop.Discipline
import Wuduo.EventLoop.Teardown
import Wuduo.EventLoop.Quitting
import Wuduo.EventLoopThread.Published
import Wuduo.Channel.Failure
import Wuduo.Epoller.Wait
import Wuduo.Http.Confined
import Wuduo.Http.Framing
import Wuduo.Http.KeepAlive
import Wuduo.Http.Reading
import Wuduo.Http.Errors
import Wuduo.Http.Spelling
import Wuduo.Http.HeadReply
import Wuduo.Http.Replies
import Wuduo.Http.Refusals
import Wuduo.Http.Endings
import Wuduo.TcpServer.Registry
import Wuduo.TcpServer.Closing
import Wuduo.TcpServer.Sessions
import Wuduo.TcpServer.Ownership
import Wuduo.TcpServer.Balance
import Wuduo.TcpServer.Callbacks
import Wuduo.TcpServer.Rounds
import Wuduo.EventLoop.Timers
import Wuduo.EventLoop.Prompt
import Wuduo.InetAddress

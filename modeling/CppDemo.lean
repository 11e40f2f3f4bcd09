import CppDemo.Foundation.Transition
import CppDemo.Foundation.CompletionQueue
import CppDemo.Foundation.GuardedTable
import CppDemo.Foundation.Calls
import CppDemo.Foundation.Locks
import CppDemo.Foundation.ByteStream
import CppDemo.Foundation.Codec
import CppDemo.Foundation.IntText
import CppDemo.Foundation.FastPower
import CppDemo.Grpc.Greeter
import CppDemo.Grpc.ServiceImpl
import CppDemo.Grpc.ServerAsync.Tag
import CppDemo.Grpc.ServerAsync.Session
import CppDemo.Grpc.ServerAsync.SessionProtocol
import CppDemo.Grpc.ServerAsync.Agreement
import CppDemo.Grpc.ServerAsync.Server
import CppDemo.Grpc.ServerAsync.Effect
import CppDemo.Grpc.ServerAsync.Table
import CppDemo.Grpc.ServerAsync.Loops
import CppDemo.Grpc.ServerAsync.Invariant
import CppDemo.Grpc.ServerAsync.Dispatch
import CppDemo.Grpc.ServerAsync.TagWrap
import CppDemo.Grpc.ServerAsync.Delivery
import CppDemo.Grpc.ServerAsync.Removal
import CppDemo.Grpc.ServerAsync.Shutdown
import CppDemo.Grpc.ServerAsync.Accepting
import CppDemo.Grpc.ServerAsync.Lifecycle
import CppDemo.Grpc.ServerAsync.Locking
import CppDemo.Grpc.ServerAsync.LockOrder
import CppDemo.Grpc.ClientAsync2.Client
import CppDemo.Grpc.ClientAsync2.Callback
import CppDemo.Grpc.ClientAsync2.Discipline
import CppDemo.Grpc.ClientAsync2.Teardown
import CppDemo.Misc.HttpRequest.Parser
import CppDemo.Misc.HttpRequest.Head
import CppDemo.Misc.HttpRequest.Language
import CppDemo.Misc.HttpRequest.Headers
import CppDemo.Misc.HttpRequest.Body
import CppDemo.Misc.HttpRequest.Version
import CppDemo.Misc.HttpRequest.TargetFrame
import CppDemo.Misc.Fibonacci.MatrixFastPower
import CppDemo.Misc.Fibonacci.ConstExpr
import CppDemo.Misc.Fibonacci.Overflow
import CppDemo.Misc.ProducerConsumer
import CppDemo.Openssl.Hmac
import CppDemo.Asio.Counter
import CppDemo.Asio.Echo.Connection
import CppDemo.Asio.Echo.Lockstep
import CppDemo.Asio.Echo.BufferBound
import CppDemo.Common.IpPortFlag
import CppDemo.Common.IpPortDestination
import CppDemo.Common.IpPortEntries
import CppDemo.Abseil.Inventory
import CppDemo.Asio.HandlerMemory
import CppDemo.Foundation.IncrementalParser
import CppDemo.Http.TcpReuse
import CppDemo.Memory.CustomAllocator
import CppDemo.Misc.HttpRequest.HeaderLines
import CppDemo.Foundation.Progress
import CppDemo.Foundation.StreamCall.Frame
import CppDemo.Grpc.Client
import CppDemo.Misc.HttpRequest.FirstHeader
import CppDemo.Foundation.Script
import CppDemo.Grpc.ClientAsync2.Notifies
import CppDemo.Grpc.ServerAsync.Answered
import CppDemo.Grpc.ServerAsync.Rounds
import CppDemo.Http.Transcript
import CppDemo.Tls.Connection
import CppDemo.Tls.FalseStart
import CppDemo.Tls.SessionTicket
import CppDemo.Misc.ProducerConsumer.Progress
import CppDemo.Asio.Echo.Lifetime
import CppDemo.Asio.Daytime.Delivery
import CppDemo.Asio.Daytime.OneByOne
import CppDemo.Grpc.ClientAsync.Client
import CppDemo.Grpc.ClientAsync.Stop
import CppDemo.Abseil.Stopping
import CppDemo.Asio.Echo.Conversation
import CppDemo.Asio.Echo.Crossing

import Rnet.Lib.Check
import Rnet.Lib.Run
import Rnet.Lib.Blame
import Rnet.Lib.Cut
import Rnet.Lib.Memory
import Rnet.Lib.Descriptors
import Rnet.Lib.OrderedSet
import Rnet.Lib.Flags
import Rnet.Lib.ByteOrder
import Rnet.Lib.Unsigned
import Rnet.Lib.Numeral
import Rnet.Lib.Decimal
import Rnet.File.ConnBuffer
import Rnet.File.BufferRefinement
import Rnet.File.BufferSizes
import Rnet.File.IntegerCodec
import Rnet.File.OwnedBuffer
import Rnet.File.BufferMemory
import Rnet.File.LineSearch
import Rnet.File.VectoredRead
import Rnet.File.SizedBuffer
import Rnet.File.AppendFile
import Rnet.File.FileReader
import Rnet.Log.AsyncLogging
import Rnet.Log.AsyncLoggingStream
import Rnet.Log.AsyncLoggingStop
import Rnet.Log.AsyncLoggingPool
import Rnet.Log.LogFile
import Rnet.Log.LogFileRolling
import Rnet.Log.IntegerText
import Rnet.Log.LogStream
import Rnet.Log.Logger
import Rnet.Log.LogPipeline
import Rnet.Log.LogSystem
import Rnet.Network.EventLoop
import Rnet.Network.TimerQueue
import Rnet.Network.TimerOperations
import Rnet.Network.TimerOwnership
import Rnet.Network.TimerInvariant
import Rnet.Network.TimerAlarm
import Rnet.Network.TimerCancel
import Rnet.Network.TimerFrame
import Rnet.Network.TimerDispatch
import Rnet.Network.TimerPunctuality
import Rnet.Network.Channel
import Rnet.Network.PollerMirror
import Rnet.Network.Reactor
import Rnet.Network.ReactorSafety
import Rnet.Network.ReactorDispatch
import Rnet.Network.Acceptor
import Rnet.Network.TcpConnection
import Rnet.Network.ConnectionEffect
import Rnet.Network.OutgoingStream
import Rnet.Network.TcpConnectionOutput
import Rnet.Network.StreamDelivery
import Rnet.Network.InboundStream
import Rnet.Network.WriteInterest
import Rnet.Network.TcpLink
import Rnet.Network.FlowControl
import Rnet.Network.ConnectionLife
import Rnet.Network.ConnectionSteps
import Rnet.Network.ConnectionLifecycle
import Rnet.Network.DisabledChannels
import Rnet.Network.TcpServer
import Rnet.Network.ServerTeardown
import Rnet.Network.Loop
import Rnet.Network.LoopQueue
import Rnet.Network.LoopQuit
import Rnet.Network.LoopThread
import Rnet.Network.Connector
import Rnet.Network.ConnectorSteps
import Rnet.Network.ConnectorAttempt
import Rnet.Network.ConnectorSockets
import Rnet.Network.ConnectorBackoff
import Rnet.Network.ConnectionRegistry
import Rnet.Network.RegistryConsistency
import Rnet.Network.LoopThreadPool
import Rnet.Http.SplitStringView
import Rnet.Http.HttpParser
import Rnet.Http.ParserTotality
import Rnet.Http.Segmentation
import Rnet.Http.HttpResponse
import Rnet.Http.RequestHead
import Rnet.Http.HttpConnection

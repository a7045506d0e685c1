import Zperf.Base.Machine
import Zperf.Base.Wire
import Zperf.Base.Wrap
import Zperf.Base.NumberText
import Zperf.Base.Smoothing
import Zperf.Base.Switchboard
import Zperf.Base.Lease
import Zperf.Base.Deadline
import Zperf.Base.SlotTable
import Zperf.Base.SessionBook
import Zperf.Base.SequenceCount
import Zperf.Base.Rounding
import Zperf.Base.TextMemory
import Zperf.Base.ByteFields
import Zperf.Base.Exchange
import Zperf.Base.Progress
import Zperf.Core.Kernel
import Zperf.Core.Session
import Zperf.Core.UdpReceiver
import Zperf.Core.UdpUploader
import Zperf.Core.UdpTest
import Zperf.Core.TcpUploader
import Zperf.Core.TcpReceiver
import Zperf.Core.ServerSession
import Zperf.Core.UdpServer
import Zperf.Core.TcpServer
import Zperf.Core.ServerControl
import Zperf.Core.WorkQueue
import Zperf.Core.AsyncUpload
import Zperf.Core.UploadSocket
import Zperf.Core.Shell
import Zperf.Core.NetIp
import Zperf.Core.ShellDownload
import Zperf.Properties.SessionTable
import Zperf.Properties.UdpSlot
import Zperf.Properties.UdpSession
import Zperf.Properties.SessionIsolation
import Zperf.Properties.PacketSizeDivision
import Zperf.Properties.LossCounters
import Zperf.Properties.StatsReplies
import Zperf.Properties.CallbackBalance
import Zperf.Properties.SinglePeer
import Zperf.Properties.EndExchange
import Zperf.Properties.StatsBlock
import Zperf.Properties.Timestamps
import Zperf.Properties.LosslessUpload
import Zperf.Properties.TcpSession
import Zperf.Properties.TcpConnections
import Zperf.Properties.TcpReport
import Zperf.Properties.TcpDuration
import Zperf.Properties.SocketOwnership
import Zperf.Properties.StartStop
import Zperf.Properties.ServerRestart
import Zperf.Properties.PendingFlag
import Zperf.Properties.AsyncContext
import Zperf.Properties.AsyncAnswers
import Zperf.Properties.PacedUpload
import Zperf.Properties.PacingDelay
import Zperf.Properties.PacketInterval
import Zperf.Properties.UploadDuration
import Zperf.Properties.FinReply
import Zperf.Properties.TcpAccounting
import Zperf.Properties.TcpSendFailures
import Zperf.Properties.UploadSockets
import Zperf.Properties.UploadOptions
import Zperf.Properties.UploadTarget
import Zperf.Properties.UploadNumbers
import Zperf.Properties.PrintedNumbers
import Zperf.Properties.HostText
import Zperf.Properties.HostBuffers
import Zperf.Properties.HostGrammar
import Zperf.Properties.HostForms
import Zperf.Properties.BindAddress
import Zperf.Properties.BoundAddress
import Zperf.Properties.Jitter
import Zperf.Properties.ClockOffset
import Zperf.Properties.TickRounding
import Zperf.Properties.TestClient
import Zperf.Properties.TestServer
import Zperf.Properties.TestCounts
import Zperf.Properties.TestAgreement
import Zperf.Properties.StopProgress
import Zperf.Properties.ServerSockets
import Zperf.Properties.TableLock
import Zperf.Properties.TcpTestTotals
import Zperf.Properties.UploadSchedule
import Zperf.Core.ShellReport
import Zperf.Properties.ShownRate

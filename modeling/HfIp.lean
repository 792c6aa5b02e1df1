import HfIp.Lib.Run
import HfIp.Lib.OnesComplement
import HfIp.Lib.Reassembly
import HfIp.Timer
import HfIp.Skbuff
import HfIp.Sock
import HfIp.Tcp
import HfIp.TcpOutput
import HfIp.TcpData
import HfIp.TcpInput
import HfIp.Socket
import HfIp.Effects
import HfIp.TimerContract
import HfIp.TimerOps
import HfIp.TimerFrame
import HfIp.SocketEvents
import HfIp.RecvFrame
import HfIp.SendFrame
import HfIp.StateFrame
import HfIp.SendQueue
import HfIp.SendStream
import HfIp.SendSteps
import HfIp.SendEvents
import HfIp.FinQueue
import HfIp.StreamIntegrity
import HfIp.FinAcked
import HfIp.ReceiverIntegrity
import HfIp.SendTimer
import HfIp.NoStranding
import HfIp.AckFrame
import HfIp.AckPending
import HfIp.AckCoverage
import HfIp.Utils
import HfIp.Reassembly
import HfIp.StateMachine
import HfIp.PassiveClose
import HfIp.SegmentRule
import HfIp.CloseOnce
import HfIp.ReadFrame
import HfIp.ReadRule
import HfIp.Receive
import HfIp.Reader
import HfIp.PollRead
import HfIp.EndOfFile
import HfIp.Sleepers
import HfIp.TimerFields
import HfIp.DyingTimers
import HfIp.Lib.FirstMatch
import HfIp.Sockets
import HfIp.Lib.Tiling
import HfIp.Numbering
import HfIp.SequenceOrder
import HfIp.Bookkeeping
import HfIp.Lib.Exchange
import HfIp.SimultaneousOpen
import HfIp.IpOutput
import HfIp.OutgoingChecksum
import HfIp.Frames
import HfIp.ReceivedFrames
import HfIp.Lib.Learning
import HfIp.Lib.Buffer
import HfIp.SkBytes
import HfIp.Arp
import HfIp.ArpExchange
import HfIp.Lib.Calls
import HfIp.Libhfip
import HfIp.IpcWrite
import HfIp.Lib.Scatter
import HfIp.IpcPoll
import HfIp.PollMerge
import HfIp.TcpBytes
import HfIp.RoundTrip
import HfIp.AckVolley
import HfIp.TimeWait
import HfIp.RttFrame
import HfIp.Backoff
import HfIp.BackoffEvents
import HfIp.Estimator
import HfIp.TimerUse
import HfIp.RttElapsed
import HfIp.KarnsRule
import HfIp.RttBounds
import HfIp.ParseOpts
import HfIp.OpenAttempt
import HfIp.Receipt
import HfIp.SegmentArrives
import HfIp.FinOutOfOrder
import HfIp.OfoQueue
import HfIp.Lib.Intervals
import HfIp.Sacks
import HfIp.SackGeneration
import HfIp.Lib.Ring
import HfIp.SkbQueue
import HfIp.Checksum
import HfIp.IcmpEcho
import HfIp.LockBalance
import HfIp.ConnectRefused
import HfIp.QueueRule
import HfIp.Segmentation
import HfIp.EverySecond
import HfIp.RetransmitTimer
import HfIp.BufferLedger
import HfIp.BufferFate
import HfIp.SocketRuns
import HfIp.GiveUp
import HfIp.Stack
import HfIp.Lib.Remote
import HfIp.IpcCalls
import HfIp.CallerView
import HfIp.Interposition
import HfIp.ProgramStreams
import HfIp.StateDiagram

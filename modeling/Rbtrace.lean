import Rbtrace.Lib.Machine
import Rbtrace.Lib.CInt
import Rbtrace.Lib.Bytes
import Rbtrace.Lib.Window
import Rbtrace.Lib.DoubleBuffer
import Rbtrace.Lib.Pool
import Rbtrace.Lib.Tiling
import Rbtrace.Lib.Tokens
import Rbtrace.Lib.StreamLoop
import Rbtrace.Lib.Simulation
import Rbtrace.Lib.Getopt
import Rbtrace.Lib.Census
import Rbtrace.Entry
import Rbtrace.Fheader
import Rbtrace.Ring
import Rbtrace.RingSpec
import Rbtrace.Backing
import Rbtrace.Prbt
import Rbtrace.ReadBack
import Rbtrace.Summary
import Rbtrace.System
import Rbtrace.Control
import Rbtrace.Writer
import Rbtrace.SafePwrite
import Rbtrace.FailedWrite
import Rbtrace.Session
import Rbtrace.Wrap
import Rbtrace.Passes
import Rbtrace.Oblivious
import Rbtrace.Prior
import Rbtrace.WrapClose
import Rbtrace.Daemon
import Rbtrace.Flow
import Rbtrace.Interleave
import Rbtrace.ControlState
import Rbtrace.Ledger
import Rbtrace.Conservation
import Rbtrace.Accounting
import Rbtrace.CloseComplete
import Rbtrace.Caller
import Rbtrace.Client
import Rbtrace.Concurrent
import Rbtrace.Swap
import Rbtrace.Retired
import Rbtrace.Wedge
import Rbtrace.Handout
import Rbtrace.Reconfigure
import Rbtrace.Handover
import Rbtrace.ZapName
import Rbtrace.Zap
import Rbtrace.LossReports
import Rbtrace.Course
import Rbtrace.Serial
import Rbtrace.HeaderParse
import Rbtrace.HeaderRoundTrip
import Rbtrace.PageLoops
import Rbtrace.Damaged
import Rbtrace.Truncated
import Rbtrace.ReadError
import Rbtrace.Layout
import Rbtrace.Rings
import Rbtrace.FileSize
import Rbtrace.Encoding
import Rbtrace.Print
import Rbtrace.Linear
import Rbtrace.Lockout
import Rbtrace.Levels
import Rbtrace.Lines
import Rbtrace.Rbtraced
import Rbtrace.PidFile
import Rbtrace.Attach
import Rbtrace.Bench
import Rbtrace.BenchRun
import Rbtrace.BenchEnd
import Rbtrace.Rbt
import Rbtrace.RbtRun
import Rbtrace.Settings
import Rbtrace.Round
import Rbtrace.Killed
import Rbtrace.Paced

import EmeraldDb.Lib.Memory
import EmeraldDb.Lib.MultiMap
import EmeraldDb.Lib.Transition
import EmeraldDb.Lib.Loop
import EmeraldDb.Core
import EmeraldDb.Bson.Element
import EmeraldDb.Bson.Object
import EmeraldDb.Ixm.Bucket
import EmeraldDb.Ixm.Index
import EmeraldDb.Oss.MmapFile
import EmeraldDb.Dms.Page
import EmeraldDb.Dms.File
import EmeraldDb.Rtn.Rtn
import EmeraldDb.Bson.Document
import EmeraldDb.Dms.FileInvariant
import EmeraldDb.Dms.Load
import EmeraldDb.Dms.Placement
import EmeraldDb.Rtn.Agreement
import EmeraldDb.Rtn.Calls
import EmeraldDb.Rtn.Concurrent
import EmeraldDb.Rtn.Lookup
import EmeraldDb.Dms.Capacity
import EmeraldDb.Dms.Reopen
import EmeraldDb.Dms.Extend
import EmeraldDb.Dms.LatchBalance
import EmeraldDb.Oss.FileRead
import EmeraldDb.Oss.Interrupt
import EmeraldDb.Dms.ThreadRuns
import EmeraldDb.Ixm.Fifo
import EmeraldDb.Msg.Msg
import EmeraldDb.Msg.RoundTrip
import EmeraldDb.Pmd.Agent
import EmeraldDb.Pmd.Options
import EmeraldDb.Client.Reply
import EmeraldDb.Pmd.Insert
import EmeraldDb.Dms.Accounting
import EmeraldDb.Pmd.IdlePool
import EmeraldDb.Pmd.EduThread
import EmeraldDb.Pmd.HandOff
import EmeraldDb.Pmd.LatchBalance
import EmeraldDb.Pmd.Framing
import EmeraldDb.Rtn.Returns
import EmeraldDb.Rtn.SameRecord
import EmeraldDb.Pmd.Request
import EmeraldDb.Client.Session
import EmeraldDb.Client.Shell
import EmeraldDb.Pmd.OwnBytes
import EmeraldDb.Pmd.MultiInsert
import EmeraldDb.Client.Connection
import EmeraldDb.Rtn.Crash
import EmeraldDb.Oss.Queue
import EmeraldDb.Pmd.TcpListener
import EmeraldDb.Ixm.Latches
import EmeraldDb.Rtn.Deadlock

import IdaRs.Lib.Threads
import IdaRs.Lib.Infix
import IdaRs.Lib.FileTree
import IdaRs.Lib.Serde
import IdaRs.Lib.Calls
import IdaRs.Lib.Runs
import IdaRs.Lib.Gregorian
import IdaRs.Text
import IdaRs.Path
import IdaRs.Error
import IdaRs.Remote
import IdaRs.ChildErrors
import IdaRs.Lock
import IdaRs.LockInv
import IdaRs.Target
import IdaRs.Router
import IdaRs.RouterInv
import IdaRs.RouterTargets
import IdaRs.Identity
import IdaRs.Daemon
import IdaRs.DaemonInv
import IdaRs.Task
import IdaRs.TaskInv
import IdaRs.TaskLife
import IdaRs.TaskIsolation
import IdaRs.WorkerLoop
import IdaRs.CloseToken
import IdaRs.CloseTokenInv
import IdaRs.OpenCancel
import IdaRs.OpenCancelInv
import IdaRs.DscTask
import IdaRs.DscTaskInv
import IdaRs.DscTaskSettle
import IdaRs.Pool
import IdaRs.PoolStep
import IdaRs.PoolInv
import IdaRs.PoolMembers
import IdaRs.PoolOwners
import IdaRs.PoolLease
import IdaRs.PoolRetire
import IdaRs.PoolOpens
import IdaRs.PoolCapacity
import IdaRs.PoolReap
import IdaRs.Values
import IdaRs.Backend
import IdaRs.Requests
import IdaRs.Tools
import IdaRs.Pooled
import IdaRs.PooledArgs
import IdaRs.PooledAgree
import IdaRs.PooledReply
import IdaRs.Framing
import IdaRs.Connection
import IdaRs.PatchBytes
import IdaRs.SearchPages
import IdaRs.SchemaPlaces
import IdaRs.SessionGrace
import IdaRs.Sessions
import IdaRs.IdatOutput
import IdaRs.DscFiles
import IdaRs.IdaLoop
import IdaRs.IdaLoopInv
import IdaRs.Callgraph
import IdaRs.FindPaths
import IdaRs.FindBytes
import IdaRs.Listings
import IdaRs.Disasm
import IdaRs.Names
import IdaRs.Dispatch
import IdaRs.ToolRegistry
import IdaRs.ToolFilter
import IdaRs.CheckedPath
import IdaRs.HexCodecs
import IdaRs.IntConvert
import IdaRs.Calendar
import IdaRs.Spill
import IdaRs.Lib.Transducer
import IdaRs.Lib.PythonLexer
import IdaRs.DscScripts
import IdaRs.PathParts
import IdaRs.RequestLock
import IdaRs.FindInsns
import IdaRs.SearchBounds
import IdaRs.StructMembers
import IdaRs.Operations
import IdaRs.TargetManager
import IdaRs.IpAddr
import IdaRs.HttpAccess
import IdaRs.OpenConfirm
import IdaRs.CliCommand
import IdaRs.WorkerCall
import IdaRs.WorkerDispatch
import IdaRs.RegistryIsolation
import IdaRs.WorkerProcess
import IdaRs.WorkerProcessInv
import IdaRs.Foreground

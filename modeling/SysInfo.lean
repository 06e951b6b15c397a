import SysInfo.Lib.BaseZero
import SysInfo.Lib.CScan
import SysInfo.Lib.CString
import SysInfo.Lib.ExactFloat
import SysInfo.Lib.Failure
import SysInfo.Lib.FixedPoint
import SysInfo.Lib.FirstOccurrence
import SysInfo.Lib.IStream
import SysInfo.Lib.Ladder
import SysInfo.Lib.Path
import SysInfo.Lib.Selection
import SysInfo.Lib.Simulation
import SysInfo.Lib.Tally
import SysInfo.Host
import SysInfo.Storage.Stat
import SysInfo.Storage.DiskStats
import SysInfo.Storage.KernelFormat
import SysInfo.Storage.Malformed
import SysInfo.Storage.Reload
import SysInfo.Storage.Grammar
import SysInfo.Storage.Total
import SysInfo.Storage.Aggregate
import SysInfo.Storage.DeviceName
import SysInfo.Storage.Classification
import SysInfo.Storage.Identity
import SysInfo.Storage.Names
import SysInfo.Storage.Data
import SysInfo.Storage.Controller
import SysInfo.Storage.Action
import SysInfo.Storage.History
import SysInfo.Storage.Monitor
import SysInfo.Storage.Watched
import SysInfo.System.Stat
import SysInfo.System.CpuLine
import SysInfo.System.Sampling
import SysInfo.System.TypeNames
import SysInfo.Agent.DefaultStates
import SysInfo.Agent.LoadAverage
import SysInfo.Agent.MemoryUsage
import SysInfo.Agent.SwapUsage
import SysInfo.Agent.Lifetime
import SysInfo.System.Info
import SysInfo.Storage.Speed
import SysInfo.Storage.SpeedText

import Mastiff.Lib.Memory
import Mastiff.Lib.Machine
import Mastiff.Lib.Ring
import Mastiff.CircularBuffer
import Mastiff.Lib.Bytes
import Mastiff.ServoDriver
import Mastiff.ServoParser
import Mastiff.LidarFrames
import Mastiff.Lib.Reassembly
import Mastiff.LidarFan
import Mastiff.LidarDecode
import Mastiff.LidarParse
import Mastiff.LidarFraming
import Mastiff.Lib.Circle
import Mastiff.LidarScan
import Mastiff.LidarSent
import Mastiff.LidarUart
import Mastiff.InferMachine
import Mastiff.JobExecution
import Mastiff.CommandOutcome
import Mastiff.PublishedState
import Mastiff.BiznessClient
import Mastiff.JobControl
import Mastiff.DeviceBase
import Mastiff.CircularBufferOps
import Mastiff.Lib.Framing
import Mastiff.ParserBase
import Mastiff.ImuParser
import Mastiff.LineLaserParser
import Mastiff.LineLaserSync
import Mastiff.DbaseClient
import Mastiff.DriveData
import Mastiff.ModeConsistency
import Mastiff.Transactor
import Mastiff.UartDrive
import Mastiff.LidarInstant
import Mastiff.MessagePool
import Mastiff.LidarSlot
import Mastiff.Lib.ShellWords
import Mastiff.WiFiTool
import Mastiff.WiFiThread
import Mastiff.AudioAlsa
import Mastiff.ChassisCommand
import Mastiff.DbOperation
import Mastiff.Lib.SortedColumns
import Mastiff.WbsktServer
import Mastiff.NoDisturb
import Mastiff.MultiZones
import Mastiff.CircularBufferPrefix
import Mastiff.ServoReads
import Mastiff.ImuSync
import Mastiff.LineLaserPoints
import Mastiff.LidarFrameData
import Mastiff.LidarStartAngle
import Mastiff.LidarFanCells
import Mastiff.LidarFanOrder
import Mastiff.LidarChecksum
import Mastiff.DriveStart
import Mastiff.Lib.Slot
import Mastiff.AudioCtrl
import Mastiff.JoyStickData
import Mastiff.WbsktSend
import Mastiff.JoyStickParser
import Mastiff.CanReceive
import Mastiff.ServoPacker
import Mastiff.CanSend
import Mastiff.ServoRegisters
import Mastiff.LineLaserParams
import Mastiff.AudioPack
import Mastiff.DevParseLink
import Mastiff.BrainLifecycle
import Mastiff.UartOpen
import Mastiff.CanSocket
import Mastiff.RemoteParse
import Mastiff.DevTty
import Mastiff.KeySimulate
import Mastiff.DbRows
import Mastiff.VolatileItems
import Mastiff.SavedText
import Mastiff.VolatileInfo
import Mastiff.VolatileRestart
import Mastiff.Lib.Links
import Mastiff.TtyHandlers
import Mastiff.KeyDecoding
import Mastiff.Lib.Threads
import Mastiff.BoundedQueue
import Mastiff.ChannelBuffer
import Mastiff.AllLatest
import Mastiff.CRoutine
import Mastiff.Lib.Wheel
import Mastiff.TimingWheel
import Mastiff.OrderedMultiQueue
import Mastiff.ObjectPool
import Mastiff.Lib.SlidingMax
import Mastiff.Lib.Binary32
import Mastiff.Grid2D
import Mastiff.PrecomputationGrid
import Mastiff.Lib.BranchBound
import Mastiff.ScanMatcher
import Mastiff.ThreadPool
import Mastiff.TaskDependencies
import Mastiff.TaskExecution

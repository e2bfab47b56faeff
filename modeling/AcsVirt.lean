import AcsVirt.Core.LTS
import AcsVirt.Core.Prog
import AcsVirt.Core.Duplex
import AcsVirt.Core.Mem
import AcsVirt.Core.Spans
import AcsVirt.Core.Chase
import AcsVirt.Core.CString
import AcsVirt.Core.Transfer
import AcsVirt.Core.Pipe
import AcsVirt.L1Encoding.Endian
import AcsVirt.L1Encoding.AxiMsg
import AcsVirt.L2Machine.Fabric
import AcsVirt.L2Machine.Ram
import AcsVirt.L2Machine.Virtio
import AcsVirt.L2Machine.DescChain
import AcsVirt.L2Machine.VirtioMmio
import AcsVirt.L2Machine.AxiMmio
import AcsVirt.L2Machine.AxiPool
import AcsVirt.L2Machine.LinuxUio
import AcsVirt.L2Machine.LinuxDevmem
import AcsVirt.L2Machine.UioScan
import AcsVirt.L2Machine.UioSteps
import AcsVirt.L2Machine.QueueWords
import AcsVirt.L2Machine.RegisterFile
import AcsVirt.L2Machine.QemuSocket
import AcsVirt.L2Machine.AxiSocket
import AcsVirt.L2Machine.DmaAperture
import AcsVirt.L2Machine.UioEndpoint
import AcsVirt.L2Machine.FileIo
import AcsVirt.L3Protocol.Virtqueue
import AcsVirt.L3Protocol.PoolInv
import AcsVirt.L3Protocol.PoolMem
import AcsVirt.L3Protocol.Bounce
import AcsVirt.L3Protocol.PartialSync
import AcsVirt.L3Protocol.PoolLife
import AcsVirt.L3Protocol.Lockstep
import AcsVirt.L3Protocol.Framing
import AcsVirt.L4Device.Binding
import AcsVirt.L4Device.Blkd
import AcsVirt.L4Device.Consoled
import AcsVirt.L4Device.Calls
import AcsVirt.L4Device.Connection
import AcsVirt.L4Device.IrqLine
import AcsVirt.L4Device.QueueSize
import AcsVirt.L4Device.BlkRequest
import AcsVirt.L4Device.InOrder
import AcsVirt.L4Device.Mirror
import AcsVirt.L4Device.Kick
import AcsVirt.L4Device.Barrier
import AcsVirt.L4Device.QueueKicks
import AcsVirt.L4Device.Handoff
import AcsVirt.L4Device.Completion
import AcsVirt.L4Device.Wake
import AcsVirt.L4Device.Batching
import AcsVirt.L4Device.Startup
import AcsVirt.L4Device.Converge
import AcsVirt.L4Device.Reset
import AcsVirt.L4Device.ConfigSpace
import AcsVirt.L4Device.ChainLog
import AcsVirt.L4Device.TxWalk
import AcsVirt.L4Device.ChainEffects
import AcsVirt.L4Device.ImageSpan
import AcsVirt.L4Device.GuestBytes
import AcsVirt.L4Device.DirectRead
import AcsVirt.L4Device.ConfigArg
import AcsVirt.L4Device.TxLength
import AcsVirt.L4Device.ImageIntegrity
import AcsVirt.L4Device.ServiceRun
import AcsVirt.L4Device.PublishLast
import AcsVirt.L4Device.IoBuf
import AcsVirt.L4Device.TxStream
import AcsVirt.Core.Line
import AcsVirt.Core.Redial
import AcsVirt.L2Machine.SocketLine
import AcsVirt.L3Protocol.Reconnect
import AcsVirt.L4Device.SeqDisk
import AcsVirt.L4Device.DiskOrder
import AcsVirt.L2Machine.ChipletsUio
import AcsVirt.L4Device.Doorbell
import AcsVirt.L4Device.KickRuns
import AcsVirt.L4Device.PooledDisk

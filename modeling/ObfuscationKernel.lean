import ObfuscationKernel.Net.Stream
import ObfuscationKernel.Net.LongRun
import ObfuscationKernel.Sched.Exclusive
import ObfuscationKernel.Memory.Bootstrap
import ObfuscationKernel.Memory.PhysicalMapCapacity
import ObfuscationKernel.User.PagePoolLifetime
import ObfuscationKernel.Net.AcceptQueue
import ObfuscationKernel.Net.NeighbourSafe
import ObfuscationKernel.Net.CodecTransport
import ObfuscationKernel.Net.AddressLifecycle
import ObfuscationKernel.Net.Route
import ObfuscationKernel.Fs.Jbd2Replay
import ObfuscationKernel.Fs.VfsConfine
import ObfuscationKernel.Fs.VfsClients
import ObfuscationKernel.Block.SessionsConfine
import ObfuscationKernel.Posix.FileSpec
import ObfuscationKernel.Sched.Elf
import ObfuscationKernel.Sched.Sessions
import ObfuscationKernel.Sched.PendingSignals
import ObfuscationKernel.Sched.WaitQueue
import ObfuscationKernel.User.RobustFutex
import ObfuscationKernel.Fs.Ext4Times
import ObfuscationKernel.Time.Clock
import ObfuscationKernel.Time.Latency
import ObfuscationKernel.Time.IntervalTimer

import Audioipc.Lts
import Audioipc.LittleEndian
import Audioipc.Basic
import Audioipc.Codec
import Audioipc.Framing
import Audioipc.Sys
import Audioipc.UnixPipe
import Audioipc.Driver
import Audioipc.Lane
import Audioipc.Connection
import Audioipc.Effects
import Audioipc.Link
import Audioipc.HandlePairing
import Audioipc.Rpc
import Audioipc.Teardown
import Audioipc.Liveness
import Audioipc.Release
import Audioipc.Agreement
import Audioipc.EventLoop
import Audioipc.Wakes
import Audioipc.Slab
import Audioipc.Messages
import Audioipc.Devices
import Audioipc.Shm
import Audioipc.Callbacks
import Audioipc.Params
import Audioipc.Server
import Audioipc.Lifecycle
import Audioipc.ServerPanics
import Audioipc.QueueCounts
import Audioipc.HandleQueues
import Audioipc.Handshake
import Audioipc.DataCallback
import Audioipc.ClientStream
import Audioipc.CallbackSafety
import Audioipc.Sizing
import Audioipc.Registration
import Audioipc.Subscriptions
import Audioipc.Notifications
import Audioipc.Interest
import Audioipc.SharedLoop
import Audioipc.SharedSteps
import Audioipc.Barrier
import Audioipc.ProxyDrop
import Audioipc.Requests
import Audioipc.StreamTokens
import Audioipc.StreamRequests
import Audioipc.StreamSlots
import Audioipc.TokenSafety
import Audioipc.Completion
import Audioipc.Allocate
import Audioipc.DeviceIds
import Audioipc.ControlBounds
import Audioipc.History
import Audioipc.DeviceBarrier
import Audioipc.DeviceGuards
import Audioipc.StreamBarrier
import Audioipc.LoopFailures
import Audioipc.FailedBinds
import Audioipc.ShutdownSignal
import Audioipc.Readiness
import Audioipc.PolledLoop
import Audioipc.Seats
import Audioipc.Attention
import Audioipc.Progress
import Audioipc.Measure
import Audioipc.Termination
import Audioipc.Simulation
import Audioipc.AtomicRpc
import Audioipc.RequestQueue
import Audioipc.StreamDrop
import Audioipc.Backend
import Audioipc.RemoteHandles
import Audioipc.Cmsg
import Audioipc.Heap
import Audioipc.DeviceStrings

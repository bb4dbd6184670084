import Togpu.Lib.Run
import Togpu.Lib.Window
import Togpu.Lib.Table
import Togpu.Lib.Seek
import Togpu.Lib.Weighted
import Togpu.Lib.Bytes
import Togpu.Lib.Stream
import Togpu.Lib.Sweep
import Togpu.Lib.CallPlan
import Togpu.Lib.KeyAlternating
import Togpu.Lib.Gf256
import Togpu.Lib.Fips197
import Togpu.Lib.Blocks
import Togpu.Lib.OrWord
import Togpu.Lib.Numbering
import Togpu.Lib.Fallible
import Togpu.Lib.Staged
import Togpu.Driver.Types
import Togpu.Driver.Hooks
import Togpu.Driver.Ioctl
import Togpu.Driver.System
import Togpu.Pool.Membership
import Togpu.Pool.Slots
import Togpu.Pool.RoundTrip
import Togpu.Pool.NativeResult
import Togpu.Pool.Search
import Togpu.Pool.Concurrent
import Togpu.Pool.Footprint
import Togpu.Pool.Sharing
import Togpu.Pool.SharedInfo
import Togpu.Pool.OffsetLayout
import Togpu.Pool.Remap
import Togpu.Mapping.Running
import Togpu.Mapping.Lifetime
import Togpu.Mapping.Balance
import Togpu.Mapping.PageWalk
import Togpu.Mapping.Walker
import Togpu.Mapping.Views
import Togpu.Mapping.PageList
import Togpu.Mapping.Unaligned
import Togpu.Mapping.Collect
import Togpu.Mapping.Atomicity
import Togpu.Mapping.Backing
import Togpu.Mailbox.Layout
import Togpu.Mailbox.Protocol
import Togpu.Mailbox.Senders
import Togpu.Mailbox.Completion
import Togpu.Mailbox.Cells
import Togpu.Device.Open
import Togpu.Device.Profiling
import Togpu.Insn.Inat
import Togpu.Insn.Decode
import Togpu.Insn.Locality
import Togpu.Insn.Target
import Togpu.Insn.Offset
import Togpu.Insn.Lazy
import Togpu.Insn.OpcodeMap
import Togpu.Insn.AttrWord
import Togpu.Insn.MapMeaning
import Togpu.Insn.MapTables
import Togpu.Insn.MapLookup
import Togpu.Insn.MapFollow
import Togpu.Hook.SymbolHook
import Togpu.Hook.Extent
import Togpu.Hook.AddressLookup
import Togpu.Hook.CopyLoop
import Togpu.Hook.Relocation
import Togpu.Hook.HookSpec
import Togpu.Hook.Complete
import Togpu.Hook.Fits
import Togpu.Hook.Outcome
import Togpu.Hook.Protection
import Togpu.Hook.Restore
import Togpu.Hook.EntryPoint
import Togpu.Hook.Load
import Togpu.Iptables.Extension
import Togpu.Launcher.Main
import Togpu.Launcher.Runs
import Togpu.Gpu.Tables
import Togpu.Gpu.Kernels
import Togpu.Gpu.Rounds
import Togpu.Gpu.Memory
import Togpu.Gpu.Modes
import Togpu.Gpu.Lanes
import Togpu.Gpu.Counter
import Togpu.Gpu.CounterMode
import Togpu.Gpu.Launch
import Togpu.Gpu.Isolation
import Togpu.Insn.Fields

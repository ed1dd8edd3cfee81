import FluaLibs.Transition
import FluaLibs.LuaState
import FluaLibs.CopyValues
import FluaLibs.Metering
import FluaLibs.CopyCapacity
import FluaLibs.LuaTables
import FluaLibs.PackedArguments
import FluaLibs.CleanupHandlers
import FluaLibs.Matchmaker
import FluaLibs.Rendezvous
import FluaLibs.RendezvousSafety
import FluaLibs.RendezvousOutcomes
import FluaLibs.RefCount
import FluaLibs.SharedObjects
import FluaLibs.ThreadLifecycle
import FluaLibs.ThreadResults
import FluaLibs.OnceControl
import FluaLibs.AioControlBlock
import FluaLibs.AioReferences
import FluaLibs.AioPointers
import FluaLibs.AioTransitions
import FluaLibs.AioRequests
import FluaLibs.AioInFlight
import FluaLibs.AioBuffers
import FluaLibs.AioListio
import FluaLibs.OrderedCones
import FluaLibs.SysctlIteration
import FluaLibs.CasperSysctl
import FluaLibs.InterfaceFlags
import FluaLibs.EnvRebinding
import FluaLibs.Forest
import FluaLibs.InterfaceAddresses
import FluaLibs.NvBorrowing
import FluaLibs.NvpairOwnership
import FluaLibs.Ownership
import FluaLibs.ZfsHandles
import FluaLibs.ZfsOwnership
import FluaLibs.ZfsNvlists
import FluaLibs.ZfsLifetime
import FluaLibs.ZfsCallbacks
import FluaLibs.StackCapacity
import FluaLibs.FixedWidth
import FluaLibs.SysctlValues
import FluaLibs.ResourceTrace
import FluaLibs.ThreadCreation
import FluaLibs.NvIteration
import FluaLibs.NvArrays
import FluaLibs.NvElements
import FluaLibs.Binary64
import FluaLibs.LuaNumbers
import FluaLibs.NvNumberArrays
import FluaLibs.NvpairValues
import FluaLibs.NvpairIteration
import FluaLibs.NvpairRoundTrips
import FluaLibs.ByteStores
import FluaLibs.ExtattrLists
import FluaLibs.ExtattrReads
import FluaLibs.SocketAddresses
import FluaLibs.SourceFilters
import FluaLibs.ProcessGroups
import FluaLibs.ConfigurationStrings
import FluaLibs.IoctlLimits
import FluaLibs.KeventChanges
import FluaLibs.ZfsProperties
import FluaLibs.InterfaceFolds
import FluaLibs.InterfaceLists
import FluaLibs.Base64Text
import FluaLibs.Base64
import FluaLibs.MachineWords
import FluaLibs.SctpAddresses
import FluaLibs.SctpReceiveInfo
import FluaLibs.SignalEvents
import FluaLibs.InotifyEvents
import FluaLibs.RoutingHeaders
import FluaLibs.RoutingHeaderReads
import FluaLibs.RoutingHeaderRoundTrips
import FluaLibs.SctpBuffers
import FluaLibs.GroupEnumeration
import FluaLibs.MessageQueues
import FluaLibs.DpvConfiguration
import FluaLibs.BitWords
import FluaLibs.CpuSets
import FluaLibs.VectoredReads
import FluaLibs.NvlistTables
import FluaLibs.CasperChannels
import FluaLibs.BoundedRuns
import FluaLibs.RendezvousProgress
import FluaLibs.ClosableHandles
import FluaLibs.HandleFamilies
import FluaLibs.Ipv6Options
import FluaLibs.DialogFields
import FluaLibs.DialogConfigurations
import FluaLibs.HeldMemory
import FluaLibs.DpvFiles
import FluaLibs.DpvActions
import FluaLibs.CountedReads
import FluaLibs.DialogItems
import FluaLibs.DialogItemReads
import FluaLibs.ListArguments
import FluaLibs.ListArgumentRuns
import FluaLibs.References
import FluaLibs.AclHandles
import FluaLibs.AclLifetimes
import FluaLibs.SfpDumps
import FluaLibs.RecordTables
import FluaLibs.RecordFormats
import FluaLibs.ArgumentVectorRuns
import FluaLibs.SendfileVectorRuns
import FluaLibs.AccountLookups
import FluaLibs.MessageDelivery
import FluaLibs.CapabilityRights

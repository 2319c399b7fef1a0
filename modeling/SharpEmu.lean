import SharpEmu.AgcCommandWindowRuns
import SharpEmu.AgcLabelSignalRuns
import SharpEmu.AgcQueueLedgers
import SharpEmu.AmprCommandBufferRuns
import SharpEmu.CommittedRangeRuns
import SharpEmu.ComputeDispatchThreads
import SharpEmu.ComputeDispatches
import SharpEmu.DataShareBackends
import SharpEmu.DebuggerSessionRuns
import SharpEmu.DirectMemoryReleases
import SharpEmu.DirectMemorySpans
import SharpEmu.DppResults
import SharpEmu.ExtractBlendPatches
import SharpEmu.FiberErrorRuns
import SharpEmu.Gen5BlockDispatcherRuns
import SharpEmu.GnmTilingDetile
import SharpEmu.GpuWaitRegistryAccounts
import SharpEmu.GuestAllocationAlignment
import SharpEmu.GuestDataPool
import SharpEmu.GuestImageSync
import SharpEmu.GuestImageWriteProtection
import SharpEmu.GuestPathReadOnly
import SharpEmu.GuestStringReaders
import SharpEmu.HalfPrecision
import SharpEmu.IllegalInstructions
import SharpEmu.ImageMipLevels
import SharpEmu.KernelEventFlagRuns
import SharpEmu.KernelEventQueueRuns
import SharpEmu.KernelPathCacheRuns
import SharpEmu.KernelSemaphoreRuns
import SharpEmu.MappedRegionRanges
import SharpEmu.PackedExports
import SharpEmu.PhysicalVirtualMemoryProtections
import SharpEmu.PngRoundTrips
import SharpEmu.PresentRuns
import SharpEmu.PrintfArgumentAgreement
import SharpEmu.PthreadAttributeRuns
import SharpEmu.PthreadObjectRuns
import SharpEmu.ReleasedVirtualRanges
import SharpEmu.RtcCalendarAdditions
import SharpEmu.RtcDosTimes
import SharpEmu.RtcRoundTrips
import SharpEmu.SaveDataStorage
import SharpEmu.ScalarExecCopies
import SharpEmu.Scissors
import SharpEmu.SelfLoaderAgreement
import SharpEmu.SelfLoaderPlacement
import SharpEmu.ShRegisterLastValues
import SharpEmu.SnprintfTransparency
import SharpEmu.SpirvModuleRuns
import SharpEmu.SubdwordAccesses
import SharpEmu.SubmittedDrawBounds
import SharpEmu.TlsTemplates
import SharpEmu.VectorIntegerResults
import SharpEmu.VertexInputCaptures
import SharpEmu.VulkanGuestWorkOrder
import SharpEmu.VulkanPresentations

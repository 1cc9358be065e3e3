import EdvrPatch.Oculus.ProfileExact
import EdvrPatch.OpenXr.FrameTokens
import EdvrPatch.Installer.ApplyRollback
import EdvrPatch.Ini.ConfigReader
import EdvrPatch.Installer.PlanConfined
import EdvrPatch.Gpu.ClockTokens
import EdvrPatch.Journal.Slices
import EdvrPatch.Velocity.LiveRecords
import EdvrPatch.PropGate.SkipUnchanged
import EdvrPatch.Cull.NudgeLimit
import EdvrPatch.Timing.OneCompletion
import EdvrPatch.Gpu.TokenOrder
import EdvrPatch.Boundary.LeaseSafety
import EdvrPatch.Gpu.DevicePublished
import EdvrPatch.Benchmark.EvenFeeds
import EdvrPatch.Benchmark.ReportOrder
import EdvrPatch.Gpu.FramePairs
import EdvrPatch.HeadOffset.CountedView
import EdvrPatch.OpenXr.LifecycleSerial
import EdvrPatch.OpenXr.WorkQueueRuns
import EdvrPatch.OpenXr.OwnerServiceOnce
import EdvrPatch.OpenXr.DispatcherRuns
import EdvrPatch.Headset.MapLaw
import EdvrPatch.Lod.PaceRuns
import EdvrPatch.OpenXr.Drain
import EdvrPatch.OpenXr.PublishedReads
import EdvrPatch.Gpu.SpanResults
import EdvrPatch.Ini.Renames
import EdvrPatch.Dxbc.SharedSlot
import EdvrPatch.Installer.NativeConfig
import EdvrPatch.VTable.Stack
import EdvrPatch.Flash.OwnHistory
import EdvrPatch.OpenXr.ChangesOnce
import EdvrPatch.Hotkeys.OnePress
import EdvrPatch.OpenXr.OwnerBrackets
import EdvrPatch.OpenXr.SharedCapture
import EdvrPatch.Glitch.Shells
import EdvrPatch.Installer.StateRecord
import EdvrPatch.CodeHook.Trampoline
import EdvrPatch.Installer.PeInside
import EdvrPatch.Binds.OwnElement
import EdvrPatch.Installer.BundleReads
import EdvrPatch.Ui.LayerExact
import EdvrPatch.Ui.MenuKeys
import EdvrPatch.Ui.RouteSum
import EdvrPatch.NativeFrame.OneDecision
import EdvrPatch.InputGate.NeverStuck
import EdvrPatch.Timing.CompletionReads
import EdvrPatch.Timing.PerfLaw
import EdvrPatch.Timing.PresentComplete
import EdvrPatch.Flash.ViewCorrection
import EdvrPatch.Installer.LogNames
import EdvrPatch.Installer.SurveyTold

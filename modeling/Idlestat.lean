import Idlestat.Library.RunningStats
import Idlestat.Library.Timeline
import Idlestat.Library.TimeShares
import Idlestat.Model.Loaders
import Idlestat.Theory.TopologyCanonical
import Idlestat.Theory.CstateRecord
import Idlestat.Theory.Setup
import Idlestat.Theory.PstateRecord
import Idlestat.Theory.RecorderSteps
import Idlestat.Theory.CstateAccounting
import Idlestat.Theory.IdleAgreement
import Idlestat.Theory.PstateInvariant
import Idlestat.Theory.GroupFrequency
import Idlestat.Theory.PstateAccounting
import Idlestat.Theory.RedundantEvents
import Idlestat.Library.Scan
import Idlestat.Model.TraceLine
import Idlestat.Theory.TraceLineSafety
import Idlestat.Library.TextFile
import Idlestat.Library.LinkedList
import Idlestat.Model.TopologyFile
import Idlestat.Model.TopologyHeap
import Idlestat.Theory.TopologyRoundTrip
import Idlestat.Theory.GroupUpdate
import Idlestat.Library.Interleaving
import Idlestat.Theory.ClusterCommute
import Idlestat.Theory.Wakeups
import Idlestat.Model.Report
import Idlestat.Theory.ComparisonReport
import Idlestat.Theory.CstateComparison
import Idlestat.Model.CstateFile
import Idlestat.Theory.CstateRoundTrip
import Idlestat.Model.TraceFiles
import Idlestat.Model.StoreFile
import Idlestat.Theory.RecordMapping
import Idlestat.Theory.LoadedRecords
import Idlestat.Theory.LoadedTraces
import Idlestat.Library.ParallelWalk
import Idlestat.Model.Baseline
import Idlestat.Theory.BaselineMerge
import Idlestat.Theory.BaselinePairing
import Idlestat.Model.TopologyDump
import Idlestat.Theory.PstateComparison
import Idlestat.Theory.PstateReport
import Idlestat.Model.Trace
import Idlestat.Theory.TraceSettings
import Idlestat.Theory.BufferSize
import Idlestat.Model.EnergyModel
import Idlestat.Theory.EnergyTemplate
import Idlestat.Theory.PstateAlloc
import Idlestat.Theory.BaselineUnion
import Idlestat.Theory.IdleVerdict
import Idlestat.Theory.SoloGroup
import Idlestat.Library.ScanFields
import Idlestat.Theory.IpiReason
import Idlestat.Theory.EventLine
import Idlestat.Theory.FtraceHeader
import Idlestat.Theory.CstateSection
import Idlestat.Theory.TopologyNames
import Idlestat.Theory.EnergyOutline
import Idlestat.Theory.EnergyIndices
import Idlestat.Theory.EnergyComplete
import Idlestat.Theory.StoredTrace
import Idlestat.Theory.ImportFormats
import Idlestat.Theory.SleepShares
import Idlestat.Theory.TimeConservation
import Idlestat.Theory.HeapTopology
import Idlestat.Theory.HeapLookup
import Idlestat.Theory.HeapRelease
import Idlestat.Model.SysfsScan
import Idlestat.Theory.SysfsTopology
import Idlestat.Model.TracingRun
import Idlestat.Library.Decimal
import Idlestat.Library.DelimitedText
import Idlestat.Model.CsvReport
import Idlestat.Theory.CsvReport
import Idlestat.Theory.ReportedRuns
import Idlestat.Theory.TracingRuns

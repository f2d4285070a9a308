import Helm.Amio.CommSplit
import Helm.Amio.GribPacking
import Helm.Amio.GribRead
import Helm.Amio.ManifestSizes
import Helm.Amio.NetcdfDimensions
import Helm.Amio.PrefetchSequential
import Helm.Amio.RequestBounds
import Helm.Amio.WorkerAdmission
import Helm.Amio.WriteFlush
import Helm.Amio.WriteWait
import Helm.Amio.ZarrRead
import Helm.Axis.BilinearPaths
import Helm.Axis.BilinearPeriodic
import Helm.Axis.CornerSynthesis
import Helm.Axis.DatelineHandler
import Helm.Axis.EsmfWeightIo
import Helm.Axis.FortranBridge
import Helm.Axis.GradientLimits
import Helm.Axis.MeshFactory
import Helm.Axis.MortonSort
import Helm.Axis.NearestRect
import Helm.Axis.NodeTrigCache
import Helm.Axis.RectPeriodic
import Helm.Axis.UnmappedCoverage
import Helm.Axis.VectorRegridder
import Helm.Axis.VerticalColumns
import Helm.Axis.WeightCacheSafety
import Helm.Conf.PathResolution
import Helm.Dagr.BookendViews
import Helm.Dagr.CycleBound
import Helm.Dagr.DagValidation
import Helm.Dagr.FailureCascade
import Helm.Dagr.RankVectors
import Helm.Dagr.Reclamation
import Helm.Halo.Exchange
import Helm.Halo.FortranBridge
import Helm.Halo.GatherReplicated
import Helm.Halo.HaloHandle
import Helm.Halo.PackOrder
import Helm.Halo.SerializedGuard
import Helm.Halo.StructuredExchange
import Helm.Logs.Consolidation
import Helm.Span.HandleRegistry
import Helm.Span.TripleBuffer
import Helm.Tick.AliasingClimatology
import Helm.Tick.CApi
import Helm.Tick.CivilDays
import Helm.Tick.Iso8601
import Helm.Tick.MonthArithmetic
import Helm.Tick.Overflow
import Helm.Tick.Sync
import Helm.Amio.CoreTeardown

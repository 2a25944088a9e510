import SnapshotAnalytics.Main
import SnapshotAnalytics.Proofs.Cache.DerivedKeys
import SnapshotAnalytics.Proofs.Cache.ExpiringMap
import SnapshotAnalytics.Proofs.Cache.InFlight
import SnapshotAnalytics.Proofs.Cache.Repeats
import SnapshotAnalytics.Proofs.Cache.Sharing
import SnapshotAnalytics.Proofs.Cache.StoredResults
import SnapshotAnalytics.Proofs.Cache.Transparency
import SnapshotAnalytics.Proofs.Calendar.Periods
import SnapshotAnalytics.Proofs.CommandLine.Batches
import SnapshotAnalytics.Proofs.Engine.Defaults
import SnapshotAnalytics.Proofs.Engine.FetchLimit
import SnapshotAnalytics.Proofs.Engine.PeriodOrder
import SnapshotAnalytics.Proofs.Engine.Refusals
import SnapshotAnalytics.Proofs.Engine.Repeats
import SnapshotAnalytics.Proofs.Engine.RequestTexts
import SnapshotAnalytics.Proofs.Engine.Resolutions
import SnapshotAnalytics.Proofs.Engine.SemanticKeys
import SnapshotAnalytics.Proofs.Engine.StatementForms
import SnapshotAnalytics.Proofs.Engine.Statements
import SnapshotAnalytics.Proofs.Filter.Inlining
import SnapshotAnalytics.Proofs.Filter.Meaning
import SnapshotAnalytics.Proofs.Filter.Patterns
import SnapshotAnalytics.Proofs.Query.Records
import SnapshotAnalytics.Proofs.Report.AlignedSeries
import SnapshotAnalytics.Proofs.Report.HistoryTotals
import SnapshotAnalytics.Proofs.Report.MaturityProfiles
import SnapshotAnalytics.Proofs.Report.RowOrder
import SnapshotAnalytics.Proofs.Report.Shares
import SnapshotAnalytics.Proofs.Report.TopAndOthers
import SnapshotAnalytics.Proofs.Settings.ColumnKinds
import SnapshotAnalytics.Proofs.Table.StoredDates
import SnapshotAnalytics.Proofs.Warehouse.GuardedStatements
import SnapshotAnalytics.Proofs.Warehouse.RequestUrls
import SnapshotAnalytics.Proofs.Warehouse.RowLines

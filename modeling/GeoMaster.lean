import GeoMaster.Proofs.AttemptLedger
import GeoMaster.Proofs.WithdrawalAuthority
import GeoMaster.Proofs.OptimizerProjection
import GeoMaster.Proofs.PendingRoutes
import GeoMaster.Proofs.LoginQueueOrder
import GeoMaster.Proofs.ToolCalls
import GeoMaster.Proofs.KnowledgeIsolation
import GeoMaster.Proofs.UploadCommitments
import GeoMaster.Proofs.ParseLeases
import GeoMaster.Proofs.FixtureEvidence
import GeoMaster.Proofs.HistoricalReads
import GeoMaster.Proofs.QuestionSets
import GeoMaster.Proofs.RequestLinks
import GeoMaster.Proofs.ReportChains
import GeoMaster.Proofs.HeldOutSamples
import GeoMaster.Proofs.OwnEvidence
import GeoMaster.Proofs.SerpSettings
import GeoMaster.Proofs.ImportBatches
import GeoMaster.Proofs.ContentCoverage
import GeoMaster.Proofs.ProjectPages
import GeoMaster.Proofs.ObservedText
import GeoMaster.Proofs.BackfillScan
import GeoMaster.Proofs.CitationCounts
import GeoMaster.Proofs.SearchSamples
import GeoMaster.Proofs.SavedProofs
import GeoMaster.Proofs.HistorySelection
import GeoMaster.Proofs.TableTiling
import GeoMaster.Proofs.CsvGrammar
import GeoMaster.Proofs.DocumentPlans
import GeoMaster.Proofs.SheetColumns
import GeoMaster.Proofs.MediaParts
import GeoMaster.Proofs.TextLocators
import GeoMaster.Proofs.RichPayloads
import GeoMaster.Proofs.FrozenTasks

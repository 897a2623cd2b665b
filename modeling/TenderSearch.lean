import TenderSearch.Main
import TenderSearch.Proofs.Query.Meaning
import TenderSearch.Proofs.Report.Modes
import TenderSearch.Proofs.Tree.Flat
import TenderSearch.Proofs.Tree.InjectionRuns
import TenderSearch.Search.Preset
import TenderSearch.Tree.Recording
import TenderSearch.Proofs.Query.Country
import TenderSearch.Proofs.Tree.Endings
import TenderSearch.Proofs.Tree.InjectionEnds
import TenderSearch.Proofs.Catalog.Reading
import TenderSearch.Proofs.Catalog.TemplateAnswers
import TenderSearch.Proofs.Catalog.LaidFragments
import TenderSearch.Proofs.Catalog.InjectedAnswers
import TenderSearch.Proofs.Clause.Faults
import TenderSearch.Proofs.Search.FaultyClauses
import TenderSearch.Proofs.Aggregation.Marks
import TenderSearch.Proofs.Catalog.Partition
import TenderSearch.Proofs.Table.Ascending
import TenderSearch.Proofs.Tree.FlatAnswers
import TenderSearch.Proofs.Search.InjectedBodies
import TenderSearch.Proofs.Tree.QuietQueries
import TenderSearch.Proofs.Search.Parts
import TenderSearch.Proofs.Tree.KeptKeys
import TenderSearch.Proofs.Json.Recoding
import TenderSearch.Proofs.Clause.Recoding
import TenderSearch.Proofs.Aggregation.Recoding
import TenderSearch.Proofs.Settings.Recoding
import TenderSearch.Proofs.Search.Recoding
import TenderSearch.Proofs.Toml.Integers
import TenderSearch.Proofs.Toml.QuotedText
import TenderSearch.Proofs.Toml.WrittenLines
import TenderSearch.Proofs.Settings.SavedText
import TenderSearch.Proofs.Json.WellFormed
import TenderSearch.Proofs.Tree.SplicedLayers
import TenderSearch.Proofs.Tree.KeptLeaves
import TenderSearch.Proofs.Tree.FoundDocuments
import TenderSearch.Proofs.Tree.InjectionGrowth
import TenderSearch.Proofs.Tree.InjectionUndone
import TenderSearch.Proofs.ScopeList.Depth
import TenderSearch.Proofs.Search.Restriction
import TenderSearch.Proofs.Aggregation.Levels
import TenderSearch.Proofs.Aggregation.Scoping
import TenderSearch.Proofs.Aggregation.LikeNames
import TenderSearch.Proofs.Binary64.Magnitudes
import TenderSearch.Proofs.Binary64.Rounding
import TenderSearch.Proofs.Binary64.Decimals
import TenderSearch.Proofs.Text.Literals
import TenderSearch.Proofs.Text.Integers
import TenderSearch.Proofs.Clause.Bounds
import TenderSearch.Proofs.Clause.TextBounds
import TenderSearch.Proofs.Calendar.Years
import TenderSearch.Proofs.Clause.YearRanges
import TenderSearch.Proofs.Catalog.Selecting
import TenderSearch.Proofs.Catalog.FilterLayers
import TenderSearch.Proofs.Catalog.Regions
import TenderSearch.Proofs.Catalog.KeyedCounts
import TenderSearch.Proofs.Catalog.Sources
import TenderSearch.Proofs.Catalog.AwardYears
import TenderSearch.Proofs.Tree.RecordedWalks
import TenderSearch.Proofs.Catalog.CompactedAnswers

import ScanBridge.Record.Written
import ScanBridge.Session.Plan
import ScanBridge.Proofs.Exchanges
import ScanBridge.Proofs.Fate
import ScanBridge.Proofs.HeapAccounts
import ScanBridge.Proofs.Dealings
import ScanBridge.Proofs.DealingLaws
import ScanBridge.Proofs.Conduct
import ScanBridge.Proofs.Routed
import ScanBridge.Proofs.RunAccount
import ScanBridge.Proofs.Guests
import ScanBridge.Proofs.ScanResult
import ScanBridge.Proofs.EventClasses
import ScanBridge.Proofs.ScriptedRuns
import ScanBridge.Proofs.ScriptedScan
import ScanBridge.Proofs.ImportBuffers
import ScanBridge.Proofs.OutsideMemory
import ScanBridge.Proofs.Sessions
import ScanBridge.Proofs.Utf8
import ScanBridge.Proofs.RuleLayout
import ScanBridge.Proofs.TokenTable
import ScanBridge.Proofs.CollectedMatches
import ScanBridge.Proofs.ModuleData
import ScanBridge.Proofs.Closing
import ScanBridge.Proofs.JsonText
import ScanBridge.Proofs.WrittenRecords
import ScanBridge.Proofs.Agreement
import ScanBridge.Proofs.NestedScans
import ScanBridge.Proofs.AlikeRuns
import ScanBridge.Proofs.SideBySide
import ScanBridge.Proofs.FreshStart
import ScanBridge.Proofs.IdleEvents
import ScanBridge.Proofs.NestedFailures
import ScanBridge.Proofs.PlayedScripts
import ScanBridge.Proofs.TextOrder
import ScanBridge.Proofs.MetadataLookup
import ScanBridge.Proofs.ReadMatches
import ScanBridge.Proofs.FullWriter
import ScanBridge.Proofs.RecordedRuns
import ScanBridge.Proofs.ScriptFaults
import ScanBridge.Proofs.LossyText
import ScanBridge.Proofs.BuiltEvents
import ScanBridge.Proofs.JsonGrammar
import ScanBridge.Proofs.JsonSpelled
import ScanBridge.Proofs.MetaJson
import ScanBridge.Proofs.ScriptDocuments
import ScanBridge.Proofs.BufferCustody
import ScanBridge.Proofs.TrackedBuffers

import MessageConformance.Main
import MessageConformance.Message.Address
import MessageConformance.Text.Shortest
import MessageConformance.Proofs.Acceptance
import MessageConformance.Proofs.Batch.Independence
import MessageConformance.Proofs.Batch.Policy
import MessageConformance.Proofs.Cache.PathLists
import MessageConformance.Proofs.Cache.Reads
import MessageConformance.Proofs.Cache.Serving
import MessageConformance.Proofs.Engine.Diagnostics
import MessageConformance.Proofs.Files.Discovery
import MessageConformance.Proofs.Message.Values
import MessageConformance.Proofs.Receipt.BrokenRules
import MessageConformance.Proofs.Receipt.Isolation
import MessageConformance.Proofs.Report.Durations
import MessageConformance.Proofs.Schema.BreadthFirst
import MessageConformance.Proofs.Schema.Copying
import MessageConformance.Proofs.Schema.DeclaredEntities
import MessageConformance.Proofs.Schema.DriverReferences
import MessageConformance.Proofs.Schema.EscapedValues
import MessageConformance.Proofs.Schema.ReadingOrder
import MessageConformance.Proofs.Schema.SelfContained
import MessageConformance.Proofs.Settings.Interchange
import MessageConformance.Proofs.Store.Following

import DomainModel.Json.Printer
import DomainModel.Json.Record
import DomainModel.Document.Lookup
import DomainModel.Document.Scope
import DomainModel.Document.Decode
import DomainModel.Notification
import DomainModel.Validation
import DomainModel.Outline
import DomainModel.Session
import DomainModel.Settings
import DomainModel.Report
import DomainModel.SettingsFile
import DomainModel.CommandLine.FileTree
import DomainModel.CommandLine.Run
import DomainModel.Main
import DomainModel.Proofs.NodePath.Printed
import DomainModel.Proofs.Layout.Graph
import DomainModel.Proofs.Single.Packing
import DomainModel.Proofs.Single.Rounding
import DomainModel.Proofs.Layout.Rows
import DomainModel.Proofs.Session.History
import DomainModel.Proofs.Session.Finite
import DomainModel.Proofs.Document.Lookup
import DomainModel.Proofs.Layout.Inheritance
import DomainModel.Proofs.Processor.Run
import DomainModel.Proofs.Processor.Positions
import DomainModel.Proofs.Processor.Outcomes
import DomainModel.Proofs.Validation.Repeats
import DomainModel.Proofs.Validation.Occurrences
import DomainModel.Proofs.Validation.Scopes
import DomainModel.Proofs.Processor.Content
import DomainModel.Proofs.Processor.Reset
import DomainModel.Proofs.Validation.Errors
import DomainModel.Proofs.Validation.Traversal
import DomainModel.Proofs.Processor.Gate
import DomainModel.Proofs.Processor.Drops
import DomainModel.Proofs.Document.Agreement
import DomainModel.Proofs.Document.Written
import DomainModel.Proofs.Document.Shape
import DomainModel.Proofs.Document.Names
import DomainModel.Proofs.Outline.Nodes
import DomainModel.Proofs.Outline.Names
import DomainModel.Proofs.Outline.Inheritance
import DomainModel.Proofs.Outline.Paths
import DomainModel.Proofs.Outline.Grammar
import DomainModel.Proofs.Outline.Packages
import DomainModel.Proofs.Outline.Size
import DomainModel.Proofs.Processor.Names
import DomainModel.Proofs.Document.Paths
import DomainModel.Proofs.Document.Containment
import DomainModel.Proofs.Validation.Targets
import DomainModel.Proofs.Document.Order
import DomainModel.Proofs.Validation.Order
import DomainModel.Proofs.Document.Links
import DomainModel.Proofs.Document.Relinked
import DomainModel.Proofs.Validation.Revision
import DomainModel.Proofs.Validation.Links
import DomainModel.Proofs.Layout.WellFormed
import DomainModel.Proofs.Processor.Snapshots
import DomainModel.Proofs.Processor.Interleaving
import DomainModel.Proofs.Json.Printed
import DomainModel.Proofs.Notification.Reading
import DomainModel.Proofs.Notification.RoundTrip
import DomainModel.Proofs.Document.Buckets
import DomainModel.Proofs.Outline.Printed
import DomainModel.Proofs.Listing.Lines
import DomainModel.Proofs.Text.Place
import DomainModel.Proofs.Text.Offsets
import DomainModel.Proofs.Json.Placed
import DomainModel.Proofs.Report.Labels
import DomainModel.Proofs.CommandLine.Files
import DomainModel.Proofs.CommandLine.Rendering
import DomainModel.Proofs.CommandLine.Run
import DomainModel.Proofs.CommandLine.Precedence

import EntityScaffold.Main
import EntityScaffold.Web.Service
import EntityScaffold.Data.Json.Printer
import EntityScaffold.Jobs.Schedule
import EntityScaffold.Proofs.ForeignKeys
import EntityScaffold.Proofs.EntityMembers
import EntityScaffold.Proofs.OutputNames
import EntityScaffold.Proofs.Jobs.Supervision
import EntityScaffold.Proofs.Jobs.Agreement
import EntityScaffold.Proofs.Jobs.CleanUp
import EntityScaffold.Proofs.Jobs.Records
import EntityScaffold.Proofs.Jobs.Capacity
import EntityScaffold.Proofs.Jobs.Counts
import EntityScaffold.Proofs.Package.Isolation
import EntityScaffold.Proofs.Package.Writing
import EntityScaffold.Proofs.Package.Manifests
import EntityScaffold.Proofs.Package.StagedManifests
import EntityScaffold.Proofs.CommandLine.ExitCodes
import EntityScaffold.Proofs.CommandLine.Packaging
import EntityScaffold.Proofs.Insertion
import EntityScaffold.Proofs.Intake.RoundTrip
import EntityScaffold.Proofs.NamesInForm
import EntityScaffold.Proofs.ArtifactCounts
import EntityScaffold.Proofs.SoftDeletion
import EntityScaffold.Proofs.Intake.Assignments
import EntityScaffold.Proofs.Relationships
import EntityScaffold.Proofs.Styles
import EntityScaffold.Proofs.Registrations
import EntityScaffold.Proofs.Services
import EntityScaffold.Proofs.CommandLine.Refusals
import EntityScaffold.Proofs.Bounds
import EntityScaffold.Proofs.Literals
import EntityScaffold.Proofs.Patterns
import EntityScaffold.Proofs.Package.Reported
import EntityScaffold.Proofs.Separators
import EntityScaffold.Proofs.Jobs.Downloads

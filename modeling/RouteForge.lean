import RouteForge.Main
import RouteForge.Proofs.FileTree.Write
import RouteForge.Proofs.FileTree.Creation
import RouteForge.Proofs.Include.Resolution
import RouteForge.Proofs.Include.Graph
import RouteForge.Proofs.Include.Decoding
import RouteForge.Proofs.Watch.History
import RouteForge.Proofs.Watch.Detection
import RouteForge.Proofs.Watch.Interleaving
import RouteForge.Proofs.Build.Emission
import RouteForge.Proofs.Build.Stages
import RouteForge.Proofs.Watch.Freshness
import RouteForge.Proofs.Include.Termination
import RouteForge.Proofs.Include.Folding
import RouteForge.Proofs.Watch.Reporting
import RouteForge.Proofs.Route.Grammar
import RouteForge.Proofs.Path.Ancestors
import RouteForge.Proofs.Build.Confinement
import RouteForge.Proofs.Watch.Agreement
import RouteForge.Proofs.Include.Change
import RouteForge.Proofs.Build.Repetition
import RouteForge.Proofs.Document.RoundTrip
import RouteForge.Proofs.Yaml.Printable
import RouteForge.Proofs.Yaml.Rows
import RouteForge.Proofs.Build.Substitution
import RouteForge.Proofs.Include.Unfolding
import RouteForge.Proofs.RoutesModule.Registrations
import RouteForge.Proofs.Configuration.Shape
import RouteForge.Proofs.Configuration.Loading
import RouteForge.Proofs.Yaml.Nesting
import RouteForge.Proofs.Document.Nesting
import RouteForge.Proofs.Build.Printing
import RouteForge.Proofs.Document.Paths
import RouteForge.Proofs.Include.Interchange
import RouteForge.Proofs.Document.Acceptance
import RouteForge.Proofs.RoutesModule.Comments
import RouteForge.Proofs.Include.Discovery
import RouteForge.Proofs.Path.Canonical
import RouteForge.Proofs.Include.Root
import RouteForge.Proofs.Include.Directive
import RouteForge.Proofs.Document.Doubling
import RouteForge.Proofs.Include.Conversion
import RouteForge.Proofs.RoutesModule.Keys
import RouteForge.Proofs.Text.Octets
import RouteForge.Proofs.RoutesModule.Bindings
import RouteForge.Proofs.Include.Openings
import RouteForge.Proofs.Include.Scan

import ServiceContract.Main
import ServiceContract.Proofs.Tables
import ServiceContract.Proofs.Descriptors
import ServiceContract.Proofs.History
import ServiceContract.Proofs.Compiling
import ServiceContract.Proofs.Merging
import ServiceContract.Proofs.Reporting
import ServiceContract.Proofs.Building
import ServiceContract.Proofs.Membership
import ServiceContract.Proofs.Items
import ServiceContract.Proofs.Routing
import ServiceContract.Proofs.Pipeline
import ServiceContract.Proofs.Recompiling
import ServiceContract.Proofs.Counting
import ServiceContract.Proofs.Ownership
import ServiceContract.Proofs.Collisions
import ServiceContract.Proofs.References
import ServiceContract.Proofs.Contributions
import ServiceContract.Proofs.Naming
import ServiceContract.Proofs.Interleaving
import ServiceContract.Proofs.Stopping
import ServiceContract.Proofs.Policies
import ServiceContract.Proofs.Precedence
import ServiceContract.Proofs.DuplicateStatus
import ServiceContract.Proofs.JsonText
import ServiceContract.Proofs.RoundTrip
import ServiceContract.Proofs.Provenance
import ServiceContract.Proofs.Pruning
import ServiceContract.Proofs.Conservation
import ServiceContract.Proofs.Repetition
import ServiceContract.Proofs.StatusCodes
import ServiceContract.Proofs.FurtherSchemas
import ServiceContract.Proofs.Prolog
import ServiceContract.Proofs.Defaults
import ServiceContract.Proofs.OptionOrder
import ServiceContract.Proofs.WrittenJson
import ServiceContract.Proofs.Fuel
import ServiceContract.Proofs.Utf8
import ServiceContract.Proofs.Blanks
import ServiceContract.Proofs.Scalars
import ServiceContract.Proofs.FlowTokens
import ServiceContract.Proofs.FlowNodes
import ServiceContract.Proofs.SharedSettings

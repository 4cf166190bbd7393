import GovernorGateway.Properties.Ownership
import GovernorGateway.Properties.Containment
import GovernorGateway.Properties.Incidents
import GovernorGateway.Concurrency.Local
import GovernorGateway.Properties.Lineage
import GovernorGateway.Properties.Acyclic
import GovernorGateway.Properties.BackOff
import GovernorGateway.Properties.HashLinks
import GovernorGateway.Properties.Atomicity
import GovernorGateway.Properties.TrustAnchor
import GovernorGateway.Properties.Completion
import GovernorGateway.Properties.Finality
import GovernorGateway.Properties.RateLimit
import GovernorGateway.Properties.Rebuilt
import GovernorGateway.Properties.Traversals
import GovernorGateway.Properties.Audit
import GovernorGateway.Properties.Substitutes
import GovernorGateway.Properties.Hazards
import GovernorGateway.Concurrency.Backpressure
import GovernorGateway.Properties.Frontiers
import GovernorGateway.Properties.Reintegration
import GovernorGateway.Properties.FastPath
import GovernorGateway.Properties.Backends
import GovernorGateway.Properties.Digest
import GovernorGateway.Properties.Observation
import GovernorGateway.Properties.Carried
import GovernorGateway.Properties.Separation
import GovernorGateway.Properties.Coverage
import GovernorGateway.Properties.Rooted
import GovernorGateway.Properties.Offers
import GovernorGateway.Properties.Confluence
import GovernorGateway.Properties.Races
import GovernorGateway.Properties.Compactions
import GovernorGateway.Properties.Deadlock
import GovernorGateway.Properties.Report
import GovernorGateway.Properties.Gaps
import GovernorGateway.Properties.Pending
import GovernorGateway.Properties.HalfCommits
import GovernorGateway.Properties.Signatures
import GovernorGateway.Properties.Timestamps
import GovernorGateway.Properties.Unmoved
import GovernorGateway.Properties.Serializable
import GovernorGateway.Properties.Provenance
import GovernorGateway.Properties.Durable
import GovernorGateway.Properties.Explained
import GovernorGateway.Properties.HonestAdapter
import GovernorGateway.Concurrency.Drain
import GovernorGateway.Effects.Crash
import GovernorGateway.Properties.Crashes
import GovernorGateway.Json.Canonical
import GovernorGateway.Properties.Pinned
import GovernorGateway.Properties.ShadowBound
import GovernorGateway.Properties.Signals

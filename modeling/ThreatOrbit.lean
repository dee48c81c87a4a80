import ThreatOrbit.Ingest.Cef
import ThreatOrbit.Ingest.Syslog
import ThreatOrbit.Cluster.Leader
import ThreatOrbit.Playbooks.Races
import ThreatOrbit.Playbooks.AutoTrigger
import ThreatOrbit.Detection.SharedTuning
import ThreatOrbit.Cases.Concurrent
import ThreatOrbit.Tenancy.Isolation
import ThreatOrbit.Detection.Batches
import ThreatOrbit.Detection.Escalation
import ThreatOrbit.Detection.Meaning
import ThreatOrbit.Auth.Deprovisioning
import ThreatOrbit.Auth.Roles
import ThreatOrbit.Auth.Workspaces
import ThreatOrbit.Ingest.S3Pull
import ThreatOrbit.Ingest.Tail
import ThreatOrbit.Collector.Delivery
import ThreatOrbit.Intel.Sightings
import ThreatOrbit.Intel.Pull
import ThreatOrbit.Connectors.Schedule
import ThreatOrbit.Auth.Sessions
import ThreatOrbit.Connectors.Corroboration
import ThreatOrbit.Billing.Stripe
import ThreatOrbit.Audit.Outbox
import ThreatOrbit.Auth.Stream
import ThreatOrbit.Auth.BreakGlass
import ThreatOrbit.Tenancy.Quotas
import ThreatOrbit.Threat.StixBundle
import ThreatOrbit.Logs.Analysis
import ThreatOrbit.Logs.Temporal
import ThreatOrbit.Logs.Aggregation
import ThreatOrbit.Net.Literals
import ThreatOrbit.Vulns.Fixed
import ThreatOrbit.Hunting.Stamping
import ThreatOrbit.Tenancy.Purge
import ThreatOrbit.Auth.Register
import ThreatOrbit.Platform.Fanout
import ThreatOrbit.Cti.Relations
import ThreatOrbit.Platform.Retention
import ThreatOrbit.Detection.Aliases
import ThreatOrbit.Cti.Passes
import ThreatOrbit.Hunting.Counting
import ThreatOrbit.Ingest.Redaction
import ThreatOrbit.Ingest.Leef
import ThreatOrbit.Ingest.JsonFields
import ThreatOrbit.Detection.Robustness
import ThreatOrbit.Siem.Dismissals
import ThreatOrbit.Platform.Scripts
import ThreatOrbit.Cases.Integrity
import ThreatOrbit.Platform.Backup
import ThreatOrbit.Auth.Throttle
import ThreatOrbit.Cases.Deadlines
import ThreatOrbit.Cti.Registrable
import ThreatOrbit.Net.Credentials
import ThreatOrbit.Platform.SchemaGate
import ThreatOrbit.Cti.Graph
import ThreatOrbit.Connectors.Truncation
import ThreatOrbit.Connectors.Pulses
import ThreatOrbit.Cti.PassiveDns
import ThreatOrbit.Cti.Attack

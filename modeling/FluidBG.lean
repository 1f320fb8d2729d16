import FluidBG.Lib.Prog
import FluidBG.Lib.System
import FluidBG.Lib.OrdMap
import FluidBG.Lib.Keyed
import FluidBG.Lib.Pool
import FluidBG.Lib.Serde
import FluidBG.Lib.Trace
import FluidBG.Lib.Assigned
import FluidBG.Json
import FluidBG.Sha256
import FluidBG.Kube
import FluidBG.Crd
import FluidBG.Store
import FluidBG.Strategy
import FluidBG.Promotion
import FluidBG.Names
import FluidBG.Plugin
import FluidBG.Inceptor
import FluidBG.Backends
import FluidBG.Api
import FluidBG.HttpApi
import FluidBG.Tracker
import FluidBG.Sdk
import FluidBG.Plugins.TempNames
import FluidBG.Plugins.Queues
import FluidBG.Plugins.Rabbitmq
import FluidBG.Plugins.ServiceBus
import FluidBG.Plugins.Nats
import FluidBG.Plugins.Http
import FluidBG.Controller.Status
import FluidBG.Controller.Deployments
import FluidBG.Controller.Resources
import FluidBG.Controller.PluginLifecycle
import FluidBG.Controller.Phases
import FluidBG.Controller.Reconcile
import FluidBG.Controller.Lease
import FluidBG.Cluster
import FluidBG.Sample
import FluidBG.Plugins.Sample
import FluidBG.Proof.Footprint
import FluidBG.Proof.Status
import FluidBG.Proof.Observer
import FluidBG.Proof.Manifest
import FluidBG.Proof.Recoverable
import FluidBG.Proof.Reconcile
import FluidBG.Proof.TerminalPhase
import FluidBG.Proof.DrainTimeout
import FluidBG.Proof.RollbackDecision
import FluidBG.Proof.Sweep
import FluidBG.Proof.Ownership
import FluidBG.Proof.OrphanCleanup
import FluidBG.Proof.LateRejection
import FluidBG.Proof.Evidence
import FluidBG.Proof.Registry
import FluidBG.Proof.Finalization
import FluidBG.Proof.DuplicateMerge
import FluidBG.Proof.Tenancy
import FluidBG.Proof.LeaseExclusion
import FluidBG.Proof.Lineage
import FluidBG.Proof.StaleWriters
import FluidBG.Proof.Admission
import FluidBG.Proof.Deletion
import FluidBG.Proof.StepClimb
import FluidBG.Proof.Handover
import FluidBG.Proof.ScopedUsers
import FluidBG.Proof.SuppliedNames
import FluidBG.Proof.DerivedQueues
import FluidBG.Proof.TenantStreams
import FluidBG.Proof.Acknowledgement
import FluidBG.Proof.BusBarrier
import FluidBG.Proof.AmqpBarrier
import FluidBG.Proof.WorkExclusion
import FluidBG.Proof.OwnDeployments
import FluidBG.Proof.SweepRace
import FluidBG.Proof.Assignments
import FluidBG.Proof.EnvPaths
import FluidBG.Proof.DrainGate
import FluidBG.Lib.Loops
import FluidBG.Proof.Cleanup
import FluidBG.Proof.Restart
import FluidBG.Proof.DrainEnd
import FluidBG.Lib.Custody
import FluidBG.Plugins.Movers
import FluidBG.Proof.SubjectAccount
import FluidBG.Proof.DrainAccount
import FluidBG.Proof.DrainMoves
import FluidBG.Lib.Wildcard
import FluidBG.Proof.StreamOverlap
import FluidBG.Proof.Conditions
import FluidBG.Proof.Decisions
import FluidBG.Proof.Verdicts
import FluidBG.Proof.Criteria
import FluidBG.Proof.EffectiveEnv
import FluidBG.Proof.LiveDecisions
import FluidBG.Proof.CustomCases
import FluidBG.Proof.Deadlines
import FluidBG.Proof.SweepComplete
import FluidBG.Proof.Leftovers
import FluidBG.Lib.Steps
import FluidBG.Lib.Task
import FluidBG.Lib.Readings
import FluidBG.Lib.PrefixCode
import FluidBG.Lifecycle
import FluidBG.Rollout
import FluidBG.Plugins.HttpFilters
import FluidBG.Plugins.CoreMode
import FluidBG.Plugins.SubjectTasks
import FluidBG.Plugins.BusClient
import FluidBG.Proof.Survival
import FluidBG.Proof.Documents
import FluidBG.Proof.BusMessages
import FluidBG.Proof.HttpReadings
import FluidBG.Proof.SweptNames
import FluidBG.Proof.QueueReadings
import FluidBG.Proof.BusTokens
import FluidBG.Proof.RolledOut
import FluidBG.Proof.FieldNamespaces
import FluidBG.Proof.SeparatePoints
import FluidBG.Proof.CoreReadiness
import FluidBG.Proof.ManagerConfig
import FluidBG.Proof.NameParts
import FluidBG.Proof.DerivedNames
import FluidBG.Proof.StreamNames
import FluidBG.Proof.ShadowNames
import FluidBG.Proof.Replacements
import FluidBG.Plugins.QueueDescription
import FluidBG.Proof.QueueDescription
import FluidBG.Proof.MergePatch
import FluidBG.Proof.Finalizers
import FluidBG.Plugins.Tokens
import FluidBG.Proof.PluginTokens
import FluidBG.Proof.Templates
import FluidBG.Plugins.HttpProxy
import FluidBG.Proof.ProxyBodies
import FluidBG.Proof.BodyFilters
import FluidBG.Lib.Runs
import FluidBG.Proof.TrafficPercent
import FluidBG.Proof.HttpRuns
import FluidBG.Lib.Percent
import FluidBG.Plugins.ApiUrls
import FluidBG.Proof.ApiUrls
import FluidBG.Plugins.WorkloadIdentity
import FluidBG.Proof.TokenCache
import FluidBG.Proof.CaseAccount
import FluidBG.Lib.Regex
import FluidBG.Proof.Permissions
import FluidBG.StateStore
import FluidBG.Proof.TimeoutRange
import FluidBG.Proof.StoreQueries

import Jefferies.Interaction.Can
import Jefferies.Interaction.Outline
import Jefferies.Interaction.Process
import Jefferies.Interaction.System
import Jefferies.Pipelines.Validate
import Jefferies.Pipelines.Quantity
import Jefferies.StateStore.Redis
import Jefferies.RunHistory.Postgres
import Jefferies.Coordination.Reaper
import Jefferies.Coordination.Course
import Jefferies.Coordination.Readiness
import Jefferies.Coordination.Timers
import Jefferies.Coordination.Waiting
import Jefferies.Coordination.PhaseTimers
import Jefferies.Coordination.Switching
import Jefferies.Coordination.Overruling
import Jefferies.Coordination.WriteThrough
import Jefferies.Coordination.Outcomes
import Jefferies.Coordination.Passing
import Jefferies.Coordination.FailFast
import Jefferies.Coordination.LateCompletion
import Jefferies.Coordination.Rehydration
import Jefferies.Coordination.Redispatch
import Jefferies.Dispatching.KubeDispatcher
import Jefferies.Dispatching.Names
import Jefferies.Dispatching.Ownership
import Jefferies.Dispatching.Volumes
import Jefferies.Dispatching.VaultAnnotations
import Jefferies.Dispatching.SecretFiles
import Jefferies.Coordination.Crash
import Jefferies.Coordination.DependencyOrder
import Jefferies.Coordination.Confluence
import Jefferies.Coordination.Stalling
import Jefferies.Coordination.Unexecuted
import Jefferies.Coordination.Fencing
import Jefferies.Coordination.Cluster
import Jefferies.Coordination.Serving
import Jefferies.Coordination.Account
import Jefferies.Versioning.Ledger
import Jefferies.Coordination.Views
import Jefferies.Coordination.LostUpdate
import Jefferies.Coordination.Leases
import Jefferies.Coordination.Release
import Jefferies.Providers.Launches
import Jefferies.Providers.Routing
import Jefferies.Collections.Json
import Jefferies.Collections.Reordering
import Jefferies.Coordination.Finished
import Jefferies.StateStore.Document
import Jefferies.StateStore.InMemory
import Jefferies.StateStore.Keyspace
import Jefferies.StateStore.Storing
import Jefferies.StateStore.Refinement
import Jefferies.StateStore.StandIn
import Jefferies.StateStore.Tokens
import Jefferies.Coordination.Beginning
import Jefferies.Coordination.Sweeping
import Jefferies.Coordination.FinalStatus
import Jefferies.Coordination.Vouching
import Jefferies.Coordination.Successes
import Jefferies.Tenancy.Construction
import Jefferies.Auth.Handlers
import Jefferies.Auth.Redirects
import Jefferies.Auth.Sessions
import Jefferies.Dispatching.RepoSlugs
import Jefferies.Watching.Deletions
import Jefferies.Watching.Signals
import Jefferies.Sources.Uploads
import Jefferies.Sources.Cleanup
import Jefferies.Coordination.Aborting
import Jefferies.Coordination.Recording
import Jefferies.Coordination.Deadlines
import Jefferies.Server.LiveStatus
import Jefferies.Coordination.Permanence
import Jefferies.Coordination.Proper
import Jefferies.Server.Explanations
import Jefferies.Server.Listing
import Jefferies.Server.Publishing
import Jefferies.Backplane.InMemory
import Jefferies.Backplane.Delivery

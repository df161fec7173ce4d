import WorkflowEngine.Accounting
import WorkflowEngine.Branches
import WorkflowEngine.Coherence
import WorkflowEngine.Pagination
import WorkflowEngine.RateLimit
import WorkflowEngine.Routes
import WorkflowEngine.Truthiness
import WorkflowEngine.Tenants
import WorkflowEngine.Lru
import WorkflowEngine.Spacing
import WorkflowEngine.Rendering
import WorkflowEngine.ListingOrder
import WorkflowEngine.Cancel
import WorkflowEngine.Replay
import WorkflowEngine.Retries
import WorkflowEngine.Management
import WorkflowEngine.Isolation
import WorkflowEngine.Scheduler
import WorkflowEngine.Cron
import WorkflowEngine.Dependencies
import WorkflowEngine.Durability
import WorkflowEngine.Finality
import WorkflowEngine.Merge
import WorkflowEngine.Metadata
import WorkflowEngine.Nesting
import WorkflowEngine.Orphans
import WorkflowEngine.Outcome
import WorkflowEngine.Dispatches
import WorkflowEngine.Signature
import WorkflowEngine.Templates
import WorkflowEngine.Engine
import WorkflowEngine.Termination
import WorkflowEngine.Validation
import WorkflowEngine.Tables
import WorkflowEngine.Finished
import WorkflowEngine.Budgets
import WorkflowEngine.Overlap
import WorkflowEngine.Results
import WorkflowEngine.Effects
import WorkflowEngine.EntryEffects
import WorkflowEngine.Lineage
import WorkflowEngine.Trail
import WorkflowEngine.Stored
import WorkflowEngine.AtRest
import WorkflowEngine.StepRecords
import WorkflowEngine.Metrics
import WorkflowEngine.Deletion
import WorkflowEngine.Appending
import WorkflowEngine.Api
import WorkflowEngine.Access
import WorkflowEngine.Atomicity

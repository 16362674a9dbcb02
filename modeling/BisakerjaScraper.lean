import BisakerjaScraper.Ai.Client
import BisakerjaScraper.Ai.Metrics
import BisakerjaScraper.Api.Jobs
import BisakerjaScraper.Api.Search
import BisakerjaScraper.Backend.Client
import BisakerjaScraper.Backend.PayloadPatterns
import BisakerjaScraper.Backend.Payloads
import BisakerjaScraper.Backend.PlainTexts
import BisakerjaScraper.Backend.RelationText
import BisakerjaScraper.Backend.Relations
import BisakerjaScraper.Backend.RequirementItems
import BisakerjaScraper.Backend.RoleSentence
import BisakerjaScraper.Cli.Daemon
import BisakerjaScraper.Cli.DatasetFiles
import BisakerjaScraper.Cli.DatasetHashes
import BisakerjaScraper.Cli.DatasetJoins
import BisakerjaScraper.Cli.DatasetRows
import BisakerjaScraper.Cli.DatasetSignals
import BisakerjaScraper.Cli.DatasetSwitches
import BisakerjaScraper.Cli.DatasetValues
import BisakerjaScraper.Cli.EnrichHook
import BisakerjaScraper.Cli.HtmlGates
import BisakerjaScraper.Cli.Leftovers
import BisakerjaScraper.Cli.MetadataSummary
import BisakerjaScraper.Cli.Redaction
import BisakerjaScraper.Cli.Runner
import BisakerjaScraper.Cli.Sensitive
import BisakerjaScraper.Cli.SkillsJson
import BisakerjaScraper.Cli.StagingReport
import BisakerjaScraper.Core.Errors
import BisakerjaScraper.Deduplication.Engine
import BisakerjaScraper.Deduplication.IdentityKeys
import BisakerjaScraper.Eligibility.Complete
import BisakerjaScraper.Eligibility.History
import BisakerjaScraper.Eligibility.Known
import BisakerjaScraper.Eligibility.Lookup
import BisakerjaScraper.Eligibility.Resolver
import BisakerjaScraper.Enrichment.Attempted
import BisakerjaScraper.Enrichment.AuditSummary
import BisakerjaScraper.Enrichment.Pending
import BisakerjaScraper.Enrichment.Repositories
import BisakerjaScraper.Enrichment.Schemas
import BisakerjaScraper.Enrichment.Service
import BisakerjaScraper.Enrichment.Starvation
import BisakerjaScraper.Enrichment.Supported
import BisakerjaScraper.Enrichment.Truthful
import BisakerjaScraper.Freshness.Revives
import BisakerjaScraper.Freshness.Service
import BisakerjaScraper.Jobs.AiNormalization
import BisakerjaScraper.Jobs.BatchItems
import BisakerjaScraper.Jobs.Completion
import BisakerjaScraper.Jobs.DefaultsRaise
import BisakerjaScraper.Jobs.DisplayDescription
import BisakerjaScraper.Jobs.Evidence
import BisakerjaScraper.Jobs.ExperienceYears
import BisakerjaScraper.Jobs.Figures
import BisakerjaScraper.Jobs.LocationAgain
import BisakerjaScraper.Jobs.Salary
import BisakerjaScraper.Jobs.SalaryAgain
import BisakerjaScraper.Jobs.SalaryLabel
import BisakerjaScraper.Jobs.SalaryReads
import BisakerjaScraper.Jobs.SalaryUnits
import BisakerjaScraper.Jobs.ScaledLabels
import BisakerjaScraper.Jobs.Schemas
import BisakerjaScraper.Notifications.Attempts
import BisakerjaScraper.Notifications.Candidates
import BisakerjaScraper.Notifications.Delivered
import BisakerjaScraper.Notifications.Handoff
import BisakerjaScraper.Notifications.Logged
import BisakerjaScraper.Notifications.References
import BisakerjaScraper.Notifications.StateMachine
import BisakerjaScraper.Persistence.Models
import BisakerjaScraper.Persistence.References
import BisakerjaScraper.Persistence.Repositories
import BisakerjaScraper.Persistence.WriteJob
import BisakerjaScraper.Pipeline.Accounted
import BisakerjaScraper.Pipeline.Actions
import BisakerjaScraper.Pipeline.Attempts
import BisakerjaScraper.Pipeline.BatchStore
import BisakerjaScraper.Pipeline.Concurrency
import BisakerjaScraper.Pipeline.Counts
import BisakerjaScraper.Pipeline.Durable
import BisakerjaScraper.Pipeline.EarlierPages
import BisakerjaScraper.Pipeline.FailClosed
import BisakerjaScraper.Pipeline.Fetchers
import BisakerjaScraper.Pipeline.HandoffScope
import BisakerjaScraper.Pipeline.HonestServers
import BisakerjaScraper.Pipeline.Identity
import BisakerjaScraper.Pipeline.Integrity
import BisakerjaScraper.Pipeline.ItemCaps
import BisakerjaScraper.Pipeline.LastSeen
import BisakerjaScraper.Pipeline.ListWindows
import BisakerjaScraper.Pipeline.Live
import BisakerjaScraper.Pipeline.LiveSources
import BisakerjaScraper.Pipeline.Normalize
import BisakerjaScraper.Pipeline.NormalizeBooks
import BisakerjaScraper.Pipeline.NormalizeSource
import BisakerjaScraper.Pipeline.Notified
import BisakerjaScraper.Pipeline.OddTimestamps
import BisakerjaScraper.Pipeline.PageAccounts
import BisakerjaScraper.Pipeline.Passes
import BisakerjaScraper.Pipeline.Plan
import BisakerjaScraper.Pipeline.Quarantine
import BisakerjaScraper.Pipeline.Reprocess
import BisakerjaScraper.Pipeline.Results
import BisakerjaScraper.Pipeline.RetryScope
import BisakerjaScraper.Pipeline.RunIds
import BisakerjaScraper.Pipeline.RunSource
import BisakerjaScraper.Pipeline.RunStage
import BisakerjaScraper.Pipeline.RunStatus
import BisakerjaScraper.Pipeline.Scheduled
import BisakerjaScraper.Pipeline.Scrape
import BisakerjaScraper.Pipeline.SharedSession
import BisakerjaScraper.Pipeline.SourceBodies
import BisakerjaScraper.Pipeline.SourceCalls
import BisakerjaScraper.Pipeline.SourcePages
import BisakerjaScraper.Pipeline.SourceRun
import BisakerjaScraper.Pipeline.Steps
import BisakerjaScraper.Pipeline.Store
import BisakerjaScraper.Pipeline.StoredRows
import BisakerjaScraper.Pipeline.TriggerGuard
import BisakerjaScraper.Python.Decimal
import BisakerjaScraper.Python.Dumps
import BisakerjaScraper.Python.Json
import BisakerjaScraper.Python.Locks
import BisakerjaScraper.Python.Numbers
import BisakerjaScraper.Python.Patterns
import BisakerjaScraper.Python.Text
import BisakerjaScraper.Queue.Jobs
import BisakerjaScraper.Queue.ProcessNext
import BisakerjaScraper.Queue.Waiting
import BisakerjaScraper.Queue.Workers
import BisakerjaScraper.Schemes.Assign
import BisakerjaScraper.Schemes.Blocks
import BisakerjaScraper.Schemes.Braces
import BisakerjaScraper.Schemes.Calls
import BisakerjaScraper.Schemes.Checkpoint
import BisakerjaScraper.Schemes.Codes
import BisakerjaScraper.Schemes.Collect
import BisakerjaScraper.Schemes.Csv
import BisakerjaScraper.Schemes.Delivery
import BisakerjaScraper.Schemes.Fallible
import BisakerjaScraper.Schemes.Faults
import BisakerjaScraper.Schemes.Gaps
import BisakerjaScraper.Schemes.Groups
import BisakerjaScraper.Schemes.Hoare
import BisakerjaScraper.Schemes.Line
import BisakerjaScraper.Schemes.Mask
import BisakerjaScraper.Schemes.Nesting
import BisakerjaScraper.Schemes.Outbox
import BisakerjaScraper.Schemes.Pages
import BisakerjaScraper.Schemes.Regex
import BisakerjaScraper.Schemes.Rewrites
import BisakerjaScraper.Schemes.Scan
import BisakerjaScraper.Schemes.Sections
import BisakerjaScraper.Schemes.Slots
import BisakerjaScraper.Schemes.Sweep
import BisakerjaScraper.Schemes.Table
import BisakerjaScraper.Schemes.Tickets
import BisakerjaScraper.Schemes.Transaction
import BisakerjaScraper.Schemes.While
import BisakerjaScraper.Schemes.Wildcards
import BisakerjaScraper.Schemes.Words
import BisakerjaScraper.Shared.DisplayAgain
import BisakerjaScraper.Shared.DisplayCalls
import BisakerjaScraper.Shared.DisplayHtml
import BisakerjaScraper.Shared.HalfOpen
import BisakerjaScraper.Shared.Html
import BisakerjaScraper.Shared.HttpClient
import BisakerjaScraper.Shared.RateLimit
import BisakerjaScraper.Shared.Requests
import BisakerjaScraper.Shared.SettledHtml
import BisakerjaScraper.Shared.Spacing
import BisakerjaScraper.Shared.Text
import BisakerjaScraper.Shared.VisibleText
import BisakerjaScraper.Sources.Details
import BisakerjaScraper.Sources.EmbeddedJson
import BisakerjaScraper.Sources.ListErrors
import BisakerjaScraper.Sources.Lists
import BisakerjaScraper.Sources.MapperContract
import BisakerjaScraper.Sources.MapperUtils
import BisakerjaScraper.Sources.Mappers
import BisakerjaScraper.Sources.Timestamps
import BisakerjaScraper.Sources.WebPages
import BisakerjaScraper.Sync.AtMostOnce
import BisakerjaScraper.Sync.Chunk
import BisakerjaScraper.Sync.Durability
import BisakerjaScraper.Sync.Events
import BisakerjaScraper.Sync.Frame
import BisakerjaScraper.Sync.Isolation
import BisakerjaScraper.Sync.Lifecycle
import BisakerjaScraper.Sync.Listing
import BisakerjaScraper.Sync.Load
import BisakerjaScraper.Sync.Loop
import BisakerjaScraper.Sync.Mirror
import BisakerjaScraper.Sync.Partition
import BisakerjaScraper.Sync.Report
import BisakerjaScraper.Sync.Rescrape
import BisakerjaScraper.Sync.Worker

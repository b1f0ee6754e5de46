import ThreatScanner.Scan.Status
import ThreatScanner.Scan.Queue
import ThreatScanner.Scan.Effects
import ThreatScanner.Scan.Removal
import ThreatScanner.Static.Frontend
import ThreatScanner.Store.Migration
import ThreatScanner.Store.Session
import ThreatScanner.Store.Isolation
import ThreatScanner.Store.ReadBack
import ThreatScanner.Bulk.Failures
import ThreatScanner.Bulk.Counters
import ThreatScanner.Scan.Change
import ThreatScanner.Scan.Progress
import ThreatScanner.Scan.Freeze
import ThreatScanner.Bulk.Phase
import ThreatScanner.Bulk.Cancel
import ThreatScanner.Bulk.Finality
import ThreatScanner.Jobs.Isolation
import ThreatScanner.Analyzer.Findings
import ThreatScanner.Analyzer.Verdict
import ThreatScanner.Analyzer.Results
import ThreatScanner.Analyzer.Storage
import ThreatScanner.Analyzer.Secrets
import ThreatScanner.Analyzer.Detectors
import ThreatScanner.Analyzer.Sections
import ThreatScanner.Analyzer.Analyze
import ThreatScanner.Analyzer.Quiet
import ThreatScanner.Analyzer.Confirmed
import ThreatScanner.Analyzer.Exposures
import ThreatScanner.Analyzer.SecretVerdict
import ThreatScanner.Analyzer.SecretLeaks
import ThreatScanner.Analyzer.Exits
import ThreatScanner.Analyzer.Ports
import ThreatScanner.Analyzer.CveLookup
import ThreatScanner.Analyzer.Wpscan
import ThreatScanner.Analyzer.Enterprise
import ThreatScanner.Analyzer.SummaryCounts
import ThreatScanner.Library.Connection
import ThreatScanner.Store.Programs
import ThreatScanner.Store.Integrity
import ThreatScanner.Store.Startup
import ThreatScanner.Frontend.LiveScan
import ThreatScanner.Frontend.LiveView
import ThreatScanner.Library.Html
import ThreatScanner.Library.JsLiteral
import ThreatScanner.Frontend.Escaping
import ThreatScanner.Frontend.Handlers
import ThreatScanner.Analyzer.Score
import ThreatScanner.Analyzer.Partition
import ThreatScanner.Analyzer.Explanation
import ThreatScanner.Analyzer.SqlInjection
import ThreatScanner.Analyzer.Tallies
import ThreatScanner.Python.IpAddress
import ThreatScanner.Python.Url
import ThreatScanner.Analyzer.Targets
import ThreatScanner.Analyzer.IpTargets
import ThreatScanner.Analyzer.Candidates
import ThreatScanner.Analyzer.TargetScheme
import ThreatScanner.Analyzer.Waf
import ThreatScanner.Frontend.BulkPanel
import ThreatScanner.Analyzer.CveSummary
import ThreatScanner.Analyzer.AttackTypes
import ThreatScanner.Analyzer.CveKeywords
import ThreatScanner.Analyzer.Reflection
import ThreatScanner.Analyzer.VersionEvidence
import ThreatScanner.Library.Matching
import ThreatScanner.Analyzer.SecretCase
import ThreatScanner.Analyzer.Fingerprint
import ThreatScanner.Analyzer.ReportJson
import ThreatScanner.Analyzer.EvidenceUrls
import ThreatScanner.Analyzer.ReportUrls
import ThreatScanner.Analyzer.Handover
import ThreatScanner.Bulk.VulnerableUrls
import ThreatScanner.Analyzer.Dedupe
import ThreatScanner.Frontend.BulkTargets
import ThreatScanner.Bulk.ExactProgress
import ThreatScanner.Frontend.BulkResults
import ThreatScanner.Library.Termination
import ThreatScanner.Scan.Drain
import ThreatScanner.Bulk.Drain
import ThreatScanner.Bulk.Determinacy
import ThreatScanner.Store.Accounts
import ThreatScanner.Service.Token
import ThreatScanner.Service.Sessions
import ThreatScanner.Scan.Filing
import ThreatScanner.Service.History
import ThreatScanner.Jobs.Projection
import ThreatScanner.Analyzer.Parameters
import ThreatScanner.Frontend.Timers
import ThreatScanner.Frontend.ShownResults
import ThreatScanner.Analyzer.Plan
import ThreatScanner.Bulk.Archive
import ThreatScanner.Analyzer.Runtime
import ThreatScanner.Service.Bruteforce
import ThreatScanner.Analyzer.ScriptUrls

import Aimw.Lib.JsonText
import Aimw.Lib.HashChain
import Aimw.Lib.Text
import Aimw.Lib.Dict
import Aimw.Models
import Aimw.Audit.Record
import Aimw.Audit.WormLog
import Aimw.Audit.Chain
import Aimw.Audit.Codec
import Aimw.Audit.History
import Aimw.Interceptor.Authorization
import Aimw.Audit.Dlp
import Aimw.Guardrails.RegexPii
import Aimw.Guardrails.Survival
import Aimw.Identity.SessionToken
import Aimw.Lib.LayeredAccess
import Aimw.Pipeline
import Aimw.Policy.Access
import Aimw.Policy.Migration
import Aimw.Policy.Roles
import Aimw.Policy.Registry
import Aimw.Policy.TornReads
import Aimw.Reliability.Agreement
import Aimw.Reliability.FailureBudget
import Aimw.Audit.Stored
import Aimw.Audit.Writers
import Aimw.Lib.EventLoop
import Aimw.Interceptor.Concurrent
import Aimw.Interceptor.Ledgers
import Aimw.Interceptor.Staleness
import Aimw.Interceptor.Recording
import Aimw.Lib.Unwinding
import Aimw.Reliability.Window
import Aimw.Reliability.Isolation
import Aimw.Policy.Tightening
import Aimw.Policy.Denial
import Aimw.Interceptor.Redacted
import Aimw.Lib.SortKeys
import Aimw.Audit.Keys
import Aimw.Audit.Drift
import Aimw.Audit.Verdict
import Aimw.Audit.Written
import Aimw.Audit.Tampering
import Aimw.Audit.Located
import Aimw.Audit.TornWrites
import Aimw.Policy.Layers
import Aimw.Policy.Enforcement
import Aimw.Identity.Lifetime
import Aimw.Identity.Inbound
import Aimw.Reliability.Arithmetic
import Aimw.Interceptor.Rewrites
import Aimw.Reliability.Counting
import Aimw.Audit.Parsed
import Aimw.Audit.Coverage
import Aimw.Gateway.Quota
import Aimw.Audit.Forwarding
import Aimw.Audit.Grading
import Aimw.Lib.Edges
import Aimw.Guardrails.Emerging
import Aimw.Guardrails.WordOrder
import Aimw.Sandbox.Subprocess
import Aimw.Lib.Linking
import Aimw.Interceptor.Linked
import Aimw.Pipeline.Paths
import Aimw.Pipeline.System
import Aimw.Pipeline.Executed
import Aimw.Pipeline.Audited
import Aimw.Lib.Utf8
import Aimw.Lib.ShellWords
import Aimw.Sandbox.Docker
import Aimw.Sandbox.Containment
import Aimw.Deployment.Gates
import Aimw.Deployment.Local
import Aimw.Reliability.Shared
import Aimw.Policy.Listings
import Aimw.Policy.Revocation
import Aimw.Deployment.Growth
import Aimw.Pipeline.Collected
import Aimw.Policy.LiveListings
import Aimw.Deployment.Quota

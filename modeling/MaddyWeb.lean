import MaddyWeb.Auth.AccountSteps
import MaddyWeb.Auth.Accounts
import MaddyWeb.Auth.ChallengeSteps
import MaddyWeb.Auth.Challenges
import MaddyWeb.Auth.Enrollment
import MaddyWeb.Auth.Isolation
import MaddyWeb.Auth.Lifecycle
import MaddyWeb.Auth.Links
import MaddyWeb.Auth.Locked
import MaddyWeb.Auth.MailRules
import MaddyWeb.Auth.PasskeyCounters
import MaddyWeb.Auth.Passkeys
import MaddyWeb.Auth.Provision
import MaddyWeb.Auth.RateLimits
import MaddyWeb.Auth.RateQuota
import MaddyWeb.Auth.RateTable
import MaddyWeb.Auth.Refinement
import MaddyWeb.Auth.RetryAfter
import MaddyWeb.Auth.Revocation
import MaddyWeb.Auth.RuleOrder
import MaddyWeb.Auth.RuleRuns
import MaddyWeb.Auth.Schema
import MaddyWeb.Auth.Sessions
import MaddyWeb.Auth.Statements
import MaddyWeb.Auth.Store
import MaddyWeb.Auth.StoredRules
import MaddyWeb.Auth.Tokens
import MaddyWeb.Auth.Totp
import MaddyWeb.Auth.TotpReplay
import MaddyWeb.Certificates.Docker
import MaddyWeb.Certificates.DockerRestore
import MaddyWeb.Certificates.Renewal
import MaddyWeb.Certificates.RenewalReports
import MaddyWeb.Cli.AllOrNothing
import MaddyWeb.Cli.Bootstrap
import MaddyWeb.Csrf.Eviction
import MaddyWeb.Csrf.Middleware
import MaddyWeb.Csrf.Registry
import MaddyWeb.Csrf.SingleUse
import MaddyWeb.Csrf.Store
import MaddyWeb.Csrf.Token
import MaddyWeb.Csrf.TokenExact
import MaddyWeb.Gateway.Accounts
import MaddyWeb.Gateway.MessageCoherence
import MaddyWeb.Gateway.MessageLists
import MaddyWeb.Gateway.Sessions
import MaddyWeb.Helper.Accounts
import MaddyWeb.Helper.Audit
import MaddyWeb.Helper.Authorization
import MaddyWeb.Helper.AuthorizedHandlers
import MaddyWeb.Helper.Cleanup
import MaddyWeb.Helper.Connection
import MaddyWeb.Helper.Errors
import MaddyWeb.Helper.Messages
import MaddyWeb.Helper.Pagination
import MaddyWeb.Helper.Request
import MaddyWeb.Helper.Streams
import MaddyWeb.Identity
import MaddyWeb.Library.Base64
import MaddyWeb.Library.Blocks
import MaddyWeb.Library.Decimal
import MaddyWeb.Library.Dict
import MaddyWeb.Library.Distinct
import MaddyWeb.Library.Exec
import MaddyWeb.Library.Fallible
import MaddyWeb.Library.FixedWindow
import MaddyWeb.Library.History
import MaddyWeb.Library.Json
import MaddyWeb.Library.Merge
import MaddyWeb.Library.Offsets
import MaddyWeb.Library.Percent
import MaddyWeb.Library.Runs
import MaddyWeb.Library.Serial
import MaddyWeb.Library.Stream
import MaddyWeb.Library.System
import MaddyWeb.Library.Text
import MaddyWeb.Library.Tree
import MaddyWeb.Library.Unique
import MaddyWeb.Library.Utf8
import MaddyWeb.Maddy.Accounts
import MaddyWeb.Maddy.Command
import MaddyWeb.Maddy.ConfigGate
import MaddyWeb.Maddy.ConfigLines
import MaddyWeb.Maddy.ConfigSafety
import MaddyWeb.Maddy.EncodedWord
import MaddyWeb.Maddy.Listing
import MaddyWeb.Maddy.Mailboxes
import MaddyWeb.Maddy.MessageList
import MaddyWeb.Maddy.Migration
import MaddyWeb.Maddy.Precedence
import MaddyWeb.Maddy.Service
import MaddyWeb.Maddy.Version
import MaddyWeb.Maddy.Window
import MaddyWeb.Mail.Base64Source
import MaddyWeb.Mail.Filename
import MaddyWeb.Mail.FilenameSafe
import MaddyWeb.Mail.Image
import MaddyWeb.Mail.ImageGrammar
import MaddyWeb.Mail.ImageRecognition
import MaddyWeb.Mail.Mime
import MaddyWeb.Mail.MimeMessage
import MaddyWeb.Mail.MimeReading
import MaddyWeb.Mail.Recipients
import MaddyWeb.Mail.Reply
import MaddyWeb.Mail.Thread
import MaddyWeb.Protocol.Frame
import MaddyWeb.Protocol.Message
import MaddyWeb.Protocol.RoundTrip
import MaddyWeb.Protocol.Transfer
import MaddyWeb.Rules.Bridge
import MaddyWeb.Rules.Canonical
import MaddyWeb.Rules.Compiled
import MaddyWeb.Rules.Condition
import MaddyWeb.Rules.Document
import MaddyWeb.Rules.FailClosed
import MaddyWeb.Rules.Filter
import MaddyWeb.Rules.Grammar
import MaddyWeb.Rules.Headers
import MaddyWeb.Rules.Kleene
import MaddyWeb.Rules.Pipeline
import MaddyWeb.Rules.Reconciliation
import MaddyWeb.Rules.Snapshot
import MaddyWeb.Smtp.Channel
import MaddyWeb.Smtp.Client
import MaddyWeb.Smtp.Data
import MaddyWeb.Smtp.Delivery
import MaddyWeb.Smtp.Receiver
import MaddyWeb.Web.AllMail
import MaddyWeb.Web.AllMailMerge
import MaddyWeb.Web.Freshness
import MaddyWeb.Web.FreshnessIndex
import MaddyWeb.Web.FreshnessRuns
import MaddyWeb.Web.MailEventRuns
import MaddyWeb.Web.MailEventSteps
import MaddyWeb.Web.MailEvents
import MaddyWeb.Web.MailboxCursors

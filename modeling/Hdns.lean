import Hdns.Verified.Machine
import Hdns.Verified.GoString
import Hdns.Verified.GoPath
import Hdns.Verified.Base64
import Hdns.Verified.Effect
import Hdns.Verified.Table
import Hdns.Verified.Overwrite
import Hdns.Verified.FixedWidth
import Hdns.Verified.Blocks
import Hdns.Verified.Replacer
import Hdns.Verified.Json
import Hdns.Verified.Utf8
import Hdns.Verified.JsonString
import Hdns.Ports.Schema
import Hdns.Ports.Names
import Hdns.Ports.Hetzner
import Hdns.Ports.Tasks
import Hdns.Ports.Service
import Hdns.Ports.Records
import Hdns.Ports.Operations
import Hdns.Ports.UpdateAddress
import Hdns.Ports.UpdateAddressRace
import Hdns.Ports.WriteSafety
import Hdns.Ports.TaskFiring
import Hdns.Ports.Webhook
import Hdns.Ports.Certificates
import Hdns.Ports.IssuanceSteps
import Hdns.Ports.Issuances
import Hdns.Ports.CertificateEdits
import Hdns.Ports.CertificateFiles
import Hdns.Ports.CertificateMaterial
import Hdns.Ports.Mail
import Hdns.Ports.UpdateAddressFailure
import Hdns.Ports.PendingStatus
import Hdns.Ports.TaskEdits
import Hdns.Ports.Secrets
import Hdns.Ports.Worker
import Hdns.Ports.Deliveries
import Hdns.Ports.CertificateDelivery
import Hdns.Ports.Convergence
import Hdns.Ports.Renewal
import Hdns.Ports.UpsertFailure
import Hdns.Ports.RefreshSteps
import Hdns.Ports.StaleWrites
import Hdns.Ports.Challenges
import Hdns.Ports.ChallengeRuns
import Hdns.Ports.Bookkeeping
import Hdns.Ports.SharedNames
import Hdns.Ports.Consensus
import Hdns.Ports.Resolvers
import Hdns.Ports.RefreshReports
import Hdns.Ports.AddressRecorded
import Hdns.Ports.IssuanceOutcome
import Hdns.Ports.TaskRuns
import Hdns.Ports.CertificateDirs
import Hdns.Ports.CertificateReports
import Hdns.Ports.ExpiredStatus
import Hdns.Ports.ChallengeNames
import Hdns.Ports.Config
import Hdns.Ports.Archives
import Hdns.Ports.Templates
import Hdns.Ports.MailCooldown
import Hdns.Ports.AccountDirs
import Hdns.Verified.MapOrder
import Hdns.Verified.MimeHeader
import Hdns.Ports.TaskHeaders
import Hdns.Ports.RecordDeletion
import Hdns.Ports.SavedValues
import Hdns.Ports.TaskConfigs
import Hdns.Ports.SaveOutcome
import Hdns.Ports.FortiOSArchive
import Hdns.Ports.FortiOSEndpoint
import Hdns.Ports.FortiOS
import Hdns.Ports.Executor
import Hdns.Verified.Procedure
import Hdns.Verified.Dialogue
import Hdns.Ports.Wizard
import Hdns.Verified.GoQuote
import Hdns.Verified.Yaml
import Hdns.Verified.YamlPrint
import Hdns.Ports.TaskSnippet
import Hdns.Ports.SteadyAddress
import Hdns.Ports.QuietPasses
import Hdns.Ports.AccountClients
import Hdns.Ports.AccountRuns
import Hdns.Ports.EncryptionKey
import Hdns.Ports.KeyRestarts
import Hdns.Ports.AddressStream
import Hdns.Ports.MailRestarts
import Hdns.Verified.Decimal
import Hdns.Verified.RequestUri
import Hdns.Verified.ReadOnly
import Hdns.Ports.CertificateDownloads
import Hdns.Ports.FaultyResolvers
import Hdns.Verified.ForkJoin
import Hdns.Ports.RecordViews

import MailGate.Access
import MailGate.Api.NonInterference
import MailGate.Api.OrmAuthorize
import MailGate.Api.Scanned
import MailGate.Backup.Publish
import MailGate.Backup.Restore
import MailGate.Credentials
import MailGate.Crypto.AdminRotation
import MailGate.Egress
import MailGate.Ingestion.Columns
import MailGate.Ingestion.Drain
import MailGate.Ingestion.Encoding
import MailGate.Ingestion.Overlap
import MailGate.Ingestion.Reply
import MailGate.Mail.Canonical
import MailGate.Mail.Containment
import MailGate.Mail.Controls
import MailGate.Mail.Entities
import MailGate.Mail.Links
import MailGate.Mail.Monotone
import MailGate.Mail.Quoted
import MailGate.Mail.Skip
import MailGate.Mail.Truncation
import MailGate.Mail.Verdict
import MailGate.Migration
import MailGate.NewKeys
import MailGate.OwnerExport.Command
import MailGate.OwnerExport.Content
import MailGate.Purge
import MailGate.Resolver.Names
import MailGate.Resolver.RateLimit
import MailGate.Server
import MailGate.Staleness
import MailGate.Translations.PoFile
import MailGate.Web.Audit
import MailGate.Web.AuthservIds
import MailGate.Web.Decisions

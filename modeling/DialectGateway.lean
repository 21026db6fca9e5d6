import DialectGateway.Backend.Exchange
import DialectGateway.Digest.Sha256
import DialectGateway.Proofs.Delivery.Handover
import DialectGateway.Proofs.Dialect.Messages.Blocks
import DialectGateway.Proofs.Dialect.Responses.Stream
import DialectGateway.Proofs.Server.Accounting
import DialectGateway.Server.Document
import DialectGateway.Server.LogFilter
import DialectGateway.Server.Serve
import DialectGateway.Settings.Load
import DialectGateway.Proofs.Backend.Reading
import DialectGateway.Proofs.Dialect.Messages.Runs
import DialectGateway.Proofs.Dialect.Responses.Content
import DialectGateway.Proofs.Dialect.Responses.Spelled
import DialectGateway.Proofs.Dialect.Messages.Client
import DialectGateway.Proofs.Dialect.Messages.Spelled
import DialectGateway.Proofs.Dialect.Agreement
import DialectGateway.Proofs.Ledger.Order
import DialectGateway.Proofs.Dialect.Acceptance
import DialectGateway.Proofs.Json.ReadBack
import DialectGateway.Proofs.Sse.RoundTrip
import DialectGateway.Proofs.Delivery.Course
import DialectGateway.Proofs.Delivery.Framing
import DialectGateway.Proofs.Delivery.Completion
import DialectGateway.Proofs.Json.Kept
import DialectGateway.Proofs.Backend.Passing
import DialectGateway.Proofs.Delivery.Signals
import DialectGateway.Proofs.Intake.Drafts
import DialectGateway.Proofs.Ledger.Paging
import DialectGateway.Proofs.Sse.Spellings
import DialectGateway.Proofs.Delivery.Counting
import DialectGateway.Proofs.Delivery.Parting
import DialectGateway.Proofs.Backend.TwoForms
import DialectGateway.Proofs.Ledger.Ranking
import DialectGateway.Proofs.Ledger.Recency
import DialectGateway.Proofs.Dialect.Responses.History
import DialectGateway.Proofs.Settings.Template
import DialectGateway.Proofs.Access.Admission
import DialectGateway.Proofs.Text.Excerpts
import DialectGateway.Proofs.Time.Spans
import DialectGateway.Proofs.Decimal.Rounding
import DialectGateway.Proofs.Ledger.Trimming
import DialectGateway.Proofs.Dialect.Responses.Wire

import SpendAlerts.Worker
import SpendAlerts.Context.Family
import SpendAlerts.Main
import SpendAlerts.Proofs.Calendar.DayNumber
import SpendAlerts.Proofs.Calendar.Written
import SpendAlerts.Proofs.Document.Table
import SpendAlerts.Proofs.Document.Reading
import SpendAlerts.Proofs.Document.Notification
import SpendAlerts.Proofs.Document.Config
import SpendAlerts.Proofs.Document.Alert
import SpendAlerts.Proofs.Store.Notifications
import SpendAlerts.Proofs.Store.Interleaving
import SpendAlerts.Proofs.Store.Readability
import SpendAlerts.Proofs.Store.Alerts
import SpendAlerts.Proofs.Store.AlertDocuments
import SpendAlerts.Proofs.Store.Queries
import SpendAlerts.Proofs.Store.Repetition
import SpendAlerts.Proofs.Breakdown
import SpendAlerts.Proofs.Engine.Calls
import SpendAlerts.Proofs.Engine.Posting
import SpendAlerts.Proofs.Engine.Refresh
import SpendAlerts.Proofs.Digest.Body
import SpendAlerts.Proofs.Engine.Digest
import SpendAlerts.Proofs.Decimal.Rounding
import SpendAlerts.Proofs.Evaluation
import SpendAlerts.Proofs.Engine.History
import SpendAlerts.Proofs.Engine.NotifiedOnce
import SpendAlerts.Proofs.Store.Calls
import SpendAlerts.Proofs.Engine.Overflow
import SpendAlerts.Proofs.Period
import SpendAlerts.Proofs.Engine.Visibility
import SpendAlerts.Proofs.Engine.Uncancelled
import SpendAlerts.Proofs.Engine.Stamping
import SpendAlerts.Proofs.Engine.Verdict
import SpendAlerts.Proofs.Engine.Budget
import SpendAlerts.Proofs.Engine.Effect
import SpendAlerts.Proofs.Engine.Repetition
import SpendAlerts.Proofs.Worker
import SpendAlerts.Proofs.Worker.Cancellation
import SpendAlerts.Proofs.Document.RoundTrip
import SpendAlerts.Proofs.Layout
import SpendAlerts.Proofs.Store.Independence
import SpendAlerts.Proofs.Engine.Independence
import SpendAlerts.Proofs.Evaluation.Dates
import SpendAlerts.Proofs.Evaluation.Judgement
import SpendAlerts.Proofs.Evaluation.Rows
import SpendAlerts.Proofs.Evaluation.Forecast
import SpendAlerts.Proofs.Calendar.Shift
import SpendAlerts.Proofs.Text.Base64
import SpendAlerts.Proofs.Engine.Keys
import SpendAlerts.Proofs.Engine.Live
import SpendAlerts.Proofs.Store.Recording
import SpendAlerts.Proofs.Engine.AllOrNothing
import SpendAlerts.Proofs.Engine.Scheduling
import SpendAlerts.Proofs.Digest.Buckets
import SpendAlerts.Proofs.Engine.Sections
import SpendAlerts.Proofs.Engine.Recipients
import SpendAlerts.Proofs.Engine.Delivery
import SpendAlerts.Proofs.Calendar.Months
import SpendAlerts.Proofs.Evaluation.Window
import SpendAlerts.Proofs.Period.Expiry
import SpendAlerts.Proofs.Key
import SpendAlerts.Proofs.Period.Names
import SpendAlerts.Proofs.Text.Blank
import SpendAlerts.Proofs.Query.WholeNumber
import SpendAlerts.Proofs.Evaluation.Dated
import SpendAlerts.Proofs.Dimension
import SpendAlerts.Proofs.Query.RoundTrip
import SpendAlerts.Proofs.Store.Rewriting
import SpendAlerts.Proofs.Store.History
import SpendAlerts.Proofs.Store.Vocabulary
import SpendAlerts.Proofs.Money

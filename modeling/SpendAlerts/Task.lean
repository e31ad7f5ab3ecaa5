import SpendAlerts.Context.Basic
import SpendAlerts.Document.Decode

/-!
Tasks of the queue: the refresh of one alert, or the digest of one customer. Delivery is
at least once, so a task may run again after a failure.
-/

namespace SpendAlerts

inductive Task where
  | refresh (alertId : String)
  | digest (customerId : String)
  deriving DecidableEq, Repr

namespace Task

def decode : Decoder Task :=
  Reading.decodeTagged "Task" "kind"
    [⟨"refresh_alert", "RefreshAlert", refresh <$> .field "alert_id" Decode.text⟩,
      ⟨"send_digest", "SendDigest", digest <$> .field "customer_id" Decode.text⟩]

def encode : Task → Value
  | refresh alertId => .record [("alert_id", .string alertId), ("kind", .string "refresh_alert")]
  | digest customerId =>
      .record [("customer_id", .string customerId), ("kind", .string "send_digest")]

def text : Task → String
  | refresh alertId => "refresh-alert/" ++ alertId
  | digest customerId => "send-digest/" ++ customerId

end Task

/-- Appends a task unless the context is cancelled. -/
def enqueue (t : Task) (queue : List Task) : Guarded (List Task) := do
  Guarded.check
  return queue ++ [t]

end SpendAlerts

import SpendAlerts.Alert.Basic
import SpendAlerts.Notification

/-!
Webhook events. There is one kind, sent when a detection has been recorded; it carries
the detection and a view of its alert in which times are seconds since 1970.
-/

namespace SpendAlerts

namespace Alert

/-- What receivers of events see of an alert. -/
def view (a : Alert) : Value :=
  .record [("config", a.config.encode), ("createTime", .int a.created.epochSeconds),
    ("id", .string a.id),
    ("lastAlerted", .orNull (fun t => .int t.epochSeconds) a.lastAlerted),
    ("name", .string a.name), ("recipients", .strings a.recipients),
    ("updateTime", .int a.modified.epochSeconds)]

end Alert

structure WebhookEvent where
  notification : Notification
  alert : Alert

namespace WebhookEvent

def kind : String := "alert.condition.satisfied"

def payload (e : WebhookEvent) : Value :=
  .record [("alert", e.alert.view),
    ("breakdown", .orNull Value.string e.notification.breakdown),
    ("breakdownLabel", .orNull Value.string e.notification.breakdownLabel),
    ("etag", .string e.notification.etag), ("period", .string e.notification.period),
    ("timeDetected", .string e.notification.detected.text),
    ("timeSent", .orNull (fun t => .string t.text) e.notification.sent),
    ("value", .ofFloat e.notification.value)]

def encode (e : WebhookEvent) : Value :=
  .record [("alertId", .string e.notification.alertId),
    ("customerId", .string e.notification.customerId),
    ("kind", .string "alert_condition_satisfied"), ("payload", e.payload)]

end WebhookEvent

end SpendAlerts

import SpendAlerts.Document.Decode
import SpendAlerts.Document.Outline
import SpendAlerts.Text.Blank

/-!
Settings of the engine: the budget of breakdown values, the noise threshold of cost
changes, the address that stands for nobody, the grace period of dangling alerts, the
domains that mail may go to, and labels of extended metrics. All have defaults.
-/

namespace SpendAlerts

structure Settings where
  breakdownLimit : Nat
  noiseThreshold : Float
  noReplyRecipient : Option String
  graceSeconds : Nat
  /-- Without a list every domain is allowed. -/
  allowedDomains : Option (List String)
  metricLabels : Table String

namespace Settings

def standard : Settings where
  breakdownLimit := 10
  noiseThreshold := 5.0
  noReplyRecipient := some "no-reply@costwatch.dev"
  graceSeconds := 24 * 3600
  allowedDomains := none
  metricLabels := ∅

def reading : Reading Settings :=
  Settings.mk <$>
    .fieldOr "breakdown_limit" (Decode.natBelow UInt64.size "usize") (some standard.breakdownLimit)
    <*> .fieldOr "percentage_noise_threshold" Decode.float (some standard.noiseThreshold)
    <*> .fieldOr "noreply_recipient" (Decode.option Decode.text) (some standard.noReplyRecipient)
    <*> .fieldOr "dangling_alert_grace_secs" (Decode.natBelow UInt64.size "u64")
      (some standard.graceSeconds)
    <*> .fieldOr "allowed_recipient_domains" (Decode.option (Decode.list Decode.text))
      (some standard.allowedDomains)
    <*> .fieldOr "extended_metric_labels" (Decode.table Decode.text) (some standard.metricLabels)

def decode : Decoder Settings := reading.decode "EngineConfig"

def encode (s : Settings) : Value :=
  .record [("allowed_recipient_domains", .orNull Value.strings s.allowedDomains),
    ("breakdown_limit", .int s.breakdownLimit),
    ("dangling_alert_grace_secs", .int s.graceSeconds),
    ("extended_metric_labels", .ofTable Value.string s.metricLabels),
    ("noreply_recipient", .orNull Value.string s.noReplyRecipient),
    ("percentage_noise_threshold", .ofFloat s.noiseThreshold)]

def outline : Outline :=
  .record (reading.checks.map fun c => (c.name, .any))

/-- The longest grace in milliseconds; longer settings are cut to it. -/
def maxGrace : Nat := Int64.maxValue.toInt.toNat

/-- The grace period in milliseconds. -/
def grace (s : Settings) : Nat :=
  if s.graceSeconds * 1000 ≤ maxGrace then s.graceSeconds * 1000 else maxGrace

def withMetricLabel (s : Settings) (key label : String) : Settings :=
  { s with metricLabels := s.metricLabels.insert key label }

/-- Mail may go to a recipient: the part after the last at sign is an allowed domain. -/
def allows (s : Settings) (recipient : String) : Bool :=
  match s.allowedDomains with
  | none => true
  | some domains => match Text.afterLast? '@' recipient.toList with
    | none => false
    | some domain => domains.any fun d => Text.sameIgnoringCase d.toList domain

end Settings

end SpendAlerts

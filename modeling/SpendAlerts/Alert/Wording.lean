import SpendAlerts.Alert.Basic
import SpendAlerts.Money

/-!
How an alert speaks: its values, the name of its metric, and the sentence that states
its condition. Percentages get a percent sign, usage is a plain number, and any other
metric is an amount in the currency of the alert.
-/

namespace SpendAlerts

namespace AlertConfig

def valueText (c : AlertConfig) (x : Float) : String :=
  if c.condition = .percentage then Money.groupThousands x 2 ++ "%"
  else if c.metric = .usage then Money.groupThousands x 2
  else Money.amount x c.currency

/-- The name of the metric. Extended metrics have labels under their key. -/
def metricLabel (c : AlertConfig) (labels : Table String) : String :=
  match c.metric with
  | .extended => match c.extendedMetric with
    | some key => (labels.find? key).getD key
    | none => "extended metric"
  | .custom => match c.calculatedMetric with
    | some m => m.name
    | none => "custom metric"
  | other => other.name

end AlertConfig

namespace Alert

/-- The condition in words, such as `Daily cost value greater than $100.00`. -/
def sentence (a : Alert) (labels : Table String) : String :=
  a.config.interval.label ++ " " ++ a.config.metricLabel labels ++ " " ++
    a.config.condition.label ++ " " ++ a.config.comparison.words ++ " " ++
    a.config.valueText (a.config.threshold?.getD 0.0)

end Alert

end SpendAlerts

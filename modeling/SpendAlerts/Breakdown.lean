import SpendAlerts.Alert.Basic
import SpendAlerts.Period
import SpendAlerts.Store.Notifications

/-!
The budget of breakdown values. An alert with a breakdown reports at most a fixed number
of values per period and etag that are not sent yet. Values recorded already are
excluded from the next query, and what is left of the budget limits it. Daily alerts
look at several days at once and always get the whole budget.
-/

namespace SpendAlerts

structure BreakdownPlan where
  period : String
  /-- The values that are recorded already. -/
  excluded : List String
  /-- How many more values may be reported. -/
  quota : Nat
  deriving DecidableEq

namespace BreakdownPlan

def isExhausted (p : BreakdownPlan) : Bool := p.quota = 0

/-- The filter that keeps a query within the plan, or none if nothing is left of it. -/
def filter? (p : BreakdownPlan) (config : AlertConfig) (dimension : String) :
    Except Fault (Option DimensionFilter) :=
  if p.isExhausted then .ok none
  else match DimensionFilter.ofDimension? dimension with
    | .error e => .error e
    | .ok f =>
        let limit : FilterLimit := ⟨p.quota, config.comparison.limitOrder, config.metric⟩
        .ok (some { f.excluding.limitedTo limit with values := p.excluded })

/-- Plans the budget of an alert for the period in effect. -/
def forAlert (limit : Nat) (a : Alert) (now : Instant) : StoreM BreakdownPlan := do
  match Period.name? a.config.interval now with
  | .error e => throw e
  | .ok period =>
      if a.config.interval = .day then return ⟨period, [], limit⟩
      else
        let recorded ← NotificationStore.detectedBreakdowns a.etag a.id period
        return ⟨period, recorded.values, limit - recorded.unsent⟩

end BreakdownPlan

end SpendAlerts

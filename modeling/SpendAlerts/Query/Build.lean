import SpendAlerts.Breakdown
import SpendAlerts.Query.Request

/-!
The request that an alert is evaluated with. Attributions take the place of the other
filters; a breakdown adds the filter of its plan, and no request is made once that is
used up. Percentages leave out sustained usage discounts and noise, and on costs they
ask for the usage as well. Forecasts come by day whatever the interval of the alert.
-/

namespace SpendAlerts

namespace QueryRequest

def attributionFilter (scope : List String) : DimensionFilter :=
  .select .attribution "attribution" scope

def discountFilter : DimensionFilter :=
  (DimensionFilter.select .fixed "credit" ["Sustained Usage Discount"]).excluding

def baseFilters (c : AlertConfig) : List DimensionFilter :=
  if c.scope = [] then c.filters else [attributionFilter c.scope]

def granularityFor (c : AlertConfig) : Interval :=
  if c.condition = .forecast then .day else c.interval

def metricsFor (c : AlertConfig) : List Metric :=
  if c.condition = .percentage ∧ c.metric = .cost then [.cost, .usage] else [c.metric]

def metricFiltersFor (c : AlertConfig) : List MetricFilter :=
  match c.condition, c.ignoredRange with
  | .percentage, some r => [⟨[r.lower, r.upper], c.metric⟩]
  | _, _ => []

/-- The request with the filters of the breakdown given. -/
def assemble (a : Alert) (breakdownFilters : List DimensionFilter) (now : Instant) :
    Except Fault QueryRequest := do
  let c := a.config
  let window ← TimeWindow.forConfig c now.startOfDay
  let timeColumns ← timeColumnsFor (granularityFor c)
  .ok
    { alertId := a.id
      customerId := a.customerId
      organization := a.organization
      metric := c.metric
      metrics := metricsFor c
      extendedMetric := c.extendedMetric
      calculatedMetric := c.calculatedMetric
      currency := c.currency
      dataSource := c.dataSource
      breakdowns := c.breakdowns
      timeColumns
      granularity := granularityFor c
      filters := baseFilters c ++ breakdownFilters ++
        if c.condition = .percentage then [discountFilter] else []
      metricFilters := metricFiltersFor c
      window
      comparative := c.condition = .percentage
      forecast := c.condition = .forecast }

/-- The request of an alert, or none if its breakdown budget is used up. -/
def build (limit : Nat) (a : Alert) (now : Instant) : StoreM (Option QueryRequest) := do
  match a.config.breakdown? with
  | none => some <$> StoreM.ofExcept (assemble a [] now)
  | some dimension =>
      let plan ← BreakdownPlan.forAlert limit a now
      match ← StoreM.ofExcept (plan.filter? a.config dimension) with
      | none => return none
      | some filter => some <$> StoreM.ofExcept (assemble a [filter] now)

end QueryRequest

end SpendAlerts

import SpendAlerts.Proofs.Calendar.Months
import SpendAlerts.Proofs.Evaluation.Dates
import SpendAlerts.Proofs.Period.Names

/-!
The judgement of one row. What a row gives, or the fault that it is refused with, is told in the
order in which it is looked at: its date, the number that is tested, the usage that has to move
with a change of costs, and whatever a notification takes from it. The evaluation cuts the rows of
the first day of the window off by hours, and the request asks for that day by days; both mean the
same day at every time of the clock.
-/

namespace SpendAlerts

/-- The change in percent that a comparison holds. -/
def Cell.change? : Cell → Option Float
  | .comparison pct _ => pct.float?
  | _ => none

namespace Evaluation

variable {a : Alert} {request : QueryRequest} {noise : Float} {now : Instant} {row : Row}

/-- The number of a row that the condition is tested on. -/
def tested? (a : Alert) (request : QueryRequest) (row : Row) : Option Float :=
  if a.config.condition = .percentage then row[request.comparativeIndex]?.bind Cell.change?
  else row[request.metricIndex]?.bind Cell.float?

/-- The change of the usage, which stands behind the change of the costs. -/
def usageChange? (request : QueryRequest) (row : Row) : Option Float :=
  row[request.comparativeIndex + 1]?.bind Cell.change?

/-- The number is strictly beyond the first threshold, on the side of the comparison. -/
def Beyond (c : AlertConfig) (x : Float) : Prop :=
  ∃ threshold, c.thresholds.head? = some threshold ∧
    match c.comparison with
    | .greater => threshold < x
    | .less => x < threshold

def ComparesCosts (a : Alert) : Prop :=
  a.config.condition = .percentage ∧ a.config.metric = .cost

/-- A change of costs while the usage has changed by no more than the threshold. -/
def Noisy (noise : Float) (a : Alert) (request : QueryRequest) (row : Row) : Prop :=
  ComparesCosts a ∧ ∃ usage, usageChange? request row = some usage ∧ usage.abs ≤ noise

/-- A change of costs that satisfies the condition. -/
def CostSatisfied (a : Alert) (request : QueryRequest) (row : Row) : Prop :=
  ComparesCosts a ∧ ∃ x, tested? a request row = some x ∧ Beyond a.config x

/-- The row of a daily percentage is not after the first day that the window asks for. -/
def OutsideWindow (a : Alert) (request : QueryRequest) (now : Instant) (row : Row) : Prop :=
  a.config.condition = .percentage ∧ a.config.interval = .day ∧
    ∃ date start stop, rowDate request row false = .ok date ∧
      TimeWindow.forConfig a.config now.startOfDay = .ok (.custom start stop) ∧ date ≤ start

/-- Why no change in percent is read at an index of a row. -/
inductive Unchanged (row : Row) (index : Nat) : Fault → Prop where
  | other (cell : ∀ pct val, row[index]? ≠ some (.comparison pct val)) :
      Unchanged row index (.invalidCell index "expected a comparative value")
  | text {pct val : Cell} (cell : row[index]? = some (.comparison pct val))
      (number : pct.float? = none) :
      Unchanged row index (.invalidCell index "percentage change is not numeric")

/-- Why no number of a row is tested. -/
inductive Untested (a : Alert) (request : QueryRequest) (row : Row) : Fault → Prop where
  | value (condition : a.config.condition ≠ .percentage)
      (cell : row[request.metricIndex]?.bind Cell.float? = none) :
      Untested a request row
        (.invalidCell request.metricIndex "expected a numeric metric value")
  | change {e : Fault} (condition : a.config.condition = .percentage)
      (cell : Unchanged row request.comparativeIndex e) : Untested a request row e

/-- A row that is evaluated: it is dated if it has to be, and not before the window. -/
structure Inside (a : Alert) (request : QueryRequest) (now : Instant) (row : Row) : Prop where
  dated : a.config.interval = .day → ∃ date, rowDate request row false = .ok date
  after : ¬ OutsideWindow a request now row

/-- The number of a row is beyond the threshold, and no noise. -/
structure Counts (noise : Float) (a : Alert) (request : QueryRequest) (row : Row) (x : Float) :
    Prop where
  tested : tested? a request row = some x
  beyond : Beyond a.config x
  moved : ComparesCosts a → ∃ usage, usageChange? request row = some usage ∧ ¬ usage.abs ≤ noise

/-- The notification of the number of a row. -/
structure Draws (a : Alert) (request : QueryRequest) (now : Instant) (row : Row) (x : Float)
    (n : Notification) : Prop where
  value : n.value = x
  detected : if a.config.interval = .day then rowDate request row false = .ok n.detected
    else n.detected = now
  period : Period.name? a.config.interval n.detected = .ok n.period
  expiry : Period.expiry? a.config.interval now = .ok n.expiry
  breakdown : match a.config.breakdown? with
    | none => n.breakdown = none ∧ n.breakdownLabel = none
    | some dimension => ∃ value label, row.head?.bind Cell.breakdown? = some value ∧
        Dimension.label? dimension = .ok label ∧ n.breakdown = some value ∧
        n.breakdownLabel = some label
  alert : n.alertId = a.id ∧ n.customerId = a.customerId ∧ n.recipients = a.recipients ∧
    n.etag = a.etag
  fresh : n.alertName = "" ∧ n.sentence = "" ∧ n.sent = none

/-- Why a number that counts has no notification. -/
inductive Undrawn (a : Alert) (row : Row) (now : Instant) : Fault → Prop where
  | endless {e : Fault} (expiry : Period.expiry? a.config.interval now = .error e) :
      Undrawn a row now e
  | comparison {expiry : Instant} {dimension : String} {pct val : Cell}
      (expiry : Period.expiry? a.config.interval now = .ok expiry)
      (breakdown : a.config.breakdown? = some dimension)
      (cell : row.head? = some (.comparison pct val)) :
      Undrawn a row now (.invalidCell 0 "comparative cell used as breakdown")
  | unlabelled {expiry : Instant} {dimension value : String} {e : Fault}
      (expiry : Period.expiry? a.config.interval now = .ok expiry)
      (breakdown : a.config.breakdown? = some dimension)
      (cell : row.head?.bind Cell.breakdown? = some value)
      (label : Dimension.label? dimension = .error e) : Undrawn a row now e

/-- What becomes of a row: the first fault that is met, nothing, or one notification. -/
inductive Judged (noise : Float) (a : Alert) (request : QueryRequest) (now : Instant)
    (row : Row) : Except Fault (Option Notification) → Prop where
  | undated {e : Fault} (daily : a.config.interval = .day)
      (date : rowDate request row false = .error e) : Judged noise a request now row (.error e)
  | outside (outside : OutsideWindow a request now row) : Judged noise a request now row (.ok none)
  | untested {e : Fault} (inside : Inside a request now row) (cell : Untested a request row e) :
      Judged noise a request now row (.error e)
  | within {x : Float} (inside : Inside a request now row) (tested : tested? a request row = some x)
      (below : ¬ Beyond a.config x) : Judged noise a request now row (.ok none)
  | unpaired {e : Fault} (inside : Inside a request now row)
      (satisfied : CostSatisfied a request row)
      (usage : Unchanged row (request.comparativeIndex + 1) e) :
      Judged noise a request now row (.error e)
  | noisy (inside : Inside a request now row) (satisfied : CostSatisfied a request row)
      (noisy : Noisy noise a request row) : Judged noise a request now row (.ok none)
  | undrawn {x : Float} {e : Fault} (inside : Inside a request now row)
      (counts : Counts noise a request row x) (fault : Undrawn a row now e) :
      Judged noise a request now row (.error e)
  | drawn {x : Float} {n : Notification} (inside : Inside a request now row)
      (counts : Counts noise a request row x) (draws : Draws a request now row x n) :
      Judged noise a request now row (.ok (some n))

/-! ### The first day of the window -/

theorem minusDays?_midnight (d : Date) {days : Nat} (hdays : 0 < days) :
    (Instant.midnight d).minusDays? days =
      (Date.ofDayNumber? (d.dayNumber - days)).map Instant.midnight := by
  have hmove : -((days * 86400 : Nat) : Int) ≠ 0 := by omega
  have hleap : ¬ Instant.billion ≤ (Instant.midnight d).nano := by
    simp [Instant.billion, Instant.midnight]
  have hseconds : (Instant.midnight d).date.dayNumber * 86400 + (Instant.midnight d).second + 0 +
      -((days * 86400 : Nat) : Int) = (d.dayNumber - days) * 86400 := by
    simp only [Instant.midnight]
    omega
  simp only [Instant.minusDays?, Instant.plusSeconds?, if_neg hmove, hleap, false_and, if_false,
    hseconds, Int.mul_ediv_cancel _ (by decide : (86400 : Int) ≠ 0), Int.mul_emod_left]
  cases Date.ofDayNumber? (d.dayNumber - days) with
  | none => rfl
  | some first => rfl

/-- The hours that a baseline is told by stand for whole days. -/
theorem isBaseline_midnight (d e : Date) :
    isBaseline (.midnight d) (.midnight e) = true ↔
      d.dayNumber ≤ e.dayNumber - TimeWindow.percentageDays := by
  have hnanos : (Instant.midnight e).nanosSince (.midnight d) =
      (e.dayNumber - d.dayNumber) * 86400 * Instant.billion := by
    simp [Instant.nanosSince, Instant.midnight]
  rw [isBaseline, hnanos, decide_eq_true_iff]
  simp only [baselineHours, TimeWindow.percentageDays, Instant.billion]
  omega

theorem daysBack_eq_ok {days : Nat} (hdays : 0 < days) {d : Date} {w : TimeWindow} :
    TimeWindow.daysBack days (.midnight d) = .ok w ↔
      ∃ first : Date, first.dayNumber = d.dayNumber - days ∧
        w = .custom (.midnight first) (.midnight d) := by
  rw [TimeWindow.daysBack, minusDays?_midnight d hdays]
  cases hfirst : Date.ofDayNumber? (d.dayNumber - days) with
  | none =>
      constructor
      · rintro ⟨⟩
      · rintro ⟨first, hnumber, -⟩
        rw [← hnumber, Date.ofDayNumber?_dayNumber] at hfirst
        cases hfirst
  | some first =>
      constructor
      · rintro ⟨⟩
        exact ⟨first, Date.dayNumber_of_ofDayNumber? hfirst, rfl⟩
      · rintro ⟨first', hnumber, rfl⟩
        rw [← hnumber, Date.ofDayNumber?_dayNumber] at hfirst
        cases hfirst
        rfl

theorem forConfig_dailyPercentage (hcondition : a.config.condition = .percentage)
    (hday : a.config.interval = .day) {w : TimeWindow} :
    TimeWindow.forConfig a.config now.startOfDay = .ok w ↔
      ∃ first : Date, first.dayNumber = now.date.dayNumber - 5 ∧
        w = .custom (.midnight first) now.startOfDay := by
  have hwindow : TimeWindow.forConfig a.config now.startOfDay =
      TimeWindow.daysBack TimeWindow.percentageDays (.midnight now.date) := by
    simp only [TimeWindow.forConfig, hcondition, hday]
    rfl
  rw [hwindow]
  exact daysBack_eq_ok (by decide)

/-- The window of a daily percentage starts with the last day that is cut off. -/
theorem isBaseline_iff {d : Date} (hcondition : a.config.condition = .percentage)
    (hday : a.config.interval = .day) : isBaseline (.midnight d) now.startOfDay = true ↔
      ∃ start stop, TimeWindow.forConfig a.config now.startOfDay = .ok (.custom start stop) ∧
        .midnight d ≤ start := by
  simp only [forConfig_dailyPercentage hcondition hday]
  refine (isBaseline_midnight d now.date).trans ⟨fun h => ?_, ?_⟩
  · obtain ⟨first, hfirst⟩ := Date.exists_dayNumber_between h (Int.sub_le_self _ (by decide))
    exact ⟨_, _, ⟨first, hfirst, rfl⟩, (Instant.midnight_le_iff d first).2 (hfirst ▸ h)⟩
  · rintro ⟨start, stop, ⟨first, hfirst, hcustom⟩, hle⟩
    cases hcustom
    have hdays := (Instant.midnight_le_iff d first).1 hle
    rwa [hfirst] at hdays

/-- A row is skipped exactly if it is outside the window. -/
theorem skipped_iff {time : Option Instant} (hcondition : a.config.condition = .percentage)
    (htime : rowTime a.config.interval request row = .ok time) :
    time.any (isBaseline · now.startOfDay) = true ↔ OutsideWindow a request now row := by
  rw [rowTime] at htime
  split at htime
  · next hday =>
    obtain ⟨date, hdate, rfl⟩ := map_eq_ok.1 htime
    obtain ⟨d, rfl⟩ := rowDate_eq_midnight hdate
    rw [Option.any_some, isBaseline_iff hcondition hday]
    constructor
    · rintro ⟨start, stop, hwindow, hle⟩
      exact ⟨hcondition, hday, _, start, stop, hdate, hwindow, hle⟩
    · rintro ⟨-, -, date, start, stop, hdate', hwindow, hle⟩
      cases hdate.symm.trans hdate'
      exact ⟨start, stop, hwindow, hle⟩
  · next hday =>
    cases htime
    exact iff_of_false Bool.false_ne_true fun h => hday h.2.1

/-! ### Numbers and changes -/

theorem satisfiedBy_iff {c : AlertConfig} {x : Float} :
    c.satisfiedBy x = true ↔ Beyond c x := by
  rw [AlertConfig.satisfiedBy, Beyond, AlertConfig.threshold?]
  cases c.thresholds.head? with
  | none => simp
  | some threshold => cases h : c.comparison <;> simp [Comparison.holds]

theorem satisfiedBy_eq_false_iff {c : AlertConfig} {x : Float} :
    c.satisfiedBy x = false ↔ ¬ Beyond c x :=
  Bool.eq_false_iff.trans (not_congr satisfiedBy_iff)

theorem number_eq_ok_iff {index : Nat} {x : Float} :
    number row index = .ok x ↔ row[index]?.bind Cell.float? = some x := by
  rw [number]
  split
  · next y hy => simp [hy]
  · next hnone => simp [hnone]

theorem change_eq_ok_iff {index : Nat} {x : Float} :
    change row index = .ok x ↔ row[index]?.bind Cell.change? = some x := by
  rw [change]
  split
  · next pct val hcell =>
    rw [hcell, Option.bind_some, Cell.change?]
    split
    · next y hy => simp [hy]
    · next hnone => simp [hnone]
  · next hother =>
    constructor
    · intro h
      cases h
    · intro h
      obtain ⟨cell, hcell, hchange⟩ := Option.bind_eq_some_iff.1 h
      cases cell with
      | comparison pct val => exact absurd hcell (hother pct val)
      | null | int _ | float _ | text _ => cases hchange

theorem change_eq_error_iff {index : Nat} {e : Fault} :
    change row index = .error e ↔ Unchanged row index e := by
  rw [change]
  split
  · next pct val hcell =>
    split
    · next y hy =>
      refine iff_of_false (by simp) ?_
      rintro (⟨hother⟩ | ⟨hcell', hnone⟩)
      · exact hother pct val hcell
      · cases hcell.symm.trans hcell'
        cases hnone.symm.trans hy
    · next hnone =>
      constructor
      · rintro ⟨⟩
        exact .text hcell hnone
      · rintro (⟨hother⟩ | ⟨hcell', -⟩)
        · exact absurd hcell (hother pct val)
        · rfl
  · next hother =>
    constructor
    · rintro ⟨⟩
      exact .other hother
    · rintro (⟨-⟩ | ⟨hcell, -⟩)
      · rfl
      · exact absurd hcell (hother _ _)

/-- Reads the number of a row that is tested. -/
def readTested (a : Alert) (request : QueryRequest) (row : Row) : Except Fault Float :=
  if a.config.condition = .percentage then change row request.comparativeIndex
  else number row request.metricIndex

theorem readTested_eq_ok_iff {x : Float} :
    readTested a request row = .ok x ↔ tested? a request row = some x := by
  rw [readTested, tested?]
  split
  · exact change_eq_ok_iff
  · exact number_eq_ok_iff

theorem readTested_eq_error_iff {e : Fault} :
    readTested a request row = .error e ↔ Untested a request row e := by
  rw [readTested]
  split
  · next hcondition =>
    rw [change_eq_error_iff]
    constructor
    · exact .change hcondition
    · rintro (⟨hvalue, -⟩ | ⟨-, hcell⟩)
      · exact absurd hcondition hvalue
      · exact hcell
  · next hcondition =>
    rw [number]
    split
    · next y hy =>
      refine iff_of_false (by simp) ?_
      rintro (⟨-, hnone⟩ | ⟨hpercentage, -⟩)
      · cases hnone.symm.trans hy
      · exact hcondition hpercentage
    · next hnone =>
      constructor
      · rintro ⟨⟩
        exact .value hcondition hnone
      · rintro (⟨-, -⟩ | ⟨hpercentage, -⟩)
        · rfl
        · exact absurd hpercentage hcondition

/-- Tells noise, which only a change of costs can be. -/
def readNoise (noise : Float) (a : Alert) (request : QueryRequest) (row : Row) (x : Float) :
    Except Fault Bool :=
  if a.config.condition = .percentage then isNoise a request noise row x else .ok false

theorem costSatisfied_iff {x : Float} (hx : tested? a request row = some x) :
    CostSatisfied a request row ↔ ComparesCosts a ∧ a.config.satisfiedBy x = true := by
  rw [CostSatisfied, satisfiedBy_iff, hx]
  simp

theorem CostSatisfied.beyond {x : Float} (h : CostSatisfied a request row)
    (hx : tested? a request row = some x) : Beyond a.config x :=
  satisfiedBy_iff.1 ((costSatisfied_iff hx).1 h).2

theorem readNoise_of_costSatisfied {x : Float} (hx : tested? a request row = some x)
    (h : CostSatisfied a request row) : readNoise noise a request row x =
      (change row (request.comparativeIndex + 1)).map fun usage => decide (usage.abs ≤ noise) := by
  obtain ⟨⟨hcondition, hcost⟩, hsatisfied⟩ := (costSatisfied_iff hx).1 h
  rw [readNoise, if_pos hcondition, isNoise, if_pos ⟨hcost, hsatisfied⟩]
  cases change row (request.comparativeIndex + 1) with
  | error e => rfl
  | ok usage => rfl

theorem readNoise_of_not {x : Float} (hx : tested? a request row = some x)
    (h : ¬ CostSatisfied a request row) : readNoise noise a request row x = .ok false := by
  rw [readNoise]
  split
  · next hcondition =>
    rw [isNoise, if_neg]
    rintro ⟨hcost, hsatisfied⟩
    exact h ((costSatisfied_iff hx).2 ⟨⟨hcondition, hcost⟩, hsatisfied⟩)
  · rfl

/-! ### The notification of a number -/

theorem ne_hour_of_expiry? {i : Interval} {t : Instant} (h : Period.expiry? i now = .ok t) :
    i ≠ .hour := by
  rintro rfl
  cases h

theorem detectionTime_eq_iff {i : Interval} {time : Option Instant} {t : Instant}
    (htime : rowTime i request row = .ok time) : detectionTime i time now = t ↔
      if i = .day then rowDate request row false = .ok t else t = now := by
  rw [rowTime] at htime
  split at htime
  · next hday =>
    obtain ⟨date, hdate, rfl⟩ := map_eq_ok.1 htime
    rw [if_pos hday, hday, hdate, Except.ok.injEq]
    rfl
  · next hday =>
    have hnow : detectionTime i time now = now := by
      cases i with
      | day => exact absurd rfl hday
      | hour | week | month | quarter | year => rfl
    rw [if_neg hday, hnow]
    exact eq_comm

theorem Cell.breakdown?_eq_none_iff {cell : Cell} :
    cell.breakdown? = none ↔ ∃ pct val, cell = .comparison pct val := by
  cases cell <;> simp [Cell.breakdown?]

theorem breakdown?_eq_ok_iff (hcondition : a.config.condition ≠ .forecast)
    {b : Option (String × String)} : breakdown? a (some row) = .ok b ↔
      match a.config.breakdown? with
      | none => b = none
      | some dimension => ∃ value label, row.head?.bind Cell.breakdown? = some value ∧
          Dimension.label? dimension = .ok label ∧ b = some (value, label) := by
  cases hdimension : a.config.breakdown? with
  | none => simp [breakdown?, hdimension, eq_comm]
  | some dimension =>
      simp only [breakdown?, hdimension, if_neg hcondition]
      cases row with
      | nil => simp
      | cons cell cells =>
          simp only [Cell.breakdownAt, List.head?_cons, Option.bind_some]
          cases cell.breakdown? with
          | none => simp [bind, Except.bind]
          | some value =>
              cases Dimension.label? dimension with
              | error e => simp [bind, Except.bind]
              | ok label => simp [bind, Except.bind, eq_comm]

theorem breakdown?_eq_error_iff (hcondition : a.config.condition ≠ .forecast) (hrow : row ≠ [])
    {e : Fault} : breakdown? a (some row) = .error e ↔
      ∃ dimension, a.config.breakdown? = some dimension ∧
        (((∃ pct val, row.head? = some (.comparison pct val)) ∧
            e = .invalidCell 0 "comparative cell used as breakdown") ∨
          ∃ value, row.head?.bind Cell.breakdown? = some value ∧
            Dimension.label? dimension = .error e) := by
  obtain ⟨cell, cells, rfl⟩ := List.exists_cons_of_ne_nil hrow
  cases hdimension : a.config.breakdown? with
  | none => simp [breakdown?, hdimension]
  | some dimension =>
      simp only [breakdown?, hdimension, if_neg hcondition, Cell.breakdownAt, List.head?_cons,
        Option.bind_some, Option.some.injEq, exists_eq_left', ← Cell.breakdown?_eq_none_iff]
      cases cell.breakdown? with
      | none => simp [bind, Except.bind, eq_comm]
      | some value =>
          cases Dimension.label? dimension with
          | error e' => simp [bind, Except.bind, eq_comm]
          | ok label => simp [bind, Except.bind]

theorem detect_of_not_beyond {x : Float} {time : Option Instant} (h : ¬ Beyond a.config x) :
    detect a (some row) x time now = .ok none := by
  rw [detect, if_neg (mt satisfiedBy_iff.1 h)]

/-- What a number that satisfies the condition gives is the notification that is drawn from it,
and no fault stands in the way of its period once it can expire. -/
theorem detect_eq_ok_iff {x : Float} {time : Option Instant} {n : Notification}
    (hcondition : a.config.condition ≠ .forecast)
    (htime : rowTime a.config.interval request row = .ok time) (hx : Beyond a.config x) :
    detect a (some row) x time now = .ok (some n) ↔ Draws a request now row x n := by
  rw [detect, if_pos (satisfiedBy_iff.2 hx)]
  constructor
  · intro h
    obtain ⟨expiry, hexpiry, h⟩ := bind_eq_ok.1 h
    obtain ⟨b, hb, h⟩ := bind_eq_ok.1 h
    obtain ⟨period, hperiod, h⟩ := bind_eq_ok.1 h
    cases h
    have hbreakdown := (breakdown?_eq_ok_iff hcondition).1 hb
    refine ⟨rfl, (detectionTime_eq_iff htime).1 rfl, hperiod, hexpiry, ?_, ⟨rfl, rfl, rfl, rfl⟩,
      rfl, rfl, rfl⟩
    cases hdimension : a.config.breakdown? with
    | none =>
        rw [hdimension] at hbreakdown
        subst hbreakdown
        exact ⟨rfl, rfl⟩
    | some dimension =>
        rw [hdimension] at hbreakdown
        obtain ⟨value, label, hvalue, hlabel, rfl⟩ := hbreakdown
        exact ⟨value, label, hvalue, hlabel, rfl, rfl⟩
  · rintro ⟨hvalue, hdetected, hperiod, hexpiry, hbreakdown, ⟨hid, hcustomer, hrecipients, hetag⟩,
      hname, hsentence, hsent⟩
    have hb : ∃ b, breakdown? a (some row) = .ok b ∧ n.breakdown = b.map (·.1) ∧
        n.breakdownLabel = b.map (·.2) := by
      simp only [breakdown?_eq_ok_iff hcondition]
      cases hdimension : a.config.breakdown? with
      | none =>
          rw [hdimension] at hbreakdown
          exact ⟨none, rfl, hbreakdown⟩
      | some dimension =>
          rw [hdimension] at hbreakdown
          obtain ⟨value, label, hvalue, hlabel, hbreakdown⟩ := hbreakdown
          exact ⟨_, ⟨value, label, hvalue, hlabel, rfl⟩, hbreakdown⟩
    obtain ⟨b, hb, hbroken, hlabelled⟩ := hb
    rw [hexpiry, ok_bind, hb, (detectionTime_eq_iff htime).2 hdetected, ok_bind, hperiod, ok_bind]
    cases n
    simp only at hvalue hid hcustomer hrecipients hetag hname hsentence hsent hbroken hlabelled ⊢
    rw [hvalue, hid, hcustomer, hrecipients, hetag, hname, hsentence, hsent, hbroken, hlabelled]

theorem detect_ne_ok_none {x : Float} {time : Option Instant} (hx : Beyond a.config x) :
    detect a (some row) x time now ≠ .ok none := by
  intro h
  obtain ⟨-, hnot⟩ | ⟨n, hn, -⟩ := drawn_or_none h
  · exact satisfiedBy_eq_false_iff.1 hnot hx
  · cases hn

theorem detect_eq_error_iff {x : Float} {time : Option Instant} {e : Fault}
    (hcondition : a.config.condition ≠ .forecast) (hrow : row ≠ []) (hx : Beyond a.config x) :
    detect a (some row) x time now = .error e ↔ Undrawn a row now e := by
  rw [detect, if_pos (satisfiedBy_iff.2 hx)]
  cases hexpiry : Period.expiry? a.config.interval now with
  | error e' =>
      constructor
      · rintro ⟨⟩
        exact .endless hexpiry
      · rintro (⟨hexpiry'⟩ | ⟨hexpiry'⟩ | ⟨hexpiry'⟩)
        all_goals cases hexpiry.symm.trans hexpiry'
        rfl
  | ok expiry =>
      have hperiod := Period.exists_name? (ne_hour_of_expiry? hexpiry)
      have hfault : Undrawn a row now e ↔ breakdown? a (some row) = .error e := by
        rw [breakdown?_eq_error_iff hcondition hrow]
        constructor
        · rintro (⟨hexpiry'⟩ | ⟨-, hdimension, hcell⟩ | ⟨-, hdimension, hcell, hlabel⟩)
          · cases hexpiry.symm.trans hexpiry'
          · exact ⟨_, hdimension, .inl ⟨⟨_, _, hcell⟩, rfl⟩⟩
          · exact ⟨_, hdimension, .inr ⟨_, hcell, hlabel⟩⟩
        · rintro ⟨dimension, hdimension, ⟨⟨pct, val, hcell⟩, rfl⟩ | ⟨value, hcell, hlabel⟩⟩
          · exact .comparison hexpiry hdimension hcell
          · exact .unlabelled hexpiry hdimension hcell hlabel
      rw [hfault, ok_bind]
      cases breakdown? a (some row) with
      | error e' =>
          constructor
          · rintro ⟨⟩
            rfl
          · rintro ⟨⟩
            rfl
      | ok b =>
          obtain ⟨period, hname⟩ := hperiod (detectionTime a.config.interval time now)
          simp only [ok_bind, hname]
          exact iff_of_false (by simp) (by simp)

/-- The test of a row, by value or by percentage. -/
def judge (noise : Float) (a : Alert) (request : QueryRequest) (now : Instant) (row : Row) :
    Except Fault (Option Notification) :=
  if a.config.condition = .percentage then percentageRow a request noise now row
  else valueRow a request now row

theorem judge_of_outsideWindow (h : OutsideWindow a request now row) :
    judge noise a request now row = .ok none := by
  have ⟨hcondition, hday, date, _, _, hdate, _⟩ := h
  have htime : rowTime a.config.interval request row = .ok (some date) := by
    rw [rowTime, if_pos hday, hdate]
    rfl
  rw [judge, if_pos hcondition, percentageRow, htime, ok_bind,
    if_pos ((skipped_iff hcondition htime).2 h)]

/-- A row that is evaluated is judged by its number, then by the usage, then by what a
notification takes from it. -/
theorem judge_of_inside {time : Option Instant}
    (htime : rowTime a.config.interval request row = .ok time)
    (hafter : ¬ OutsideWindow a request now row) : judge noise a request now row =
      (readTested a request row >>= fun x => readNoise noise a request row x >>= fun noisy =>
        if noisy then .ok none else detect a (some row) x time now) := by
  rw [judge, readTested]
  by_cases hcondition : a.config.condition = .percentage
  · simp only [if_pos hcondition, percentageRow, readNoise, htime, ok_bind,
      if_neg (mt (skipped_iff hcondition htime).1 hafter)]
  · simp only [if_neg hcondition, valueRow, readNoise, htime, ok_bind, Bool.false_eq_true, if_false]

theorem rowTime_eq_error_iff {i : Interval} {e : Fault} :
    rowTime i request row = .error e ↔ i = .day ∧ rowDate request row false = .error e := by
  rw [rowTime]
  split
  · next hday =>
    rw [and_iff_right hday]
    cases rowDate request row false with
    | error e' => simp [Except.map]
    | ok date => simp [Except.map]
  · next hday => simp [hday]

theorem judge_of_undated {e : Fault} (htime : rowTime a.config.interval request row = .error e) :
    judge noise a request now row = .error e := by
  rw [judge]
  split
  · rw [percentageRow, htime]
    rfl
  · rw [valueRow, htime]
    rfl

theorem Inside.rowTime (h : Inside a request now row) :
    ∃ time, Evaluation.rowTime a.config.interval request row = .ok time := by
  rw [Evaluation.rowTime]
  split
  · next hday =>
    obtain ⟨date, hdate⟩ := h.dated hday
    exact ⟨some date, by rw [hdate]; rfl⟩
  · exact ⟨none, rfl⟩

theorem inside_of_rowTime {time : Option Instant}
    (htime : rowTime a.config.interval request row = .ok time)
    (hafter : ¬ OutsideWindow a request now row) : Inside a request now row where
  dated hday := by
    rw [rowTime, if_pos hday] at htime
    obtain ⟨date, hdate, -⟩ := map_eq_ok.1 htime
    exact ⟨date, hdate⟩
  after := hafter

theorem ne_nil_of_tested? {x : Float} (h : tested? a request row = some x) : row ≠ [] := by
  rintro rfl
  rw [tested?] at h
  split at h <;> cases h

theorem readNoise_eq_error_iff {x : Float} {e : Fault} (hx : tested? a request row = some x) :
    readNoise noise a request row x = .error e ↔
      CostSatisfied a request row ∧ Unchanged row (request.comparativeIndex + 1) e := by
  by_cases hsatisfied : CostSatisfied a request row
  · rw [readNoise_of_costSatisfied hx hsatisfied, ← change_eq_error_iff,
      and_iff_right hsatisfied]
    cases change row (request.comparativeIndex + 1) with
    | error e' => simp [Except.map]
    | ok usage => simp [Except.map]
  · rw [readNoise_of_not hx hsatisfied]
    exact iff_of_false nofun fun h => hsatisfied h.1

theorem readNoise_eq_true_iff {x : Float} (hx : tested? a request row = some x) :
    readNoise noise a request row x = .ok true ↔
      CostSatisfied a request row ∧ Noisy noise a request row := by
  by_cases hsatisfied : CostSatisfied a request row
  · rw [readNoise_of_costSatisfied hx hsatisfied, and_iff_right hsatisfied, Noisy,
      and_iff_right hsatisfied.1, map_eq_ok]
    simp only [change_eq_ok_iff, usageChange?, decide_eq_true_iff]
  · rw [readNoise_of_not hx hsatisfied]
    exact iff_of_false nofun fun h => hsatisfied h.1

theorem readNoise_eq_false_iff {x : Float} (hx : tested? a request row = some x)
    (hbeyond : Beyond a.config x) :
    readNoise noise a request row x = .ok false ↔ Counts noise a request row x := by
  by_cases hcosts : ComparesCosts a
  · have hsatisfied : CostSatisfied a request row := ⟨hcosts, x, hx, hbeyond⟩
    rw [readNoise_of_costSatisfied hx hsatisfied, map_eq_ok]
    simp only [change_eq_ok_iff, decide_eq_false_iff_not]
    exact ⟨fun h => ⟨hx, hbeyond, fun _ => h⟩, fun h => h.moved hcosts⟩
  · rw [readNoise_of_not hx fun h => hcosts h.1]
    exact iff_of_true rfl ⟨hx, hbeyond, fun h => absurd h hcosts⟩

/-- Every row is judged in one of these ways. -/
theorem judged_judge (hcondition : a.config.condition ≠ .forecast) :
    Judged noise a request now row (judge noise a request now row) := by
  by_cases hout : OutsideWindow a request now row
  · rw [judge_of_outsideWindow hout]
    exact .outside hout
  cases htime : rowTime a.config.interval request row with
  | error e =>
      obtain ⟨hday, hdate⟩ := rowTime_eq_error_iff.1 htime
      rw [judge_of_undated htime]
      exact .undated hday hdate
  | ok time =>
  have hinside : Inside a request now row := inside_of_rowTime htime hout
  rw [judge_of_inside htime hout]
  cases hread : readTested a request row with
  | error e => exact .untested hinside (readTested_eq_error_iff.1 hread)
  | ok x =>
  have hx : tested? a request row = some x := readTested_eq_ok_iff.1 hread
  rw [ok_bind]
  by_cases hbeyond : Beyond a.config x
  · cases hnoise : readNoise noise a request row x with
    | error e =>
        obtain ⟨hsatisfied, husage⟩ := (readNoise_eq_error_iff hx).1 hnoise
        exact .unpaired hinside hsatisfied husage
    | ok noisy =>
        cases noisy with
        | true =>
            obtain ⟨hsatisfied, hnoisy⟩ := (readNoise_eq_true_iff hx).1 hnoise
            exact .noisy hinside hsatisfied hnoisy
        | false =>
            have hcounts := (readNoise_eq_false_iff hx hbeyond).1 hnoise
            simp only [ok_bind, Bool.false_eq_true, if_false]
            cases hdetect : detect a (some row) x time now with
            | error e =>
                exact .undrawn hinside hcounts
                  ((detect_eq_error_iff hcondition (ne_nil_of_tested? hx) hbeyond).1 hdetect)
            | ok o =>
                cases o with
                | none => exact absurd hdetect (detect_ne_ok_none hbeyond)
                | some n =>
                    exact .drawn hinside hcounts
                      ((detect_eq_ok_iff hcondition htime hbeyond).1 hdetect)
  · rw [readNoise_of_not hx fun h => hbeyond (h.beyond hx)]
    simp only [ok_bind, Bool.false_eq_true, if_false, detect_of_not_beyond hbeyond]
    exact .within hinside hx hbeyond

/-- What is said of a row is what the evaluation makes of it. -/
theorem judge_of_judged {r : Except Fault (Option Notification)}
    (hcondition : a.config.condition ≠ .forecast) (h : Judged noise a request now row r) :
    judge noise a request now row = r := by
  cases h with
  | undated daily date => exact judge_of_undated (rowTime_eq_error_iff.2 ⟨daily, date⟩)
  | outside outside => exact judge_of_outsideWindow outside
  | untested inside cell =>
      obtain ⟨time, htime⟩ := inside.rowTime
      rw [judge_of_inside htime inside.after, readTested_eq_error_iff.2 cell]
      rfl
  | @within x inside tested below =>
      obtain ⟨time, htime⟩ := inside.rowTime
      rw [judge_of_inside htime inside.after, readTested_eq_ok_iff.2 tested, ok_bind,
        readNoise_of_not tested fun h => below (h.beyond tested)]
      exact detect_of_not_beyond below
  | unpaired inside satisfied usage =>
      obtain ⟨time, htime⟩ := inside.rowTime
      have ⟨_, x, tested, _⟩ := satisfied
      rw [judge_of_inside htime inside.after, readTested_eq_ok_iff.2 tested, ok_bind,
        (readNoise_eq_error_iff tested).2 ⟨satisfied, usage⟩]
      rfl
  | noisy inside satisfied noisy =>
      obtain ⟨time, htime⟩ := inside.rowTime
      have ⟨_, x, tested, _⟩ := satisfied
      rw [judge_of_inside htime inside.after, readTested_eq_ok_iff.2 tested, ok_bind,
        (readNoise_eq_true_iff tested).2 ⟨satisfied, noisy⟩]
      rfl
  | undrawn inside counts fault =>
      obtain ⟨time, htime⟩ := inside.rowTime
      rw [judge_of_inside htime inside.after, readTested_eq_ok_iff.2 counts.tested, ok_bind,
        (readNoise_eq_false_iff counts.tested counts.beyond).2 counts]
      exact (detect_eq_error_iff hcondition (ne_nil_of_tested? counts.tested) counts.beyond).2 fault
  | drawn inside counts draws =>
      obtain ⟨time, htime⟩ := inside.rowTime
      rw [judge_of_inside htime inside.after, readTested_eq_ok_iff.2 counts.tested, ok_bind,
        (readNoise_eq_false_iff counts.tested counts.beyond).2 counts]
      exact (detect_eq_ok_iff hcondition htime counts.beyond).2 draws

theorem judge_eq_iff {r : Except Fault (Option Notification)}
    (hcondition : a.config.condition ≠ .forecast) :
    judge noise a request now row = r ↔ Judged noise a request now row r := by
  constructor
  · rintro rfl
    exact judged_judge hcondition
  · exact judge_of_judged hcondition

end Evaluation

end SpendAlerts

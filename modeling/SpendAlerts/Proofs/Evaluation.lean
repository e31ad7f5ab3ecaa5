import SpendAlerts.Engine.Refresh
import SpendAlerts.Proofs.Decimal.Rounding
import SpendAlerts.Proofs.Store.Calls

/-!
What an evaluation detects. Every notification belongs to the alert, its version and the
period of its time, and is not sent yet. Values and percentages are read off one cell, so
they are finite if the cells are; only the total of a forecast is computed.
-/

namespace SpendAlerts

/-- All numbers in the cell are finite. -/
def Cell.Finite : Cell → Prop
  | .float x => Decimal.isFinite x = true
  | .comparison pct val => pct.Finite ∧ val.Finite
  | .null | .int _ | .text _ => True

def QueryResult.Finite (r : QueryResult) : Prop :=
  ∀ row ∈ r.rows ++ r.forecastRows, ∀ c ∈ row, c.Finite

theorem Cell.isFinite_of_float? {c : Cell} {x : Float} (hc : c.Finite) (h : c.float? = some x) :
    Decimal.isFinite x = true := by
  cases c with
  | int n =>
      cases h
      have hlow := n.le_toInt
      have hhigh := n.toInt_lt
      exact Decimal.isFinite_ofInt (by omega)
  | float y =>
      cases h
      exact hc
  | null | text _ | comparison _ _ => cases h

/-- The notification is a fresh detection of the alert. -/
structure Notification.Detects (n : Notification) (a : Alert) : Prop where
  alertId : n.alertId = a.id
  etag : n.etag = a.etag
  unsent : n.sent = none
  period : Period.name? a.config.interval n.detected = .ok n.period
  breakdown : a.config.breakdown? = none → n.breakdown = none

namespace Evaluation

variable {a : Alert} {request : QueryRequest} {now : Instant} {n : Notification}

theorem breakdown?_eq_none {row : Option Row} {b : Option (String × String)}
    (hnone : a.config.breakdown? = none) (h : breakdown? a row = .ok b) : b = none := by
  simp only [breakdown?, hnone] at h
  exact (Except.ok.inj h).symm

/-- What a notification has from the value that is detected, its row and its time. -/
structure Drawn (a : Alert) (row : Option Row) (value : Float) (time : Option Instant)
    (now : Instant) (n : Notification) : Prop where
  satisfied : a.config.satisfiedBy value = true
  detects : n.Detects a
  value : n.value = value
  recipients : n.recipients = a.recipients
  detected : n.detected = detectionTime a.config.interval time now
  breakdown : ∃ b, breakdown? a row = .ok b ∧ n.breakdown = b.map (·.1)

/-- A value is detected exactly if it satisfies the condition. -/
theorem drawn_or_none {row : Option Row} {value : Float} {time : Option Instant}
    {o : Option Notification} (h : detect a row value time now = .ok o) :
    (o = none ∧ a.config.satisfiedBy value = false) ∨
      ∃ n, o = some n ∧ Drawn a row value time now n := by
  rw [detect] at h
  split at h
  · next hsatisfied =>
    obtain ⟨expiry, -, h⟩ := bind_eq_ok.1 h
    obtain ⟨b, hb, h⟩ := bind_eq_ok.1 h
    obtain ⟨period, hperiod, h⟩ := bind_eq_ok.1 h
    cases h
    refine .inr ⟨_, rfl, hsatisfied, ⟨rfl, rfl, rfl, hperiod, fun hnone => ?_⟩, rfl, rfl, rfl,
      b, hb, rfl⟩
    rw [breakdown?_eq_none hnone hb]
    rfl
  · next hnot =>
    cases h
    exact .inl ⟨rfl, Bool.eq_false_iff.2 hnot⟩

theorem drawn_of_detect {row : Option Row} {value : Float} {time : Option Instant}
    (h : detect a row value time now = .ok (some n)) : Drawn a row value time now n := by
  obtain ⟨hnone, -⟩ | ⟨m, hm, hdrawn⟩ := drawn_or_none h
  · cases hnone
  · cases hm
    exact hdrawn

theorem mem_eachRow {f : Row → Except Fault (Option Notification)} {rows : List Row}
    {ns : List Notification} (h : eachRow f rows = .ok ns) (hn : n ∈ ns) :
    ∃ row ∈ rows, f row = .ok (some n) := by
  induction rows generalizing ns with
  | nil =>
      cases h
      cases hn
  | cons row rows ih =>
      obtain ⟨m, hm, h⟩ := bind_eq_ok.1 h
      obtain ⟨ms, hms, h⟩ := bind_eq_ok.1 h
      cases h
      cases List.mem_append.1 hn with
      | inl hn =>
          rw [Option.mem_toList] at hn
          exact ⟨row, List.mem_cons_self, hm.trans (congrArg _ hn)⟩
      | inr hn =>
          obtain ⟨row', hrow, hf⟩ := ih hms hn
          exact ⟨row', List.mem_cons_of_mem _ hrow, hf⟩

theorem isFinite_number {row : Row} {index : Nat} {x : Float} (hrow : ∀ c ∈ row, c.Finite)
    (h : number row index = .ok x) : Decimal.isFinite x = true := by
  rw [number] at h
  split at h
  next y hy =>
    cases h
    obtain ⟨c, hc, hfloat⟩ := Option.bind_eq_some_iff.1 hy
    exact Cell.isFinite_of_float? (hrow c (List.mem_of_getElem? hc)) hfloat
  next => cases h

theorem isFinite_change {row : Row} {index : Nat} {x : Float} (hrow : ∀ c ∈ row, c.Finite)
    (h : change row index = .ok x) : Decimal.isFinite x = true := by
  rw [change] at h
  split at h
  next pct val hc =>
    split at h
    next y hy =>
      cases h
      exact Cell.isFinite_of_float? (hrow _ (List.mem_of_getElem? hc)).1 hy
    next => cases h
  next => cases h

theorem valueRow_eq_some {row : Row} (h : valueRow a request now row = .ok (some n)) :
    n.Detects a ∧ ((∀ c ∈ row, c.Finite) → Decimal.isFinite n.value = true) := by
  obtain ⟨time, -, h⟩ := bind_eq_ok.1 h
  obtain ⟨value, hvalue, h⟩ := bind_eq_ok.1 h
  have hdrawn := drawn_of_detect h
  exact ⟨hdrawn.detects, fun hrow => hdrawn.value ▸ isFinite_number hrow hvalue⟩

theorem percentageRow_eq_some {noise : Float} {row : Row}
    (h : percentageRow a request noise now row = .ok (some n)) :
    n.Detects a ∧ ((∀ c ∈ row, c.Finite) → Decimal.isFinite n.value = true) := by
  obtain ⟨time, -, h⟩ := bind_eq_ok.1 h
  split at h
  · cases h
  · obtain ⟨pct, hpct, h⟩ := bind_eq_ok.1 h
    obtain ⟨noisy, -, h⟩ := bind_eq_ok.1 h
    split at h
    · cases h
    · have hdrawn := drawn_of_detect h
      exact ⟨hdrawn.detects, fun hrow => hdrawn.value ▸ isFinite_change hrow hpct⟩

theorem drawn_of_forecast {rows : List Row} (h : forecast a request rows now = .ok (some n)) :
    ∃ total, forecastTotal a.config.interval request now 0.0 rows = .ok total ∧
      Drawn a none total none now n := by
  rw [forecast] at h
  split at h
  · cases h
  · obtain ⟨total, htotal, h⟩ := bind_eq_ok.1 h
    exact ⟨total, htotal, drawn_of_detect h⟩

theorem evaluate_of_forecast {noise : Float} (hcondition : a.config.condition = .forecast)
    (result : QueryResult) : evaluate noise a request result now =
      (forecast a request result.forecastRows now).map Option.toList := by
  rw [evaluate, hcondition]

end Evaluation

open Evaluation in
/-- What an evaluation gives are detections of the alert. Their values are finite if all cells
are, except for the totals of forecasts. -/
theorem mem_evaluate {noise : Float} {a : Alert} {request : QueryRequest} {result : QueryResult}
    {now : Instant} {ns : List Notification} {n : Notification}
    (h : evaluate noise a request result now = .ok ns) (hn : n ∈ ns) :
    n.Detects a ∧ ((result.Finite → Decimal.isFinite n.value = true) ∨
      a.config.condition = .forecast ∧
        forecastTotal a.config.interval request now 0.0 result.forecastRows = .ok n.value) := by
  rw [evaluate] at h
  split at h
  · obtain ⟨row, hrow, hf⟩ := mem_eachRow h hn
    obtain ⟨hdetects, hfinite⟩ := valueRow_eq_some hf
    exact ⟨hdetects, .inl fun hr => hfinite (hr row (List.mem_append_left _ hrow))⟩
  · obtain ⟨row, hrow, hf⟩ := mem_eachRow h hn
    obtain ⟨hdetects, hfinite⟩ := percentageRow_eq_some hf
    exact ⟨hdetects, .inl fun hr => hfinite (hr row (List.mem_append_left _ hrow))⟩
  · next hforecast =>
    obtain ⟨o, ho, rfl⟩ := map_eq_ok.1 h
    rw [Option.mem_toList.1 hn] at ho
    obtain ⟨total, htotal, hdrawn⟩ := drawn_of_forecast ho
    exact ⟨hdrawn.detects, .inr ⟨hforecast, hdrawn.value ▸ htotal⟩⟩

namespace Evaluation

/-- Values and percentages are detected one by one, each in a row of the result. -/
theorem exists_detect {noise : Float} {a : Alert} {request : QueryRequest} {result : QueryResult}
    {now : Instant} {ns : List Notification} {n : Notification}
    (hcondition : a.config.condition ≠ .forecast)
    (h : evaluate noise a request result now = .ok ns) (hn : n ∈ ns) :
    ∃ row ∈ result.rows, ∃ value time, detect a (some row) value time now = .ok (some n) := by
  rw [evaluate] at h
  split at h
  · obtain ⟨row, hrow, hf⟩ := mem_eachRow h hn
    obtain ⟨time, -, hf⟩ := bind_eq_ok.1 hf
    obtain ⟨value, -, hf⟩ := bind_eq_ok.1 hf
    exact ⟨row, hrow, value, time, hf⟩
  · obtain ⟨row, hrow, hf⟩ := mem_eachRow h hn
    obtain ⟨time, -, hf⟩ := bind_eq_ok.1 hf
    split at hf
    · cases hf
    · obtain ⟨pct, -, hf⟩ := bind_eq_ok.1 hf
      obtain ⟨noisy, -, hf⟩ := bind_eq_ok.1 hf
      split at hf
      · cases hf
      · exact ⟨row, hrow, pct, time, hf⟩
  · next hforecast => exact absurd hforecast hcondition

/-- Whatever is detected carries the recipients that its alert had. -/
theorem recipients_of_evaluate {noise : Float} {a : Alert} {request : QueryRequest}
    {result : QueryResult} {now : Instant} {ns : List Notification} {n : Notification}
    (h : evaluate noise a request result now = .ok ns) (hn : n ∈ ns) :
    n.recipients = a.recipients := by
  by_cases hcondition : a.config.condition = .forecast
  · rw [evaluate_of_forecast hcondition] at h
    obtain ⟨o, ho, rfl⟩ := map_eq_ok.1 h
    rw [Option.mem_toList.1 hn] at ho
    obtain ⟨total, -, hdrawn⟩ := drawn_of_forecast ho
    exact hdrawn.recipients
  · obtain ⟨row, -, value, time, hdetect⟩ := exists_detect hcondition h hn
    exact (drawn_of_detect hdetect).recipients

theorem detected_of_detect {a : Alert} {row : Option Row} {value : Float} {time : Option Instant}
    {now : Instant} {n : Notification} (hday : a.config.interval ≠ .day)
    (h : detect a row value time now = .ok (some n)) : n.detected = now := by
  rw [(drawn_of_detect h).detected]
  cases hinterval : a.config.interval with
  | day => exact absurd hinterval hday
  | _ => rfl

theorem breakdown_of_detect {a : Alert} {row : Row} {value : Float} {time : Option Instant}
    {now : Instant} {n : Notification} {dimension : String}
    (hcondition : a.config.condition ≠ .forecast)
    (hdimension : a.config.breakdown? = some dimension)
    (h : detect a (some row) value time now = .ok (some n)) :
    ∃ v, row.head?.bind Cell.breakdown? = some v ∧ n.breakdown = some v := by
  obtain ⟨b, hb, hbreakdown⟩ := (drawn_of_detect h).breakdown
  simp only [breakdown?, hdimension, if_neg hcondition] at hb
  cases row with
  | nil => cases hb
  | cons cell cells =>
      obtain ⟨v, hv, hb⟩ := bind_eq_ok.1 hb
      obtain ⟨label, -, hb⟩ := bind_eq_ok.1 hb
      cases hb
      refine ⟨v, ?_, hbreakdown⟩
      rw [Cell.breakdownAt] at hv
      split at hv
      next s hs =>
        cases hv
        exact hs
      next => cases hv

end Evaluation

/-- The breakdown values that the rows of a result stand for. -/
def QueryResult.breakdowns (r : QueryResult) : List String :=
  r.rows.filterMap fun row => row.head?.bind Cell.breakdown?

/-- What is detected by value or percentage in a breakdown stands in some row, and unless the
alert is daily it is detected now. -/
theorem mem_evaluate_breakdown {noise : Float} {a : Alert} {request : QueryRequest}
    {result : QueryResult} {now : Instant} {ns : List Notification} {n : Notification}
    {dimension : String} (hcondition : a.config.condition ≠ .forecast)
    (hday : a.config.interval ≠ .day) (hdimension : a.config.breakdown? = some dimension)
    (h : evaluate noise a request result now = .ok ns) (hn : n ∈ ns) :
    n.detected = now ∧ ∃ v ∈ result.breakdowns, n.breakdown = some v := by
  obtain ⟨row, hrow, value, time, hdetect⟩ := Evaluation.exists_detect hcondition h hn
  obtain ⟨v, hv, hbreakdown⟩ := Evaluation.breakdown_of_detect hcondition hdimension hdetect
  exact ⟨Evaluation.detected_of_detect hday hdetect,
    v, List.mem_filterMap.2 ⟨row, hrow, hv⟩, hbreakdown⟩

/-- A forecast gives at most one detection. -/
theorem evaluate_forecast {noise : Float} {a : Alert} {request : QueryRequest}
    {result : QueryResult} {now : Instant} {ns : List Notification}
    (hforecast : a.config.condition = .forecast)
    (h : evaluate noise a request result now = .ok ns) : ns = [] ∨ ∃ n, ns = [n] := by
  simp only [evaluate, hforecast] at h
  obtain ⟨o, -, rfl⟩ := map_eq_ok.1 h
  cases o with
  | none => exact .inl rfl
  | some n => exact .inr ⟨n, rfl⟩

theorem Evaluation.forecastTotal_filters {i : Interval} {request : QueryRequest} {now : Instant}
    (filters : List DimensionFilter) (total : Float) (rows : List Row) :
    forecastTotal i { request with filters } now total rows =
      forecastTotal i request now total rows := by
  induction rows generalizing total with
  | nil => rfl
  | cons row rows ih =>
      simp only [forecastTotal, ih]
      rfl

/-- The filters of a request have no part in how its result is evaluated. -/
theorem evaluate_filters {noise : Float} {a : Alert} {request : QueryRequest}
    {result : QueryResult} {now : Instant} (filters : List DimensionFilter) :
    evaluate noise a { request with filters } result now =
      evaluate noise a request result now := by
  rw [evaluate, evaluate]
  cases a.config.condition with
  | value => rfl
  | percentage => rfl
  | forecast => simp only [Evaluation.forecast, Evaluation.forecastTotal_filters]

namespace Engine

theorem detects_nameFor {a b : Alert} {labels : Table String} {n : Notification}
    (h : n.Detects b) : (nameFor a labels n).Detects b :=
  ⟨h.alertId, h.etag, h.unsent, h.period, h.breakdown⟩

end Engine

end SpendAlerts

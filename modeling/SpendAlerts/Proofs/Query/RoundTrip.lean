import SpendAlerts.Proofs.Document.RoundTrip
import SpendAlerts.Proofs.Evaluation

/-!
Queries and their results round-trip. A cell is written without a mark of its kind, and the kind is
found again because kinds are written as different kinds of documents: whole numbers as integers,
doubles as doubles even where they are whole, comparisons as records. Results that JSON decodes to
have finite cells, also where a whole number beyond 64 bits became a double or a comparison came as
a list, so that writing them again and reading that changes nothing.
-/

namespace SpendAlerts

namespace Cell

theorem ofValue?_ofFloat {x : Float} (h : Decimal.isFinite x = true) :
    ofValue? (.ofFloat x) = some (float x) := by
  rw [Value.ofFloat, if_pos h, ofValue?]

/-- The kind of a cell is known from the document, at every depth of a comparison. -/
theorem ofValue?_encode {c : Cell} (h : c.Finite) : ofValue? c.encode = some c := by
  induction c with
  | null => rw [encode, ofValue?]
  | int n => rw [encode, ofValue?, if_pos ⟨n.minValue_le_toInt, n.toInt_le⟩, Int64.ofInt_toInt]
  | float x => exact ofValue?_ofFloat h
  | text s => rw [encode, ofValue?]
  | comparison pct val ihPct ihVal =>
      simp [encode, ofValue?, cellUnder?, ihPct h.1, ihVal h.2]

theorem decode_encode {c : Cell} (h : c.Finite) : decode c.encode = .ok c := by
  rw [decode, ofValue?_encode h]

mutual

theorem finite_of_ofValue? : ∀ {v : Value} {c : Cell}, v.IsJson → ofValue? v = some c → c.Finite
  | .null, c, _, h => by
      cases h
      trivial
  | .bool _, c, _, h => by cases h
  | .int n, c, hv, h => by
      rw [ofValue?] at h
      split at h
      · cases h
        trivial
      · cases h
        obtain ⟨hlow, hhigh⟩ : -2 ^ 63 ≤ n ∧ n < 2 ^ 64 := hv
        exact Decimal.isFinite_ofInt (by omega)
  | .float x, c, hv, h => by
      cases h
      exact hv
  | .string _, c, _, h => by
      cases h
      trivial
  | .list xs, c, hv, h => by
      rw [ofValue?] at h
      split at h
      next hcells =>
        cases h
        exact ⟨trivial, trivial⟩
      next pct hcells =>
        cases h
        exact ⟨finite_of_cells? hv hcells pct (by simp), trivial⟩
      next pct val hcells =>
        cases h
        exact ⟨finite_of_cells? hv hcells pct (by simp),
          finite_of_cells? hv hcells val (by simp)⟩
      next => cases h
  | .record fields, c, hv, h => by
      rw [ofValue?] at h
      obtain ⟨pct, hpct, h⟩ := Option.bind_eq_some_iff.1 h
      obtain ⟨val, hval, h⟩ := Option.bind_eq_some_iff.1 h
      cases h
      exact ⟨finite_of_cellUnder? hv hpct, finite_of_cellUnder? hv hval⟩

theorem finite_of_cells? : ∀ {vs : List Value} {cs : List Cell}, Value.AllJson vs →
    cells? vs = some cs → ∀ c ∈ cs, c.Finite
  | [], cs, _, h => by
      cases h
      exact List.forall_mem_nil _
  | v :: vs, cs, hvs, h => by
      rw [cells?] at h
      obtain ⟨c, hc, h⟩ := Option.bind_eq_some_iff.1 h
      obtain ⟨cs', hcs, h⟩ := Option.bind_eq_some_iff.1 h
      cases h
      exact List.forall_mem_cons.2 ⟨finite_of_ofValue? hvs.1 hc, finite_of_cells? hvs.2 hcs⟩

theorem finite_of_cellUnder? {name : String} : ∀ {fields : List (String × Value)} {c : Cell},
    Value.FieldsJson fields → cellUnder? name fields = some c → c.Finite
  | [], c, _, h => by
      cases h
      trivial
  | (k, v) :: rest, c, hfields, h => by
      rw [cellUnder?] at h
      split at h
      · exact finite_of_ofValue? hfields.1 h
      · exact finite_of_cellUnder? hfields.2 h

end

theorem makes : Decode.Makes decode Finite := by
  intro v c hv h
  rw [decode] at h
  split at h
  · next hc =>
    cases h
    exact finite_of_ofValue? hv hc
  · cases h

end Cell

namespace QueryResult

theorem decode_encode {r : QueryResult} (h : r.Finite) : decode r.encode = .ok r := by
  have hrows {rows : List (List Cell)} (hrows : ∀ row ∈ rows, ∀ c ∈ row, c.Finite) :
      Decode.list (Decode.list Cell.decode) (encodeRows rows) = .ok rows :=
    Decode.list_map_of_mem fun row hrow =>
      Decode.list_map_of_mem fun c hc => Cell.decode_encode (hrows row hrow c hc)
  obtain ⟨hbuckets, hforecast⟩ := List.forall_mem_append.1 h
  refine Reading.Gives.ofFields ?_ (by simp)
  exact (Reading.Gives.map QueryResult.mk
    (.present rfl (hrows hbuckets))).seq
    (.present rfl (hrows hforecast))

theorem makes : Decode.Makes decode Finite := by
  refine Reading.Makes.decode ((Reading.Makes.map ?_
    (.fieldOr (.list (.list Cell.makes)) (by simp))).seq
    (.fieldOr (.list (.list Cell.makes)) (by simp)))
  intro rows hrows forecastRows hforecastRows
  exact List.forall_mem_append.2 ⟨hrows, hforecastRows⟩

end QueryResult

namespace Reading

/-- One of several records is read when its tag is there and the other fields are read. -/
theorem Gives.decodeTagged {α : Type} {type tag : String} {variants : List (Variant α)}
    {variant : Variant α} {fields : List (String × Value)} {x : α} (name : String)
    (htag : Entries.find? tag fields = some (.string name))
    (hvariant : variants.find? (·.tag = name) = some variant)
    (hr : variant.reading.Gives (fields.filter (·.1 ≠ tag)) x)
    (hn : (fields.map (·.1)).Nodup) :
    Reading.decodeTagged type tag variants (.record fields) = .ok x := by
  have hrest : ((fields.filter (·.1 ≠ tag)).map (·.1)).Nodup :=
    hn.sublist (List.filter_sublist.map _)
  simp only [Reading.decodeTagged, htag, tagOf, hvariant]
  exact hr.ofFields hrest

/-- A field whose presence is all that is read. -/
theorem Gives.flag {name s : String} {choices : List (String × Unit)}
    {fields : List (String × Value)} {b : Bool}
    (hs : Decode.choice choices (.string s) = .ok ())
    (hv : Entries.find? name fields = if b then some (.string s) else none) :
    (Option.isSome <$> Reading.optional name (Decode.choice choices)).Gives fields b := by
  cases b with
  | false => exact .map Option.isSome (.absent hv)
  | true => exact .map Option.isSome (.present hv (Decode.option_of_ok rfl hs))

end Reading

/-! ### Requests -/

def MetricFilter.Storable (f : MetricFilter) : Prop :=
  ∀ x ∈ f.values, Decimal.isFinite x = true

def TimeWindow.Storable : TimeWindow → Prop
  | last _ amount _ => amount < UInt32.size
  | current _ | custom _ _ => True

/-- Every double of the request is finite, its limits have 64 bits and its window 32. -/
structure QueryRequest.Storable (r : QueryRequest) : Prop where
  filters : ∀ f ∈ r.filters, f.Storable
  metricFilters : ∀ f ∈ r.metricFilters, f.Storable
  window : r.window.Storable

theorem MetricFilter.decode_encode {f : MetricFilter} (h : f.Storable) :
    decode f.encode = .ok f := by
  have hvalues := Decode.list_map_of_mem fun x hx => Decode.float_ofFloat (h x hx)
  refine Reading.Gives.ofFields ?_ (by simp)
  exact ((Reading.Gives.map (fun _ values metric => MetricFilter.mk values metric)
    (.present (x := ()) (v := .string "not_between") rfl rfl)).seq
    (.present rfl hvalues)).seq
    (.present rfl f.metric.named_name)

theorem TimeUnit.unit_name (u : TimeUnit) : TimeWindow.unit (.string u.name) = .ok u := by
  cases u <;> rfl

theorem TimeWindow.decode_encode {w : TimeWindow} (h : w.Storable) : decode w.encode = .ok w := by
  cases w with
  | last unit amount includeCurrent =>
      have hamount : Decode.natBelow UInt32.size "u32" (.int amount) = .ok amount := if_pos h
      refine Reading.Gives.decodeTagged "last" rfl rfl ?_ (by simp)
      exact ((Reading.Gives.map last
        (.present rfl unit.unit_name)).seq
        (.present rfl hamount)).seq
        (.present (v := .bool includeCurrent) rfl rfl)
  | current unit =>
      refine Reading.Gives.decodeTagged "current" rfl rfl ?_ (by simp)
      exact .map current (.present rfl unit.unit_name)
  | custom start stop =>
      refine Reading.Gives.decodeTagged "custom" rfl rfl ?_ (by simp)
      exact (Reading.Gives.map custom
        (.present rfl (Decode.instant_text start))).seq
        (.present rfl (Decode.instant_text stop))

theorem QueryRequest.decode_encode {r : QueryRequest} (h : r.Storable) :
    decode r.encode = .ok r := by
  have hmetrics : Decode.list (Decode.named Metric.ofName?) (.strings (r.metrics.map Metric.name)) =
      .ok r.metrics := by
    rw [Value.strings, List.map_map]
    exact Decode.list_map_of_mem fun m _ => m.named_name
  have hfilters := Decode.list_map_of_mem fun f hf => DimensionFilter.decode_encode (h.filters f hf)
  have hmetricFilters :=
    Decode.list_map_of_mem fun f hf => MetricFilter.decode_encode (h.metricFilters f hf)
  refine Reading.Gives.ofFields ?_ ?_
  · refine ((((((((((((((((Reading.Gives.map QueryRequest.mk
      (.present (v := .string r.alertId) ?_ rfl)).seq
      (.present (v := .string r.customerId) ?_ rfl)).seq
      (.optional (f := Value.string) ?_ fun _ => rfl)).seq
      (.present ?_ r.metric.named_name)).seq
      (.present ?_ hmetrics)).seq
      (.optional (f := Value.string) ?_ fun _ => rfl)).seq
      (.optionalOf (f := CalculatedMetric.encode) (fun m _ => ⟨rfl, m.decode_encode⟩) ?_)).seq
      (.present (v := .string r.currency) ?_ rfl)).seq
      (.present (v := .string r.dataSource) ?_ rfl)).seq
      (.present ?_ (Decode.list_strings r.breakdowns))).seq
      (.present ?_ (Decode.list_strings r.timeColumns))).seq
      (.present ?_ r.granularity.named_name)).seq
      (.present ?_ hfilters)).seq
      (.present ?_ hmetricFilters)).seq
      (.present ?_ (TimeWindow.decode_encode h.window))).seq
      (.flag (s := "percentage") rfl ?_)).seq
      (.present (v := .bool r.forecast) ?_ rfl)
    all_goals
      cases hc : r.comparative <;>
        simp [Entries.find?, Entries.find?_append, Value.find?_present]
  · cases hm : r.calculatedMetric <;> cases he : r.extendedMetric <;>
      cases ho : r.organization <;> cases hc : r.comparative <;> simp [Value.present]

/-- Cells, results and requests whose numbers can be written are read as they are, and what was once
decoded as a result from JSON can be written and is read again. -/
theorem query_documents_round_trip :
    (∀ c : Cell, c.Finite → Cell.decode c.encode = .ok c) ∧
    (∀ r : QueryResult, r.Finite → QueryResult.decode r.encode = .ok r) ∧
    (∀ r : QueryRequest, r.Storable → QueryRequest.decode r.encode = .ok r) ∧
    ∀ (v : Value) (r : QueryResult), v.IsJson → QueryResult.decode v = .ok r →
      QueryResult.decode r.encode = .ok r :=
  ⟨fun _ => Cell.decode_encode, fun _ => QueryResult.decode_encode,
    fun _ => QueryRequest.decode_encode,
    fun v r hv hr => QueryResult.decode_encode (QueryResult.makes v r hv hr)⟩

namespace RoundTrip

/-- A result as a list that ends early. Its row has an integer beyond 64 bits, a whole double, and
comparisons as a list and as a record, each with a cell left out. -/
def compared : Value :=
  .list [.list [.list [.string "GKE", .int 9223372036854775808, .float 3.0,
    .list [.list [.float 12.5, .int 80]], .record [("val", .int 80), ("unit", .bool true)]]]]

def row : List Cell :=
  [.text "GKE", .float 9223372036854775808.0, .float 3.0,
    .comparison (.comparison (.float 12.5) (.int 80)) .null, .comparison .null (.int 80)]

theorem decode_compared : QueryResult.decode compared = .ok ⟨[row], []⟩ :=
  toOption_eq_some.1 (by decide +kernel)

/-- The request for a percentage over the last two months without small changes. -/
def changes : QueryRequest where
  alertId := "a1"
  customerId := "acme"
  organization := none
  metric := .cost
  metrics := [.cost]
  extendedMetric := none
  calculatedMetric := none
  currency := "USD"
  dataSource := "billing"
  breakdowns := ["fixed:service_description"]
  timeColumns := ["year", "month"]
  granularity := .month
  filters := [(DimensionFilter.select .fixed "credit" []).limitedTo ⟨10, .desc, .cost⟩]
  metricFilters := [⟨[-5.0, 5.0], .cost⟩]
  window := .last .month 2 true
  comparative := true
  forecast := false

theorem storable_changes : changes.Storable where
  filters f hf := by
    obtain rfl := List.mem_singleton.1 hf
    intro l hl
    cases hl
    exact show 10 < UInt64.size by decide
  metricFilters f hf := by
    obtain rfl := List.mem_singleton.1 hf
    have hbounds : ∀ x ∈ [-5.0, 5.0], Decimal.isFinite x = true := by decide
    exact hbounds
  window := show 2 < UInt32.size by decide

end RoundTrip

open RoundTrip in
/-- A whole double stays one, and what came in other forms is read the same from its own. -/
theorem query_documents_round_trip_compared :
    Cell.decode (Cell.encode (.comparison (.float 3.0) (.int 3))) =
      .ok (.comparison (.float 3.0) (.int 3)) ∧
    QueryRequest.decode changes.encode = .ok changes ∧
    QueryResult.decode compared = .ok ⟨[row], []⟩ ∧
    QueryResult.decode (QueryResult.encode ⟨[row], []⟩) = .ok ⟨[row], []⟩ :=
  have hcompared : compared.IsJson := by
    simp only [compared, Value.IsJson, Value.AllJson, Value.FieldsJson]
    decide
  have hcell : (Cell.comparison (.float 3.0) (.int 3)).Finite :=
    ⟨show Decimal.isFinite 3.0 = true by decide, trivial⟩
  ⟨query_documents_round_trip.1 _ hcell,
    query_documents_round_trip.2.2.1 changes storable_changes, decode_compared,
    query_documents_round_trip.2.2.2 compared ⟨[row], []⟩ hcompared decode_compared⟩

end SpendAlerts

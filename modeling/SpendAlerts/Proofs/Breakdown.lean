import SpendAlerts.Proofs.Store.Queries
import SpendAlerts.Query.Build
import Mathlib.Data.List.Dedup
import Mathlib.Data.List.Perm.Subperm

/-!
Plans and requests over documents. A plan is made from one query over the notifications, so
a request is a function of the documents, except that it fails in a cancelled context. The
filter that keeps a request within its plan excludes what is recorded already and limits the
rest to what is left of the budget.
-/

namespace SpendAlerts

open NotificationStore

open StoreM

namespace NotificationStore

variable {etag alertId period : String} {d d' : Documents}

def periodFilters (etag alertId period : String) : List FieldFilter :=
  [.textEquals "etag" etag, .textEquals "alertId" alertId, .textEquals "period" period]

/-- The breakdown values recorded in some documents for an etag, an alert and a period. -/
def breakdownsIn (etag alertId period : String) (d : Documents) :
    Except Fault DetectedBreakdowns := do
  let ns ← decodeAll (d.matching collectionName (periodFilters etag alertId period))
  .ok (breakdownsOf ns)

theorem peeks_detectedBreakdowns (etag alertId period : String) :
    Peeks (detectedBreakdowns etag alertId period) (breakdownsIn etag alertId period) :=
  (peeks_select _).bind fun _ _ => rfl

/-- The unsent notifications that are stored for an etag, an alert and a period. -/
def unsentIn (etag alertId period : String) (d : Documents) : List (String × Value) :=
  (d.matching collectionName (periodFilters etag alertId period)).filter fun e =>
    (FieldFilter.isNull "timeSent").holds e.2

theorem holds_periodFilters {n : Notification} :
    (periodFilters etag alertId period).all (·.holds n.encode) = true ↔
      n.etag = etag ∧ n.alertId = alertId ∧ n.period = period := by
  simp [periodFilters, Notification.holds_etag, Notification.holds_alertId,
    Notification.holds_period]

theorem mem_unsentIn (hd : Keyed d) {e : String × Value} : e ∈ unsentIn etag alertId period d ↔
    ∃ n : Notification, n.entry = e ∧ document? d n.key = some n.encode ∧ n.etag = etag ∧
      n.alertId = alertId ∧ n.period = period ∧ n.sent = none := by
  rw [unsentIn, List.mem_filter]
  constructor
  · rintro ⟨hmem, hunsent⟩
    obtain ⟨n, rfl⟩ := exists_entry_of_mem_matching hd _ e hmem
    obtain ⟨hstored, hholds⟩ := Documents.mem_matching.1 hmem
    obtain ⟨hetag, hid, hperiod⟩ := holds_periodFilters.1 hholds
    exact ⟨n, rfl, hstored, hetag, hid, hperiod, n.holds_isNull_timeSent.1 hunsent⟩
  · rintro ⟨n, rfl, hstored, hetag, hid, hperiod, hunsent⟩
    exact ⟨Documents.mem_matching.2 ⟨hstored, holds_periodFilters.2 ⟨hetag, hid, hperiod⟩⟩,
      n.holds_isNull_timeSent.2 hunsent⟩

/-- What is unsent in the second documents is unsent in the first, or under other keys. -/
theorem length_unsentIn_le {keys : List String}
    (h : ∀ e ∈ unsentIn etag alertId period d',
      e.1 ∈ (unsentIn etag alertId period d).map (·.1) ∨ e.1 ∈ keys) :
    (unsentIn etag alertId period d').length ≤
      (unsentIn etag alertId period d).length + keys.length := by
  have hnodup : ((unsentIn etag alertId period d').map (·.1)).Nodup :=
    (d'.nodup_matching _ _).sublist (List.filter_sublist.map _)
  have hsubset : (unsentIn etag alertId period d').map (·.1) ⊆
      (unsentIn etag alertId period d).map (·.1) ++ keys := by
    intro k hk
    obtain ⟨e, he, rfl⟩ := List.mem_map.1 hk
    exact List.mem_append.2 (h e he)
  simpa using (List.subperm_of_subset hnodup hsubset).length_le

theorem length_unsentIn_mono
    (h : ∀ e ∈ unsentIn etag alertId period d',
      e.1 ∈ (unsentIn etag alertId period d).map (·.1)) :
    (unsentIn etag alertId period d').length ≤ (unsentIn etag alertId period d).length := by
  have hle : (unsentIn etag alertId period d').length ≤
      (unsentIn etag alertId period d).length + ([] : List String).length :=
    length_unsentIn_le fun e he => .inl (h e he)
  exact hle

/-- What is stored for an etag, an alert and a period can be read. -/
def ReadableIn (etag alertId period : String) (d : Documents) : Prop :=
  ∀ e ∈ d.matching collectionName (periodFilters etag alertId period), ∃ n, decode e.2 = .ok n

theorem exists_breakdownsIn : (∃ recorded, breakdownsIn etag alertId period d = .ok recorded) ↔
    ReadableIn etag alertId period d := by
  rw [ReadableIn, ← exists_decodeAll]
  constructor
  · rintro ⟨recorded, h⟩
    obtain ⟨ns, hns, -⟩ := bind_eq_ok.1 h
    exact ⟨ns, hns⟩
  · rintro ⟨ns, hns⟩
    exact ⟨breakdownsOf ns, bind_eq_ok.2 ⟨ns, hns, rfl⟩⟩

theorem breakdownsIn_eq_ok {recorded : DetectedBreakdowns} (hd : Keyed d)
    (h : breakdownsIn etag alertId period d = .ok recorded) :
    recorded.unsent = (unsentIn etag alertId period d).length ∧
      ∀ (n : Notification) (v : String), document? d n.key = some n.encode → n.etag = etag →
        n.alertId = alertId → n.period = period → n.breakdown = some v → v ∈ recorded.values := by
  obtain ⟨ns, hns, h⟩ := bind_eq_ok.1 h
  cases h
  refine ⟨?_, ?_⟩
  · obtain ⟨hdocs, -⟩ := (decodeAll_eq_ok (exists_entry_of_mem_matching hd _)).1 hns
    rw [unsentIn, hdocs, List.filter_map, List.length_map]
    refine congrArg List.length (List.filter_congr ?_)
    intro n _
    cases hsent : n.sent with
    | none => simp [Notification.isSent, hsent, Notification.entry, Notification.holds_unsent]
    | some t => simp [Notification.isSent, hsent, Notification.entry, Notification.holds_unsent]
  · intro n v hstored hetag hid hperiod hv
    have hmem := (mem_select hd hns).2 ⟨hstored, holds_periodFilters.2 ⟨hetag, hid, hperiod⟩⟩
    exact List.mem_filterMap.2 ⟨n, hmem, hv⟩

end NotificationStore

/-- The plan of an alert over the documents of notifications. -/
def BreakdownPlan.ofDocuments (limit : Nat) (a : Alert) (now : Instant) (d : Documents) :
    Except Fault BreakdownPlan := do
  let period ← Period.name? a.config.interval now
  if a.config.interval = .day then .ok ⟨period, [], limit⟩
  else
    let recorded ← breakdownsIn a.etag a.id period d
    .ok ⟨period, recorded.values, limit - recorded.unsent⟩

theorem BreakdownPlan.peeks_forAlert (limit : Nat) (a : Alert) (now : Instant) :
    Peeks (forAlert limit a now) (ofDocuments limit a now) := by
  unfold forAlert ofDocuments
  cases Period.name? a.config.interval now with
  | error e => exact .of_eq fun _ => rfl
  | ok period =>
      by_cases hday : a.config.interval = .day
      · simp only [hday, if_true]
        exact .of_eq fun _ => rfl
      · simp only [hday, if_false, ok_bind]
        exact (peeks_detectedBreakdowns _ _ _).bind fun _ _ => rfl

namespace BreakdownPlan

variable {limit : Nat} {a : Alert} {now : Instant} {d : Documents} {plan : BreakdownPlan}

/-- Unless an alert is daily, its plan excludes what is recorded for the period in effect, and
leaves what the limit leaves beside the unsent ones. -/
theorem ofDocuments_eq_ok (hday : a.config.interval ≠ .day) :
    ofDocuments limit a now d = .ok plan ↔
      ∃ recorded, Period.name? a.config.interval now = .ok plan.period ∧
        breakdownsIn a.etag a.id plan.period d = .ok recorded ∧
        plan.excluded = recorded.values ∧ plan.quota = limit - recorded.unsent := by
  obtain ⟨period, excluded, quota⟩ := plan
  rw [ofDocuments, bind_eq_ok]
  simp only [hday, if_false]
  constructor
  · rintro ⟨_, hperiod, h⟩
    obtain ⟨recorded, hrecorded, h⟩ := bind_eq_ok.1 h
    cases h
    exact ⟨recorded, hperiod, hrecorded, rfl, rfl⟩
  · rintro ⟨recorded, hperiod, hrecorded, hexcluded, hquota⟩
    subst hexcluded hquota
    exact ⟨period, hperiod, bind_eq_ok.2 ⟨recorded, hrecorded, rfl⟩⟩

theorem filter?_eq_some {config : AlertConfig} {dimension : String} {f : DimensionFilter}
    (h : plan.filter? config dimension = .ok (some f)) : plan.quota ≠ 0 ∧ f.id = dimension ∧
      f.inverse = true ∧ f.values = plan.excluded ∧
      ∃ l, f.limit = some l ∧ l.limit = plan.quota := by
  rw [filter?] at h
  split at h
  · cases h
  · next hexhausted =>
    rw [isExhausted, decide_eq_true_iff] at hexhausted
    rw [DimensionFilter.ofDimension?] at h
    cases hsplit : Dimension.split? dimension with
    | error e =>
        rw [hsplit] at h
        cases h
    | ok parts =>
        rw [hsplit] at h
        cases h
        exact ⟨hexhausted, rfl, rfl, rfl, _, rfl, rfl⟩

end BreakdownPlan

namespace QueryRequest

/-- The filter that limits the breakdown of a request: the last one that excludes some of its
values and limits the others. -/
def breakdownFilter? (r : QueryRequest) : Option (DimensionFilter × FilterLimit) :=
  r.filters.reverse.findSome? fun f =>
    if f.inverse ∧ r.breakdowns.head? = some f.id then f.limit.map (f, ·) else none

theorem breakdownFilter?_of_assemble {a : Alert} {now : Instant} {f : DimensionFilter}
    {l : FilterLimit} {r : QueryRequest} (h : assemble a [f] now = .ok r)
    (hbreakdown : a.config.breakdown? = some f.id) (hinverse : f.inverse = true)
    (hlimit : f.limit = some l) : r.breakdownFilter? = some (f, l) := by
  obtain ⟨window, -, h⟩ := bind_eq_ok.1 h
  obtain ⟨columns, -, h⟩ := bind_eq_ok.1 h
  cases h
  -- The only filter behind that of the breakdown leaves out discounts and has no limit.
  have hbehind :
      (if a.config.condition = .percentage then [discountFilter] else []).reverse.findSome?
        (fun g => if g.inverse ∧ a.config.breakdowns.head? = some g.id then g.limit.map (g, ·)
          else none) = none := by
    split
    · simp [discountFilter, DimensionFilter.select, DimensionFilter.excluding]
    · rfl
  rw [AlertConfig.breakdown?] at hbreakdown
  simp only [breakdownFilter?, List.reverse_append, List.findSome?_append, hbehind,
    Option.none_or]
  simp [hinverse, hbreakdown, hlimit]

/-- The request that keeps within a plan, or none if nothing is left of it. -/
def within (a : Alert) (now : Instant) (dimension : String) (plan : BreakdownPlan) :
    Except Fault (Option QueryRequest) := do
  match ← plan.filter? a.config dimension with
  | none => .ok none
  | some filter => (assemble a [filter] now).map some

/-- The request of an alert over the documents of notifications. -/
def ofDocuments (limit : Nat) (a : Alert) (now : Instant) (d : Documents) :
    Except Fault (Option QueryRequest) :=
  match a.config.breakdown? with
  | none => (assemble a [] now).map some
  | some dimension => BreakdownPlan.ofDocuments limit a now d >>= within a now dimension

/-- A request has no filter of a breakdown, or the one that keeps it within its plan. -/
theorem ofDocuments_cases {limit : Nat} {a : Alert} {now : Instant} {d : Documents}
    {r : QueryRequest} (h : ofDocuments limit a now d = .ok (some r)) :
    (a.config.breakdown? = none ∧ assemble a [] now = .ok r) ∨
      ∃ dimension plan filter, a.config.breakdown? = some dimension ∧
        BreakdownPlan.ofDocuments limit a now d = .ok plan ∧
        plan.filter? a.config dimension = .ok (some filter) ∧
        assemble a [filter] now = .ok r := by
  rw [ofDocuments] at h
  cases hbreakdown : a.config.breakdown? with
  | none =>
      rw [hbreakdown] at h
      obtain ⟨_, hassemble, heq⟩ := map_eq_ok.1 h
      cases heq
      exact .inl ⟨rfl, hassemble⟩
  | some dimension =>
      rw [hbreakdown] at h
      obtain ⟨plan, hplan, hwithin⟩ := bind_eq_ok.1 h
      obtain ⟨filter, hfilter, hassemble⟩ := bind_eq_ok.1 hwithin
      cases filter with
      | none => cases hassemble
      | some filter =>
          obtain ⟨_, hassemble, heq⟩ := map_eq_ok.1 hassemble
          cases heq
          exact .inr ⟨dimension, plan, filter, rfl, hplan, hfilter, hassemble⟩

theorem exists_assemble {limit : Nat} {a : Alert} {now : Instant} {d : Documents}
    {r : QueryRequest} (h : ofDocuments limit a now d = .ok (some r)) :
    ∃ filters, assemble a filters now = .ok r := by
  obtain ⟨-, h⟩ | ⟨_, _, filter, -, -, -, h⟩ := ofDocuments_cases h
  · exact ⟨_, h⟩
  · exact ⟨_, h⟩

/-- Requests of one alert at one time differ in their filters only. -/
theorem eq_of_assemble {a : Alert} {now : Instant} {fs gs : List DimensionFilter}
    {r r' : QueryRequest} (h : assemble a fs now = .ok r) (h' : assemble a gs now = .ok r') :
    r' = { r with filters := r'.filters } := by
  obtain ⟨window, hwindow, h⟩ := bind_eq_ok.1 h
  obtain ⟨columns, hcolumns, h⟩ := bind_eq_ok.1 h
  obtain ⟨window', hwindow', h'⟩ := bind_eq_ok.1 h'
  obtain ⟨columns', hcolumns', h'⟩ := bind_eq_ok.1 h'
  cases hwindow.symm.trans hwindow'
  cases hcolumns.symm.trans hcolumns'
  cases h
  cases h'
  rfl

theorem within_eq_none {a : Alert} {now : Instant} {dimension : String} {plan : BreakdownPlan} :
    within a now dimension plan = .ok none ↔ plan.quota = 0 := by
  constructor
  · intro h
    obtain ⟨filter, hfilter, h⟩ := bind_eq_ok.1 h
    cases filter with
    | none =>
        by_contra hleft
        rw [BreakdownPlan.filter?, BreakdownPlan.isExhausted] at hfilter
        simp only [hleft, decide_false, Bool.false_eq_true, if_false] at hfilter
        split at hfilter
        · cases hfilter
        · cases hfilter
    | some f =>
        obtain ⟨_, -, h⟩ := map_eq_ok.1 h
        cases h
  · intro h
    simp [within, BreakdownPlan.filter?, BreakdownPlan.isExhausted, h]

/-- There is no request exactly if what is recorded for the period can be read, and the unsent
notifications use up the limit. -/
theorem ofDocuments_eq_none {limit : Nat} {a : Alert} {now : Instant} {d : Documents}
    {dimension period : String} (hday : a.config.interval ≠ .day)
    (hdimension : a.config.breakdown? = some dimension)
    (hperiod : Period.name? a.config.interval now = .ok period) :
    ofDocuments limit a now d = .ok none ↔
      ∃ recorded, breakdownsIn a.etag a.id period d = .ok recorded ∧ limit ≤ recorded.unsent := by
  simp only [ofDocuments, hdimension]
  constructor
  · intro h
    obtain ⟨plan, hplan, hwithin⟩ := bind_eq_ok.1 h
    obtain ⟨recorded, hname, hrecorded, -, hquota⟩ :=
      (BreakdownPlan.ofDocuments_eq_ok hday).1 hplan
    cases hperiod.symm.trans hname
    refine ⟨recorded, hrecorded, Nat.sub_eq_zero_iff_le.1 ?_⟩
    rw [← hquota]
    exact within_eq_none.1 hwithin
  · rintro ⟨recorded, hrecorded, hle⟩
    have hplan : BreakdownPlan.ofDocuments limit a now d =
        .ok ⟨period, recorded.values, limit - recorded.unsent⟩ :=
      (BreakdownPlan.ofDocuments_eq_ok hday).2 ⟨recorded, hperiod, hrecorded, rfl, rfl⟩
    exact bind_eq_ok.2 ⟨_, hplan, within_eq_none.2 (Nat.sub_eq_zero_iff_le.2 hle)⟩

/-- There is neither a request nor a plan without one if what is recorded for the period cannot
be read. -/
theorem ofDocuments_of_unreadable {limit : Nat} {a : Alert} {now : Instant} {d : Documents}
    {dimension period : String} (hday : a.config.interval ≠ .day)
    (hdimension : a.config.breakdown? = some dimension)
    (hperiod : Period.name? a.config.interval now = .ok period)
    (hunreadable : ¬ReadableIn a.etag a.id period d) :
    ∃ e, ofDocuments limit a now d = .error e := by
  cases h : ofDocuments limit a now d with
  | error e => exact ⟨e, rfl⟩
  | ok built =>
      simp only [ofDocuments, hdimension] at h
      obtain ⟨plan, hplan, -⟩ := bind_eq_ok.1 h
      obtain ⟨recorded, hname, hrecorded, -⟩ := (BreakdownPlan.ofDocuments_eq_ok hday).1 hplan
      cases hperiod.symm.trans hname
      exact absurd (exists_breakdownsIn.1 ⟨recorded, hrecorded⟩) hunreadable

theorem map_ofExcept_apply {α β : Type} (f : α → β) (x : Except Fault α) (s : Session) :
    (f <$> StoreM.ofExcept x) s = (x.map f, s) := by
  cases x with
  | error e => rfl
  | ok y => rfl

theorem peeks_build (limit : Nat) (a : Alert) (now : Instant) :
    Peeks (build limit a now) (ofDocuments limit a now) := by
  unfold build ofDocuments
  cases a.config.breakdown? with
  | none => exact .of_eq fun s => map_ofExcept_apply some _ s
  | some dimension =>
      refine (BreakdownPlan.peeks_forAlert limit a now).bind ?_
      intro plan s
      rw [within, bind_apply, StoreM.ofExcept_apply]
      cases plan.filter? a.config dimension with
      | error e => rfl
      | ok filter =>
          cases filter with
          | none => rfl
          | some f => exact map_ofExcept_apply some _ s

end QueryRequest

end SpendAlerts

import SpendAlerts.Proofs.Engine.History
import SpendAlerts.Proofs.Evaluation.Rows
import SpendAlerts.Proofs.Key

/-!
Keys of the detections of one refresh. A key tells period and breakdown value of a detection, and
of two rows of a daily alert either the day or the breakdown value differs, so their detections
are kept apart. All other alerts detect at the time of the evaluation: there the bucket of a row
has no part in the key, and detections are kept apart exactly if their breakdown values differ.
-/

namespace SpendAlerts

theorem Notification.Detects.key_eq_iff {n m : Notification} {a : Alert} (hn : n.Detects a)
    (hm : m.Detects a) : n.key = m.key ↔ n.period = m.period ∧ n.breakdown = m.breakdown :=
  Notification.key_eq_iff (hn.alertId.trans hm.alertId.symm)
    (Period.separator_notMem_name? hn.period) (Period.separator_notMem_name? hm.period)

namespace QueryRequest

open Evaluation (Row)

/-- The breakdown value that a row starts with, if rows are broken down. -/
def label? (r : QueryRequest) (row : Row) : Option String :=
  if r.breakdowns = [] then none else row.head?.bind Cell.breakdown?

/-- The numbers in the time columns of a row. -/
def bucket? (r : QueryRequest) (row : Row) : Option (List Int64) :=
  ((row.drop r.breakdowns.length).take r.timeColumns.length).mapM Cell.int?

/-- The rows have the same breakdown value and the same time bucket. -/
def Repeats (r : QueryRequest) (row row' : Row) : Prop :=
  r.label? row = r.label? row' ∧ r.bucket? row = r.bucket? row' ∧ r.bucket? row ≠ none

instance (r : QueryRequest) (row row' : Row) : Decidable (r.Repeats row row') :=
  inferInstanceAs (Decidable (_ ∧ _ ∧ _))

end QueryRequest

namespace Evaluation

variable {a : Alert} {request : QueryRequest} {noise : Float} {now : Instant} {row row' : Row}
  {n m : Notification}

/-! ### What a detection takes from its row -/

theorem exists_detect_of_judge (h : judge noise a request now row = .ok (some n)) :
    ∃ x time, rowTime a.config.interval request row = .ok time ∧
      detect a (some row) x time now = .ok (some n) := by
  rw [judge] at h
  split at h
  · obtain ⟨time, htime, h⟩ := bind_eq_ok.1 h
    split at h
    · cases h
    obtain ⟨x, -, h⟩ := bind_eq_ok.1 h
    obtain ⟨noisy, -, h⟩ := bind_eq_ok.1 h
    split at h
    · cases h
    · exact ⟨x, time, htime, h⟩
  · obtain ⟨time, htime, h⟩ := bind_eq_ok.1 h
    obtain ⟨x, -, h⟩ := bind_eq_ok.1 h
    exact ⟨x, time, htime, h⟩

theorem detects_of_judge (h : judge noise a request now row = .ok (some n)) : n.Detects a := by
  obtain ⟨x, time, -, hdetect⟩ := exists_detect_of_judge h
  exact (drawn_of_detect hdetect).detects

theorem breakdown_of_judge (hr : request.ShapedFor a.config)
    (hcondition : a.config.condition ≠ .forecast)
    (h : judge noise a request now row = .ok (some n)) : n.breakdown = request.label? row := by
  obtain ⟨x, time, -, hdetect⟩ := exists_detect_of_judge h
  rw [QueryRequest.label?, hr.breakdowns]
  cases hdimension : a.config.breakdown? with
  | none =>
      rw [if_pos (List.head?_eq_none_iff.1 hdimension)]
      exact (drawn_of_detect hdetect).detects.breakdown hdimension
  | some dimension =>
      have hne : a.config.breakdowns ≠ [] := by
        intro hnil
        rw [AlertConfig.breakdown?, hnil] at hdimension
        cases hdimension
      obtain ⟨v, hv, hbreakdown⟩ := breakdown_of_detect hcondition hdimension hdetect
      rw [if_neg hne, hv, hbreakdown]

/-- A daily detection is dated by its row. -/
theorem rowDate_of_judge (hday : a.config.interval = .day)
    (h : judge noise a request now row = .ok (some n)) :
    rowDate request row false = .ok n.detected := by
  obtain ⟨x, time, htime, hdetect⟩ := exists_detect_of_judge h
  rw [rowTime, if_pos hday] at htime
  obtain ⟨date, hdate, rfl⟩ := map_eq_ok.1 htime
  rw [(drawn_of_detect hdetect).detected, hday]
  exact hdate

theorem detected_of_judge (hday : a.config.interval ≠ .day)
    (h : judge noise a request now row = .ok (some n)) : n.detected = now := by
  obtain ⟨x, time, -, hdetect⟩ := exists_detect_of_judge h
  exact detected_of_detect hday hdetect

/-- The time columns of a daily row hold the numbers of its date. -/
theorem bucket?_of_rowDate (hcolumns : request.timeColumns = ["year", "month", "day"]) {d : Date}
    (h : rowDate request row false = .ok (.midnight d)) :
    ∃ y m k : Int64, request.bucket? row = some [y, m, k] ∧ y.toInt = d.year ∧
      m.toInt = d.month ∧ k.toInt = d.day := by
  obtain ⟨-, year, month, day, rest, hdrop, y, m, k, hints, hdate⟩ := cells_of_rowDate hcolumns h
  change row.drop request.breakdowns.length = _ at hdrop
  refine ⟨y, m, k, ?_, hdate⟩
  rw [QueryRequest.bucket?, hcolumns, hdrop]
  exact hints

/-- Rows of one date have the same bucket. -/
theorem bucket?_eq_of_rowDate (hcolumns : request.timeColumns = ["year", "month", "day"])
    {date date' : Instant} (h : rowDate request row false = .ok date)
    (h' : rowDate request row' false = .ok date') (hdate : date.date = date'.date) :
    request.bucket? row = request.bucket? row' ∧ request.bucket? row ≠ none := by
  obtain ⟨d, rfl⟩ := rowDate_eq_midnight h
  obtain ⟨d', rfl⟩ := rowDate_eq_midnight h'
  obtain rfl : d = d' := hdate
  obtain ⟨y, m, k, hbucket, hy, hm, hk⟩ := bucket?_of_rowDate hcolumns h
  obtain ⟨y', m', k', hbucket', hy', hm', hk'⟩ := bucket?_of_rowDate hcolumns h'
  obtain rfl : y = y' := Int64.toInt_inj.1 (hy.trans hy'.symm)
  obtain rfl : m = m' := Int64.toInt_inj.1 (hm.trans hm'.symm)
  obtain rfl : k = k' := Int64.toInt_inj.1 (hk.trans hk'.symm)
  rw [hbucket, hbucket']
  exact ⟨rfl, Option.some_ne_none _⟩

/-! ### Detections that are kept apart -/

theorem eachRow_pairwise {f : Row → Except Fault (Option Notification)} {R : Row → Row → Prop}
    {S : Notification → Notification → Prop} {rows : List Row} {ns : List Notification}
    (hRS : ∀ row row' n n', f row = .ok (some n) → f row' = .ok (some n') → R row row' → S n n')
    (hrows : rows.Pairwise R) (h : eachRow f rows = .ok ns) : ns.Pairwise S := by
  induction rows generalizing ns with
  | nil =>
      cases h
      exact .nil
  | cons row rows ih =>
      obtain ⟨hfirst, hrows⟩ := List.pairwise_cons.1 hrows
      obtain ⟨o, ho, h⟩ := bind_eq_ok.1 h
      obtain ⟨ms, hms, h⟩ := bind_eq_ok.1 h
      cases h
      cases o with
      | none => exact ih hrows hms
      | some n =>
          refine List.pairwise_cons.2 ⟨fun m hm => ?_, ih hrows hms⟩
          obtain ⟨row', hrow', hf⟩ := mem_eachRow hms hm
          exact hRS row row' n m ho hf (hfirst row' hrow')

theorem daily_key_ne (hr : request.ShapedFor a.config)
    (hcondition : a.config.condition ≠ .forecast) (hday : a.config.interval = .day)
    (hn : judge noise a request now row = .ok (some n))
    (hm : judge noise a request now row' = .ok (some m)) (hrows : ¬ request.Repeats row row') :
    n.key ≠ m.key := by
  intro hkey
  have hdetects := detects_of_judge hn
  have hdetects' := detects_of_judge hm
  obtain ⟨hperiod, hbreakdown⟩ := (hdetects.key_eq_iff hdetects').1 hkey
  have hgranularity : request.granularity = .day := by
    rw [hr.granularity, QueryRequest.granularityFor, if_neg hcondition, hday]
  have hname := hdetects.period
  have hname' := hdetects'.period
  rw [hday, ← hperiod] at hname'
  rw [hday] at hname
  obtain ⟨hbucket, hsome⟩ := bucket?_eq_of_rowDate (timeColumns_of_day hr hgranularity)
    (rowDate_of_judge hday hn) (rowDate_of_judge hday hm)
    (Period.shared_of_name?_eq hname hname')
  refine hrows ⟨?_, hbucket, hsome⟩
  rw [← breakdown_of_judge hr hcondition hn, ← breakdown_of_judge hr hcondition hm, hbreakdown]

end Evaluation

open Evaluation in
/-- Detections of one refresh whose rows do not repeat each other have different keys exactly if
the alert is daily, or a forecast, or their breakdown values differ. -/
theorem nodup_keys_iff {noise : Float} {a : Alert} {request : QueryRequest} {result : QueryResult}
    {now : Instant} {ns : List Notification} (hr : request.ShapedFor a.config)
    (hrows : result.rows.Pairwise fun row row' => ¬ request.Repeats row row')
    (h : evaluate noise a request result now = .ok ns) :
    (ns.map Notification.key).Nodup ↔ a.config.interval = .day ∨ a.config.condition = .forecast ∨
      (ns.map Notification.breakdown).Nodup := by
  have hkey (n : Notification) (hn : n ∈ ns) (m : Notification) (hm : m ∈ ns) :
      n.key = m.key ↔ n.period = m.period ∧ n.breakdown = m.breakdown :=
    (mem_evaluate h hn).1.key_eq_iff (mem_evaluate h hm).1
  by_cases hforecast : a.config.condition = .forecast
  · refine iff_of_true ?_ (.inr (.inl hforecast))
    obtain rfl | ⟨n, rfl⟩ := evaluate_forecast hforecast h
    · exact .nil
    · exact List.nodup_singleton _
  rw [evaluate_eq_eachRow hforecast] at h
  by_cases hday : a.config.interval = .day
  · refine iff_of_true (List.pairwise_map.2 ?_) (.inl hday)
    exact eachRow_pairwise (fun _ _ _ _ => daily_key_ne hr hforecast hday) hrows h
  · simp only [hday, hforecast, false_or, List.Nodup, List.pairwise_map]
    refine List.Pairwise.iff_of_mem fun {n m} hn hm => not_congr ?_
    have hperiod : n.period = m.period := by
      obtain ⟨row, -, hjudge⟩ := mem_eachRow h hn
      obtain ⟨row', -, hjudge'⟩ := mem_eachRow h hm
      have hname := (detects_of_judge hjudge).period
      have hname' := (detects_of_judge hjudge').period
      rw [detected_of_judge hday hjudge] at hname
      rw [detected_of_judge hday hjudge'] at hname'
      exact Except.ok.inj (hname.symm.trans hname')
    rw [hkey n hn m hm, and_iff_right hperiod]

namespace Engine

open NotificationStore

/-- Detections with different keys that are written each have a document of their own. -/
theorem addAll_of_nodup {c : Collaborators} {etag : String} {ns written : List Notification}
    {s s' : State} (hkeys : (ns.map Notification.key).Nodup)
    (h : addAll c etag ns s = (.ok written, s')) :
    written.Sublist ns ∧ (written.map Notification.key).Nodup ∧
      (∀ n ∈ written, document? s'.notifications n.key = some n.encode) ∧
      ∀ k, (∀ n ∈ written, n.key ≠ k) →
        document? s'.notifications k = document? s.notifications k := by
  obtain ⟨-, -, written', hpart, hrecords, ⟨e, hr⟩ | hr⟩ := addAll_cases h
  · cases hr
  cases hr
  have hnodup : (written.map Notification.key).Nodup :=
    hkeys.sublist (hpart.map Notification.key)
  refine ⟨hpart, hnodup, fun n hn => ?_, fun k hk => ?_⟩
  · obtain ⟨hother, -⟩ | ⟨m, hm, hkey, hdoc, -⟩ := hrecords.document?_cases n.key
    · exact absurd rfl (hother n hn)
    · rwa [List.inj_on_of_nodup_map hnodup hm hn hkey] at hdoc
  · obtain ⟨-, hsame⟩ | ⟨m, hm, hkey, -⟩ := hrecords.document?_cases k
    · exact hsame
    · exact absurd hkey (hk m hm)

/-- Where no two rows of a result stand for one breakdown value and one time bucket, detections
have different keys exactly if the alert is daily, or a forecast, or their breakdown values
differ. Then each of those written, under whatever names, has a document of its own. -/
theorem detections_kept_apart {limit : Nat} {noise : Float} {a : Alert} {now : Instant}
    {session session' : Session} {request : QueryRequest} {result : QueryResult}
    {ns : List Notification}
    (hbuild : QueryRequest.build limit a now session = (.ok (some request), session'))
    (hrows : result.rows.Pairwise fun row row' => ¬ request.Repeats row row')
    (h : evaluate noise a request result now = .ok ns) :
    ((ns.map Notification.key).Nodup ↔ a.config.interval = .day ∨
      a.config.condition = .forecast ∨ (ns.map Notification.breakdown).Nodup) ∧
    ((ns.map Notification.key).Nodup → ∀ (c : Collaborators) (etag : String)
      (named written : List Notification) (s s' : State),
      named.map Notification.key = ns.map Notification.key →
      addAll c etag named s = (.ok written, s') →
      written.Sublist named ∧ (written.map Notification.key).Nodup ∧
        (∀ n ∈ written, document? s'.notifications n.key = some n.encode) ∧
        ∀ k, (∀ n ∈ written, n.key ≠ k) →
          document? s'.notifications k = document? s.notifications k) := by
  refine ⟨nodup_keys_iff (QueryRequest.shapedFor_of_build hbuild) hrows h, ?_⟩
  intro hkeys c etag named written s s' hnamed hadd
  exact addAll_of_nodup (hnamed ▸ hkeys) hadd

namespace Sample

open Evaluation (Row)

/-- Changes of two services on one day, and of one of them on the day before. -/
def serviceRows : List Row :=
  [Layout.row,
    [.text "Run", .int 2024, .int 5, .int 14, .float 60.0, .float 40.0,
      .comparison (.float 30.0) .null, .comparison (.float 12.0) .null],
    [.text "GKE", .int 2024, .int 5, .int 13, .float 96.0, .float 70.0,
      .comparison (.float 40.0) .null, .comparison (.float 20.0) .null]]

/-- A store in which the detection of one service of the later day is sent. -/
def serviceSent : State :=
  runs .empty
    [step may ⟨[Layout.row], []⟩ (.put (alert Layout.daily.config)),
      step may ⟨[Layout.row], []⟩ (.refresh "a1"), step may ⟨[Layout.row], []⟩ (.digest "acme")]

/-- Costs of two weeks. -/
def weekRows : List Row :=
  [[.int 2024, .int 19, .float 30.0], [.int 2024, .int 20, .float 40.0]]

def weekly : Alert := alert (.ofThreshold .value .greater 20.0 .cost .week)

end Sample

open Sample in
/-- Of three detections of a day one has been sent and stays, and the others are stored. -/
theorem detections_kept_apart_services : ∃ ns written s',
    evaluate 5.0 Layout.daily Layout.request ⟨serviceRows, []⟩ Layout.may = .ok ns ∧
    ns.map Notification.key = ["a1_2024-05-14_R0tF", "a1_2024-05-14_UnVu", "a1_2024-05-13_R0tF"] ∧
    addAll collaborators "v1" (ns.map (nameFor Layout.daily ∅)) serviceSent = (.ok written, s') ∧
    written.map Notification.key = ["a1_2024-05-14_UnVu", "a1_2024-05-13_R0tF"] ∧
    ((ns.map Notification.key).Nodup ↔ Layout.daily.config.interval = .day ∨
      Layout.daily.config.condition = .forecast ∨ (ns.map Notification.breakdown).Nodup) ∧
    (∀ n ∈ written, document? s'.notifications n.key = some n.encode) ∧
    document? s'.notifications "a1_2024-05-14_R0tF" =
      document? serviceSent.notifications "a1_2024-05-14_R0tF" := by
  have hrows : serviceRows.Pairwise fun row row' => ¬ Layout.request.Repeats row row' := by
    decide +kernel
  have hfacts : (evaluate 5.0 Layout.daily Layout.request ⟨serviceRows, []⟩
      Layout.may).toOption.map (fun ns => (ns.map Notification.key,
        (addAll collaborators "v1" (ns.map (nameFor Layout.daily ∅)) serviceSent).1.toOption.map
          (·.map Notification.key))) =
        some (["a1_2024-05-14_R0tF", "a1_2024-05-14_UnVu", "a1_2024-05-13_R0tF"],
          some ["a1_2024-05-14_UnVu", "a1_2024-05-13_R0tF"]) := by
    decide +kernel
  cases h : evaluate 5.0 Layout.daily Layout.request ⟨serviceRows, []⟩ Layout.may with
  | error e =>
      rw [h] at hfacts
      cases hfacts
  | ok ns =>
      rw [h] at hfacts
      obtain ⟨hkeys, hwritten⟩ := Prod.mk.inj (Option.some.inj hfacts)
      obtain ⟨hnodup, hstored⟩ := detections_kept_apart Layout.build_daily hrows h
      cases hadd : addAll collaborators "v1" (ns.map (nameFor Layout.daily ∅)) serviceSent with
      | mk r s' =>
          rw [hadd] at hwritten
          obtain ⟨written, hr, hkept⟩ := Option.map_eq_some_iff.1 hwritten
          obtain rfl := toOption_eq_some.1 hr
          have hnamed : (ns.map (nameFor Layout.daily ∅)).map Notification.key =
              ns.map Notification.key := by
            rw [List.map_map]
            rfl
          obtain ⟨-, -, hsent, hothers⟩ :=
            hstored (hnodup.2 (.inl rfl)) collaborators "v1" _ _ _ _ hnamed hadd
          refine ⟨ns, written, s', rfl, hkeys, hadd, hkept, hnodup, hsent,
            hothers _ fun n hn hkey => ?_⟩
          have hmem := List.mem_map_of_mem (f := Notification.key) hn
          rw [hkept, hkey] at hmem
          exact absurd hmem (by decide)

open Sample in
/-- Two weeks of one result are detected under one key. -/
theorem not_forall_nodup_keys :
    ¬ ∀ (limit : Nat) (noise : Float) (a : Alert) (now : Instant) (session session' : Session)
      (request : QueryRequest) (result : QueryResult) (ns : List Notification),
      a.validate = .ok () →
      QueryRequest.build limit a now session = (.ok (some request), session') →
      (result.rows.Pairwise fun row row' => ¬ request.Repeats row row') →
      evaluate noise a request result now = .ok ns → (ns.map Notification.key).Nodup := by
  intro hall
  have hbuild : ∃ request, QueryRequest.build 10 weekly may ⟨.fresh, .empty⟩ =
      (.ok (some request), ⟨.fresh, .empty⟩) ∧
      (weekRows.Pairwise fun row row' => ¬ request.Repeats row row') ∧
      (evaluate 5.0 weekly request ⟨weekRows, []⟩ may).toOption.map (·.map Notification.key) =
        some ["a1_2024-W20", "a1_2024-W20"] := ⟨_, rfl, by decide +kernel, by decide +kernel⟩
  obtain ⟨request, hbuild, hrows, hkeys⟩ := hbuild
  cases h : evaluate 5.0 weekly request ⟨weekRows, []⟩ may with
  | error e =>
      rw [h] at hkeys
      cases hkeys
  | ok ns =>
      rw [h] at hkeys
      have hkeys : ns.map Notification.key = _ := Option.some.inj hkeys
      have hnodup := hall 10 5.0 weekly may _ _ request ⟨weekRows, []⟩ ns rfl hbuild hrows h
      rw [hkeys] at hnodup
      exact absurd hnodup (by decide)

end Engine

end SpendAlerts

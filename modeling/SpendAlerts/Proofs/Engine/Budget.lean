import SpendAlerts.Proofs.Engine.Overflow
import SpendAlerts.Proofs.Engine.Verdict

/-!
The budget of breakdown values over a history. An executor that honours the filter on the
breakdown names no value that is recorded already, and no more than what is left of the
budget beside the unsent ones. What a refresh records has no other values, so the unsent
notifications of a period never outgrow the budget, and once they use it up the alert is
skipped until a digest has sent some of them.
-/

namespace SpendAlerts

namespace NotificationStore

variable {etag alertId period : String} {limit : Nat} {d d' : Documents} {values : List String}
  {written : List Notification}

/-- Detections that keep within the budget of a period: they have values that are not recorded
yet, and these are not more than the unsent ones leave. -/
structure Affordable (etag alertId : String) (limit : Nat) (d : Documents) (period : String)
    (values : List String) (ns : List Notification) : Prop where
  ofAlert : ∀ n ∈ ns, n.alertId = alertId
  ofPeriod : ∀ n ∈ ns, n.period = period
  named : ∀ n ∈ ns, ∃ v ∈ values, n.breakdown = some v
  within : (unsentIn etag alertId period d).length + values.dedup.length ≤ limit
  unrecorded : ∀ m : Notification, document? d m.key = some m.encode → m.etag = etag →
    m.alertId = alertId → m.period = period → ∀ v ∈ values, m.breakdown ≠ some v

/-- What is unsent after recording was unsent before, or has been recorded. -/
theorem Records.mem_unsentIn (hd : Keyed d) (h : Records etag d written d') {etag' : String}
    {e : String × Value} (he : e ∈ unsentIn etag' alertId period d') :
    e.1 ∈ (unsentIn etag' alertId period d).map (·.1) ∨
      ∃ n ∈ written, n.key = e.1 ∧ n.alertId = alertId ∧ n.period = period := by
  obtain ⟨n, rfl, hstored, hetag, hid, hperiod, hunsent⟩ :=
    (NotificationStore.mem_unsentIn (h.keyed hd)).1 he
  obtain ⟨-, hdoc⟩ | ⟨m, hm, hkey, hdoc, -⟩ := h.document?_cases n.key
  · rw [hdoc] at hstored
    exact .inl (List.mem_map.2 ⟨n.entry, (NotificationStore.mem_unsentIn hd).2
      ⟨n, rfl, hstored, hetag, hid, hperiod, hunsent⟩, rfl⟩)
  · rw [hstored, Option.some.injEq] at hdoc
    obtain ⟨-, hid', hperiod', -⟩ := Notification.fields_of_encode_eq hdoc
    exact .inr ⟨m, hm, hkey, hid'.symm.trans hid, hperiod'.symm.trans hperiod⟩

/-- What is unsent after stamping was unsent before. -/
theorem Stamps.mem_unsentIn {time : String → Instant} (hd : Keyed d) (h : Stamps time d written d')
    {e : String × Value} (he : e ∈ unsentIn etag alertId period d') :
    e.1 ∈ (unsentIn etag alertId period d).map (·.1) := by
  obtain ⟨n, rfl, hstored, hetag, hid, hperiod, hunsent⟩ :=
    (NotificationStore.mem_unsentIn (h.keyed hd)).1 he
  by_cases hkey : n.key ∈ written.map (·.key)
  · obtain ⟨m, hm, hkey⟩ := List.mem_map.1 hkey
    have hsent := h.sent m hm
    rw [hkey, hstored, Option.some.injEq] at hsent
    have hnull := n.holds_isNull_timeSent.2 hunsent
    rw [hsent] at hnull
    cases (m.sentAt (time n.key)).holds_isNull_timeSent.1 hnull
  · rw [h.others n.key hkey] at hstored
    exact List.mem_map.2 ⟨n.entry, (NotificationStore.mem_unsentIn hd).2
      ⟨n, rfl, hstored, hetag, hid, hperiod, hunsent⟩, rfl⟩

def breakdownKey (alertId period value : String) : String :=
  alertId ++ "_" ++ period ++ ("_" ++ Text.Base64.encodeString .urlSafe value)

theorem Affordable.part {ns : List Notification} {a : Alert} {labels : Table String}
    (h : Affordable etag alertId limit d period values ns)
    (hpart : written.Sublist (ns.map (Engine.nameFor a labels))) :
    Affordable etag alertId limit d period values written := by
  have hnamed : ∀ n ∈ written, ∃ m ∈ ns, Engine.nameFor a labels m = n :=
    fun n hn => List.mem_map.1 (hpart.subset hn)
  refine ⟨?_, ?_, ?_, h.within, h.unrecorded⟩
  · intro n hn
    obtain ⟨m, hm, rfl⟩ := hnamed n hn
    exact h.ofAlert m hm
  · intro n hn
    obtain ⟨m, hm, rfl⟩ := hnamed n hn
    exact h.ofPeriod m hm
  · intro n hn
    obtain ⟨m, hm, rfl⟩ := hnamed n hn
    exact h.named m hm

theorem Affordable.key_mem {ns : List Notification} {n : Notification}
    (h : Affordable etag alertId limit d period values ns) (hn : n ∈ ns) :
    n.key ∈ values.dedup.map (breakdownKey alertId period) := by
  obtain ⟨v, hv, hbreakdown⟩ := h.named n hn
  refine List.mem_map.2 ⟨v, List.mem_dedup.2 hv, ?_⟩
  rw [Notification.key, hbreakdown, h.ofAlert n hn, h.ofPeriod n hn]
  rfl

/-- Recording what the budget can afford keeps every period within it. -/
theorem Affordable.unsent_le (hd : Keyed d)
    (h : Affordable etag alertId limit d period values written)
    (hrecords : Records etag d written d') {p : String}
    (hbudget : (unsentIn etag alertId p d).length ≤ limit) :
    (unsentIn etag alertId p d').length ≤ limit := by
  by_cases hp : p = period
  · subst hp
    have hcover : ∀ e ∈ unsentIn etag alertId p d',
        e.1 ∈ (unsentIn etag alertId p d).map (·.1) ∨
          e.1 ∈ values.dedup.map (breakdownKey alertId p) := by
      intro e he
      refine (hrecords.mem_unsentIn hd he).imp_right ?_
      rintro ⟨n, hn, hkey, -⟩
      exact hkey ▸ h.key_mem hn
    have hle := length_unsentIn_le hcover
    rw [List.length_map] at hle
    exact hle.trans h.within
  · have hsame : ∀ e ∈ unsentIn etag alertId p d',
        e.1 ∈ (unsentIn etag alertId p d).map (·.1) := by
      intro e he
      obtain hold | ⟨n, hn, -, -, hperiod⟩ := hrecords.mem_unsentIn hd he
      · exact hold
      · exact absurd (hperiod.symm.trans (h.ofPeriod n hn)) hp
    exact (length_unsentIn_mono hsame).trans hbudget

end NotificationStore

namespace Engine

open NotificationStore

/-- The rows that an executor answers with stay within the filter on their breakdown: they name
no value that it excludes, and no more values than it lets through. -/
def Honours (executor : Service QueryRequest QueryResult) : Prop :=
  ∀ request result f limit, executor.answer request = .ok result →
    request.breakdownFilter? = some (f, limit) →
    result.breakdowns.dedup.length ≤ limit.limit ∧ ∀ v ∈ result.breakdowns, v ∉ f.values

/-- An alert on values or percentages in a breakdown that looks at one period at a time. -/
structure Budgeted (a : Alert) : Prop where
  condition : a.config.condition ≠ .forecast
  interval : a.config.interval ≠ .day
  breakdown : ∃ dimension, a.config.breakdown? = some dimension

variable {c : Collaborators} {s s' : State}

/-- Whatever a refresh detects with an executor that honours filters, the budget can afford. -/
theorem Detections.affordable {id : String} {a : Alert} {request : QueryRequest}
    {result : QueryResult} {ns : List Notification} (hd : Keyed s.notifications)
    (ha : Budgeted a) (hhonours : Honours c.executor)
    (h : Detections c id s a request result ns) :
    ∃ period, Period.name? a.config.interval c.now = .ok period ∧
      Affordable a.etag a.id c.settings.breakdownLimit s.notifications period
        result.breakdowns ns := by
  obtain ⟨dimension, hdimension⟩ := ha.breakdown
  obtain ⟨hnone, -⟩ | ⟨other, plan, f, hother, hplan, hfilter, hassemble⟩ :=
    QueryRequest.ofDocuments_cases h.planned
  · cases hnone.symm.trans hdimension
  obtain ⟨recorded, hperiod, hrecorded, hexcluded, hquota⟩ :=
    (BreakdownPlan.ofDocuments_eq_ok ha.interval).1 hplan
  obtain ⟨hleft, hid, hinverse, hvalues, l, hl, hlimit⟩ := BreakdownPlan.filter?_eq_some hfilter
  obtain ⟨hcount, hnew⟩ := hhonours request result f l h.answer
    (QueryRequest.breakdownFilter?_of_assemble hassemble (hid ▸ hother) hinverse hl)
  obtain ⟨hunsent, hmem⟩ := breakdownsIn_eq_ok hd hrecorded
  refine ⟨plan.period, hperiod, ?_, ?_, ?_, ?_, ?_⟩
  · intro n hn
    exact (mem_evaluate h.evaluated hn).1.alertId
  · intro n hn
    have hname := (mem_evaluate h.evaluated hn).1.period
    rw [(mem_evaluate_breakdown ha.condition ha.interval hdimension h.evaluated hn).1,
      hperiod] at hname
    exact (Except.ok.inj hname).symm
  · intro n hn
    exact (mem_evaluate_breakdown ha.condition ha.interval hdimension h.evaluated hn).2
  · omega
  · intro m hstored hetag halert hname v hv hbreakdown
    refine hnew v hv ?_
    rw [hvalues, hexcluded]
    exact hmem m v hstored hetag halert hname hbreakdown

namespace Step

variable {t : Step} {a : Alert} {limit : Nat}

/-- A step with a limit and an executor that honours filters, and no change of alerts. -/
structure Limited (t : Step) (limit : Nat) : Prop where
  call : ∀ b, t.call ≠ .put b
  limit : t.collaborators.settings.breakdownLimit = limit
  honours : Honours t.collaborators.executor

/-- The step hands the notification to the webhooks, or stores it where it was not before. -/
def Adds (t : Step) (s : State) (n : Notification) : Prop :=
  (∃ event ∈ t.dispatched s, event.notification = n) ∨
    (document? (t.after s).notifications n.key = some n.encode ∧
      document? s.notifications n.key ≠ some n.encode)

/-- Why a refresh has skipped its alert, if it has. -/
def skipped (t : Step) (s : State) : Option Skip :=
  match t.call with
  | .refresh id => match ((refreshAlert t.collaborators id).run (t.enter s)).1 with
    | .ok report => report.skipped
    | .error _ => none
  | _ => none

theorem skipped_eq_some {id : String} {why : Skip} (hcall : t.call = .refresh id) :
    t.skipped s = some why ↔ ∃ report,
      ((refreshAlert t.collaborators id).run (t.enter s)).1 = .ok report ∧
        report.skipped = some why := by
  rw [skipped, hcall]
  simp only
  cases ((refreshAlert t.collaborators id).run (t.enter s)).1 with
  | error e => simp
  | ok report => simp

/-- Nobody cancels the refresh, and the alert that it reads passes all checks that come before
the plan of its breakdown. -/
structure Passes (t : Step) (s : State) (b : Alert) : Prop where
  alert : t.alert? s = some b
  undisturbed : Undisturbed t.collaborators (t.enter s)
  access : t.collaborators.access.answer b.customerId = .ok .granted
  valid : b.validate = .ok ()
  reaches : onlyNotifiesNobody t.collaborators.settings b = false

/-- Such a refresh concludes from what it makes of the alert. -/
theorem Passes.conclude {id : String} {b : Alert} (h : t.Passes s b)
    (hcall : t.call = .refresh id) :
    AlertStore.read s.alerts id = .ok b ∧
      ∃ s₁, (refreshAlert t.collaborators id).run (t.enter s) =
        conclude t.collaborators id (evaluated t.collaborators s.notifications b) s₁ := by
  obtain ⟨other, hother, hread⟩ := Step.refresh_of_alert? h.alert
  cases hcall.symm.trans hother
  obtain ⟨asked, requests, hrun⟩ := h.undisturbed.refreshAlert id
  have hverdict : verdict t.collaborators (t.enter s).alerts (t.enter s).notifications id =
      evaluated t.collaborators s.notifications b := by
    change verdict t.collaborators s.alerts s.notifications id = _
    rw [verdict, hread, ok_bind, h.access, ok_bind]
  rw [hverdict] at hrun
  exact ⟨hread, _, hrun⟩

/-- What a refresh records and hands to the webhooks are some of its detections. -/
theorem refresh_detections {id : String} (hcall : t.call = .refresh id) :
    (t.after s).alerts = s.alerts ∧ ∃ written,
      (∀ event ∈ t.dispatched s, event.notification ∈ written) ∧
      ((written = [] ∧ (t.after s).notifications = s.notifications) ∨
        ∃ a request result ns, Detections t.collaborators id s a request result ns ∧
          written.Sublist (ns.map (nameFor a t.collaborators.settings.metricLabels)) ∧
          NotificationStore.Records a.etag s.notifications written
            (t.after s).notifications) := by
  have hafter : t.after s = ((refreshAlert t.collaborators id).run (t.enter s)).2 := by
    rw [after, hcall]
  cases hrun : (refreshAlert t.collaborators id).run (t.enter s) with
  | mk r s' =>
      rw [hrun] at hafter
      subst hafter
      obtain ⟨hsame, -⟩ | ⟨a, request, result, ns, s₁, h, hsame, hrecord⟩ := refreshAlert_cases hrun
      · refine ⟨hsame.alerts, [], ?_, .inl ⟨rfl, hsame.notifications⟩⟩
        rw [dispatched_eq_nil hsame.events]
        exact List.forall_mem_nil _
      · obtain ⟨halerts, written, hpart, hrecords, houtcome⟩ := record_cases hrecord
        rw [hsame.notifications] at hrecords
        rw [hsame.events] at houtcome
        refine ⟨halerts.trans hsame.alerts, written, ?_, .inr ⟨a, request, result, ns,
          ⟨h.alert, h.planned, h.answer, h.evaluated⟩, hpart, hrecords⟩⟩
        obtain ⟨-, hevents⟩ | ⟨report, -, -, hevents⟩ := houtcome
        · rw [dispatched_eq_nil hevents]
          exact List.forall_mem_nil _
        · rw [dispatched_eq hevents]
          exact List.forall_mem_map.2 fun n hn => hn

/-- Without a change of alerts, whatever is read afterwards was read before, but for the time
of the last digest. -/
theorem retains_after (hd : Keyed s.notifications) (hcall : ∀ b, t.call ≠ .put b) :
    AlertStore.Retains s.alerts (t.after s).alerts := by
  cases h : t.call with
  | refresh id =>
      rw [(refresh_detections (s := s) h).1]
      exact .refl _
  | digest customerId =>
      obtain ⟨groups, sections, -, -, hcompiles⟩ := digest_cases h hd
      exact hcompiles.retains
  | put b => exact absurd h (hcall b)

end Step

/-- The state holds documents under their own keys, the alert in some version of its last
digest if it can be read, and no more than a number of unsent notifications per period. -/
structure InBudget (a : Alert) (limit : Nat) (s : State) : Prop where
  keyed : Keyed s.notifications
  alert : ∀ b, AlertStore.read s.alerts a.id = .ok b → ∃ time, b = { a with lastAlerted := time }
  unsent : ∀ period, (unsentIn a.etag a.id period s.notifications).length ≤ limit

variable {t : Step} {a : Alert} {limit : Nat}

theorem inBudget_of_empty (hempty : ∀ k, document? s.notifications k = none)
    (hread : AlertStore.read s.alerts a.id = .ok a) : InBudget a limit s where
  keyed := keyed_of_empty hempty
  alert b hb := ⟨a.lastAlerted, (Except.ok.inj (hread.symm.trans hb)).symm⟩
  unsent period := by
    have hnone : unsentIn a.etag a.id period s.notifications = [] := by
      refine List.eq_nil_iff_forall_not_mem.2 ?_
      intro e he
      obtain ⟨n, -, hstored, -⟩ := (mem_unsentIn (keyed_of_empty hempty)).1 he
      cases (hempty n.key).symm.trans hstored
    rw [hnone]
    exact Nat.zero_le _

/-- The notifications of the alert and its etag have finite values. -/
def FiniteOf (etag alertId : String) (d : Documents) : Prop :=
  ∀ n : Notification, document? d n.key = some n.encode → n.etag = etag → n.alertId = alertId →
    Decimal.isFinite n.value = true

theorem FiniteOf.readableIn {etag alertId : String} {d : Documents} (hd : Keyed d)
    (hfinite : FiniteOf etag alertId d) (period : String) : ReadableIn etag alertId period d := by
  intro e he
  obtain ⟨n, rfl⟩ := exists_entry_of_mem_matching hd _ e he
  obtain ⟨hstored, hholds⟩ := Documents.mem_matching.1 he
  obtain ⟨hetag, halert, -⟩ := holds_periodFilters.1 hholds
  exact ⟨n, decode_eq_ok.2 ⟨hfinite n hstored hetag halert, rfl⟩⟩

namespace InBudget

/-- What a refresh detects for some alert the budget can afford, if it is this alert. -/
theorem affordable (h : InBudget a limit s) (ha : Budgeted a) (ht : t.Limited limit) {b : Alert}
    {request : QueryRequest} {result : QueryResult} {ns : List Notification}
    (hdetections : Detections t.collaborators a.id s b request result ns) :
    ∃ period, Period.name? a.config.interval t.collaborators.now = .ok period ∧ b.etag = a.etag ∧
      Affordable a.etag a.id limit s.notifications period result.breakdowns ns := by
  obtain ⟨time, rfl⟩ := h.alert b hdetections.alert
  have hb : Budgeted { a with lastAlerted := time } := ⟨ha.condition, ha.interval, ha.breakdown⟩
  obtain ⟨period, hperiod, haffordable⟩ := hdetections.affordable h.keyed hb ht.honours
  rw [ht.limit] at haffordable
  exact ⟨period, hperiod, rfl, haffordable⟩

/-- What a refresh of the alert records the budget can afford. -/
theorem recorded (h : InBudget a limit s) (ha : Budgeted a) (ht : t.Limited limit)
    (hcall : t.call = .refresh a.id) :
    ∃ written, (∀ event ∈ t.dispatched s, event.notification ∈ written) ∧
      ((written = [] ∧ (t.after s).notifications = s.notifications) ∨
        ∃ period values, Affordable a.etag a.id limit s.notifications period values written ∧
          (∀ n ∈ written, n.etag = a.etag) ∧
          Records a.etag s.notifications written (t.after s).notifications) := by
  obtain ⟨-, written, hevents, hsame | ⟨b, request, result, ns, hdetections, hpart, hrecords⟩⟩ :=
    Step.refresh_detections (s := s) hcall
  · exact ⟨written, hevents, .inl hsame⟩
  · obtain ⟨period, -, hetag, haffordable⟩ := h.affordable ha ht hdetections
    rw [hetag] at hrecords
    refine ⟨written, hevents, .inr ⟨period, _, haffordable.part hpart, ?_, hrecords⟩⟩
    intro n hn
    obtain ⟨m, hm, rfl⟩ := List.mem_map.1 (hpart.subset hn)
    exact (mem_evaluate hdetections.evaluated hm).1.etag.trans hetag

/-- What is recorded for other alerts is no concern of the budget. -/
theorem unsent_of_other (h : InBudget a limit s) {id : String} (hcall : t.call = .refresh id)
    (hid : id ≠ a.id) (period : String) :
    (unsentIn a.etag a.id period (t.after s).notifications).length ≤ limit := by
  obtain ⟨-, written, -, ⟨-, hsame⟩ | ⟨b, request, result, ns, hdetections, hpart, hrecords⟩⟩ :=
    Step.refresh_detections (s := s) hcall
  · rw [hsame]
    exact h.unsent period
  · have hsame : ∀ e ∈ unsentIn a.etag a.id period (t.after s).notifications,
        e.1 ∈ (unsentIn a.etag a.id period s.notifications).map (·.1) := by
      intro e he
      obtain hold | ⟨n, hn, -, halert, -⟩ := hrecords.mem_unsentIn h.keyed he
      · exact hold
      · obtain ⟨m, hm, rfl⟩ := List.mem_map.1 (hpart.subset hn)
        have hread := (AlertStore.read_eq_ok hdetections.alert).1
        exact absurd ((hread.symm.trans
          (mem_evaluate hdetections.evaluated hm).1.alertId.symm).trans halert) hid
    exact (length_unsentIn_mono hsame).trans (h.unsent period)

theorem after (h : InBudget a limit s) (ha : Budgeted a) (ht : t.Limited limit) :
    InBudget a limit (t.after s) where
  keyed := Step.keyed_after h.keyed
  alert b hb := by
    obtain ⟨b', time, hb', rfl⟩ := Step.retains_after h.keyed ht.call a.id b hb
    obtain ⟨_, rfl⟩ := h.alert b' hb'
    exact ⟨time, rfl⟩
  unsent period := by
    cases hcall : t.call with
    | put b => exact absurd hcall (ht.call b)
    | digest customerId =>
        obtain ⟨groups, sections, -, -, hcompiles⟩ := Step.digest_cases hcall h.keyed
        exact (length_unsentIn_mono fun e he =>
          hcompiles.stamps.mem_unsentIn h.keyed he).trans (h.unsent period)
    | refresh id =>
        by_cases hid : id = a.id
        · subst hid
          obtain ⟨written, -, ⟨-, hsame⟩ | ⟨_, _, haffordable, -, hrecords⟩⟩ :=
            h.recorded ha ht hcall
          · rw [hsame]
            exact h.unsent period
          · exact haffordable.unsent_le h.keyed hrecords (h.unsent period)
        · exact h.unsent_of_other hcall hid period

theorem runs {ts : List Step} (h : InBudget a limit s) (ha : Budgeted a)
    (hts : ∀ t ∈ ts, t.Limited limit) : InBudget a limit (runs s ts) := by
  induction ts generalizing s with
  | nil => exact h
  | cons t ts ih =>
      rw [List.forall_mem_cons] at hts
      exact ih (h.after ha hts.1) hts.2

/-- What a refresh of the alert adds has a breakdown value that is not recorded yet. -/
theorem breakdown_ne (h : InBudget a limit s) (ha : Budgeted a) (ht : t.Limited limit)
    (hcall : t.call = .refresh a.id) {n : Notification} (hn : t.Adds s n) {m : Notification}
    (hstored : document? s.notifications m.key = some m.encode) (hetag : m.etag = n.etag)
    (halert : m.alertId = n.alertId) (hperiod : m.period = n.period) :
    m.breakdown ≠ n.breakdown := by
  obtain ⟨written, hevents, hwritten⟩ := h.recorded ha ht hcall
  have hmem : ∃ l ∈ written, l.etag = n.etag ∧ l.alertId = n.alertId ∧ l.period = n.period ∧
      l.breakdown = n.breakdown := by
    obtain ⟨event, hevent, rfl⟩ | ⟨hdoc, hold⟩ := hn
    · exact ⟨_, hevents event hevent, rfl, rfl, rfl, rfl⟩
    · obtain ⟨-, hsame⟩ | ⟨_, _, -, -, hrecords⟩ := hwritten
      · exact absurd (hsame ▸ hdoc) hold
      · obtain ⟨-, hsame⟩ | ⟨l, hl, -, hnew, -⟩ := hrecords.document?_cases n.key
        · exact absurd (hsame ▸ hdoc) hold
        · rw [hnew, Option.some.injEq] at hdoc
          exact ⟨l, hl, Notification.fields_of_encode_eq hdoc⟩
  obtain ⟨l, hl, hl₁, hl₂, hl₃, hl₄⟩ := hmem
  obtain ⟨rfl, -⟩ | ⟨period, values, haffordable, hetags, -⟩ := hwritten
  · cases hl
  · obtain ⟨v, hv, hbreakdown⟩ := haffordable.named l hl
    rw [← hl₄, hbreakdown]
    exact haffordable.unrecorded m hstored ((hetag.trans hl₁.symm).trans (hetags l hl))
      ((halert.trans hl₂.symm).trans (haffordable.ofAlert l hl))
      ((hperiod.trans hl₃.symm).trans (haffordable.ofPeriod l hl)) v hv

/-- With finite answers, what is detected for the alert is finite: it has no forecast. -/
theorem finite_detected (h : InBudget a limit s) (ha : Budgeted a) (hanswers : t.FiniteAnswers)
    {id : String} {b : Alert} {request : QueryRequest} {result : QueryResult}
    {ns : List Notification} (hdetections : Detections t.collaborators id s b request result ns)
    (hid : b.id = a.id) {n : Notification} (hn : n ∈ ns) : Decimal.isFinite n.value = true := by
  have hread := hdetections.alert
  rw [← (AlertStore.read_eq_ok hread).1, hid] at hread
  obtain ⟨time, rfl⟩ := h.alert b hread
  obtain ⟨-, hvalue | ⟨hforecast, -⟩⟩ := mem_evaluate hdetections.evaluated hn
  · exact hvalue (hanswers request result hdetections.answer)
  · exact absurd hforecast ha.condition

/-- With finite answers, the notifications of the alert stay finite. -/
theorem finite_after (h : InBudget a limit s) (ha : Budgeted a) (ht : t.Limited limit)
    (hanswers : t.FiniteAnswers) (hfinite : FiniteOf a.etag a.id s.notifications) :
    FiniteOf a.etag a.id (t.after s).notifications := by
  intro n hn hetag halert
  cases hcall : t.call with
  | put b => exact absurd hcall (ht.call b)
  | digest customerId =>
      by_cases hk : n.key ∈ (t.stamped s).map (·.key)
      · obtain ⟨m, hm, hkey⟩ := List.mem_map.1 hk
        obtain ⟨-, -, hvalue, -, hdoc⟩ := Step.of_mem_stamped h.keyed hm
        rw [hkey, hn, Option.some.injEq] at hdoc
        have hsent : m.sentAt (t.collaborators.stampTime n.key) = n :=
          eq_of_encode_eq hvalue hdoc.symm
        exact hsent ▸ hvalue
      · rw [Step.document?_after h.keyed (fun id hid => by cases hcall.symm.trans hid) hk] at hn
        exact hfinite n hn hetag halert
  | refresh id =>
      obtain ⟨-, written, -, ⟨-, hsame⟩ | ⟨b, request, result, ns, hdetections, hpart,
        hrecords⟩⟩ := Step.refresh_detections (s := s) hcall
      · rw [hsame] at hn
        exact hfinite n hn hetag halert
      obtain ⟨-, hsame⟩ | ⟨m, hm, -, hdoc, -⟩ := hrecords.document?_cases n.key
      · rw [hsame] at hn
        exact hfinite n hn hetag halert
      rw [hn, Option.some.injEq] at hdoc
      obtain ⟨l, hl, rfl⟩ := List.mem_map.1 (hpart.subset hm)
      have hid : b.id = a.id := ((mem_evaluate hdetections.evaluated hl).1.alertId.symm.trans
        (Notification.fields_of_encode_eq hdoc).2.1.symm).trans halert
      have hvalue : Decimal.isFinite l.value = true :=
        h.finite_detected ha hanswers hdetections hid hl
      have hnamed : Decimal.isFinite
          (nameFor b t.collaborators.settings.metricLabels l).value = true := hvalue
      exact eq_of_encode_eq hnamed hdoc.symm ▸ hnamed

theorem finite_runs {ts : List Step} (h : InBudget a limit s) (ha : Budgeted a)
    (hts : ∀ t ∈ ts, t.Limited limit) (hanswers : ∀ t ∈ ts, t.FiniteAnswers)
    (hfinite : FiniteOf a.etag a.id s.notifications) :
    FiniteOf a.etag a.id (Engine.runs s ts).notifications := by
  induction ts generalizing s with
  | nil => exact hfinite
  | cons t ts ih =>
      rw [List.forall_mem_cons] at hts hanswers
      exact ih (h.after ha hts.1) hts.2 hanswers.2
        (h.finite_after ha hts.1 hanswers.1 hfinite)

/-- A refresh that nothing else holds up is skipped exactly if what is recorded for its period
can be read and uses up the budget. -/
theorem exhausted_iff (h : InBudget a limit s) (ha : Budgeted a) (ht : t.Limited limit)
    (hcall : t.call = .refresh a.id) {b : Alert} (hpasses : t.Passes s b) {period : String}
    (hperiod : Period.name? a.config.interval t.collaborators.now = .ok period) :
    t.skipped s = some .quotaExhausted ↔ ReadableIn a.etag a.id period s.notifications ∧
      (unsentIn a.etag a.id period s.notifications).length = limit := by
  obtain ⟨hread, s₁, hrun⟩ := hpasses.conclude hcall
  obtain ⟨time, rfl⟩ := h.alert b hread
  obtain ⟨dimension, hdimension⟩ := ha.breakdown
  have hnone : QueryRequest.ofDocuments limit { a with lastAlerted := time } t.collaborators.now
      s.notifications = .ok none ↔ ∃ recorded,
        breakdownsIn a.etag a.id period s.notifications = .ok recorded ∧
          limit ≤ recorded.unsent :=
    QueryRequest.ofDocuments_eq_none ha.interval hdimension hperiod
  rw [Step.skipped_eq_some hcall, hrun, skipped_conclude,
    evaluated_eq_skipped hpasses.valid hpasses.reaches, ht.limit, hnone]
  simp only [true_and]
  rw [← (h.unsent period).ge_iff_eq, ← exists_breakdownsIn, ← exists_and_right]
  refine exists_congr fun recorded => and_congr_right fun hrecorded => ?_
  rw [(breakdownsIn_eq_ok h.keyed hrecorded).1]

/-- A refresh that nothing else holds up fails if what is recorded for its period cannot be
read. -/
theorem failed_of_unreadable (h : InBudget a limit s) (ha : Budgeted a)
    (hcall : t.call = .refresh a.id) {b : Alert} (hpasses : t.Passes s b) {period : String}
    (hperiod : Period.name? a.config.interval t.collaborators.now = .ok period)
    (hunreadable : ¬ReadableIn a.etag a.id period s.notifications) :
    ∃ e, ((refreshAlert t.collaborators a.id).run (t.enter s)).1 = .error e := by
  obtain ⟨hread, s₁, hrun⟩ := hpasses.conclude hcall
  obtain ⟨time, rfl⟩ := h.alert b hread
  obtain ⟨dimension, hdimension⟩ := ha.breakdown
  obtain ⟨e, herror⟩ : ∃ e, QueryRequest.ofDocuments t.collaborators.settings.breakdownLimit
      { a with lastAlerted := time } t.collaborators.now s.notifications = .error e :=
    QueryRequest.ofDocuments_of_unreadable ha.interval hdimension hperiod hunreadable
  have hfails : evaluated t.collaborators s.notifications { a with lastAlerted := time } =
      .error e := by
    rw [evaluated, hpasses.valid]
    simp only [ok_bind, hpasses.reaches, Bool.false_eq_true, if_false, herror]
    rfl
  rw [hrun, hfails]
  exact ⟨e, rfl⟩

end InBudget

/-- The budget over a history: in no period are more notifications unsent than the limit, and a
refresh of the alert adds no breakdown value that is recorded for the etag, the alert and the
period. If nothing else holds it up, it is skipped exactly if what is recorded for its period
can be read and uses up the limit, and fails if that cannot be read. Everything that is recorded
for the alert can be read as long as all answers are finite. -/
structure KeepsBudget (a : Alert) (limit : Nat) (s : State) (ts : List Step) : Prop where
  unsent : ∀ before after period, ts = before ++ after →
    (unsentIn a.etag a.id period (runs s before).notifications).length ≤ limit
  added : ∀ before t after n, ts = before ++ t :: after → t.call = .refresh a.id →
    t.Adds (runs s before) n → ∀ m : Notification,
      document? (runs s before).notifications m.key = some m.encode → m.etag = n.etag →
      m.alertId = n.alertId → m.period = n.period → m.breakdown ≠ n.breakdown
  exhausted : ∀ before t after b period, ts = before ++ t :: after → t.call = .refresh a.id →
    t.Passes (runs s before) b → Period.name? a.config.interval t.collaborators.now = .ok period →
      (t.skipped (runs s before) = some .quotaExhausted ↔
        ReadableIn a.etag a.id period (runs s before).notifications ∧
          (unsentIn a.etag a.id period (runs s before).notifications).length = limit)
  failed : ∀ before t after b period, ts = before ++ t :: after → t.call = .refresh a.id →
    t.Passes (runs s before) b → Period.name? a.config.interval t.collaborators.now = .ok period →
      ¬ReadableIn a.etag a.id period (runs s before).notifications →
      ∃ e, ((refreshAlert t.collaborators a.id).run (t.enter (runs s before))).1 = .error e
  readable : ∀ before after period, ts = before ++ after → (∀ u ∈ before, u.FiniteAnswers) →
    ReadableIn a.etag a.id period (runs s before).notifications

/-- Every history that begins without notifications, changes no alert and whose executors
honour the filters on breakdowns keeps the budget of every alert on values or percentages in a
breakdown that is not daily. -/
theorem budget_kept {ts : List Step} (hempty : ∀ k, document? s.notifications k = none)
    (hread : AlertStore.read s.alerts a.id = .ok a) (ha : Budgeted a)
    (hts : ∀ t ∈ ts, t.Limited limit) : KeepsBudget a limit s ts := by
  have h : InBudget a limit s := inBudget_of_empty hempty hread
  have hlimited : ∀ {before after : List Step}, ts = before ++ after →
      ∀ t ∈ before, t.Limited limit := by
    rintro before after rfl t ht
    exact hts t (List.mem_append_left _ ht)
  have hbefore : ∀ {before after : List Step}, ts = before ++ after →
      InBudget a limit (runs s before) :=
    fun hsplit => h.runs ha (hlimited hsplit)
  refine ⟨?_, ?_, ?_, ?_, ?_⟩
  · intro before after period hsplit
    exact (hbefore hsplit).unsent period
  · intro before t after n hsplit hcall hadds m hstored hetag halert hperiod
    have ht : t.Limited limit := hts t (by simp [hsplit])
    exact (hbefore hsplit).breakdown_ne ha ht hcall hadds hstored hetag halert hperiod
  · intro before t after b period hsplit hcall hpasses hperiod
    have ht : t.Limited limit := hts t (by simp [hsplit])
    exact (hbefore hsplit).exhausted_iff ha ht hcall hpasses hperiod
  · intro before t after b period hsplit hcall hpasses hperiod
    exact (hbefore hsplit).failed_of_unreadable ha hcall hpasses hperiod
  · intro before after period hsplit hanswers
    have hnone : FiniteOf a.etag a.id s.notifications := by
      intro n hn
      cases (hempty n.key).symm.trans hn
    exact (h.finite_runs ha (hlimited hsplit) hanswers hnone).readableIn (hbefore hsplit).keyed
      period

namespace Sample

def services : List String := ["BigQuery", "Compute Engine", "GKE"]

def serviceRow (amount : Float) (service : String) : List Cell :=
  [.text service, .int 2024, .int 5, .float amount]

/-- Spend of some amount on each of as many services as the filter lets through. -/
def serviceExecutor (amount : Float) : Service QueryRequest QueryResult where
  heedsContext := true
  answer request := match request.breakdownFilter? with
    | none => .ok ⟨[], []⟩
    | some (f, limit) =>
        .ok ⟨((services.filter (· ∉ f.values)).take limit.limit).map (serviceRow amount), []⟩

theorem honours_serviceExecutor (amount : Float) : Honours (serviceExecutor amount) := by
  intro request result f limit hanswer hfilter
  simp only [serviceExecutor, hfilter, Except.ok.injEq] at hanswer
  have hbreakdowns : result.breakdowns =
      (services.filter (· ∉ f.values)).take limit.limit := by
    rw [← hanswer, QueryResult.breakdowns, List.filterMap_map]
    exact List.filterMap_some
  rw [hbreakdowns]
  refine ⟨(List.dedup_sublist _).length_le.trans (List.length_take_le _ _), ?_⟩
  intro v hv
  simpa using (List.mem_filter.1 (List.mem_of_mem_take hv)).2

def byService : Alert := alert (monthly.withBreakdown "fixed:service_description")

/-- A step with a budget of some services, each of which costs some amount. -/
def limitedStep (limit : Nat) (amount : Float) (call : Call) : Step :=
  ⟨{ Collaborators.quiet { Settings.standard with breakdownLimit := limit } may ∅ with
    executor := serviceExecutor amount }, .fresh, call⟩

def refreshed : List Step :=
  [limitedStep 2 30.0 (.refresh "a1"), limitedStep 2 30.0 (.refresh "a1"),
    limitedStep 2 30.0 (.digest "acme"), limitedStep 2 30.0 (.refresh "a1")]

/-- Two alerts with the same etag. -/
def watching : State :=
  runs .empty [limitedStep 2 30.0 (.put byService),
    limitedStep 2 30.0 (.put { byService with id := "b1" })]

theorem read_watching : AlertStore.read watching.alerts byService.id = .ok byService :=
  toOption_eq_some.1 (by decide +kernel)

theorem limited_limitedStep {limit : Nat} {amount : Float} {call : Call}
    (hcall : ∀ b, call ≠ .put b) : (limitedStep limit amount call).Limited limit :=
  ⟨hcall, rfl, honours_serviceExecutor amount⟩

theorem limited_refreshed : ∀ t ∈ refreshed, t.Limited 2 := by
  intro t ht
  simp only [refreshed, List.mem_cons, List.not_mem_nil, or_false] at ht
  obtain rfl | rfl | rfl | rfl := ht
  all_goals
    refine limited_limitedStep ?_
    intro b h
    cases h

/-- The refresh of the alert with a budget of one service, which costs some amount. -/
def single (amount : Float) (id : String) : Step := limitedStep 1 amount (.refresh id)

/-- What the refresh of an alert detects for the first service. -/
def firstService (id : String) : Notification where
  alertId := id
  alertName := "Spend"
  sentence := "Monthly cost value greater than $20.00"
  customerId := "acme"
  recipients := ["ops@acme.com"]
  value := 30.0
  period := "2024-05"
  breakdown := some "BigQuery"
  breakdownLabel := some "Service"
  etag := "v1"
  detected := may
  sent := none
  expiry := .midnight ⟨2024, 11, 15, by decide⟩

theorem limited_single (amount : Float) (id : String) : (single amount id).Limited 1 := by
  refine limited_limitedStep ?_
  intro b h
  cases h

theorem passes_single {amount : Float} {s : State}
    (hread : AlertStore.read s.alerts "a1" = .ok byService) :
    (single amount "a1").Passes s byService where
  alert := by
    rw [Step.alert?]
    exact toOption_eq_some.2 hread
  undisturbed := ⟨Context.uncancelled_fresh, fun _ => rfl⟩
  access := rfl
  valid := by decide +kernel
  reaches := by
    change onlyNotifiesNobody { Settings.standard with breakdownLimit := 1 } byService = false
    decide +kernel

end Sample

open Sample in
/-- Two of three services use up the budget, and the third comes after the digest. -/
theorem budget_kept_services : KeepsBudget byService 2 watching refreshed ∧
    (limitedStep 2 30.0 (.refresh "a1")).skipped (runs watching (refreshed.take 1)) =
      some .quotaExhausted ∧
    (unsentIn "v1" "a1" "2024-05" (runs watching refreshed).notifications).length = 1 := by
  have hnone : ∀ k, document? watching.notifications k = none := fun _ => rfl
  exact ⟨budget_kept hnone read_watching ⟨by decide, by decide, _, rfl⟩ limited_refreshed,
    by decide +kernel, by decide +kernel⟩

open Sample in
/-- What another alert of the same etag has recorded is added again. -/
theorem adds_firstService :
    (single 30.0 "a1").Adds (runs watching [single 30.0 "b1"]) (firstService "a1") ∧
      document? (runs watching [single 30.0 "b1"]).notifications (firstService "b1").key =
        some (firstService "b1").encode := by
  have hd : Keyed (runs watching [single 30.0 "b1"]).notifications :=
    keyed_runs (keyed_of_empty fun _ => rfl) _
  have hnone : document? (runs watching [single 30.0 "b1"]).notifications
      (firstService "a1").key = none := Option.isNone_iff_eq_none.1 (by decide +kernel)
  refine ⟨.inr ⟨stored_of_read (Step.keyed_after hd) ?_, ?_⟩, stored_of_read hd ?_⟩
  · decide +kernel
  · rw [hnone]
    exact nofun
  · decide +kernel

open Sample in
/-- A budget that is used up does not always make the next refresh skip the alert. The refresh
fails if the number that has used it up cannot be read, and if it is cancelled. And a refresh adds
a breakdown value that is recorded for its etag and period, if another alert has it. -/
theorem not_exhausted_boundless :
    ((single boundless "a1").Limited 1 ∧
      (single boundless "a1").Passes (runs watching [single boundless "a1"]) byService ∧
      Period.name? .month may = .ok "2024-05" ∧
      (unsentIn "v1" "a1" "2024-05"
        (runs watching [single boundless "a1"]).notifications).length = 1 ∧
      (single boundless "a1").skipped (runs watching [single boundless "a1"]) = none) ∧
    ((unsentIn "v1" "a1" "2024-05" (runs watching [single 30.0 "a1"]).notifications).length = 1 ∧
      { single 30.0 "a1" with context := Context.fresh.cancel }.skipped
        (runs watching [single 30.0 "a1"]) = none) ∧
    (single 30.0 "b1").Limited 1 ∧ (single 30.0 "a1").Limited 1 ∧
    ∃ n m : Notification, (single 30.0 "a1").Adds (runs watching [single 30.0 "b1"]) n ∧
      document? (runs watching [single 30.0 "b1"]).notifications m.key = some m.encode ∧
      m.etag = n.etag ∧ m.period = n.period ∧ m.breakdown = n.breakdown := by
  have hread : AlertStore.read (runs watching [single boundless "a1"]).alerts "a1" =
      .ok byService := toOption_eq_some.1 (by decide +kernel)
  have hcount : (unsentIn "v1" "a1" "2024-05"
    (runs watching [single boundless "a1"]).notifications).length = 1 := by decide +kernel
  have hskipped : (single boundless "a1").skipped (runs watching [single boundless "a1"]) = none :=
    by decide +kernel
  obtain ⟨hadds, hstored⟩ := adds_firstService
  refine ⟨⟨limited_single _ _, passes_single hread, by decide +kernel, hcount, hskipped⟩,
    ⟨by decide +kernel, by decide +kernel⟩, limited_single _ _, limited_single _ _,
    firstService "a1", firstService "b1", hadds, hstored, rfl, rfl, rfl⟩

end Engine

end SpendAlerts

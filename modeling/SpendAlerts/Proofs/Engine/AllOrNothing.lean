import SpendAlerts.Proofs.Engine.Keys
import SpendAlerts.Proofs.Engine.Live
import SpendAlerts.Proofs.Engine.Overflow
import SpendAlerts.Proofs.Engine.Repetition
import SpendAlerts.Proofs.Store.Independence
import SpendAlerts.Proofs.Store.Recording

/-!
What a refresh comes to. Unless its context is cancelled it fails or is skipped before anything
is written or dispatched, or it records everything that it detects and dispatches an event for
each detection that was written. Recording comes before the first event, so what the webhooks
answer is counted and has no part in what is stored.
-/

namespace SpendAlerts

namespace Engine

open Run NotificationStore

variable {c : Collaborators} {s s' : State}

namespace Run

variable {α β : Type}

/-- From every state, both calls leave the same two stores. -/
def SameStores (m m' : Run α) : Prop :=
  ∀ s, (m s).2.alerts = (m' s).2.alerts ∧ (m s).2.notifications = (m' s).2.notifications

theorem SameStores.refl (m : Run α) : SameStores m m := fun _ => ⟨rfl, rfl⟩

theorem SameStores.bind (m : Run α) {f g : α → Run β} (h : ∀ x, SameStores (f x) (g x)) :
    SameStores (m >>= f) (m >>= g) := by
  intro s
  rw [bind_apply, bind_apply]
  cases (m s).1 with
  | error e => exact ⟨rfl, rfl⟩
  | ok x => exact h x _

end Run

section Webhooks

variable (c : Collaborators) (w : Nat → Service WebhookEvent Unit)

theorem addAll_webhooks (etag : String) (ns : List Notification) :
    addAll { c with webhooks := w } etag ns = addAll c etag ns := by
  induction ns with
  | nil => rfl
  | cons n ns ih =>
      rw [addAll, addAll, ih]
      rfl

theorem stores_dispatchAll (a : Alert) (place : Nat) (ns : List Notification) (s : State) :
    (dispatchAll c a place ns s).2.alerts = s.alerts ∧
      (dispatchAll c a place ns s).2.notifications = s.notifications := by
  obtain ⟨_, -, halerts, hnotifications, -⟩ :=
    dispatchAll_cases (c := c) (Prod.eta (dispatchAll c a place ns s)).symm
  exact ⟨halerts, hnotifications⟩

theorem sameStores_record (a : Alert) (ns : List Notification) :
    SameStores (record { c with webhooks := w } a ns) (record c a ns) := by
  rw [record, record, addAll_webhooks]
  refine SameStores.bind _ fun added s => ?_
  obtain ⟨halerts, hnotifications⟩ := stores_dispatchAll { c with webhooks := w } a 0 added s
  obtain ⟨halerts', hnotifications'⟩ := stores_dispatchAll c a 0 added s
  rw [bind_pure_apply, bind_pure_apply]
  exact ⟨halerts.trans halerts'.symm, hnotifications.trans hnotifications'.symm⟩

theorem sameStores_evaluateAlert (a : Alert) :
    SameStores (evaluateAlert { c with webhooks := w } a) (evaluateAlert c a) := by
  refine SameStores.bind (Run.ofExcept a.validate) fun _ => ?_
  change SameStores (if onlyNotifiesNobody c.settings a then _ else _) _
  split
  · exact .refl _
  · refine SameStores.bind _ fun built => ?_
    cases built with
    | none => exact .refl _
    | some request =>
        refine SameStores.bind (c.execute request) fun result => ?_
        refine SameStores.bind (Run.ofExcept _) fun ns => ?_
        exact sameStores_record c w a ns

/-- What the webhooks answer has no part in what a refresh leaves in the stores. -/
theorem sameStores_refreshAlert (id : String) :
    SameStores (refreshAlert { c with webhooks := w } id) (refreshAlert c id) := by
  refine SameStores.bind _ fun a => SameStores.bind (c.checkAccess a.customerId) fun access => ?_
  cases access with
  | denied reason => exact .refl _
  | granted => exact sameStores_evaluateAlert c w a

end Webhooks

/-- What a refresh does that records its detections: those with open keys are written in order,
with the name and the sentence of the alert, and each of them is handed to the webhooks. -/
structure Recorded (c : Collaborators) (s : State) (a : Alert) (ns written : List Notification)
    (report : RefreshReport) (s' : State) : Prop where
  recording : recording c.addFault a.etag s.notifications
    (ns.map (nameFor a c.settings.metricLabels)) = ⟨written, none⟩
  unclosed : written = (ns.map (nameFor a c.settings.metricLabels)).filter fun n =>
    !isClosed a.etag s.notifications n.key
  named : ∀ n ∈ written, n.alertName = a.name ∧ n.sentence = a.sentence c.settings.metricLabels
  alerts : s'.alerts = s.alerts
  notifications : s'.notifications = writeEach s.notifications written
  stored : ∀ n ∈ written, ∃ m ∈ written, m.key = n.key ∧
    document? s'.notifications n.key = some m.encode
  events : s'.events = s.events ++ deliveries c a 0 written
  contents : (deliveries c a 0 written).map (·.content) = written.map (⟨·, a⟩)
  detected : report.detected = ns.length
  added : report.added = written.length
  sent : report.webhooksSent = ((deliveries c a 0 written).filter (·.accepted)).length
  dispatched : report.webhooksSent + report.webhookFailures = report.added
  added_le : report.added ≤ report.detected

theorem Recorded.of_calm {a : Alert} {ns written : List Notification} {report : RefreshReport}
    {asked : List String} {requests : List QueryRequest}
    (h : Recorded c.calm { s.calm with asked, requests } a ns written report s'.calm) :
    Recorded c s a ns written report s' :=
  ⟨h.recording, h.unclosed, h.named, h.alerts, h.notifications, h.stored, h.events, h.contents,
    h.detected, h.added, h.sent, h.dispatched, h.added_le⟩

def Verdict.skip? : Verdict → Option Skip
  | .skipped why => some why
  | .detected _ _ => none

/-- What a refresh comes to, and what it leaves. -/
structure AllOrNothing (c : Collaborators) (id : String) (s : State)
    (r : Except Fault RefreshReport) (s' : State) : Prop where
  /-- Which of the three it comes to is decided before anything is written. -/
  decided : r.map RefreshReport.skipped =
    (verdict c s.alerts s.notifications id).map Verdict.skip?
  failed : ∀ e, r = .error e → State.Same s s'
  skipped : ∀ report why, r = .ok report → report.skipped = some why →
    State.Same s s' ∧ s'.requests = s.requests
  /-- The store is called for every detection, and what these calls have written is reported. -/
  recorded : ∀ report, r = .ok report → report.skipped = none →
    ∃ a request result ns written, Detections c id s a request result ns ∧
      s'.requests = s.requests ++ [request] ∧ Recorded c s a ns written report s' ∧
      ∃ s₁ s₂, State.Same s s₁ ∧
        addAll c a.etag (ns.map (nameFor a c.settings.metricLabels)) s₁ = (.ok written, s₂)
  webhooks : ∀ w, let t := (refreshAlert { c with webhooks := w } id s).2
    t.alerts = s'.alerts ∧ t.notifications = s'.notifications

theorem Detections.unique {id : String} {a a' : Alert} {request request' : QueryRequest}
    {result result' : QueryResult} {ns ns' : List Notification}
    (h : Detections c id s a request result ns) (h' : Detections c id s a' request' result' ns') :
    a = a' ∧ ns = ns' := by
  cases h.alert.symm.trans h'.alert
  cases h.planned.symm.trans h'.planned
  cases h.answer.symm.trans h'.answer
  cases h.evaluated.symm.trans h'.evaluated
  exact ⟨rfl, rfl⟩

theorem Detections.recording_eq {id : String} {a : Alert} {request : QueryRequest}
    {result : QueryResult} {ns : List Notification} (h : Detections c id s a request result ns)
    (hd : Readable s.notifications) (hfault : ∀ key, c.addFault key = none)
    (hfinite : result.Finite) :
    NotificationStore.recording c.addFault a.etag s.notifications
        (ns.map (nameFor a c.settings.metricLabels)) =
      ⟨(ns.map (nameFor a c.settings.metricLabels)).filter fun n =>
        !isClosed a.etag s.notifications n.key, none⟩ := by
  obtain hfresh | ⟨n, htotal, -⟩ := h.fresh_or_total hfinite c.settings.metricLabels
  · exact hd.recording_fresh hfault hfresh
  · rw [htotal]
    exact hd.recording_singleton hfault

/-- Recording what was detected, in a context that nobody cancels. -/
theorem recorded_of_record {a : Alert} {ns written : List Notification}
    {r : Except Fault RefreshReport} (h : Undisturbed c s)
    (hwritten : written = (ns.map (nameFor a c.settings.metricLabels)).filter fun n =>
      !isClosed a.etag s.notifications n.key)
    (hrecording : NotificationStore.recording c.addFault a.etag s.notifications
      (ns.map (nameFor a c.settings.metricLabels)) = ⟨written, none⟩)
    (hrun : record c a ns s = (r, s')) :
    ∃ report, r = .ok report ∧ report.skipped = none ∧ s'.requests = s.requests ∧
      Recorded c s a ns written report s' := by
  have hresult : (NotificationStore.recording c.addFault a.etag s.notifications
      (ns.map (nameFor a c.settings.metricLabels))).result = .ok written := by rw [hrecording]; rfl
  obtain ⟨rfl, rfl⟩ := Prod.mk.inj (hrun.symm.trans (record_of_ok h a ns hresult))
  have hpart : written.Sublist (ns.map (nameFor a c.settings.metricLabels)) :=
    hwritten ▸ List.filter_sublist
  have hnotifications : recorded c.addFault a.etag s.notifications
      (ns.map (nameFor a c.settings.metricLabels)) = writeEach s.notifications written := by
    rw [recorded_eq_writeEach, hrecording]
  refine ⟨_, rfl, rfl, rfl, ?_⟩
  exact
    { recording := hrecording
      unclosed := hwritten
      named := by
        intro n hn
        obtain ⟨m, -, rfl⟩ := List.mem_map.1 (hpart.subset hn)
        exact ⟨rfl, rfl⟩
      alerts := rfl
      notifications := hnotifications
      stored := by
        intro n hn
        obtain ⟨hother, -⟩ | hstored := document?_writeEach s.notifications written n.key
        · exact absurd rfl (hother n hn)
        · exact hnotifications ▸ hstored
      events := rfl
      contents := contents_deliveries a 0 written
      detected := rfl
      added := rfl
      sent := rfl
      dispatched := Nat.add_sub_of_le (taken_le a 0 written)
      added_le := by simpa using hpart.length_le }

/-- Before it dispatches anything, a refresh that is not skipped has called the store for every
detection. -/
theorem addAll_of_refreshAlert {id : String} {a : Alert} {request : QueryRequest}
    {result : QueryResult} {ns : List Notification} {report : RefreshReport}
    (h : Detections c id s a request result ns) (hrun : refreshAlert c id s = (.ok report, s'))
    (hskipped : report.skipped = none) (hlive : s'.context.isCancelled = false) :
    ∃ added s₁ s₂, State.Same s s₁ ∧
      addAll c a.etag (ns.map (nameFor a c.settings.metricLabels)) s₁ = (.ok added, s₂) ∧
      (NotificationStore.recording c.addFault a.etag s.notifications
        (ns.map (nameFor a c.settings.metricLabels))).result = .ok added := by
  obtain ⟨-, hquiet⟩ | ⟨_, _, _, _, s₁, h', hsame, hrecord⟩ := refreshAlert_cases hrun
  · obtain ⟨_, _, rfl⟩ := hquiet report rfl
    cases hskipped
  obtain ⟨rfl, rfl⟩ := h.unique h'
  obtain ⟨e, -, hr⟩ | ⟨added, s₂, hadd, hrest⟩ := bind_cases hrecord
  · cases hr
  obtain ⟨e, -, hr⟩ | ⟨taken, s₃, hdispatch, hreturn⟩ := bind_cases hrest
  · cases hr
  cases hreturn
  refine ⟨added, s₁, s₂, hsame, hadd, ?_⟩
  have hlive₂ : s₂.Live := by
    apply (matches_dispatchAll c a 0 added).begins
    rw [hdispatch]
    exact hlive
  have hcalm := (matches_addAll c a.etag (ns.map (nameFor a c.settings.metricLabels))).agrees s₁
  rw [hadd, addAll_undisturbed (Undisturbed.calm c s₁)] at hcalm
  rw [← hsame.notifications]
  exact congrArg Prod.fst (hcalm hlive₂)

/-- Whatever alert is refreshed, whatever collaborators answer and whichever events the webhooks
refuse: over notifications that can all be read, a refresh that ends before its context is
cancelled has failed or was skipped without a trace in the stores and without an event, or has
recorded what it detects. -/
theorem refreshAlert_allOrNothing {id : String} {r : Except Fault RefreshReport}
    (hd : Readable s.notifications) (hfault : ∀ key, c.addFault key = none)
    (hfinite : ∀ request result, c.executor.answer request = .ok result → result.Finite)
    (hrun : refreshAlert c id s = (r, s')) (hlive : s'.context.isCancelled = false) :
    AllOrNothing c id s r s' := by
  have hwebhooks : ∀ w, let t := (refreshAlert { c with webhooks := w } id s).2
      t.alerts = s'.alerts ∧ t.notifications = s'.notifications := by
    intro w
    have hsame := sameStores_refreshAlert c w id s
    rw [hrun] at hsame
    exact hsame
  obtain ⟨asked, requests, hasks, hconclude⟩ := (Undisturbed.calm c s).refreshAlert_asks id
  rw [refreshAlert_calm hrun hlive] at hconclude
  change Asks c.calm id s.calm (verdict c s.alerts s.notifications id) requests at hasks
  change (r, s'.calm) = conclude c.calm id (verdict c s.alerts s.notifications id) _ at hconclude
  generalize hverdict : verdict c s.alerts s.notifications id = v at hasks hconclude
  cases hasks with
  | failed e =>
      obtain ⟨rfl, hend⟩ := Prod.mk.inj hconclude
      exact ⟨by rw [hverdict]; rfl, fun _ _ => State.same_of_calm hend, nofun, nofun, hwebhooks⟩
  | skipped why =>
      obtain ⟨rfl, hend⟩ := Prod.mk.inj hconclude
      have hrequests : s'.calm.requests = s.requests := by
        rw [hend]
        exact List.append_nil _
      refine ⟨by rw [hverdict]; rfl, nofun, fun _ _ _ _ => ?_, nofun, hwebhooks⟩
      exact ⟨State.same_of_calm hend, hrequests⟩
  | @detected a request result ns hcalm =>
      have hdetections : Detections c id s a request result ns :=
        ⟨hcalm.alert, hcalm.planned, hcalm.answer, hcalm.evaluated⟩
      have hrecording := hdetections.recording_eq hd hfault (hfinite _ _ hdetections.answer)
      have hasked : Undisturbed c.calm
          { s.calm with asked, requests := s.requests ++ [request] } :=
        (Undisturbed.calm c s).of_context rfl
      obtain ⟨report, rfl, hskipped, hrequests, hrecorded⟩ :=
        recorded_of_record hasked rfl hrecording hconclude.symm
      refine ⟨by rw [hverdict, Except.map, hskipped]; rfl, nofun, ?_, ?_, hwebhooks⟩
      · rintro report' why ⟨⟩ hwhy
        rw [hskipped] at hwhy
        cases hwhy
      · rintro report' ⟨⟩ -
        obtain ⟨added, s₁, s₂, hsame, hadd, hadded⟩ :=
          addAll_of_refreshAlert hdetections hrun hskipped hlive
        rw [hrecording] at hadded
        cases hadded
        exact ⟨a, request, result, ns, _, hdetections, hrequests, hrecorded.of_calm,
          s₁, s₂, hsame, hadd⟩

namespace Sample

/-- The change of the costs of a service, as it was sent before. -/
def sentChange : Notification where
  alertId := "a1"
  alertName := "Spend"
  sentence := ""
  customerId := "acme"
  recipients := ["ops@acme.com"]
  value := 25.0
  period := "2024-05-14"
  breakdown := some "GKE"
  breakdownLabel := some "GKE"
  etag := "v1"
  detected := Layout.may
  sent := some Layout.may
  expiry := Layout.may

/-- The alert on daily changes, for one attribution. -/
def attributed : Alert :=
  { Layout.daily with config := Layout.daily.config.withScope ["attr-1"] }

/-- A caller that will cancel after a while, over a change that was sent. -/
def dailyState : State :=
  { State.empty with
    context := ⟨some 40, []⟩
    alerts := State.empty.alerts.insert AlertStore.collectionName "a1" attributed.encode
    notifications := write .empty sentChange }

/-- Changes of two services, one of them twice on one day. -/
def repeatedRows : List Evaluation.Row :=
  serviceRows ++ [[.text "Run", .int 2024, .int 5, .int 14, .float 60.0, .float 40.0,
    .comparison (.float 30.0) .null, .comparison (.float 12.0) .null]]

/-- Webhooks that refuse the third event of a refresh. -/
def refusing : Collaborators :=
  { (step Layout.may ⟨repeatedRows, []⟩ (.refresh "a1")).collaborators with
    webhooks := fun place => ⟨true, fun _ =>
      if place = 2 then .error (.dispatch "endpoint returned 503") else .ok ()⟩ }

theorem readable_dailyState : Readable dailyState.notifications := by
  have hempty : Readable .empty := by
    intro k doc hdoc
    cases hdoc
  exact hempty.write (by decide +kernel)

theorem finite_refusing {request : QueryRequest} {result : QueryResult}
    (h : refusing.executor.answer request = .ok result) : result.Finite := by
  have hanswer : (step Layout.may ⟨repeatedRows, []⟩ (.refresh "a1")).collaborators.executor.answer
      request = .ok result := h
  rw [answer_step hanswer]
  simp [QueryResult.Finite, repeatedRows, serviceRows, Layout.row, Cell.Finite]
  decide +kernel

end Sample

open Sample in
/-- One change was sent before, and of two equal events about another the second is refused. -/
theorem refreshAlert_allOrNothing_refusing :
    (refreshAlert refusing "a1" dailyState).1.toOption = some ⟨"a1", none, 4, 3, 2, 1⟩ ∧
      (refreshAlert refusing "a1" dailyState).2.events.map
        (fun d => (d.content.notification.breakdown, d.accepted)) =
          [(some "Run", true), (some "GKE", true), (some "Run", false)] ∧
      AllOrNothing refusing "a1" dailyState (refreshAlert refusing "a1" dailyState).1
        (refreshAlert refusing "a1" dailyState).2 :=
  ⟨by decide +kernel, by decide +kernel,
    refreshAlert_allOrNothing readable_dailyState (fun _ => rfl)
      (fun _ _ h => finite_refusing h) rfl (by decide +kernel)⟩

end Engine

end SpendAlerts

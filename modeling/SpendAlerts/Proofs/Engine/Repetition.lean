import SpendAlerts.Proofs.Engine.Effect

/-!
Tasks that run twice. The second refresh may plan with another budget, but if it evaluates
at all it evaluates the same result, and what it detects has been recorded already. The
second digest finds nothing to send: what could be sent has been stamped, and remembering
a digest has changed no alert otherwise. A refresh that stores a number which is not finite
is the exception. No run after it can read that document, so the second run stops there, and
of several detections with one key it has then written an earlier one over the last.
-/

namespace SpendAlerts

namespace Engine

open Run NotificationStore

variable {c : Collaborators} {s s' : State}

/-- The documents of notifications after a refresh with some verdict. -/
def concluded (c : Collaborators) (d : Documents) : Except Fault Verdict → Documents
  | .ok (.detected a ns) =>
      recorded c.addFault a.etag d (ns.map (nameFor a c.settings.metricLabels))
  | _ => d

theorem refreshAlert_undisturbed (h : Undisturbed c s) {id : String}
    {r : Except Fault RefreshReport} (hrun : refreshAlert c id s = (r, s')) :
    s'.context = s.context ∧ s'.alerts = s.alerts ∧ s'.notifications =
      concluded c s.notifications (verdict c s.alerts s.notifications id) := by
  obtain ⟨asked, requests, hconclude⟩ := h.refreshAlert id
  rw [hconclude] at hrun
  cases hverdict : verdict c s.alerts s.notifications id with
  | error e =>
      rw [hverdict] at hrun
      obtain ⟨-, rfl⟩ := Prod.mk.inj hrun
      exact ⟨rfl, rfl, rfl⟩
  | ok v =>
      rw [hverdict] at hrun
      cases v with
      | skipped why =>
          obtain ⟨-, rfl⟩ := Prod.mk.inj hrun
          exact ⟨rfl, rfl, rfl⟩
      | detected a ns =>
          have hasked : Undisturbed c { s with asked, requests } := h.of_context rfl
          obtain ⟨events, hrecord⟩ := record_undisturbed hasked a ns
          obtain ⟨-, rfl⟩ := Prod.mk.inj (hrun.symm.trans hrecord)
          exact ⟨rfl, rfl, rfl⟩

/-- Answers that are given beforehand for each alert. -/
def Canned (executor : Service QueryRequest QueryResult) : Prop :=
  ∀ r r', r.alertId = r'.alertId → executor.answer r = executor.answer r'

theorem canned_cannedExecutor (results : Table QueryResult) : Canned (cannedExecutor results) := by
  intro r r' hid
  simp only [cannedExecutor, hid]

namespace Detections

variable {id : String} {a a' : Alert} {request request' : QueryRequest}
  {result result' : QueryResult} {ns ns' : List Notification}

/-- With answers given beforehand, all refreshes of an alert that detect anything detect the
same. -/
theorem agree (hcanned : Canned c.executor) (h : Detections c id s a request result ns)
    (h' : Detections c id s' a' request' result' ns') (halerts : s'.alerts = s.alerts) :
    a' = a ∧ ns' = ns := by
  have hread := h'.alert
  rw [halerts, h.alert] at hread
  cases hread
  obtain ⟨filters, hassemble⟩ := QueryRequest.exists_assemble h.planned
  obtain ⟨filters', hassemble'⟩ := QueryRequest.exists_assemble h'.planned
  have hrequest := QueryRequest.eq_of_assemble hassemble hassemble'
  have hanswer := h'.answer
  rw [hcanned request' request (by rw [hrequest]), h.answer] at hanswer
  cases hanswer
  have heval := h'.evaluated
  rw [hrequest, evaluate_filters, h.evaluated] at heval
  cases heval
  exact ⟨rfl, rfl⟩

/-- What is detected in finite numbers can be read again, unless it is the total of a forecast,
which is the only detection then. -/
theorem fresh_or_total (h : Detections c id s a request result ns) (hfinite : result.Finite)
    (labels : Table String) : (∀ n ∈ ns.map (nameFor a labels), Fresh n) ∨
      ∃ n, ns.map (nameFor a labels) = [n] ∧ n.sent = none := by
  by_cases hforecast : a.config.condition = .forecast
  · obtain rfl | ⟨n, rfl⟩ := evaluate_forecast hforecast h.evaluated
    · exact .inl (List.forall_mem_nil _)
    · exact .inr ⟨nameFor a labels n, rfl,
        (mem_evaluate h.evaluated List.mem_cons_self).1.unsent⟩
  · refine .inl (List.forall_mem_map.2 ?_)
    intro n hn
    obtain ⟨hdetects, hvalue | ⟨hcondition, -⟩⟩ := mem_evaluate h.evaluated hn
    · exact ⟨hvalue hfinite, hdetects.unsent⟩
    · exact absurd hcondition hforecast

theorem unsent (h : Detections c id s a request result ns) (labels : Table String) :
    ∀ n ∈ ns.map (nameFor a labels), n.sent = none :=
  List.forall_mem_map.2 fun _ hn => (mem_evaluate h.evaluated hn).1.unsent

/-- Detections that are recorded again change nothing, unless they come from a number that is not
finite, two of them have one key, and one cannot be read. -/
theorem recorded_twice (h : Detections c id s a request result ns)
    (fault : String → Option Fault) (d : Documents) (labels : Table String) :
    recorded fault a.etag (recorded fault a.etag d (ns.map (nameFor a labels)))
        (ns.map (nameFor a labels)) = recorded fault a.etag d (ns.map (nameFor a labels)) ∨
      ¬result.Finite ∧ ¬(ns.map Notification.key).Nodup ∧ ∃ n ∈ ns.map (nameFor a labels),
        Stuck (recorded fault a.etag d (ns.map (nameFor a labels))) n := by
  obtain hfresh | ⟨n, hn, hstuck⟩ := fresh_or_stuck fault a.etag d (h.unsent labels)
  · exact .inl (recorded_recorded hfresh)
  have hnamed : (ns.map (nameFor a labels)).map Notification.key = ns.map Notification.key := by
    rw [List.map_map]
    rfl
  by_cases hkeys : (ns.map Notification.key).Nodup
  · exact .inl (recorded_recorded_of_nodup (hnamed ▸ hkeys))
  by_cases hfinite : result.Finite
  · obtain hfresh | ⟨m, htotal, -⟩ := h.fresh_or_total hfinite labels
    · exact .inl (recorded_recorded fun m hm => hfresh m (sublist_recording.subset hm))
    · rw [← hnamed, htotal] at hkeys
      exact absurd (List.nodup_singleton m.key) hkeys
  · exact .inr ⟨hfinite, hkeys, n, hn, hstuck⟩

end Detections

theorem concluded_cases (c : Collaborators) (d : Documents) (v : Except Fault Verdict) :
    concluded c d v = d ∨ ∃ a ns, v = .ok (.detected a ns) := by
  cases v with
  | error e => exact .inl rfl
  | ok v =>
      cases v with
      | skipped why => exact .inl rfl
      | detected a ns => exact .inr ⟨a, ns, rfl⟩

/-- A refresh has detected two notifications with one key in a result with a number that is not
finite, and stored one that cannot be read; the next refresh of the alert fails. -/
structure Tears {α : Type} (c : Collaborators) (id : String) (s once : State)
    (again : Except Fault α) : Prop where
  detected : ∃ a request result ns, Detections c id s a request result ns ∧ ¬result.Finite ∧
    ¬(ns.map Notification.key).Nodup ∧
    ∃ n ∈ ns.map (nameFor a c.settings.metricLabels), Stuck once.notifications n
  fails : ∃ e, again = .error e

/-- A refresh that runs again concludes nothing new, or comes to what it cannot read. -/
theorem concluded_twice (hcanned : Canned c.executor) {d : Documents} {id : String}
    (h : concluded c s.notifications (verdict c s.alerts s.notifications id) = d) :
    concluded c d (verdict c s.alerts d id) = d ∨ ∃ a request result ns,
      Detections c id s a request result ns ∧ ¬result.Finite ∧
      ¬(ns.map Notification.key).Nodup ∧ verdict c s.alerts d id = .ok (.detected a ns) ∧
      ∃ n ∈ ns.map (nameFor a c.settings.metricLabels), Stuck d n := by
  obtain hsame | ⟨a, ns, hfirst⟩ :=
    concluded_cases c s.notifications (verdict c s.alerts s.notifications id)
  · rw [hsame] at h
    exact .inl (h ▸ hsame)
  obtain hsame | ⟨a', ns', hsecond⟩ := concluded_cases c d (verdict c s.alerts d id)
  · exact .inl hsame
  obtain ⟨request, result, hdetections⟩ := detections_of_verdict hfirst
  obtain ⟨_, _, hdetections'⟩ := detections_of_verdict (s := { s with notifications := d }) hsecond
  obtain ⟨rfl, rfl⟩ := hdetections.agree hcanned hdetections' rfl
  rw [hfirst] at h
  obtain hsame | ⟨hinfinite, hkeys, hstuck⟩ :=
    hdetections.recorded_twice c.addFault s.notifications c.settings.metricLabels
  · rw [hsecond, ← h]
    exact .inl hsame
  · exact .inr ⟨a', request, result, ns', hdetections, hinfinite, hkeys, hsecond, h ▸ hstuck⟩

theorem refreshAlert_twice (hcanned : Canned c.executor) (h : Undisturbed c s) {id : String}
    {s'' : State} {r r' : Except Fault RefreshReport} (hrun : refreshAlert c id s = (r, s'))
    (hagain : refreshAlert c id s' = (r', s'')) :
    s''.alerts = s'.alerts ∧ (s''.notifications = s'.notifications ∨ Tears c id s s' r') := by
  obtain ⟨hcontext, halerts, hnotifications⟩ := refreshAlert_undisturbed h hrun
  have h' : Undisturbed c s' := h.of_context hcontext
  obtain ⟨-, halerts', hnotifications'⟩ := refreshAlert_undisturbed h' hagain
  refine ⟨halerts', ?_⟩
  rw [halerts] at hnotifications'
  obtain hsame | ⟨a, request, result, ns, hdetections, hinfinite, hkeys, hverdict, n, hn,
    hstuck⟩ := concluded_twice hcanned hnotifications.symm
  · exact .inl (hnotifications'.trans hsame)
  · obtain ⟨e, he⟩ := hstuck.fault_recording c.addFault a.etag hn
    have houtcome := (refreshEffect_describes h' id).outcome
    rw [halerts, hverdict, hagain] at houtcome
    refine .inr ⟨⟨a, request, result, ns, hdetections, hinfinite, hkeys, n, hn, hstuck⟩, e,
      houtcome.trans ?_⟩
    simp only [refreshEffect, reported, Recording.result, he]
    rfl

theorem Sendable.of_same {customerId : String} {n : Notification}
    (h : Sendable c customerId s n) (halerts : s'.alerts = s.alerts)
    (hnotifications : s'.notifications = s.notifications) : Sendable c customerId s' n where
  stored := hnotifications ▸ h.stored
  customer := h.customer
  unsent := h.unsent
  alert := halerts ▸ h.alert
  stampable := h.stampable

/-- What a digest has sent cannot be sent again, and nothing else becomes sendable by it. -/
theorem Sends.exhausts {customerId : String} {d : Compilation} {n : Notification}
    (h : Sends c customerId s d s') : ¬Sendable c customerId s' n := by
  intro hn
  have hkeys : ∀ m, Sendable c customerId s m → m.key ≠ n.key := by
    intro m hm hkey
    have hstamped := h.stamped m hm
    rw [hkey, hn.stored, Option.some.injEq] at hstamped
    have hunsent := n.holds_isNull_timeSent.2 hn.unsent
    rw [hstamped] at hunsent
    cases (m.sentAt (c.stampTime n.key)).holds_isNull_timeSent.1 hunsent
  refine hkeys n ⟨(h.others n.key hkeys).symm.trans hn.stored, hn.customer, hn.unsent, ?_,
    hn.stampable⟩ rfl
  obtain ⟨doc, a, hdoc, ha, hetag, hlabels⟩ := hn.alert
  by_cases hid : ∃ m, Sendable c customerId s m ∧ m.alertId = n.alertId
  · obtain ⟨m, hm, hid⟩ := hid
    obtain ⟨doc', a', hdoc', ha', hafter⟩ := h.remembered m hm
    rw [hid] at hdoc' hafter
    obtain rfl := Option.some.inj (hdoc.symm.trans hafter)
    obtain rfl := Alert.eq_of_decode_encode ha
    exact ⟨doc', a', hdoc', ha', hetag, hlabels⟩
  · have hother := h.otherAlerts n.alertId fun m hm heq => hid ⟨m, hm, heq⟩
    exact ⟨doc, a, hother.symm.trans hdoc, ha, hetag, hlabels⟩

/-- A digest of the customer has nothing to send. -/
def Idle (c : Collaborators) (customerId : String) (s : State) : Prop :=
  c.access.answer customerId = .ok .granted →
    ∀ ns, pendingOf s.notifications customerId = .ok ns → ∀ n, ¬Sendable c customerId s n

theorem digested_eq {customerId : String} {ns : List Notification}
    (hd : Keyed s.notifications) (hns : pendingOf s.notifications customerId = .ok ns)
    (hnone : ∀ n, ¬Sendable c customerId s n) :
    included c s.alerts (byAlert ns).entries = [] ∧ digested c (byAlert ns).entries s = s := by
  have hflat : (byAlert ns).entries.flatMap (eligible c s.alerts) = [] :=
    List.eq_nil_iff_forall_not_mem.2 fun n hn => hnone n ((mem_flatMap_eligible hd hns).1 hn)
  have hincluded : included c s.alerts (byAlert ns).entries = [] := by
    rw [included, List.filter_eq_nil_iff]
    intro g hg
    simpa using List.flatMap_eq_nil_iff.1 hflat g hg
  refine ⟨hincluded, ?_⟩
  rw [digested, hflat, hincluded]
  rfl

/-- A digest that nobody cancels is refused, fails over what is pending, or sends that. -/
theorem sendDigest_undisturbed (hd : Keyed s.notifications) (h : Undisturbed c s)
    (customerId : String) :
    (c.access.answer customerId ≠ .ok .granted ∧ ∃ r, (∀ report, r = .ok report → report = .none) ∧
        sendDigest c customerId s = (r, { s with asked := s.asked ++ [customerId] })) ∨
      (∃ e, pendingOf s.notifications customerId = .error e ∧
        sendDigest c customerId s = (.error e, { s with asked := s.asked ++ [customerId] })) ∨
      ∃ (ns : List Notification) (d : Compilation), c.access.answer customerId = .ok .granted ∧
        pendingOf s.notifications customerId = .ok ns ∧
        d.sections.map (·.stamped) =
          (included c s.alerts (byAlert ns).entries).map (eligible c s.alerts) ∧
        sendDigest c customerId s =
          sendAll c customerId ⟨d.alertsIncluded, d.notificationsSent, 0, 0, 0⟩ d.bodies.entries
            (digested c (byAlert ns).entries { s with asked := s.asked ++ [customerId] }) := by
  have haccess := h.checkAccess customerId
  rw [sendDigest]
  generalize hs₁ : { s with asked := s.asked ++ [customerId] } = s₁ at haccess ⊢
  have hn : s₁.notifications = s.notifications := hs₁ ▸ rfl
  have ha : s₁.alerts = s.alerts := hs₁ ▸ rfl
  have hasked : Undisturbed c s₁ := h.of_context (hs₁ ▸ rfl)
  rw [← hn] at hd
  rw [← hn, ← ha]
  cases hanswer : c.access.answer customerId with
  | error e =>
      rw [hanswer] at haccess
      refine .inl ⟨nofun, .error e, nofun, bind_of_error haccess⟩
  | ok access =>
      rw [hanswer] at haccess
      rw [bind_of_ok haccess]
      cases access with
      | denied reason =>
          refine .inl ⟨nofun, .ok .none, ?_, rfl⟩
          rintro report ⟨⟩
          rfl
      | granted =>
          refine .inr ((compileDigest_undisturbed hd hasked customerId).imp ?_ ?_)
          · rintro ⟨e, hpending, hcompile⟩
            exact ⟨e, hpending, bind_of_error hcompile⟩
          · rintro ⟨ns, d, hpending, hcompile, hsections⟩
            exact ⟨ns, d, rfl, hpending, hsections, bind_of_ok hcompile⟩

/-- A digest that has nothing to send changes no document and sends no message. -/
theorem Idle.sendDigest {customerId : String} (hidle : Idle c customerId s)
    (hd : Keyed s.notifications) (h : Undisturbed c s) :
    ∃ r, (∀ report, r = .ok report → report = .none) ∧
      Engine.sendDigest c customerId s = (r, { s with asked := s.asked ++ [customerId] }) := by
  obtain ⟨-, hrun⟩ | ⟨e, -, hrun⟩ | ⟨ns, d, hgranted, hpending, hsections, hrun⟩ :=
    sendDigest_undisturbed hd h customerId
  · exact hrun
  · exact ⟨.error e, nofun, hrun⟩
  · have hnone : ∀ n, ¬Sendable c customerId { s with asked := s.asked ++ [customerId] } n :=
      fun n hn => hidle hgranted ns hpending n (hn.of_same rfl rfl)
    obtain ⟨hincluded, hsame⟩ := digested_eq (s := { s with asked := s.asked ++ [customerId] })
      hd hpending hnone
    change included c s.alerts _ = _ at hincluded
    rw [hincluded, List.map_nil, List.map_eq_nil_iff] at hsections
    obtain ⟨sections⟩ := d
    subst hsections
    rw [hrun, hsame]
    refine ⟨.ok .none, ?_, rfl⟩
    rintro report ⟨⟩
    rfl

/-- After a digest there is nothing left to send. -/
theorem idle_sendDigest {customerId : String} {r : Except Fault DigestReport}
    (hd : Keyed s.notifications) (h : Undisturbed c s)
    (hrun : sendDigest c customerId s = (r, s')) :
    s'.context = s.context ∧ Idle c customerId s' := by
  obtain ⟨hrefused, q, -, hend⟩ | ⟨e, hpending, hend⟩ |
    ⟨ns, d, -, hpending, hsections, hend⟩ := sendDigest_undisturbed hd h customerId
  · obtain ⟨-, rfl⟩ := Prod.mk.inj (hrun.symm.trans hend)
    exact ⟨rfl, fun hgranted => absurd hgranted hrefused⟩
  · obtain ⟨-, rfl⟩ := Prod.mk.inj (hrun.symm.trans hend)
    refine ⟨rfl, fun _ ns hns => ?_⟩
    cases hpending.symm.trans hns
  · have hsends := sends_of_digested (s := { s with asked := s.asked ++ [customerId] })
      hd hpending hsections
    rw [hrun] at hend
    generalize hs₁ : digested c (byAlert ns).entries _ = s₁ at hend hsends
    have hcontext : s₁.context = s.context := hs₁ ▸ rfl
    rw [sendAll_undisturbed (h.of_context hcontext)] at hend
    obtain ⟨-, rfl⟩ := Prod.mk.inj hend
    refine ⟨hcontext, ?_⟩
    intro _ _ _ n hn
    exact hsends.exhausts (hn.of_same rfl rfl)

theorem sendDigest_twice (hd : Keyed s.notifications) (h : Undisturbed c s) {customerId : String}
    {s'' : State} {r r' : Except Fault DigestReport} (hrun : sendDigest c customerId s = (r, s'))
    (hagain : sendDigest c customerId s' = (r', s'')) :
    s'' = { s' with asked := s'.asked ++ [customerId] } ∧
      ∀ report, r' = .ok report → report = .none := by
  obtain ⟨hcontext, hidle⟩ := idle_sendDigest hd h hrun
  obtain ⟨sections, s₁, hsections, hsame⟩ := sendDigest_cases hrun
  obtain ⟨groups, -, hcompiles⟩ := sectionsFor_cases hd hsections
  have hd' : Keyed s'.notifications := hsame.notifications ▸ hcompiles.stamps.keyed hd
  obtain ⟨q, hq, hend⟩ := hidle.sendDigest hd' (h.of_context hcontext)
  obtain ⟨rfl, rfl⟩ := Prod.mk.inj (hagain.symm.trans hend)
  exact ⟨rfl, hq⟩

/-- The second run of the task, from the state that the first has left, does nothing more: all
documents stay as they are, and a digest stamps nothing and sends no message. -/
structure Repeats (t : Task) (once : State) (again : Except Fault Outcome × State) : Prop where
  alerts : again.2.alerts = once.alerts
  notifications : again.2.notifications = once.notifications
  emails : ∀ customerId, t = .digest customerId → again.2.emails = once.emails
  report : ∀ customerId outcome, t = .digest customerId → again.1 = .ok outcome →
    outcome = .digested .none

/-- After every history that begins without notifications, a task that nobody cancels can run
twice, whether its first run succeeds or not. The exception is a refresh that stores a number
which is not finite and detects two notifications with one key: its second run fails. -/
theorem runTask_twice {ts : List Step} {context : Context}
    (hempty : ∀ k, document? s.notifications k = none) (hcontext : context.Uncancelled)
    (hmoments : ∀ m, c.interrupts m = false) (hcanned : Canned c.executor) (t : Task) :
    let once := ((runTask c t).run { runs s ts with context }).2
    Repeats t once ((runTask c t).run once) ∨ ∃ id, t = .refresh id ∧
      Tears c id { runs s ts with context } once ((runTask c t).run once).1 := by
  have hd : Keyed (runs s ts).notifications := keyed_runs (keyed_of_empty hempty) ts
  have h : Undisturbed c { runs s ts with context } := ⟨hcontext, hmoments⟩
  generalize hs : ({ runs s ts with context } : State) = s₀ at h ⊢
  have hd₀ : Keyed s₀.notifications := hs ▸ hd
  change Repeats t (runTask c t s₀).2 (runTask c t (runTask c t s₀).2) ∨ ∃ id, t = .refresh id ∧
    Tears c id s₀ (runTask c t s₀).2 (runTask c t (runTask c t s₀).2).1
  cases t with
  | refresh id =>
      rw [runTask_refresh h]
      generalize hrun : refreshAlert c id s₀ = x
      obtain ⟨r, s₁⟩ := x
      have hagain := (Prod.eta (refreshAlert c id s₁)).symm
      rw [runTask_refresh (h.of_context (refreshAlert_undisturbed h hrun).1)]
      obtain ⟨halerts, hsame | htears⟩ := refreshAlert_twice hcanned h hrun hagain
      · exact .inl ⟨halerts, hsame, nofun, nofun⟩
      · obtain ⟨e, he⟩ := htears.fails
        refine .inr ⟨id, rfl, htears.detected, e, ?_⟩
        change (refreshAlert c id s₁).1.map _ = _
        rw [he]
        rfl
  | digest customerId =>
      rw [runTask_digest h]
      generalize hrun : sendDigest c customerId s₀ = x
      obtain ⟨r, s₁⟩ := x
      have hagain := (Prod.eta (sendDigest c customerId s₁)).symm
      obtain ⟨hsame, hreport⟩ := sendDigest_twice hd₀ h hrun hagain
      rw [runTask_digest (h.of_context (idle_sendDigest hd₀ h hrun).1), hsame]
      refine .inl ⟨rfl, rfl, fun _ _ => rfl, ?_⟩
      intro _ outcome _ houtcome
      obtain ⟨report, hok, rfl⟩ := map_eq_ok.1 houtcome
      rw [hreport report hok]

namespace Sample

/-- Spend on two days, one of them twice, and a number that cannot be stored in between. -/
def torn : QueryResult :=
  ⟨[[.int 2024, .int 5, .int 14, .float 25.0], [.int 2024, .int 5, .int 13, .float boundless],
    [.int 2024, .int 5, .int 14, .float 30.0]], []⟩

def tearing (call : Call) : Step := step may torn call

/-- The alert with a threshold for every day. -/
def watchingDays : State :=
  runs .empty [tearing (.put (alert (.ofThreshold .value .greater 20.0 .cost .day)))]

/-- The value that is stored under a key. -/
def valueAt? (s : State) (key : String) : Option Float :=
  ((document? s.notifications key).bind fun doc => (decode doc).toOption).map (·.value)

/-- What a run of the refresh leaves to the next one. -/
def refreshOnce : Except Fault Outcome × State :=
  (runTask (tearing (.refresh "a1")).collaborators (.refresh "a1")).run watchingDays

def refreshAgain : Except Fault Outcome × State :=
  (runTask (tearing (.refresh "a1")).collaborators (.refresh "a1")).run refreshOnce.2

theorem canned_collaborators : Canned collaborators.executor := canned_cannedExecutor ∅

end Sample

open Sample in
/-- A digest that sends one notification can run twice. -/
theorem runTask_twice_second :
    ((runTask collaborators (.digest "acme")).run (ready pendingSecond)).1.toOption =
        some (.digested ⟨1, 1, 1, 0, 0⟩) ∧
      Repeats (.digest "acme")
        ((runTask collaborators (.digest "acme")).run (ready pendingSecond)).2
        ((runTask collaborators (.digest "acme")).run
          ((runTask collaborators (.digest "acme")).run (ready pendingSecond)).2) := by
  refine ⟨by decide +kernel, ?_⟩
  obtain hrepeats | ⟨id, hrefresh, -⟩ := runTask_twice (s := .empty) (c := collaborators)
    (fun _ => rfl) Context.uncancelled_fresh (fun _ => rfl) canned_collaborators
    (.digest "acme")
  · exact hrepeats
  · cases hrefresh

open Sample in
/-- The second run of a refresh fails at a number that the first run has stored, and leaves the
value of the day before as it was in between. -/
theorem not_repeats_torn : Canned (tearing (.refresh "a1")).collaborators.executor ∧
    valueAt? refreshOnce.2 "a1_2024-05-14" = some 30.0 ∧
    valueAt? refreshAgain.2 "a1_2024-05-14" = some 25.0 ∧
    refreshAgain.1.isOk = false ∧ ¬Repeats (.refresh "a1") refreshOnce.2 refreshAgain := by
  have honce : valueAt? refreshOnce.2 "a1_2024-05-14" = some 30.0 := by decide +kernel
  have hagain : valueAt? refreshAgain.2 "a1_2024-05-14" = some 25.0 := by decide +kernel
  refine ⟨canned_cannedExecutor _, honce, hagain, by decide +kernel, ?_⟩
  intro h
  have hsame :
      valueAt? refreshAgain.2 "a1_2024-05-14" = valueAt? refreshOnce.2 "a1_2024-05-14" := by
    rw [valueAt?, valueAt?, h.notifications]
  rw [honce, hagain] at hsame
  exact absurd hsame (by decide +kernel)

end Engine

end SpendAlerts

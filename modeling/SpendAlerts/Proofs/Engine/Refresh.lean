import SpendAlerts.Engine.Refresh
import SpendAlerts.Proofs.Breakdown
import SpendAlerts.Proofs.Engine.Calls

/-!
What a refresh can do. It is quiet, or it has planned its request over the documents, has
evaluated the alert and recorded some of the detections, one after the other, each over
nothing, over an unsent notification or over one of another etag. Alerts stay as they are,
and the events dispatched are those of the detections written, unless recording has failed
on the way.
-/

namespace SpendAlerts

namespace NotificationStore

/-- Recording notifications under an etag, one after the other. -/
inductive Records (etag : String) : Documents → List Notification → Documents → Prop where
  | nil (d : Documents) : Records etag d [] d
  | cons {d d' : Documents} {n : Notification} {ns : List Notification}
      (allowed : ∀ old : Notification, document? d n.key = some old.encode →
        Decimal.isFinite old.value = true ∧ (old.etag = etag → old.sent = none))
      (rest : Records etag (write d n) ns d') : Records etag d (n :: ns) d'

theorem Records.keyed {etag : String} {d d' : Documents} {ns : List Notification}
    (h : Records etag d ns d') (hd : Keyed d) : Keyed d' := by
  induction h with
  | nil => exact hd
  | cons _ _ ih => exact ih (hd.write _)

/-- A key is not touched, or holds a notification recorded, in place of one that was not
sent under the same etag. -/
theorem Records.document?_cases {etag : String} {d d' : Documents} {ns : List Notification}
    (h : Records etag d ns d') (k : String) :
    ((∀ n ∈ ns, n.key ≠ k) ∧ document? d' k = document? d k) ∨
      ∃ n ∈ ns, n.key = k ∧ document? d' k = some n.encode ∧
        ∀ old : Notification, document? d k = some old.encode → old.etag = etag →
          old.sent = none := by
  induction h with
  | nil d => exact .inl ⟨List.forall_mem_nil _, rfl⟩
  | @cons d d' n ns allowed _ ih =>
      rw [document?_write] at ih
      by_cases hk : n.key = k
      · have hold : ∀ old : Notification, document? d k = some old.encode → old.etag = etag →
            old.sent = none := fun old h => (allowed old (hk ▸ h)).2
        simp only [hk, if_true] at ih
        obtain ⟨-, hdoc⟩ | ⟨m, hm, hmk, hdoc, -⟩ := ih
        · exact .inr ⟨n, List.mem_cons_self, hk, hdoc, hold⟩
        · exact .inr ⟨m, List.mem_cons_of_mem _ hm, hmk, hdoc, hold⟩
      · simp only [hk, if_false] at ih
        obtain ⟨hns, hdoc⟩ | ⟨m, hm, hmk, hdoc, hold⟩ := ih
        · exact .inl ⟨List.forall_mem_cons.2 ⟨hk, hns⟩, hdoc⟩
        · exact .inr ⟨m, List.mem_cons_of_mem _ hm, hmk, hdoc, hold⟩

end NotificationStore

namespace Engine

open Run NotificationStore

variable {c : Collaborators} {s s' : State}

theorem addAll_cases {etag : String} {ns : List Notification}
    {r : Except Fault (List Notification)} (h : addAll c etag ns s = (r, s')) :
    s'.alerts = s.alerts ∧ s'.events = s.events ∧ ∃ written, written.Sublist ns ∧
      Records etag s.notifications written s'.notifications ∧
      ((∃ e, r = .error e) ∨ r = .ok written) := by
  induction ns generalizing s s' r with
  | nil =>
      cases h
      exact ⟨rfl, rfl, [], .slnil, .nil _, .inr rfl⟩
  | cons n ns ih =>
      obtain ⟨e, hadd, rfl⟩ | ⟨w, s₁, hadd, htail⟩ := bind_cases h
      · obtain ⟨-, hsame⟩ | ⟨hr, -⟩ | ⟨hr, -⟩ := Collaborators.addDetected_cases hadd
        · refine ⟨hsame.alerts, hsame.events, [], List.nil_sublist _, ?_, .inl ⟨e, rfl⟩⟩
          rw [hsame.notifications]
          exact .nil _
        · cases hr
        · cases hr
      · have hrest : s'.alerts = s₁.alerts ∧ s'.events = s₁.events ∧
            ∃ written, written.Sublist ns ∧
              Records etag s₁.notifications written s'.notifications ∧
              ((∃ e, r = .error e) ∨ r = .ok (if w then n :: written else written)) := by
          obtain ⟨e, hrest, rfl⟩ | ⟨others, s₂, hrest, hreturn⟩ := bind_cases htail
          · obtain ⟨ha, he, written, hsub, hrec, -⟩ := ih hrest
            exact ⟨ha, he, written, hsub, hrec, .inl ⟨e, rfl⟩⟩
          · cases hreturn
            obtain ⟨ha, he, written, hsub, hrec, ⟨e, hr⟩ | hr⟩ := ih hrest
            · cases hr
            · cases hr
              exact ⟨ha, he, others, hsub, hrec, .inr rfl⟩
        obtain ⟨ha, he, written, hsub, hrec, hr⟩ := hrest
        obtain ⟨⟨e, hw⟩, -⟩ | ⟨hw, hsame⟩ | ⟨hw, ha₁, he₁, hwrite, hold⟩ :=
          Collaborators.addDetected_cases hadd
        · cases hw
        · cases hw
          rw [hsame.notifications] at hrec
          exact ⟨ha.trans hsame.alerts, he.trans hsame.events, written, hsub.cons n, hrec, hr⟩
        · cases hw
          rw [hwrite] at hrec
          exact ⟨ha.trans ha₁, he.trans he₁, n :: written, hsub.cons_cons n, .cons hold hrec, hr⟩

theorem dispatchAll_cases {a : Alert} {place : Nat} {ns : List Notification}
    {r : Except Fault Nat} (h : dispatchAll c a place ns s = (r, s')) :
    ∃ taken, r = .ok taken ∧ s'.alerts = s.alerts ∧ s'.notifications = s.notifications ∧
      s'.events.map (·.content) = s.events.map (·.content) ++ ns.map (⟨·, a⟩) := by
  induction ns generalizing s s' r place with
  | nil =>
      cases h
      exact ⟨0, rfl, rfl, rfl, by simp⟩
  | cons n ns ih =>
      obtain ⟨taken, s₁, ⟨ha₁, hn₁, he₁⟩, htail⟩ :=
        bind_cases_of_ok Collaborators.dispatch_cases h
      obtain ⟨others, s₂, ⟨ha, hn, he⟩, hreturn⟩ := bind_cases_of_ok ih htail
      cases hreturn
      refine ⟨_, rfl, ha.trans ha₁, hn.trans hn₁, ?_⟩
      rw [he, he₁]
      simp

/-- What a refresh can do. -/
inductive Refreshes (c : Collaborators) (id : String) (s : State) :
    Except Fault RefreshReport → State → Prop where
  | quiet {r : Except Fault RefreshReport} {s' : State} (same : State.Same s s')
      (nothing : ∀ report, r = .ok report → report.added = 0) : Refreshes c id s r s'
  | recorded {r : Except Fault RefreshReport} {s' : State} (a : Alert) (request : QueryRequest)
      (result : QueryResult) (ns written : List Notification)
      (alert : AlertStore.read s.alerts id = .ok a)
      (answer : c.executor.answer request = .ok result)
      (evaluated : evaluate c.settings.noiseThreshold a request result c.now = .ok ns)
      (part : written.Sublist (ns.map (nameFor a c.settings.metricLabels)))
      (alerts : s'.alerts = s.alerts)
      (records : Records a.etag s.notifications written s'.notifications)
      (outcome : ((∃ e, r = .error e) ∧ s'.events = s.events) ∨
        ∃ report, r = .ok report ∧ report.added = written.length ∧
          s'.events.map (·.content) = s.events.map (·.content) ++ written.map (⟨·, a⟩)) :
      Refreshes c id s r s'

/-- Recording what an evaluation has detected. -/
theorem record_cases {a : Alert} {ns : List Notification} {r : Except Fault RefreshReport}
    (h : record c a ns s = (r, s')) :
    s'.alerts = s.alerts ∧ ∃ written,
      written.Sublist (ns.map (nameFor a c.settings.metricLabels)) ∧
      Records a.etag s.notifications written s'.notifications ∧
      (((∃ e, r = .error e) ∧ s'.events = s.events) ∨
        ∃ report, r = .ok report ∧ report.added = written.length ∧
          s'.events.map (·.content) = s.events.map (·.content) ++ written.map (⟨·, a⟩)) := by
  obtain ⟨e, hadd, rfl⟩ | ⟨added, s₁, hadd, htail⟩ := bind_cases h
  · obtain ⟨ha, he, written, hpart, hrec, -⟩ := addAll_cases hadd
    exact ⟨ha, written, hpart, hrec, .inl ⟨⟨e, rfl⟩, he⟩⟩
  obtain ⟨ha, he, written, hpart, hrec, ⟨e, hr⟩ | hr⟩ := addAll_cases hadd
  · cases hr
  cases hr
  obtain ⟨taken, s₂, ⟨ha', hn', he'⟩, hreturn⟩ := bind_cases_of_ok dispatchAll_cases htail
  cases hreturn
  rw [he] at he'
  rw [← hn'] at hrec
  exact ⟨ha'.trans ha, added, hpart, hrec, .inr ⟨_, rfl, rfl, he'⟩⟩

theorem onNotifications_peeks {α : Type} {m : StoreM α} {f : Documents → Except Fault α}
    {r : Except Fault α} (hm : m.Peeks f) (h : onNotifications m s = (r, s')) :
    State.Same s s' ∧ ∀ x, r = .ok x → f s.notifications = .ok x := by
  obtain ⟨session, hrun, hn, ha, he⟩ := onNotifications_cases h
  refine ⟨⟨ha, hn.trans (hm.documents hrun), he⟩, ?_⟩
  rintro x rfl
  exact hm.eq_ok hrun

/-- What the alert read under an id, the documents and the answers of collaborators make a
refresh detect. -/
structure Detections (c : Collaborators) (id : String) (s : State) (a : Alert)
    (request : QueryRequest) (result : QueryResult) (ns : List Notification) : Prop where
  alert : AlertStore.read s.alerts id = .ok a
  planned : QueryRequest.ofDocuments c.settings.breakdownLimit a c.now s.notifications =
    .ok (some request)
  answer : c.executor.answer request = .ok result
  evaluated : evaluate c.settings.noiseThreshold a request result c.now = .ok ns

/-- A refresh has failed or is skipped. -/
def Quieted (r : Except Fault RefreshReport) : Prop :=
  ∀ report, r = .ok report → ∃ id why, report = .quiet id (some why)

theorem Quieted.failed {r : Except Fault RefreshReport} {e : Fault} (h : r = .error e) :
    Quieted r := by
  intro report hreport
  cases h.symm.trans hreport

theorem Quieted.skipped {r : Except Fault RefreshReport} {id : String} {why : Skip}
    (h : r = .ok (.quiet id (some why))) : Quieted r := by
  intro report hreport
  cases h.symm.trans hreport
  exact ⟨id, why, rfl⟩

theorem evaluateAlert_cases {id : String} {a : Alert} {r : Except Fault RefreshReport}
    (ha : AlertStore.read s.alerts id = .ok a) (h : evaluateAlert c a s = (r, s')) :
    (State.Same s s' ∧ Quieted r) ∨
      ∃ request result ns s₁, Detections c id s a request result ns ∧ State.Same s s₁ ∧
        record c a ns s₁ = (r, s') := by
  obtain ⟨e, hvalid, hr⟩ | ⟨_, s₁, hvalid, hopen⟩ := bind_cases h
  · exact .inl ⟨(Quiet.ofExcept _).same hvalid, .failed hr⟩
  obtain ⟨-, rfl⟩ := Prod.mk.inj hvalid
  split at hopen
  · obtain ⟨hr, rfl⟩ := Prod.mk.inj hopen
    exact .inl ⟨.refl s, .skipped hr.symm⟩
  obtain ⟨e, hbuild, hr⟩ | ⟨built, s₁, hbuild, hquery⟩ := bind_cases hopen
  · exact .inl ⟨(onNotifications_peeks (QueryRequest.peeks_build _ _ _) hbuild).1, .failed hr⟩
  obtain ⟨hsame, hplanned⟩ := onNotifications_peeks (QueryRequest.peeks_build _ _ _) hbuild
  cases built with
  | none =>
      obtain ⟨hr, rfl⟩ := Prod.mk.inj hquery
      exact .inl ⟨hsame, .skipped hr.symm⟩
  | some request =>
      obtain ⟨e, hexecute, hr⟩ | ⟨result, s₂, hexecute, hdetect⟩ := bind_cases hquery
      · exact .inl ⟨hsame.trans (Collaborators.execute_cases hexecute).1, .failed hr⟩
      obtain ⟨hsame₂, hanswer⟩ := Collaborators.execute_cases hexecute
      obtain ⟨e, heval, hr⟩ | ⟨ns, s₃, heval, hrecord⟩ := bind_cases hdetect
      · exact .inl ⟨(hsame.trans hsame₂).trans ((Quiet.ofExcept _).same heval), .failed hr⟩
      obtain ⟨hns, rfl⟩ := Prod.mk.inj heval
      exact .inr ⟨request, result, ns, s₂, ⟨ha, hplanned _ rfl, hanswer result rfl, hns⟩,
        hsame.trans hsame₂, hrecord⟩

/-- Every refresh is quiet, or records what its alert's evaluation has detected. -/
theorem refreshAlert_cases {id : String} {r : Except Fault RefreshReport}
    (h : refreshAlert c id s = (r, s')) :
    (State.Same s s' ∧ Quieted r) ∨
      ∃ a request result ns s₁, Detections c id s a request result ns ∧ State.Same s s₁ ∧
        record c a ns s₁ = (r, s') := by
  obtain ⟨e, hget, hr⟩ | ⟨a, s₁, hget, haccess⟩ := bind_cases h
  · exact .inl ⟨(Quiet.onAlerts (AlertStore.reads_get id)).same hget, .failed hr⟩
  have hsame := (Quiet.onAlerts (AlertStore.reads_get id)).same hget
  have hread : AlertStore.read s.alerts id = .ok a :=
    AlertStore.read_of_get (onAlerts_cases hget).choose_spec.1
  obtain ⟨e, hcheck, hr⟩ | ⟨access, s₂, hcheck, hopen⟩ := bind_cases haccess
  · exact .inl ⟨hsame.trans ((Collaborators.quiet_checkAccess c _).same hcheck), .failed hr⟩
  have hsame₂ := hsame.trans ((Collaborators.quiet_checkAccess c _).same hcheck)
  cases access with
  | denied reason =>
      cases hopen
      exact .inl ⟨hsame₂, .skipped rfl⟩
  | granted =>
      have hread₂ : AlertStore.read s₂.alerts id = .ok a := by
        rw [hsame₂.alerts]
        exact hread
      obtain ⟨hsame₃, hquiet⟩ | ⟨request, result, ns, s₃, hdetections, hsame₃, hrecord⟩ :=
        evaluateAlert_cases hread₂ hopen
      · exact .inl ⟨hsame₂.trans hsame₃, hquiet⟩
      · refine .inr ⟨a, request, result, ns, s₃, ⟨hread, ?_, hdetections.answer,
          hdetections.evaluated⟩, hsame₂.trans hsame₃, hrecord⟩
        rw [← hsame₂.notifications]
        exact hdetections.planned

theorem refreshes_of_run {id : String} {r : Except Fault RefreshReport}
    (h : refreshAlert c id s = (r, s')) : Refreshes c id s r s' := by
  obtain ⟨hsame, hquiet⟩ | ⟨a, request, result, ns, s₁, hdetections, hsame, hrecord⟩ :=
    refreshAlert_cases h
  · refine .quiet hsame fun report hreport => ?_
    obtain ⟨_, _, rfl⟩ := hquiet report hreport
    rfl
  · obtain ⟨halerts, written, hpart, hrec, houtcome⟩ := record_cases hrecord
    rw [hsame.alerts] at halerts
    rw [hsame.notifications] at hrec
    rw [hsame.events] at houtcome
    exact .recorded a request result ns written hdetections.alert hdetections.answer
      hdetections.evaluated hpart halerts hrec houtcome

end Engine

end SpendAlerts

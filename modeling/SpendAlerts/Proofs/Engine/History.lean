import SpendAlerts.Proofs.Engine.Digest
import SpendAlerts.Proofs.Engine.Refresh
import SpendAlerts.Proofs.Evaluation

/-!
Histories of the engine: refreshes, digests and alerts that are put, one after the other,
each with collaborators and a context of its own. A step is described by what it stamps,
dispatches and adds, and the documents of notifications are encodings under their own
keys after every history that starts with such documents.
-/

namespace SpendAlerts

namespace Engine

open NotificationStore

inductive Call where
  | refresh (id : String)
  | digest (customerId : String)
  | put (a : Alert)

structure Step where
  collaborators : Collaborators
  context : Context
  call : Call

namespace Step

variable {t : Step} {s : State}

/-- The state in the context of the step. -/
def enter (t : Step) (s : State) : State := { s with context := t.context }

def after (t : Step) (s : State) : State :=
  match t.call with
  | .refresh id => ((refreshAlert t.collaborators id).run (t.enter s)).2
  | .digest customerId => ((sendDigest t.collaborators customerId).run (t.enter s)).2
  | .put a => ((Run.onAlerts (AlertStore.put a)).run (t.enter s)).2

/-- How many detections a refresh reports as added. -/
def added (t : Step) (s : State) : Nat :=
  match t.call with
  | .refresh id => match ((refreshAlert t.collaborators id).run (t.enter s)).1 with
    | .ok report => report.added
    | .error _ => 0
  | _ => 0

/-- The events that the step hands to the webhooks. -/
def dispatched (t : Step) (s : State) : List WebhookEvent :=
  ((t.after s).events.drop s.events.length).map (·.content)

/-- The notifications that a digest stamps and shows. -/
def stamped (t : Step) (s : State) : List Notification :=
  match t.call with
  | .digest customerId => match ((sectionsFor t.collaborators customerId).run (t.enter s)).1 with
    | .ok sections => sections.flatMap (·.stamped)
    | .error _ => []
  | _ => []

/-- The alert that a refresh reads. -/
def alert? (t : Step) (s : State) : Option Alert :=
  match t.call with
  | .refresh id => (AlertStore.read s.alerts id).toOption
  | _ => none

end Step

def runs (s : State) : List Step → State
  | [] => s
  | t :: ts => runs (t.after s) ts

theorem runs_append (s : State) (ts us : List Step) :
    runs s (ts ++ us) = runs (runs s ts) us := by
  induction ts generalizing s with
  | nil => rfl
  | cons t ts ih => exact ih (t.after s)

namespace Step

variable {t : Step} {s : State}

theorem dispatched_eq {es : List WebhookEvent}
    (h : (t.after s).events.map (·.content) = s.events.map (·.content) ++ es) :
    t.dispatched s = es := by
  have hlength : s.events.length = (s.events.map (·.content)).length := by simp
  rw [dispatched, List.map_drop, h, hlength]
  exact List.drop_left

theorem dispatched_eq_nil (h : (t.after s).events = s.events) : t.dispatched s = [] :=
  dispatched_eq (by rw [h, List.append_nil])

/-- The step records these detections of the alert, in this order. -/
inductive Records (t : Step) (s : State) (a : Alert) : List Notification → Prop where
  | intro (request : QueryRequest) (result : QueryResult) (ns written : List Notification)
      (answer : t.collaborators.executor.answer request = .ok result)
      (evaluated : evaluate t.collaborators.settings.noiseThreshold a request result
        t.collaborators.now = .ok ns)
      (part : written.Sublist (ns.map (nameFor a t.collaborators.settings.metricLabels)))
      (records : NotificationStore.Records a.etag s.notifications written
        (t.after s).notifications) : Records t s a written

theorem Records.stored {a : Alert} {written : List Notification} (h : t.Records s a written) :
    NotificationStore.Records a.etag s.notifications written (t.after s).notifications := by
  cases h with
  | intro request result ns _ answer evaluated part records => exact records

theorem refresh_cases {id : String} (hcall : t.call = .refresh id) :
    (t.after s).alerts = s.alerts ∧
      (((t.after s).notifications = s.notifications ∧ t.dispatched s = [] ∧ t.added s = 0) ∨
        ∃ a written, AlertStore.read s.alerts id = .ok a ∧ t.Records s a written ∧
          ((t.dispatched s = [] ∧ t.added s = 0) ∨
            (t.dispatched s = written.map (⟨·, a⟩) ∧ t.added s = written.length))) := by
  have hafter : t.after s = ((refreshAlert t.collaborators id).run (t.enter s)).2 := by
    rw [after, hcall]
  have hadded : t.added s = match ((refreshAlert t.collaborators id).run (t.enter s)).1 with
      | .ok report => report.added
      | .error _ => 0 := by
    rw [added, hcall]
  cases hrun : (refreshAlert t.collaborators id).run (t.enter s) with
  | mk r s' =>
      rw [hrun] at hafter hadded
      subst hafter
      cases refreshes_of_run hrun with
      | quiet same nothing =>
          refine ⟨same.alerts, .inl ⟨same.notifications, dispatched_eq_nil same.events, ?_⟩⟩
          rw [hadded]
          cases r with
          | ok report => exact nothing report rfl
          | error e => rfl
      | recorded a request result ns written alert answer evaluated part alerts records outcome =>
          refine ⟨alerts, .inr ⟨a, written, alert, ?_, ?_⟩⟩
          · exact .intro request result ns written answer evaluated part records
          · cases outcome with
            | inl h =>
                obtain ⟨⟨e, rfl⟩, hevents⟩ := h
                exact .inl ⟨dispatched_eq_nil hevents, hadded⟩
            | inr h =>
                obtain ⟨report, rfl, hcount, hevents⟩ := h
                exact .inr ⟨dispatched_eq hevents, hadded.trans hcount⟩

theorem digest_cases {customerId : String} (hcall : t.call = .digest customerId)
    (hd : Keyed s.notifications) :
    ∃ groups sections, Pending s.notifications groups ∧
      t.stamped s = sections.flatMap (·.stamped) ∧
      CompilesAll t.collaborators groups s sections (t.after s) := by
  have hafter : t.after s = ((sendDigest t.collaborators customerId).run (t.enter s)).2 := by
    rw [after, hcall]
  have hstamped : t.stamped s =
      match ((sectionsFor t.collaborators customerId).run (t.enter s)).1 with
      | .ok sections => sections.flatMap (·.stamped)
      | .error _ => [] := by
    rw [stamped, hcall]
  obtain ⟨r, s₁, hsections, hsame⟩ := sendDigest_cases (Prod.eta
    ((sendDigest t.collaborators customerId).run (t.enter s))).symm
  have hrun : (sectionsFor t.collaborators customerId).run (t.enter s) = (r, s₁) := hsections
  rw [hrun] at hstamped
  have hd' : Keyed (t.enter s).notifications := hd
  obtain ⟨groups, hp, hcompiles⟩ := sectionsFor_cases hd' hsections
  refine ⟨groups, r.toOption.getD [], hp, ?_, ?_⟩
  · rw [hstamped]
    cases r with
    | ok sections => rfl
    | error e => rfl
  · rw [hafter]
    exact ⟨hsame.events.trans hcompiles.events, hsame.alerts ▸ hcompiles.alerts,
      hsame.alerts ▸ hcompiles.retains, hsame.notifications ▸ hcompiles.stamps,
      hcompiles.sections⟩

theorem put_cases {a : Alert} (hcall : t.call = .put a) :
    (t.after s).notifications = s.notifications ∧ (t.after s).events = s.events ∧
      ((t.context.isCancelled = true ∧ (t.after s).alerts = s.alerts) ∨
        (t.context.isCancelled = false ∧ (t.after s).alerts =
          s.alerts.insert AlertStore.collectionName a.id a.encode)) := by
  have hafter : t.after s = ((Run.onAlerts (AlertStore.put a)).run (t.enter s)).2 := by
    rw [after, hcall]
  have hrun : Run.onAlerts (AlertStore.put a) (t.enter s) =
      ((Run.onAlerts (AlertStore.put a) (t.enter s)).1, t.after s) := by
    rw [hafter]
    rfl
  obtain ⟨session, hput, ha, hn, he⟩ := Run.onAlerts_cases hrun
  rw [ha]
  exact ⟨hn, he, AlertStore.put_cases hput⟩

/-- The documents of notifications stay encodings under their own keys. -/
theorem keyed_after (hd : Keyed s.notifications) : Keyed (t.after s).notifications := by
  cases hcall : t.call with
  | refresh id =>
      obtain ⟨-, ⟨hn, -⟩ | ⟨a, written, -, hrecords, -⟩⟩ := refresh_cases (s := s) hcall
      · exact hn ▸ hd
      · exact hrecords.stored.keyed hd
  | digest customerId =>
      obtain ⟨groups, sections, -, -, hcompiles⟩ := digest_cases hcall hd
      exact hcompiles.stamps.keyed hd
  | put a => exact (put_cases (s := s) hcall).1 ▸ hd

theorem stamped_eq_nil (hcall : ∀ customerId, t.call ≠ .digest customerId) :
    t.stamped s = [] := by
  rw [stamped]
  split
  · next customerId h => exact absurd h (hcall customerId)
  · rfl

/-- What a digest stamps was pending under the etag that its alert has just then. -/
theorem of_mem_stamped {n : Notification} (hd : Keyed s.notifications) (hn : n ∈ t.stamped s) :
    (∃ a, AlertStore.read s.alerts n.alertId = .ok a ∧ n.etag = a.etag) ∧ n.sent = none ∧
      Decimal.isFinite n.value = true ∧ document? s.notifications n.key = some n.encode ∧
      document? (t.after s).notifications n.key =
        some (n.sentAt (t.collaborators.stampTime n.key)).encode := by
  cases hcall : t.call with
  | refresh id =>
      rw [stamped_eq_nil (by simp [hcall])] at hn
      cases hn
  | put a =>
      rw [stamped_eq_nil (by simp [hcall])] at hn
      cases hn
  | digest customerId =>
      obtain ⟨groups, sections, hp, hstamped, hcompiles⟩ := digest_cases hcall hd
      rw [hstamped] at hn
      obtain ⟨x, hx, hnx⟩ := List.mem_flatMap.1 hn
      obtain ⟨g, hg, hread, hsec⟩ := hcompiles.sections x hx
      have hng := hsec.part.subset hnx
      have hall := List.mem_flatMap.2 ⟨g, hg, hng⟩
      refine ⟨⟨x.alert, ?_, hsec.etag n hnx⟩, hp.unsent g hg n hng, hp.ready.finite n hall,
        hp.ready.stored n hall, hcompiles.stamps.sent n hn⟩
      rw [hp.alertId g hg n hng]
      exact hread

/-- A step that is no refresh changes only the documents of what it stamps. -/
theorem document?_after (hd : Keyed s.notifications) (hcall : ∀ id, t.call ≠ .refresh id)
    {k : String} (hk : k ∉ (t.stamped s).map (·.key)) :
    document? (t.after s).notifications k = document? s.notifications k := by
  cases h : t.call with
  | refresh id => exact absurd h (hcall id)
  | put a => rw [(put_cases (s := s) h).1]
  | digest customerId =>
      obtain ⟨groups, sections, -, hstamped, hcompiles⟩ := digest_cases h hd
      exact hcompiles.stamps.others k (hstamped ▸ hk)

/-- A refresh changes only the documents of what it records, and each of these belongs to
the alert it has read. -/
theorem document?_refresh {id k : String} (hcall : t.call = .refresh id) :
    (document? (t.after s).notifications k = document? s.notifications k ∧
        ∀ event ∈ t.dispatched s, event.notification.key ≠ k) ∨
      ∃ (a : Alert) (n : Notification), t.alert? s = some a ∧
        AlertStore.read s.alerts id = .ok a ∧ n.Detects a ∧ n.key = k ∧
        document? (t.after s).notifications k = some n.encode ∧
        ∀ old : Notification, document? s.notifications k = some old.encode →
          old.etag = a.etag → old.sent = none := by
  obtain ⟨-, ⟨hn, hevents, -⟩ | ⟨a, written, hread, hrecords, hevents⟩⟩ :=
    refresh_cases (s := s) hcall
  · rw [hn, hevents]
    exact .inl ⟨rfl, List.forall_mem_nil _⟩
  cases hrecords with
  | intro request result ns written answer evaluated part records =>
      obtain ⟨hkeys, hdoc⟩ | ⟨n, hn, hk, hdoc, hold⟩ := records.document?_cases k
      · refine .inl ⟨hdoc, ?_⟩
        obtain ⟨hnone, -⟩ | ⟨hsome, -⟩ := hevents
        · rw [hnone]
          exact List.forall_mem_nil _
        · rw [hsome]
          exact List.forall_mem_map.2 hkeys
      · refine .inr ⟨a, n, ?_, hread, ?_, hk, hdoc, hold⟩
        · simp [alert?, hcall, hread, Except.toOption]
        · obtain ⟨m, hm, rfl⟩ := List.mem_map.1 (part.subset hn)
          exact detects_nameFor (mem_evaluate evaluated hm).1

/-- A refresh reports as added what it dispatches. -/
theorem added_eq {id : String} (hcall : t.call = .refresh id) :
    t.added s = (t.dispatched s).length := by
  obtain ⟨-, ⟨-, hevents, hadded⟩ | ⟨a, written, -, -, ⟨hevents, hadded⟩ | ⟨hevents, hadded⟩⟩⟩ :=
    refresh_cases (s := s) hcall
  · rw [hevents, hadded]
    rfl
  · rw [hevents, hadded]
    rfl
  · rw [hevents, hadded, List.length_map]

theorem refresh_of_alert? {a : Alert} (h : t.alert? s = some a) :
    ∃ id, t.call = .refresh id ∧ AlertStore.read s.alerts id = .ok a := by
  rw [alert?] at h
  split at h
  · next id hcall =>
    refine ⟨id, hcall, ?_⟩
    cases hread : AlertStore.read s.alerts id with
    | ok b =>
        rw [hread] at h
        cases h
        rfl
    | error e =>
        rw [hread] at h
        cases h
  · cases h

end Step

theorem keyed_runs {s : State} (hd : Keyed s.notifications) (ts : List Step) :
    Keyed (runs s ts).notifications := by
  induction ts generalizing s with
  | nil => exact hd
  | cons t ts ih => exact ih (Step.keyed_after hd)

namespace Sample

def april : Instant := .midnight ⟨2024, 4, 15, by decide⟩

theorem valid_may : Date.Valid 2024 5 15 := by decide

def may : Instant := .midnight ⟨2024, 5, 15, valid_may⟩

def monthly : AlertConfig := .ofThreshold .value .greater 20.0 .cost .month

def alert (config : AlertConfig) : Alert :=
  .define "a1" "Spend" "acme" (config.withScope ["attr-1"]) ["ops@acme.com"] "v1" true none april

/-- Spend that is too large for a number. -/
def boundless : Float := 1.0 / 0.0

def collaborators : Collaborators := .quiet .standard may ∅

/-- A step at some time, with collaborators that never fail. -/
def step (now : Instant) (result : QueryResult) (call : Call) : Step :=
  ⟨.quiet .standard now (Table.ofList [("a1", result)]), .fresh, call⟩

end Sample

end Engine

end SpendAlerts

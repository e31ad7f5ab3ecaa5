import SpendAlerts.Engine.State

/-!
Refreshes. A refresh reads an alert, asks for access, queries, evaluates, records what it
detects, and only then dispatches an event for each detection that was written. Nothing
is written before the last step that can fail for another reason than the store, and a
failed dispatch only counts. Scheduling a refresh of all alerts asks once per customer.
-/

namespace SpendAlerts

namespace Engine

/-- Why an alert was not evaluated. -/
inductive Skip where
  | accessDenied (reason : String)
  | noReplyOnly
  | quotaExhausted
  deriving DecidableEq, Repr

structure RefreshReport where
  alertId : String
  skipped : Option Skip
  detected : Nat
  added : Nat
  webhooksSent : Nat
  webhookFailures : Nat
  deriving DecidableEq, Repr

def RefreshReport.quiet (alertId : String) (skipped : Option Skip) : RefreshReport :=
  ⟨alertId, skipped, 0, 0, 0, 0⟩

structure ScheduleReport where
  listed : Nat
  enqueued : Nat
  denied : Nat
  failed : Nat
  deriving DecidableEq, Repr

/-- Records detections in order and gives those that were written. -/
def addAll (c : Collaborators) (etag : String) : List Notification → Run (List Notification)
  | [] => return []
  | n :: ns => do
      let written ← c.addDetected n etag
      let others ← addAll c etag ns
      return if written then n :: others else others

/-- Dispatches an event per detection, from some place on, and counts those that were taken. -/
def dispatchAll (c : Collaborators) (a : Alert) (place : Nat) : List Notification → Run Nat
  | [] => return 0
  | n :: ns => do
      let taken ← c.dispatch place ⟨n, a⟩
      let others ← dispatchAll c a (place + 1) ns
      return if taken then others + 1 else others

def nameFor (a : Alert) (labels : Table String) (n : Notification) : Notification :=
  { n with alertName := a.name, sentence := a.sentence labels }

/-- Records the detections of an evaluation and dispatches what was written. -/
def record (c : Collaborators) (a : Alert) (ns : List Notification) : Run RefreshReport := do
  let added ← addAll c a.etag (ns.map (nameFor a c.settings.metricLabels))
  let taken ← dispatchAll c a 0 added
  return ⟨a.id, none, ns.length, added.length, taken, added.length - taken⟩

def onlyNotifiesNobody (settings : Settings) (a : Alert) : Bool :=
  settings.noReplyRecipient.any a.onlyNotifies

def evaluateAlert (c : Collaborators) (a : Alert) : Run RefreshReport := do
  Run.ofExcept a.validate
  if onlyNotifiesNobody c.settings a then return .quiet a.id (some .noReplyOnly)
  match ← Run.onNotifications (QueryRequest.build c.settings.breakdownLimit a c.now) with
  | none => return .quiet a.id (some .quotaExhausted)
  | some request =>
      let result ← c.execute request
      let ns ← Run.ofExcept (evaluate c.settings.noiseThreshold a request result c.now)
      record c a ns

/-- Evaluates one alert and records what it detects. -/
def refreshAlert (c : Collaborators) (id : String) : Run RefreshReport := do
  let a ← Run.onAlerts (AlertStore.get id)
  match ← c.checkAccess a.customerId with
  | .denied reason => return .quiet id (some (.accessDenied reason))
  | .granted => evaluateAlert c a

/-- Asks about a customer unless the answer is known from an earlier alert. -/
def accessFor (c : Collaborators) (known : List (String × Bool)) (customerId : String) :
    Run (Option Bool × List (String × Bool)) := do
  match known.lookup customerId with
  | some granted => return (some granted, known)
  | none => match ← Run.attempt (c.checkAccess customerId) with
    | .ok answer =>
        let granted := decide (answer = .granted)
        return (some granted, (customerId, granted) :: known)
    | .error _ => return (none, known)

/-- Enqueues a refresh per alert whose customer has access. -/
def scheduleAlerts (c : Collaborators) (known : List (String × Bool)) (report : ScheduleReport) :
    List Alert → Run ScheduleReport
  | [] => return report
  | a :: rest => do
      let (granted, known) ← accessFor c known a.customerId
      match granted with
      | none => scheduleAlerts c known { report with failed := report.failed + 1 } rest
      | some false => scheduleAlerts c known { report with denied := report.denied + 1 } rest
      | some true => match ← Run.attempt (c.enqueue (.refresh a.id)) with
        | .ok () => scheduleAlerts c known { report with enqueued := report.enqueued + 1 } rest
        | .error _ => scheduleAlerts c known { report with failed := report.failed + 1 } rest

/-- Lists all alerts, deleting dangling ones, and enqueues their refreshes. -/
def refreshAll (c : Collaborators) : Run ScheduleReport := do
  let alerts ← Run.onAlerts (AlertStore.list c.now (c.settings.grace / 1000 : Nat))
  scheduleAlerts c [] ⟨alerts.length, 0, 0, 0⟩ alerts

end Engine

end SpendAlerts

import SpendAlerts.Digest.Body
import SpendAlerts.Query.Build
import SpendAlerts.Evaluation
import SpendAlerts.Settings
import SpendAlerts.Store.Alerts
import SpendAlerts.Task
import SpendAlerts.Webhook

/-!
What the engine works on, and whom it works with. The state holds the stores, the queue
and the context of the current call, and keeps a record of what was handed to the
collaborators. Collaborators are answers that are fixed for a call: the clock, the access
check, the executor of queries, the channels, which store steps fail, and at which
moments the caller cancels the context. A digest reads the clock anew for whatever it
stamps or remembers. Since a refresh may hand the same event to the webhooks twice, their
answer depends on its place among the events of the refresh as well.
-/

namespace SpendAlerts

inductive Access where
  | granted
  | denied (reason : String)
  deriving DecidableEq, Repr

namespace Engine

/-- What was handed to a channel, and whether the channel took it. -/
structure Delivery (α : Type) where
  content : α
  accepted : Bool

structure State where
  context : Context
  alerts : Documents
  notifications : Documents
  queue : List Task
  /-- Customers that the access check was asked about. -/
  asked : List String
  requests : List QueryRequest
  events : List (Delivery WebhookEvent)
  emails : List (Delivery Digest.Email)
  deriving Inhabited

def State.empty : State := ⟨.fresh, .empty, .empty, [], [], [], [], []⟩

/-- A collaborator. One that heeds the context refuses once that is cancelled. -/
structure Service (α β : Type) where
  heedsContext : Bool
  answer : α → Except Fault β

/-- The moments at which a caller may cancel. -/
inductive Moment where
  | asked (customerId : String)
  | executed (alertId : String)
  | added (key : String)
  | marked (key : String)
  | notified (alertId : String)
  deriving DecidableEq, Repr

structure Collaborators where
  settings : Settings
  /-- What the clock shows to a refresh, and when all alerts are listed. -/
  now : Instant
  /-- What it shows when the notification under a key is stamped. -/
  stampTime : String → Instant
  /-- What it shows when a digest has included the alert with an id. -/
  digestTime : String → Instant
  access : Service String Access
  executor : Service QueryRequest QueryResult
  /-- What becomes of an event at its place among those of a refresh. -/
  webhooks : Nat → Service WebhookEvent Unit
  mail : Service Digest.Email Unit
  addFault : String → Option Fault
  markFault : String → Option Fault
  enqueueFault : Task → Option Fault
  interrupts : Moment → Bool

/-- Answers queries with the results that are given for alert ids. -/
def cannedExecutor (results : Table QueryResult) : Service QueryRequest QueryResult where
  heedsContext := true
  answer request := match results.find? request.alertId with
    | some r => .ok r
    | none => .error (.query ("no result for alert " ++ request.alertId))

/-- Collaborators that grant everything, deliver nothing and never fail. -/
def Collaborators.quiet (settings : Settings) (now : Instant) (results : Table QueryResult) :
    Collaborators where
  settings := settings
  now := now
  stampTime _ := now
  digestTime _ := now
  access := ⟨true, fun _ => .ok .granted⟩
  executor := cannedExecutor results
  webhooks _ := ⟨true, fun _ => .ok ()⟩
  mail := ⟨true, fun _ => .ok ()⟩
  addFault _ := none
  markFault _ := none
  enqueueFault _ := none
  interrupts _ := false

/-- A call of the engine: it can fail, and the state stays known when it does. -/
abbrev Run := ExceptT Fault (StateM State)

namespace Run

def run {α : Type} (m : Run α) (s : State) : Except Fault α × State :=
  StateT.run (ExceptT.run m) s

def guarded {α : Type} (m : Guarded α) : Run α :=
  fun s =>
    let (result, context) := m s.context
    (result, { s with context })

def onAlerts {α : Type} (m : StoreM α) : Run α :=
  fun s =>
    let (result, session) := m ⟨s.context, s.alerts⟩
    (result, { s with context := session.context, alerts := session.documents })

def onNotifications {α : Type} (m : StoreM α) : Run α :=
  fun s =>
    let (result, session) := m ⟨s.context, s.notifications⟩
    (result, { s with context := session.context, notifications := session.documents })

def change (f : State → State) : Run Unit :=
  fun s => (.ok (), f s)

def ofExcept {α : Type} : Except Fault α → Run α :=
  fun x s => (x, s)

/-- The result of a call whose failure does not stop the caller. -/
def attempt {α : Type} (m : Run α) : Run (Except Fault α) :=
  fun s =>
    let (result, s) := m s
    (.ok result, s)

/-- Looks at the context. -/
def isCancelled : Run Bool :=
  fun s => (.ok s.context.isCancelled, { s with context := s.context.looked })

end Run

namespace Collaborators

/-- The caller cancels the context if this is a moment for it. -/
def interrupt (c : Collaborators) (m : Moment) : Run Unit :=
  .change fun s => if c.interrupts m then { s with context := s.context.cancel } else s

def call {α β : Type} (service : Service α β) (x : α) : Run β := do
  if service.heedsContext then Run.guarded Guarded.check
  Run.ofExcept (service.answer x)

def checkAccess (c : Collaborators) (customerId : String) : Run Access := do
  .change fun s => { s with asked := s.asked ++ [customerId] }
  c.interrupt (.asked customerId)
  call c.access customerId

def execute (c : Collaborators) (request : QueryRequest) : Run QueryResult := do
  if c.executor.heedsContext then Run.guarded Guarded.check
  .change fun s => { s with requests := s.requests ++ [request] }
  c.interrupt (.executed request.alertId)
  Run.ofExcept (c.executor.answer request)

/-- Hands an event to the webhooks and tells whether they took it. -/
def dispatch (c : Collaborators) (place : Nat) (event : WebhookEvent) : Run Bool := do
  let result ← Run.attempt (call (c.webhooks place) event)
  .change fun s => { s with events := s.events ++ [⟨event, result.isOk⟩] }
  return result.isOk

/-- Hands a message to the mail transport and tells whether it took it. -/
def send (c : Collaborators) (email : Digest.Email) : Run Bool := do
  let result ← Run.attempt (call c.mail email)
  .change fun s => { s with emails := s.emails ++ [⟨email, result.isOk⟩] }
  return result.isOk

def failing (fault : Option Fault) : Run Unit :=
  match fault with
  | some e => throw e
  | none => pure ()

def addDetected (c : Collaborators) (n : Notification) (etag : String) : Run Bool := do
  failing (c.addFault n.key)
  let written ← Run.onNotifications (NotificationStore.addDetected n etag)
  c.interrupt (.added n.key)
  return written

def markSent (c : Collaborators) (key : String) (time : Instant) : Run Unit := do
  failing (c.markFault key)
  Run.onNotifications (NotificationStore.markSent key time)
  c.interrupt (.marked key)

def updateNotified (c : Collaborators) (alertId : String) (time : Instant) : Run Unit := do
  Run.onAlerts (AlertStore.updateNotified alertId time)
  c.interrupt (.notified alertId)

def enqueue (c : Collaborators) (t : Task) : Run Unit := do
  failing (c.enqueueFault t)
  Run.guarded Guarded.check
  .change fun s => { s with queue := s.queue ++ [t] }

end Collaborators

end Engine

end SpendAlerts

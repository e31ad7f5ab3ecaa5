import SpendAlerts.Engine.State

/-!
Digests. The pending notifications of a customer are taken alert by alert; those with the
current etag of their alert are stamped as sent and make up its body, and the body goes
to the recipients of the first of them. An alert that cannot be read or labelled is left
out, and so is a notification that cannot be stamped. Cancellation stops before the next
alert, and what is stamped already still goes out.
-/

namespace SpendAlerts

namespace Engine

structure DigestReport where
  alertsIncluded : Nat
  notificationsSent : Nat
  emailsSent : Nat
  emailsFailed : Nat
  recipientsSkipped : Nat
  deriving DecidableEq, Repr

def DigestReport.none : DigestReport := ⟨0, 0, 0, 0, 0⟩

/-- Stamps notifications in order and gives those that could be stamped. -/
def stampAll (c : Collaborators) : List Notification → Run (List Notification)
  | [] => return []
  | n :: ns => do
      let result ← Run.attempt (c.markSent n.key (c.stampTime n.key))
      let others ← stampAll c ns
      return if result.isOk then n :: others else others

/-- The recipients at the time of the first detection, or else those of the alert. -/
def targets (a : Alert) (first : Notification) : List String :=
  if first.recipients = [] then a.recipients else first.recipients

def breakdownLabel? (a : Alert) : Except Fault (Option String) :=
  match a.config.breakdown? with
  | none => .ok none
  | some id => (Dimension.label? id).map some

/-- What an alert adds to a digest. -/
structure Section where
  alert : Alert
  /-- The notifications that the digest has stamped for the alert. -/
  stamped : List Notification
  body : Digest.Body
  recipients : List String

/-- Stamps the notifications with the current etag and makes their body. -/
def compileAlert (c : Collaborators) (a : Alert) (pending : List Notification) :
    Run (Option Section) := do
  match pending.filter (·.etag = a.etag) with
  | [] => return none
  | first :: others =>
      let label ← Run.ofExcept (breakdownLabel? a)
      let stamped ← stampAll c (first :: others)
      let body := Digest.Body.ofNotifications a label (a.sentence c.settings.metricLabels) stamped
      if body.isEmpty then return none
      else return some ⟨a, stamped, body, targets a first⟩

/-- The section of one alert, or none where the alert is left out. -/
def sectionFor (c : Collaborators) (alertId : String) (pending : List Notification) :
    Run (Option Section) := do
  match ← Run.attempt (Run.onAlerts (AlertStore.get alertId)) with
  | .error _ => return none
  | .ok a => match ← Run.attempt (compileAlert c a pending) with
    | .error _ => return none
    | .ok s => return s

/-- The sections of the alerts in order, up to the first look that finds the context
cancelled. -/
def compileAll (c : Collaborators) : List (String × List Notification) → Run (List Section)
  | [] => return []
  | (alertId, pending) :: rest => do
      if ← Run.isCancelled then return []
      else match ← sectionFor c alertId pending with
        | none => compileAll c rest
        | some s =>
            let _ ← Run.attempt (c.updateNotified alertId (c.digestTime alertId))
            return s :: (← compileAll c rest)

/-- Marks the last body of a message. -/
def markLast : List Digest.Body → List Digest.Body
  | [] => []
  | [b] => [{ b with isLast := true }]
  | b :: bs => b :: markLast bs

/-- The sections of a digest in the order of their alerts. -/
structure Compilation where
  sections : List Section

namespace Compilation

def addSection (t : Table (List Digest.Body)) (s : Section) : Table (List Digest.Body) :=
  s.recipients.foldl (fun t r => t.push r s.body) t

/-- The bodies by recipient. -/
def bodies (d : Compilation) : Table (List Digest.Body) :=
  (d.sections.foldl addSection ∅).map markLast

def alertsIncluded (d : Compilation) : Nat := d.sections.length

def notificationsSent (d : Compilation) : Nat :=
  (d.sections.map (·.stamped.length)).foldr (· + ·) 0

end Compilation

/-- Compiles the digest of a customer, stamping what it holds. -/
def compileDigest (c : Collaborators) (customerId : String) : Run Compilation := do
  Run.guarded Guarded.check
  let pending ← Run.onNotifications (NotificationStore.pendingFor customerId)
  return ⟨← compileAll c pending.entries⟩

/-- Sends one message per recipient that mail may go to. -/
def sendAll (c : Collaborators) (customerId : String) (report : DigestReport) :
    List (String × List Digest.Body) → Run DigestReport
  | [] => return report
  | (recipient, bodies) :: rest => do
      if !c.settings.allows recipient then
        sendAll c customerId { report with recipientsSkipped := report.recipientsSkipped + 1 } rest
      else if ← c.send ⟨recipient, customerId, bodies⟩ then
        sendAll c customerId { report with emailsSent := report.emailsSent + 1 } rest
      else sendAll c customerId { report with emailsFailed := report.emailsFailed + 1 } rest

/-- Compiles and sends the digest of a customer; one without access keeps everything
pending. -/
def sendDigest (c : Collaborators) (customerId : String) : Run DigestReport := do
  match ← c.checkAccess customerId with
  | .denied _ => return .none
  | .granted =>
      let d ← compileDigest c customerId
      sendAll c customerId ⟨d.alertsIncluded, d.notificationsSent, 0, 0, 0⟩ d.bodies.entries

def scheduleFor (c : Collaborators) : List String → Run Nat
  | [] => return 0
  | customerId :: rest => do
      let result ← Run.attempt (c.enqueue (.digest customerId))
      let others ← scheduleFor c rest
      return if result.isOk then others + 1 else others

/-- Enqueues a digest per customer with pending notifications and counts them. -/
def scheduleDigests (c : Collaborators) : Run Nat := do
  scheduleFor c (← Run.onNotifications NotificationStore.customersWithPending)

end Engine

end SpendAlerts

import SpendAlerts.Proofs.Engine.Recipients
import SpendAlerts.Proofs.Text.Separated

/-!
What the mail transport is handed. A digest that is compiled goes out with one message for each
address that mail may go to, in the order of the addresses, whatever the transport does
with any of them. Failures show in the counts of the report and nowhere else: the compilation
does not depend on the transport, and sending touches no document.
-/

namespace SpendAlerts

/-- Mail may go to the address: there is no list of domains, or what follows its last at sign is
one of them, up to the case of the letters A to Z. -/
def Settings.Permits (settings : Settings) (address : String) : Prop :=
  ∀ domains, settings.allowedDomains = some domains →
    ∃ user domain, address.toList = user ++ '@' :: domain ∧ '@' ∉ domain ∧
      ∃ d ∈ domains, d.toList.map Text.asciiLower = domain.map Text.asciiLower

theorem Settings.allows_iff {settings : Settings} {address : String} :
    settings.allows address = true ↔ settings.Permits address := by
  rw [allows, Permits]
  cases settings.allowedDomains with
  | none => simp
  | some domains =>
      simp only [Option.some.injEq, forall_eq']
      cases hrest : Text.afterLast? '@' address.toList with
      | none =>
          simp only [Bool.false_eq_true, false_iff]
          intro ⟨user, domain, haddress, hfree, _⟩
          rw [Text.afterLast?_eq_some.2 ⟨user, haddress, hfree⟩] at hrest
          cases hrest
      | some domain =>
          obtain ⟨user, haddress, hfree⟩ := Text.afterLast?_eq_some.1 hrest
          simp only [List.any_eq_true, Text.sameIgnoringCase, decide_eq_true_eq]
          constructor
          · intro hdomain
            exact ⟨user, domain, haddress, hfree, hdomain⟩
          · intro ⟨user', domain', haddress', hfree', hdomain⟩
            rw [Text.afterLast?_eq_some.2 ⟨user', haddress', hfree'⟩] at hrest
            cases hrest
            exact hdomain

namespace Engine

open NotificationStore Run

variable {c : Collaborators} {s s' : State} {customerId : String}

section Transport

variable (c : Collaborators) (mail : Service Digest.Email Unit)

theorem stampAll_withMail (ns : List Notification) :
    stampAll { c with mail } ns = stampAll c ns := by
  induction ns with
  | nil => rfl
  | cons n ns ih =>
      rw [stampAll, stampAll, ih]
      rfl

theorem compileAlert_withMail (a : Alert) (pending : List Notification) :
    compileAlert { c with mail } a pending = compileAlert c a pending := by
  simp only [compileAlert, stampAll_withMail]

theorem sectionFor_withMail (id : String) (pending : List Notification) :
    sectionFor { c with mail } id pending = sectionFor c id pending := by
  simp only [sectionFor, compileAlert_withMail]

theorem compileAll_withMail (groups : List (String × List Notification)) :
    compileAll { c with mail } groups = compileAll c groups := by
  induction groups with
  | nil => rfl
  | cons g groups ih =>
      rw [compileAll, compileAll, ih, sectionFor_withMail]
      rfl

/-- A digest is compiled in the same way whatever the transport is. -/
theorem compileDigest_withMail (customerId : String) :
    compileDigest { c with mail } customerId = compileDigest c customerId := by
  simp only [compileDigest, compileAll_withMail]

end Transport

section Emails

theorem fixes_sectionFor (c : Collaborators) (id : String) (pending : List Notification) :
    Fixes State.emails (sectionFor c id pending) := by
  have hget : Fixes State.emails (onAlerts (AlertStore.get id)) := fun _ => rfl
  refine hget.attempt.bind ?_
  intro found
  cases found with
  | error e => exact .pure _
  | ok a =>
      refine (fixes_compileAlert (fun _ _ _ => rfl) a pending).attempt.bind ?_
      intro compiled
      cases compiled with
      | error e => exact .pure _
      | ok sec => exact .pure _

theorem fixes_compileAll (c : Collaborators) (groups : List (String × List Notification)) :
    Fixes State.emails (compileAll c groups) := by
  induction groups with
  | nil => exact .pure _
  | cons g groups ih =>
      have hlook : Fixes State.emails Run.isCancelled := fun _ => rfl
      have hstore : Fixes State.emails
          (onAlerts (AlertStore.updateNotified g.1 (c.digestTime g.1))) :=
        fun _ => rfl
      have hnotify : Fixes State.emails (c.updateNotified g.1 (c.digestTime g.1)) :=
        hstore.bind fun _ => Collaborators.fixes_interrupt (fun _ _ => rfl) c _
      refine hlook.bind ?_
      intro cancelled
      cases cancelled with
      | true => exact .pure _
      | false =>
          refine (fixes_sectionFor c g.1 g.2).bind ?_
          intro sec
          cases sec with
          | none => exact ih
          | some x => exact hnotify.attempt.bind fun _ => ih.bind fun _ => .pure _

/-- Compiling a digest hands nothing to the transport. -/
theorem fixes_compileDigest (c : Collaborators) (customerId : String) :
    Fixes State.emails (compileDigest c customerId) :=
  Fixes.bind (fun _ => rfl) fun _ =>
    Fixes.bind (fun _ => rfl) fun pending =>
      (fixes_compileAll c pending.entries).bind fun _ => .pure _

end Emails

theorem recipients_letters (settings : Settings) (customerId : String)
    (t : Table (List Digest.Body)) :
    (letters settings customerId t.entries).map (·.recipient) = t.keys.filter settings.allows := by
  rw [letters, List.map_map, Table.keys, List.filter_map]
  rfl

/-- There is one letter for each address of the table that mail may go to. -/
theorem mem_letters {settings : Settings} {t : Table (List Digest.Body)} {e : Digest.Email} :
    e ∈ letters settings customerId t.entries ↔ e.customerId = customerId ∧
      t.find? e.recipient = some e.bodies ∧ settings.Permits e.recipient := by
  rw [letters, List.mem_map, ← Settings.allows_iff]
  constructor
  · rintro ⟨m, hm, he⟩
    obtain ⟨hmem, hallows⟩ := List.mem_filter.1 hm
    cases he
    exact ⟨rfl, Table.find?_of_mem_entries hmem, hallows⟩
  · rintro ⟨hcustomer, hfind, hallows⟩
    have hmem := (Entries.mem_iff_find? t.ordered).2 hfind
    exact ⟨(e.recipient, e.bodies), List.mem_filter.2 ⟨hmem, hallows⟩, by rw [← hcustomer]⟩

/-- The letters are handed over, each once, and the report counts what becomes of every address.
Nothing else depends on what the transport does. -/
structure Delivers (mail : Service Digest.Email Unit) (messages : List Digest.Email)
    (d : Compilation) (s compiled : State) (report : DigestReport) (s' : State) : Prop where
  handed : ∃ posted, s'.emails = s.emails ++ posted ∧ posted.map (·.content) = messages ∧
    (mail.heedsContext = false → ∀ p ∈ posted, p.accepted = (mail.answer p.content).isOk) ∧
    report.emailsSent = (posted.filter (·.accepted)).length ∧
    report.emailsFailed = (posted.filter (!·.accepted)).length
  total : report.emailsSent + report.emailsFailed + report.recipientsSkipped = d.bodies.size
  alertsIncluded : report.alertsIncluded = d.alertsIncluded
  notificationsSent : report.notificationsSent = d.notificationsSent
  alerts : s'.alerts = compiled.alerts
  notifications : s'.notifications = compiled.notifications

theorem Posts.delivers {d : Compilation} {compiled : State} {sent : DigestReport}
    {posted : List (Delivery Digest.Email)} (hemails : compiled.emails = s.emails)
    (h : Posts c customerId d.bodies.entries ⟨d.alertsIncluded, d.notificationsSent, 0, 0, 0⟩
      compiled posted sent s') :
    Delivers c.mail (letters c.settings customerId d.bodies.entries) d s compiled sent s' where
  handed := by
    refine ⟨posted, hemails ▸ h.emails, h.contents, h.accepted, ?_, ?_⟩
    all_goals simp [h.report]
  total := by
    have hposted := List.length_eq_length_filter_add (l := posted) (·.accepted)
    have hmessages := List.length_eq_length_filter_add (l := d.bodies.entries)
      fun m => c.settings.allows m.1
    have hletters := congrArg List.length h.contents
    rw [List.length_map, letters, List.length_map] at hletters
    simp only [h.report, Table.size]
    omega
  alertsIncluded := by rw [h.report]
  notificationsSent := by rw [h.report]
  alerts := h.same.alerts
  notifications := h.same.notifications

theorem sendDigest_delivers {s₁ s₂ : State} {d : Compilation}
    (haccess : c.checkAccess customerId s = (.ok .granted, s₁))
    (hcompile : compileDigest c customerId s₁ = (.ok d, s₂)) :
    ∃ report s', sendDigest c customerId s = (.ok report, s') ∧
      Delivers c.mail (letters c.settings customerId d.bodies.entries) d s s₂ report s' := by
  have hemails : s₂.emails = s.emails :=
    ((fixes_compileDigest c customerId).eq hcompile).trans
      ((Collaborators.fixes_checkAccess c customerId).eq haccess)
  cases hsend : sendAll c customerId ⟨d.alertsIncluded, d.notificationsSent, 0, 0, 0⟩
      d.bodies.entries s₂ with
  | mk r s' =>
      obtain ⟨posted, sent, rfl, hposts⟩ := sendAll_cases hsend
      exact ⟨sent, s', (bind_of_ok haccess).trans ((bind_of_ok hcompile).trans hsend),
        hposts.delivers hemails⟩

/-- A digest that is granted and compiled is sent, whatever the transport does: with one message
for each address that gets bodies and that mail may go to, in the order of the addresses. -/
theorem delivery_exact {s₁ s₂ : State} {d : Compilation}
    (haccess : c.checkAccess customerId s = (.ok .granted, s₁))
    (hcompile : compileDigest c customerId s₁ = (.ok d, s₂)) :
    ((letters c.settings customerId d.bodies.entries).map (·.recipient)).Pairwise (· < ·) ∧
      (∀ e, e ∈ letters c.settings customerId d.bodies.entries ↔ e.customerId = customerId ∧
        d.bodies.find? e.recipient = some e.bodies ∧ c.settings.Permits e.recipient) ∧
      ∀ mail : Service Digest.Email Unit, ∃ report s',
        sendDigest { c with mail } customerId s = (.ok report, s') ∧
          Delivers mail (letters c.settings customerId d.bodies.entries) d s s₂ report s' := by
  refine ⟨?_, fun _ => mem_letters, ?_⟩
  · rw [recipients_letters]
    exact (List.pairwise_map.2 d.bodies.ordered).filter _
  · intro mail
    refine sendDigest_delivers (c := { c with mail }) haccess ?_
    rw [compileDigest_withMail, hcompile]

namespace Sample

/-- Only one domain may be written to, in whatever case. -/
def restricted : Collaborators :=
  .quiet { Settings.standard with allowedDomains := some ["acme.com"] } may ∅

/-- A transport that fails for one address. -/
def failingTransport : Service Digest.Email Unit where
  heedsContext := false
  answer e := if e.recipient = "ops@acme.com" then .error (.mail "refused") else .ok ()

def threeRecipients : List Step :=
  let recipients := ["ops@acme.com", "cfo@ACME.com", "someone@elsewhere.org"]
  [inMay (.put { alert monthly with recipients }), inMay (.refresh "a1")]

end Sample

open Sample in
/-- One message is sent, one fails and one is skipped. -/
theorem delivery_exact_failing : ∃ report s',
    sendDigest { restricted with mail := failingTransport } "acme" (ready threeRecipients) =
      (.ok report, s') ∧ report = ⟨1, 1, 1, 1, 1⟩ ∧
    s'.emails.map (·.content.recipient) = ["cfo@ACME.com", "ops@acme.com"] := by
  have haccess : restricted.checkAccess "acme" (ready threeRecipients) =
      (.ok .granted, (restricted.checkAccess "acme" (ready threeRecipients)).2) := rfl
  have hreport : (sendDigest { restricted with mail := failingTransport } "acme"
      (ready threeRecipients)).1.toOption = some ⟨1, 1, 1, 1, 1⟩ := by
    decide +kernel
  have hkeys : (compileDigest restricted "acme"
      (restricted.checkAccess "acme" (ready threeRecipients)).2).1.toOption.map
        (·.bodies.keys) = some ["cfo@ACME.com", "ops@acme.com", "someone@elsewhere.org"] := by
    decide +kernel
  cases hcompile : compileDigest restricted "acme"
      (restricted.checkAccess "acme" (ready threeRecipients)).2 with
  | mk r s₂ =>
      rw [hcompile] at hkeys
      cases r with
      | error e => cases hkeys
      | ok d =>
          obtain ⟨-, -, hdelivers⟩ := delivery_exact haccess hcompile
          obtain ⟨report, s', hrun, hdelivered⟩ := hdelivers failingTransport
          obtain ⟨posted, hemails, hcontents, -⟩ := hdelivered.handed
          rw [hrun] at hreport
          refine ⟨report, s', hrun, Option.some.inj hreport, ?_⟩
          have hnone : (ready threeRecipients).emails = [] :=
            List.eq_nil_of_length_eq_zero (by decide +kernel)
          have haddresses : d.bodies.keys = _ := Option.some.inj hkeys
          have hrecipients := congrArg (List.map (·.recipient)) hcontents
          rw [recipients_letters, haddresses, List.map_map] at hrecipients
          rw [hemails, hnone, List.nil_append]
          exact hrecipients.trans (by decide +kernel)

end Engine

end SpendAlerts

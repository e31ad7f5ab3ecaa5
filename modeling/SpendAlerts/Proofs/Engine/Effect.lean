import SpendAlerts.Engine.Work
import SpendAlerts.Proofs.Engine.Stamping
import SpendAlerts.Proofs.Engine.Verdict
import SpendAlerts.Proofs.Store.Repetition

/-!
What a task does. In a context that nobody cancels, a refresh writes the detections that are
accepted and counts the events that are taken; a digest stamps what is eligible, remembers the
alerts that it includes, and posts a message to each recipient that mail may go to. All of it,
and the outcome, is an effect that depends on the two stores and the collaborators alone.
-/

namespace SpendAlerts

namespace Engine

open Run NotificationStore

variable {c : Collaborators} {s s' : State}

theorem addAll_undisturbed (h : Undisturbed c s) (etag : String) (ns : List Notification) :
    addAll c etag ns s = ((recording c.addFault etag s.notifications ns).result,
      { s with notifications := recorded c.addFault etag s.notifications ns }) := by
  induction ns generalizing s with
  | nil => rfl
  | cons n ns ih =>
      rw [addAll, recorded, recording]
      cases hfault : c.addFault n.key with
      | some e => exact bind_of_error (Undisturbed.addDetected_of_fault hfault etag)
      | none =>
          have hadd := h.addDetected hfault etag
          cases hbody : recordBody n etag (document? s.notifications n.key) with
          | error e =>
              rw [hbody] at hadd
              exact bind_of_error hadd
          | ok w =>
              cases w with
              | keep =>
                  rw [hbody] at hadd
                  have hkept : c.addDetected n etag s = (.ok false, s) := hadd
                  rw [bind_of_ok hkept, bind_pure_apply, ih h]
                  simp only
                  cases (recording c.addFault etag s.notifications ns).result with
                  | error e => rfl
                  | ok others => rfl
              | put x =>
                  rw [recordBody_put hbody n] at hadd
                  have hwritten : c.addDetected n etag s =
                      (.ok true, { s with notifications := write s.notifications n }) := hadd
                  rw [bind_of_ok hwritten, bind_pure_apply,
                    ih (s := { s with notifications := write s.notifications n })
                      (h.of_context rfl)]
                  simp only [Recording.result]
                  cases (recording c.addFault etag (write s.notifications n) ns).fault with
                  | some e => rfl
                  | none => rfl

/-- The event about a notification at some place, and whether the webhooks take it. -/
def delivered (c : Collaborators) (a : Alert) (place : Nat) (n : Notification) :
    Delivery WebhookEvent :=
  ⟨⟨n, a⟩, ((c.webhooks place).answer ⟨n, a⟩).isOk⟩

/-- The events about some notifications, from some place on. -/
def deliveries (c : Collaborators) (a : Alert) (place : Nat) (ns : List Notification) :
    List (Delivery WebhookEvent) :=
  (ns.zipIdx place).map fun e => delivered c a e.2 e.1

theorem deliveries_cons (a : Alert) (place : Nat) (n : Notification) (ns : List Notification) :
    deliveries c a place (n :: ns) = delivered c a place n :: deliveries c a (place + 1) ns :=
  rfl

/-- How many of the events about some notifications the webhooks take. -/
def taken (c : Collaborators) (a : Alert) (place : Nat) (ns : List Notification) : Nat :=
  ((deliveries c a place ns).filter (·.accepted)).length

theorem contents_deliveries (a : Alert) (place : Nat) (ns : List Notification) :
    (deliveries c a place ns).map (·.content) = ns.map (⟨·, a⟩) := by
  have hfst : (ns.zipIdx place).map Prod.fst = ns := List.zipIdx_map_fst place ns
  rw [deliveries, List.map_map]
  conv_rhs => rw [← hfst, List.map_map]
  rfl

theorem taken_le (a : Alert) (place : Nat) (ns : List Notification) :
    taken c a place ns ≤ ns.length := by
  have hlength := congrArg List.length (contents_deliveries (c := c) a place ns)
  rw [List.length_map, List.length_map] at hlength
  exact hlength ▸ List.length_filter_le _ _

/-- Every event is handed over, and those that are taken are counted. -/
theorem dispatchAll_undisturbed (h : Undisturbed c s) (a : Alert) (place : Nat)
    (ns : List Notification) : dispatchAll c a place ns s =
      (.ok (taken c a place ns), { s with events := s.events ++ deliveries c a place ns }) := by
  induction ns generalizing s place with
  | nil =>
      rw [deliveries, List.zipIdx_nil, List.map_nil, List.append_nil]
      rfl
  | cons n ns ih =>
      have hrest := ih (s := { s with events := s.events ++ [delivered c a place n] })
        (h.of_context rfl) (place + 1)
      simp only [List.append_assoc, List.singleton_append] at hrest
      rw [dispatchAll, bind_of_ok (h.dispatch _ _)]
      refine (bind_of_ok hrest).trans ?_
      rw [taken, taken, deliveries_cons, List.filter_cons, delivered]
      cases ((c.webhooks place).answer ⟨n, a⟩).isOk with
      | true => rfl
      | false => rfl

/-- What a refresh reports of the detections of an evaluation. -/
def reported (c : Collaborators) (a : Alert) (ns : List Notification) (d : Documents) :
    Except Fault RefreshReport :=
  (recording c.addFault a.etag d (ns.map (nameFor a c.settings.metricLabels))).result.map
    fun added =>
      ⟨a.id, none, ns.length, added.length, taken c a 0 added, added.length - taken c a 0 added⟩

/-- If no step of recording fails, an event goes out for every notification written. -/
theorem record_of_ok (h : Undisturbed c s) (a : Alert) (ns : List Notification)
    {added : List Notification}
    (hadded : (recording c.addFault a.etag s.notifications
      (ns.map (nameFor a c.settings.metricLabels))).result = .ok added) :
    record c a ns s =
      (.ok ⟨a.id, none, ns.length, added.length, taken c a 0 added,
          added.length - taken c a 0 added⟩,
        { s with
          notifications := recorded c.addFault a.etag s.notifications
            (ns.map (nameFor a c.settings.metricLabels))
          events := s.events ++ deliveries c a 0 added }) := by
  have hadd := addAll_undisturbed h a.etag (ns.map (nameFor a c.settings.metricLabels))
  rw [hadded] at hadd
  rw [record, bind_of_ok hadd]
  generalize recorded c.addFault a.etag s.notifications
    (ns.map (nameFor a c.settings.metricLabels)) = d
  have hafter : Undisturbed c { s with notifications := d } := h.of_context rfl
  exact bind_of_ok (dispatchAll_undisturbed hafter a 0 added)

/-- Recording writes what is accepted; the events that follow touch no document. -/
theorem record_undisturbed (h : Undisturbed c s) (a : Alert) (ns : List Notification) :
    ∃ events, record c a ns s = (reported c a ns s.notifications, { s with
      notifications :=
        recorded c.addFault a.etag s.notifications (ns.map (nameFor a c.settings.metricLabels))
      events }) := by
  rw [reported]
  cases hresult : (recording c.addFault a.etag s.notifications
    (ns.map (nameFor a c.settings.metricLabels))).result with
  | error e =>
      have hadd := addAll_undisturbed h a.etag (ns.map (nameFor a c.settings.metricLabels))
      rw [hresult] at hadd
      exact ⟨s.events, bind_of_error hadd⟩
  | ok added => exact ⟨_, record_of_ok h a ns hresult⟩

/-- The message to a recipient, and whether the mail transport takes it. -/
def posted (c : Collaborators) (customerId : String) (message : String × List Digest.Body) :
    Delivery Digest.Email :=
  ⟨⟨message.1, customerId, message.2⟩,
    (c.mail.answer ⟨message.1, customerId, message.2⟩).isOk⟩

/-- Counts a message as skipped, sent or failed. -/
def counted (c : Collaborators) (customerId : String) (report : DigestReport)
    (message : String × List Digest.Body) : DigestReport :=
  if !c.settings.allows message.1 then
    { report with recipientsSkipped := report.recipientsSkipped + 1 }
  else if (posted c customerId message).accepted then
    { report with emailsSent := report.emailsSent + 1 }
  else { report with emailsFailed := report.emailsFailed + 1 }

/-- Sending counts every message, and posts those to recipients that mail may go to. -/
theorem sendAll_undisturbed (h : Undisturbed c s) (customerId : String) (report : DigestReport)
    (messages : List (String × List Digest.Body)) :
    sendAll c customerId report messages s = (.ok (messages.foldl (counted c customerId) report),
      { s with emails := s.emails ++
        (messages.filter fun m => c.settings.allows m.1).map (posted c customerId) }) := by
  induction messages generalizing s report with
  | nil =>
      rw [List.filter_nil, List.map_nil, List.append_nil]
      rfl
  | cons message messages ih =>
      obtain ⟨recipient, bodies⟩ := message
      rw [sendAll, List.foldl_cons, counted, List.filter_cons]
      cases hallows : c.settings.allows recipient with
      | false => exact ih h _
      | true =>
          simp only [Bool.not_true, Bool.false_eq_true, if_false, if_true]
          rw [bind_of_ok (h.send _)]
          have hrest := ih (s := { s with
            emails := s.emails ++ [posted c customerId (recipient, bodies)] }) (h.of_context rfl)
          simp only [List.append_assoc, List.singleton_append] at hrest
          rw [List.map_cons]
          cases hanswer : (c.mail.answer ⟨recipient, customerId, bodies⟩).isOk with
          | true =>
              simp only [posted, hanswer, if_true] at hrest ⊢
              exact hrest _
          | false =>
              simp only [posted, hanswer, Bool.false_eq_true, if_false] at hrest ⊢
              exact hrest _

/-- The stores, and the messages that were handed to the mail transport. -/
structure Stores where
  alerts : Documents
  notifications : Documents
  emails : List (Delivery Digest.Email)

def State.stores (s : State) : Stores := ⟨s.alerts, s.notifications, s.emails⟩

/-- The outcome of a call, the notifications it writes, the alerts that remember its digest,
and the messages it posts. -/
structure Effect (α : Type) where
  outcome : Except Fault α
  written : List Notification
  remembered : List String
  posted : List (Delivery Digest.Email)

namespace Effect

variable {α β : Type}

/-- Nothing but the outcome. -/
def quiet (outcome : Except Fault α) : Effect α := ⟨outcome, [], [], []⟩

def map (f : α → β) (e : Effect α) : Effect β := { e with outcome := e.outcome.map f }

/-- The stores after the effect, if alerts are remembered at some times. -/
def on (times : String → Instant) (e : Effect α) (x : Stores) : Stores where
  alerts := AlertStore.rememberEach times x.alerts e.remembered
  notifications := writeEach x.notifications e.written
  emails := x.emails ++ e.posted

/-- From the state, the call has the outcome and does what the effect says. -/
structure Describes (c : Collaborators) (e : Effect α) (m : Run α) (s : State) : Prop where
  outcome : (m s).1 = e.outcome
  context : (m s).2.context = s.context
  stores : (m s).2.stores = e.on c.digestTime s.stores

theorem describes_of_eq {e : Effect α} {m : Run α} (h : m s = (e.outcome, s'))
    (hcontext : s'.context = s.context) (hstores : s'.stores = e.on c.digestTime s.stores) :
    e.Describes c m s := by
  refine ⟨?_, ?_, ?_⟩
  all_goals rw [h]
  · exact hcontext
  · exact hstores

theorem Describes.map {e : Effect α} {m : Run α} {m' : Run β} {f : α → β}
    (h : e.Describes c m s) (hrun : m' s = ((m s).1.map f, (m s).2)) :
    (e.map f).Describes c m' s := by
  rw [h.outcome] at hrun
  exact describes_of_eq hrun h.context h.stores

theorem quiet_on (outcome : Except Fault α) (times : String → Instant) (x : Stores) :
    (quiet outcome).on times x = x := by
  rw [on, quiet]
  simp [AlertStore.rememberEach, writeEach]

end Effect

/-- What a refresh does that finds this out. -/
def refreshEffect (c : Collaborators) (id : String) (d : Documents) :
    Except Fault Verdict → Effect RefreshReport
  | .error e => .quiet (.error e)
  | .ok (.skipped why) => .quiet (.ok (.quiet id (some why)))
  | .ok (.detected a ns) => ⟨reported c a ns d,
      (recording c.addFault a.etag d (ns.map (nameFor a c.settings.metricLabels))).written, [], []⟩

theorem refreshEffect_describes (h : Undisturbed c s) (id : String) :
    (refreshEffect c id s.notifications (verdict c s.alerts s.notifications id)).Describes c
      (refreshAlert c id) s := by
  obtain ⟨asked, requests, hrun⟩ := h.refreshAlert id
  cases hverdict : verdict c s.alerts s.notifications id with
  | error e =>
      rw [hverdict] at hrun
      exact Effect.describes_of_eq hrun rfl (Effect.quiet_on _ _ _).symm
  | ok v =>
      rw [hverdict] at hrun
      cases v with
      | skipped why => exact Effect.describes_of_eq hrun rfl (Effect.quiet_on _ _ _).symm
      | detected a ns =>
          have hasked : Undisturbed c { s with asked, requests } := h.of_context rfl
          obtain ⟨events, hrecord⟩ := record_undisturbed hasked a ns
          refine Effect.describes_of_eq (hrun.trans hrecord) rfl ?_
          rw [State.stores, Effect.on, refreshEffect, recorded_eq_writeEach, List.append_nil]
          rfl

/-- What a digest does with the pending notifications of a customer. -/
def compiledEffect (c : Collaborators) (customerId : String) (alerts : Documents)
    (groups : List (String × List Notification)) : Effect DigestReport :=
  let d : Compilation := ⟨sectionsOf c alerts groups⟩
  ⟨.ok (d.bodies.entries.foldl (counted c customerId)
      ⟨d.alertsIncluded, d.notificationsSent, 0, 0, 0⟩),
    (groups.flatMap (eligible c alerts)).map fun n => n.sentAt (c.stampTime n.key),
    (included c alerts groups).map (·.1),
    (d.bodies.entries.filter fun m => c.settings.allows m.1).map (posted c customerId)⟩

def digestEffect (c : Collaborators) (customerId : String) (alerts notifications : Documents) :
    Effect DigestReport :=
  match c.access.answer customerId with
  | .error e => .quiet (.error e)
  | .ok (.denied _) => .quiet (.ok .none)
  | .ok .granted => match pendingOf notifications customerId with
    | .error e => .quiet (.error e)
    | .ok ns => compiledEffect c customerId alerts (byAlert ns).entries

theorem digestEffect_describes (hd : Keyed s.notifications) (h : Undisturbed c s)
    (customerId : String) :
    (digestEffect c customerId s.alerts s.notifications).Describes c
      (sendDigest c customerId) s := by
  have haccess := h.checkAccess customerId
  have hquiet : ∀ {r : Except Fault DigestReport}, sendDigest c customerId s =
      (r, { s with asked := s.asked ++ [customerId] }) →
      (Effect.quiet r).Describes c (sendDigest c customerId) s :=
    fun hrun => Effect.describes_of_eq hrun rfl (Effect.quiet_on _ _ _).symm
  rw [digestEffect]
  cases hanswer : c.access.answer customerId with
  | error e =>
      rw [hanswer] at haccess
      exact hquiet (bind_of_error haccess)
  | ok access =>
      rw [hanswer] at haccess
      cases access with
      | denied reason => exact hquiet (bind_of_ok haccess)
      | granted =>
          have hasked : Undisturbed c { s with asked := s.asked ++ [customerId] } :=
            h.of_context rfl
          have hcompile := compileDigest_eq
            (s := { s with asked := s.asked ++ [customerId] }) hd hasked customerId
          cases hpending : pendingOf s.notifications customerId with
          | error e =>
              simp only [hpending] at hcompile
              exact hquiet ((bind_of_ok haccess).trans (bind_of_error hcompile))
          | ok ns =>
              simp only [hpending] at hcompile
              have hdigested : Undisturbed c (digested c (byAlert ns).entries
                  { s with asked := s.asked ++ [customerId] }) := h.of_context rfl
              refine Effect.describes_of_eq ((bind_of_ok haccess).trans
                ((bind_of_ok hcompile).trans (sendAll_undisturbed hdigested _ _ _))) rfl ?_
              simp only [State.stores, digested, Effect.on, compiledEffect, stampEach_eq_writeEach]

theorem runTask_refresh (h : Undisturbed c s) (id : String) : runTask c (.refresh id) s =
    ((refreshAlert c id s).1.map .refreshed, (refreshAlert c id s).2) :=
  (bind_of_ok h.check).trans (bind_pure_apply _ _ _)

theorem runTask_digest (h : Undisturbed c s) (customerId : String) :
    runTask c (.digest customerId) s =
      ((sendDigest c customerId s).1.map .digested, (sendDigest c customerId s).2) :=
  (bind_of_ok h.check).trans (bind_pure_apply _ _ _)

/-- What a task does over some stores. -/
def effect (c : Collaborators) (x : Stores) : Task → Effect Outcome
  | .refresh id =>
      (refreshEffect c id x.notifications (verdict c x.alerts x.notifications id)).map .refreshed
  | .digest customerId =>
      (digestEffect c customerId x.alerts x.notifications).map .digested

/-- A task that nobody cancels does what its effect says. -/
theorem effect_describes (hd : Keyed s.notifications) (h : Undisturbed c s) (t : Task) :
    (effect c s.stores t).Describes c (runTask c t) s := by
  cases t with
  | refresh id => exact (refreshEffect_describes h id).map (runTask_refresh h id)
  | digest customerId => exact (digestEffect_describes hd h customerId).map (runTask_digest h _)

end Engine

end SpendAlerts

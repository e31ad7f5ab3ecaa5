import SpendAlerts.Proofs.Engine.Calls
import SpendAlerts.Proofs.Store.AlertDocuments

/-!
Calls that nobody cancels. A context without signals stays as it is however often it is
looked at, so every call is an equation on the state: what it answers and which documents
it leaves depends on the documents and the collaborators alone. All that a refresh or a
digest does in such a context follows from these equations.
-/

namespace SpendAlerts

/-- No signal of the context is ever given. -/
def Context.Uncancelled (c : Context) : Prop :=
  ∀ signal ∈ c.own :: c.around, signal = none

namespace Context.Uncancelled

variable {c : Context}

theorem isCancelled (h : c.Uncancelled) : c.isCancelled = false := by
  rw [Uncancelled, List.forall_mem_cons] at h
  rw [Context.isCancelled, h.1, Bool.or_eq_false_iff, List.any_eq_false]
  refine ⟨rfl, ?_⟩
  intro signal hsignal
  simp [h.2 signal hsignal]

theorem looked (h : c.Uncancelled) : c.looked = c := by
  have hadvance : ∀ signal ∈ c.own :: c.around, advance signal = signal := by
    intro signal hsignal
    rw [h signal hsignal]
    rfl
  rw [List.forall_mem_cons] at hadvance
  rw [Context.looked, hadvance.1, List.map_congr_left hadvance.2, List.map_id']

end Context.Uncancelled

theorem Context.uncancelled_fresh : Context.fresh.Uncancelled := by
  intro signal hsignal
  exact List.mem_singleton.1 hsignal

namespace Documents

theorem transaction_uncancelled {name key : String} {f : Option Value → Except Fault Write}
    {s : Session} (hc : s.context.Uncancelled) :
    transaction name key (fun doc => Guarded.ofExcept (f doc)) s =
      ((settle name key s.documents (f (s.documents.find? name key))).1,
        { s with
          documents := (settle name key s.documents (f (s.documents.find? name key))).2 }) := by
  rw [transaction_apply]
  simp only [hc.isCancelled, hc.looked, Bool.false_eq_true, if_false]
  cases f (s.documents.find? name key) with
  | error e => rfl
  | ok write => rfl

end Documents

namespace Engine

open Run NotificationStore

theorem Run.change_bind {α : Type} (f : State → State) (m : Unit → Run α) (s : State) :
    (Run.change f >>= m) s = m () (f s) :=
  bind_of_ok rfl

theorem Run.ofExcept_bind {α β : Type} (x : α) (m : α → Run β) (s : State) :
    (Run.ofExcept (.ok x) >>= m) s = m x s :=
  bind_of_ok rfl

theorem Run.attempt_of {α : Type} {m : Run α} {s s' : State} {r : Except Fault α}
    (h : m s = (r, s')) : attempt m s = (.ok r, s') := by
  rw [attempt, h]

theorem Collaborators.failing_none (s : State) : failing none s = (.ok (), s) := rfl

/-- Nobody cancels the context, neither beforehand nor at any moment of the call. -/
structure Undisturbed (c : Collaborators) (s : State) : Prop where
  context : s.context.Uncancelled
  moments : ∀ m, c.interrupts m = false

namespace Undisturbed

variable {c : Collaborators} {s s' : State}

theorem of_context (h : Undisturbed c s) (hs : s'.context = s.context) : Undisturbed c s' :=
  ⟨hs ▸ h.context, h.moments⟩

theorem check (h : Undisturbed c s) : Run.guarded Guarded.check s = (.ok (), s) := by
  rw [Run.guarded, Guarded.check_apply, h.context.isCancelled, h.context.looked]
  rfl

theorem isCancelled (h : Undisturbed c s) : Run.isCancelled s = (.ok false, s) := by
  rw [Run.isCancelled, h.context.isCancelled, h.context.looked]

theorem interrupt (h : Undisturbed c s) (m : Moment) : c.interrupt m s = (.ok (), s) := by
  change (Except.ok (), if c.interrupts m then { s with context := s.context.cancel } else s) = _
  rw [h.moments]
  rfl

theorem get (h : Undisturbed c s) (id : String) :
    onAlerts (AlertStore.get id) s = (AlertStore.read s.alerts id, s) := by
  rw [onAlerts, AlertStore.get_apply, h.context.isCancelled, h.context.looked]
  rfl

theorem peek {α : Type} (h : Undisturbed c s) {m : StoreM α} {f : Documents → Except Fault α}
    (hm : m.Peeks f) : onNotifications m s = (f s.notifications, s) := by
  rw [onNotifications]
  cases hm ⟨s.context, s.notifications⟩ with
  | inl hrun => rw [hrun]
  | inr hrun =>
      rw [hrun, h.context.isCancelled, h.context.looked]
      rfl

theorem call {α β : Type} (h : Undisturbed c s) (service : Service α β) (x : α) :
    Collaborators.call service x s = (service.answer x, s) := by
  rw [Collaborators.call]
  split
  · rw [bind_of_ok h.check]
    rfl
  · rfl

theorem checkAccess (h : Undisturbed c s) (customerId : String) :
    c.checkAccess customerId s =
      (c.access.answer customerId, { s with asked := s.asked ++ [customerId] }) := by
  have hasked : Undisturbed c { s with asked := s.asked ++ [customerId] } := h.of_context rfl
  rw [Collaborators.checkAccess, change_bind, bind_of_ok (hasked.interrupt _), hasked.call]

theorem execute (h : Undisturbed c s) (request : QueryRequest) :
    c.execute request s =
      (c.executor.answer request, { s with requests := s.requests ++ [request] }) := by
  have hasked : Undisturbed c { s with requests := s.requests ++ [request] } := h.of_context rfl
  have hrest : (do
      .change fun s => { s with requests := s.requests ++ [request] }
      c.interrupt (.executed request.alertId)
      Run.ofExcept (c.executor.answer request) : Run QueryResult) s =
        (c.executor.answer request, { s with requests := s.requests ++ [request] }) := by
    rw [change_bind, bind_of_ok (hasked.interrupt _)]
    rfl
  rw [Collaborators.execute]
  split
  · rw [bind_of_ok h.check]
    exact hrest
  · exact hrest

theorem dispatch (h : Undisturbed c s) (place : Nat) (event : WebhookEvent) :
    c.dispatch place event s = (.ok ((c.webhooks place).answer event).isOk,
      { s with events := s.events ++ [⟨event, ((c.webhooks place).answer event).isOk⟩] }) := by
  rw [Collaborators.dispatch, bind_of_ok (attempt_of (h.call _ _))]
  rfl

theorem send (h : Undisturbed c s) (email : Digest.Email) :
    c.send email s = (.ok (c.mail.answer email).isOk,
      { s with emails := s.emails ++ [⟨email, (c.mail.answer email).isOk⟩] }) := by
  rw [Collaborators.send, bind_of_ok (attempt_of (h.call _ _))]
  rfl

theorem addDetected_of_fault {n : Notification} {e : Fault} (hfault : c.addFault n.key = some e)
    (etag : String) : c.addDetected n etag s = (.error e, s) := by
  rw [Collaborators.addDetected, hfault]
  rfl

/-- Recording is one transaction on the document under the key. -/
theorem addDetected (h : Undisturbed c s) {n : Notification} (hfault : c.addFault n.key = none)
    (etag : String) : c.addDetected n etag s =
      ((Documents.settle collectionName n.key s.notifications
        (recordBody n etag (document? s.notifications n.key))).1,
        { s with notifications := (Documents.settle collectionName n.key s.notifications
          (recordBody n etag (document? s.notifications n.key))).2 }) := by
  have hstore : onNotifications (NotificationStore.addDetected n etag) s =
      ((Documents.settle collectionName n.key s.notifications
        (recordBody n etag (document? s.notifications n.key))).1,
        { s with notifications := (Documents.settle collectionName n.key s.notifications
          (recordBody n etag (document? s.notifications n.key))).2 }) := by
    rw [onNotifications, NotificationStore.addDetected, Documents.transaction_uncancelled h.context]
    rfl
  rw [Collaborators.addDetected, hfault, bind_of_ok (Collaborators.failing_none s)]
  generalize Documents.settle collectionName n.key s.notifications
    (recordBody n etag (document? s.notifications n.key)) = settled at hstore ⊢
  obtain ⟨r, d⟩ := settled
  have hafter : Undisturbed c { s with notifications := d } := h.of_context rfl
  cases r with
  | error e => exact bind_of_error hstore
  | ok written =>
      rw [bind_of_ok hstore, bind_of_ok (hafter.interrupt _)]
      rfl

theorem markSent_of_fault {key : String} {e : Fault} (hfault : c.markFault key = some e)
    (time : Instant) : c.markSent key time s = (.error e, s) := by
  rw [Collaborators.markSent, hfault]
  rfl

/-- A stored notification is stamped, unless the caller has this step fail. -/
theorem markSent (h : Undisturbed c s) {n : Notification} (hfault : c.markFault n.key = none)
    (hfinite : Decimal.isFinite n.value = true)
    (hstored : document? s.notifications n.key = some n.encode) (time : Instant) :
    c.markSent n.key time s =
      (.ok (), { s with notifications := write s.notifications (n.sentAt time) }) := by
  have hbody : sentBody n.key time (document? s.notifications n.key) =
      .ok (.put (n.sentAt time).encode) := by
    rw [hstored, sentBody, decode_eq_ok.2 ⟨hfinite, rfl⟩]
    rfl
  have hstore : onNotifications (NotificationStore.markSent n.key time) s =
      (.ok (), { s with notifications := write s.notifications (n.sentAt time) }) := by
    rw [onNotifications, NotificationStore.markSent, bind_apply,
      Documents.transaction_uncancelled h.context]
    change document? s.notifications n.key = _ at hstored
    rw [show s.notifications.find? collectionName n.key = document? s.notifications n.key from rfl,
      hbody]
    rfl
  have hafter : Undisturbed c { s with notifications := write s.notifications (n.sentAt time) } :=
    h.of_context rfl
  rw [Collaborators.markSent, hfault, bind_of_ok (Collaborators.failing_none s),
    bind_of_ok hstore, hafter.interrupt]

/-- Whether an alert can be updated or not, the documents are those that remember the digest. -/
theorem updateNotified (h : Undisturbed c s) (id : String) (time : Instant) :
    ∃ r, c.updateNotified id time s =
      (r, { s with alerts := AlertStore.remember time s.alerts id }) := by
  have hsettle : (Documents.settle AlertStore.collectionName id s.alerts
      (AlertStore.notifiedBody id time (s.alerts.find? AlertStore.collectionName id))).2 =
        AlertStore.remember time s.alerts id := by
    rw [AlertStore.remember]
    cases s.alerts.find? AlertStore.collectionName id with
    | none => rfl
    | some doc =>
        simp only [AlertStore.notifiedBody, Option.bind_some]
        cases Alert.decode doc with
        | ok a => rfl
        | error m => rfl
  have hstore : ∃ r, onAlerts (AlertStore.updateNotified id time) s =
      (r, { s with alerts := AlertStore.remember time s.alerts id }) := by
    rw [onAlerts, AlertStore.updateNotified, bind_apply,
      Documents.transaction_uncancelled h.context, ← hsettle]
    cases (Documents.settle AlertStore.collectionName id s.alerts
      (AlertStore.notifiedBody id time (s.alerts.find? AlertStore.collectionName id))).1 with
    | ok written => exact ⟨_, rfl⟩
    | error e => exact ⟨_, rfl⟩
  obtain ⟨r, hr⟩ := hstore
  have hafter : Undisturbed c { s with alerts := AlertStore.remember time s.alerts id } :=
    h.of_context rfl
  rw [Collaborators.updateNotified]
  cases r with
  | error e => exact ⟨_, bind_of_error hr⟩
  | ok _ => exact ⟨_, (bind_of_ok hr).trans (hafter.interrupt _)⟩

end Undisturbed

end Engine

end SpendAlerts

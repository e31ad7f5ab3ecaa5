import SpendAlerts.Engine.State
import SpendAlerts.Proofs.Store.AlertDocuments
import SpendAlerts.Proofs.Store.Notifications

/-!
Single calls of the engine. Most calls are quiet: they leave the documents and the record
of events as they are, whatever they do to the context, the queue and the mail. The
others record one detection, stamp one notification, remember one digest or dispatch one
event, and what each can do is said here once.
-/

namespace SpendAlerts

namespace Engine

/-- The states hold the same documents and the same record of events. -/
structure State.Same (s s' : State) : Prop where
  alerts : s'.alerts = s.alerts
  notifications : s'.notifications = s.notifications
  events : s'.events = s.events

theorem State.Same.refl (s : State) : State.Same s s := ⟨rfl, rfl, rfl⟩

theorem State.Same.trans {s s' s'' : State} (h : State.Same s s') (h' : State.Same s' s'') :
    State.Same s s'' :=
  ⟨h'.alerts.trans h.alerts, h'.notifications.trans h.notifications, h'.events.trans h.events⟩

namespace Run

variable {α β : Type}

def Quiet (m : Run α) : Prop := ∀ s, State.Same s (m s).2

theorem Quiet.same {m : Run α} (hm : m.Quiet) {s s' : State} {r : Except Fault α}
    (h : m s = (r, s')) : State.Same s s' := by
  have hsame := hm s
  rw [h] at hsame
  exact hsame

theorem Quiet.bind {m : Run α} {f : α → Run β} (hm : m.Quiet) (hf : ∀ x, (f x).Quiet) :
    Quiet (m >>= f) := by
  intro s
  rw [bind_apply]
  cases h : (m s).1 with
  | ok x => exact (hm s).trans (hf x _)
  | error e => exact hm s

theorem Quiet.pure (x : α) : Quiet (pure x : Run α) := fun s => .refl s

theorem Quiet.ofExcept (x : Except Fault α) : Quiet (ofExcept x) := fun s => .refl s

theorem Quiet.guarded (m : Guarded α) : Quiet (guarded m) := fun _ => ⟨rfl, rfl, rfl⟩

theorem Quiet.attempt {m : Run α} (hm : m.Quiet) : Quiet (attempt m) := fun s => hm s

theorem Quiet.onAlerts {m : StoreM α} (hm : m.Reads) : Quiet (onAlerts m) :=
  fun _ => ⟨hm _, rfl, rfl⟩

/-- A call leaves what is seen of the state as it is. -/
def Fixes {γ : Type} (view : State → γ) (m : Run α) : Prop := ∀ s, view (m s).2 = view s

section Views

variable {γ : Type} {view : State → γ}

theorem Fixes.eq {m : Run α} (hm : Fixes view m) {s s' : State} {r : Except Fault α}
    (h : m s = (r, s')) : view s' = view s := by
  rw [← hm s, h]

theorem Fixes.pure (x : α) : Fixes view (pure x : Run α) := fun _ => rfl

theorem Fixes.bind {m : Run α} {f : α → Run β} (hm : Fixes view m) (hf : ∀ x, Fixes view (f x)) :
    Fixes view (m >>= f) := by
  intro s
  rw [bind_apply]
  cases (m s).1 with
  | ok x => exact (hf x _).trans (hm s)
  | error e => exact hm s

theorem Fixes.attempt {m : Run α} (hm : Fixes view m) : Fixes view (attempt m) := fun s => hm s

theorem Fixes.ofExcept (x : Except Fault α) : Fixes view (ofExcept x) := fun _ => rfl

end Views

theorem onNotifications_cases {m : StoreM α} {s s' : State} {r : Except Fault α}
    (h : onNotifications m s = (r, s')) :
    ∃ session, m ⟨s.context, s.notifications⟩ = (r, session) ∧
      s'.notifications = session.documents ∧ s'.alerts = s.alerts ∧ s'.events = s.events := by
  obtain ⟨rfl, rfl⟩ := Prod.mk.inj h
  exact ⟨_, rfl, rfl, rfl, rfl⟩

theorem onAlerts_cases {m : StoreM α} {s s' : State} {r : Except Fault α}
    (h : onAlerts m s = (r, s')) :
    ∃ session, m ⟨s.context, s.alerts⟩ = (r, session) ∧ s'.alerts = session.documents ∧
      s'.notifications = s.notifications ∧ s'.events = s.events := by
  obtain ⟨rfl, rfl⟩ := Prod.mk.inj h
  exact ⟨_, rfl, rfl, rfl, rfl⟩

theorem attempt_cases {m : Run α} {s s' : State} {r : Except Fault (Except Fault α)}
    (h : attempt m s = (r, s')) : ∃ x, r = .ok x ∧ m s = (x, s') := by
  obtain ⟨rfl, rfl⟩ := Prod.mk.inj h
  exact ⟨_, rfl, rfl⟩

theorem isCancelled_cases {s s' : State} {r : Except Fault Bool} (h : isCancelled s = (r, s')) :
    ∃ b, r = .ok b ∧ State.Same s s' := by
  obtain ⟨rfl, rfl⟩ := Prod.mk.inj h
  exact ⟨_, rfl, ⟨rfl, rfl, rfl⟩⟩

end Run

namespace Collaborators

open Run

variable {c : Collaborators} {s s' : State}

theorem quiet_interrupt (c : Collaborators) (m : Moment) : Quiet (c.interrupt m) := by
  intro s
  change State.Same s (if c.interrupts m then { s with context := s.context.cancel } else s)
  split
  · exact ⟨rfl, rfl, rfl⟩
  · exact .refl s

theorem fixes_interrupt {γ : Type} {view : State → γ}
    (hview : ∀ (s : State) (context : Context), view { s with context } = view s)
    (c : Collaborators) (m : Moment) : Fixes view (c.interrupt m) := by
  intro s
  change view (if c.interrupts m then { s with context := s.context.cancel } else s) = view s
  split
  · exact hview s s.context.cancel
  · rfl

theorem interrupt_cases {m : Moment} {r : Except Fault Unit} (h : c.interrupt m s = (r, s')) :
    ∃ x, r = .ok x ∧ State.Same s s' :=
  ⟨(), (Prod.mk.inj h).1.symm, (quiet_interrupt c m).same h⟩

theorem quiet_call {α β : Type} (service : Service α β) (x : α) : Quiet (call service x) := by
  rw [call]
  split
  · exact (Quiet.guarded _).bind fun _ => Quiet.ofExcept _
  · exact Quiet.ofExcept _

theorem fixes_call {α β : Type} (service : Service α β) (x : α) :
    Fixes State.emails (call service x) := by
  rw [call]
  split
  · exact Fixes.bind (fun _ => rfl) fun _ => .ofExcept _
  · exact .ofExcept _

theorem quiet_checkAccess (c : Collaborators) (customerId : String) :
    Quiet (c.checkAccess customerId) :=
  Quiet.bind (fun _ => ⟨rfl, rfl, rfl⟩) fun _ =>
    (quiet_interrupt c _).bind fun _ => quiet_call c.access customerId

theorem fixes_checkAccess (c : Collaborators) (customerId : String) :
    Fixes State.emails (c.checkAccess customerId) :=
  Fixes.bind (fun _ => rfl) fun _ =>
    (fixes_interrupt (fun _ _ => rfl) c _).bind fun _ => fixes_call c.access customerId

/-- A query is quiet, and its result is what the executor has answered. -/
theorem execute_cases {request : QueryRequest} {r : Except Fault QueryResult}
    (h : c.execute request s = (r, s')) :
    State.Same s s' ∧ ∀ result, r = .ok result → c.executor.answer request = .ok result := by
  have hrest : ∀ s₁ : State, (do
      .change fun s => { s with requests := s.requests ++ [request] }
      c.interrupt (.executed request.alertId)
      Run.ofExcept (c.executor.answer request) : Run QueryResult) s₁ = (r, s') →
      State.Same s₁ s' ∧ c.executor.answer request = r := by
    intro s₁ h
    obtain ⟨e, hchange, -⟩ | ⟨_, s₂, hchange, htail⟩ := bind_cases h
    · cases (Prod.mk.inj hchange).1
    obtain ⟨-, rfl⟩ := Prod.mk.inj hchange
    obtain ⟨_, s₃, hsame, hanswer⟩ := bind_cases_of_ok interrupt_cases htail
    obtain ⟨hr, rfl⟩ := Prod.mk.inj hanswer
    exact ⟨⟨hsame.alerts, hsame.notifications, hsame.events⟩, hr⟩
  rw [execute] at h
  split at h
  · obtain ⟨e, hcheck, rfl⟩ | ⟨_, s₁, hcheck, htail⟩ := bind_cases h
    · refine ⟨(Quiet.guarded _).same hcheck, ?_⟩
      intro result hresult
      cases hresult
    · obtain ⟨hsame, rfl⟩ := hrest s₁ htail
      exact ⟨((Quiet.guarded _).same hcheck).trans hsame, fun _ => id⟩
  · obtain ⟨hsame, rfl⟩ := hrest s h
    exact ⟨hsame, fun _ => id⟩

/-- A message is handed over, and taken or not; a transport that does not heed the context
answers by the message alone. -/
theorem send_cases {email : Digest.Email} {r : Except Fault Bool}
    (h : c.send email s = (r, s')) :
    ∃ taken, r = .ok taken ∧ State.Same s s' ∧ s'.emails = s.emails ++ [⟨email, taken⟩] ∧
      (c.mail.heedsContext = false → taken = (c.mail.answer email).isOk) := by
  obtain ⟨result, s₁, hcall, hrecord⟩ := bind_cases_of_ok attempt_cases h
  have hsame := (quiet_call c.mail email).same hcall
  have hemails := (fixes_call c.mail email).eq hcall
  obtain ⟨rfl, rfl⟩ := Prod.mk.inj hrecord
  refine ⟨result.isOk, rfl, ⟨hsame.alerts, hsame.notifications, hsame.events⟩, ?_, ?_⟩
  · rw [← hemails]
  · intro hheeds
    rw [call, hheeds] at hcall
    have hanswer := (Prod.mk.inj hcall).1
    rw [← hanswer]

theorem dispatch_cases {place : Nat} {event : WebhookEvent} {r : Except Fault Bool}
    (h : c.dispatch place event s = (r, s')) :
    ∃ taken, r = .ok taken ∧ s'.alerts = s.alerts ∧ s'.notifications = s.notifications ∧
      s'.events = s.events ++ [⟨event, taken⟩] := by
  obtain ⟨x, s₁, hcall, hrecord⟩ := bind_cases_of_ok attempt_cases h
  have hsame := (quiet_call (c.webhooks place) event).same hcall
  obtain ⟨rfl, rfl⟩ := Prod.mk.inj hrecord
  exact ⟨x.isOk, rfl, hsame.alerts, hsame.notifications, by rw [← hsame.events]⟩

theorem fixes_failing {γ : Type} {view : State → γ} (fault : Option Fault) :
    Fixes view (failing fault) := by
  cases fault with
  | none => exact .pure _
  | some e => exact fun _ => rfl

theorem failing_cases {fault : Option Fault} {r : Except Fault Unit}
    (h : failing fault s = (r, s')) : s' = s ∧ ((∃ e, r = .error e) ∨ r = .ok ()) := by
  cases fault with
  | none =>
      obtain ⟨rfl, rfl⟩ := Prod.mk.inj h
      exact ⟨rfl, .inr rfl⟩
  | some e =>
      obtain ⟨rfl, rfl⟩ := Prod.mk.inj h
      exact ⟨rfl, .inl ⟨e, rfl⟩⟩

theorem addDetected_cases {n : Notification} {etag : String} {r : Except Fault Bool}
    (hcall : c.addDetected n etag s = (r, s')) :
    ((∃ e, r = .error e) ∧ State.Same s s') ∨ (r = .ok false ∧ State.Same s s') ∨
      (r = .ok true ∧ s'.alerts = s.alerts ∧ s'.events = s.events ∧
        s'.notifications = NotificationStore.write s.notifications n ∧
        ∀ old : Notification,
          NotificationStore.document? s.notifications n.key = some old.encode →
          Decimal.isFinite old.value = true ∧ (old.etag = etag → old.sent = none)) := by
  obtain ⟨e, hfail, rfl⟩ | ⟨_, s₁, hfail, hbody⟩ := bind_cases hcall
  · obtain ⟨rfl, -⟩ := failing_cases hfail
    exact .inl ⟨⟨e, rfl⟩, .refl _⟩
  obtain ⟨rfl, -⟩ := failing_cases hfail
  obtain ⟨e, hadd, rfl⟩ | ⟨written, s₂, hadd, htail⟩ := bind_cases hbody
  · obtain ⟨session, hstore, hn, ha, he⟩ := onNotifications_cases hadd
    obtain ⟨-, hsame⟩ | ⟨hr, -⟩ | ⟨hr, -⟩ := NotificationStore.addDetected_cases hstore
    · exact .inl ⟨⟨e, rfl⟩, ⟨ha, hn.trans hsame, he⟩⟩
    · cases hr
    · cases hr
  obtain ⟨_, s₃, hlast, hreturn⟩ := bind_cases_of_ok interrupt_cases htail
  cases hreturn
  obtain ⟨session, hstore, hn, ha, he⟩ := onNotifications_cases hadd
  obtain ⟨⟨e, hr⟩, -⟩ | ⟨hr, hsame⟩ | ⟨hr, hwrite, hold⟩ :=
    NotificationStore.addDetected_cases hstore
  · cases hr
  · exact .inr (.inl ⟨hr, hlast.alerts.trans ha,
      (hlast.notifications.trans hn).trans hsame, hlast.events.trans he⟩)
  · exact .inr (.inr ⟨hr, hlast.alerts.trans ha, hlast.events.trans he,
      (hlast.notifications.trans hn).trans hwrite, hold⟩)

theorem markSent_cases {key : String} {time : Instant} {r : Except Fault Unit}
    (hd : NotificationStore.Keyed s.notifications) (hcall : c.markSent key time s = (r, s')) :
    s'.alerts = s.alerts ∧ s'.events = s.events ∧
      (((∃ e, r = .error e) ∧ s'.notifications = s.notifications) ∨
        ∃ n : Notification, n.key = key ∧
          NotificationStore.document? s.notifications key = some n.encode ∧
          Decimal.isFinite n.value = true ∧ r = .ok () ∧
          s'.notifications = NotificationStore.write s.notifications (n.sentAt time)) := by
  obtain ⟨e, hfail, rfl⟩ | ⟨_, s₁, hfail, hbody⟩ := bind_cases hcall
  · obtain ⟨rfl, -⟩ := failing_cases hfail
    exact ⟨rfl, rfl, .inl ⟨⟨e, rfl⟩, rfl⟩⟩
  obtain ⟨rfl, -⟩ := failing_cases hfail
  obtain ⟨e, hmark, rfl⟩ | ⟨_, s₂, hmark, hinterrupt⟩ := bind_cases hbody
  · obtain ⟨session, hstore, hn, ha, he⟩ := onNotifications_cases hmark
    obtain ⟨-, hsame⟩ | ⟨_, -, -, -, hr, -⟩ := NotificationStore.markSent_cases hd hstore
    · exact ⟨ha, he, .inl ⟨⟨e, rfl⟩, hn.trans hsame⟩⟩
    · cases hr
  obtain ⟨_, rfl, hlast⟩ := interrupt_cases hinterrupt
  obtain ⟨session, hstore, hn, ha, he⟩ := onNotifications_cases hmark
  refine ⟨hlast.alerts.trans ha, hlast.events.trans he, ?_⟩
  obtain ⟨⟨e, hr⟩, -⟩ | ⟨n, hkey, hdoc, hfinite, -, hwrite⟩ :=
    NotificationStore.markSent_cases hd hstore
  · cases hr
  · exact .inr ⟨n, hkey, hdoc, hfinite, rfl, (hlast.notifications.trans hn).trans hwrite⟩

theorem updateNotified_cases {alertId : String} {time : Instant} {r : Except Fault Unit}
    (hcall : c.updateNotified alertId time s = (r, s')) :
    s'.notifications = s.notifications ∧ s'.events = s.events ∧
      AlertStore.Keeps s.alerts s'.alerts ∧ AlertStore.Retains s.alerts s'.alerts ∧
      ∀ other, other ≠ alertId →
        AlertStore.read s'.alerts other = AlertStore.read s.alerts other := by
  have hstored : ∀ {s₁ : State} {q : Except Fault Unit},
      Run.onAlerts (AlertStore.updateNotified alertId time) s = (q, s₁) →
      s₁.notifications = s.notifications ∧ s₁.events = s.events ∧
        AlertStore.Keeps s.alerts s₁.alerts ∧ AlertStore.Retains s.alerts s₁.alerts ∧
        ∀ other, other ≠ alertId →
          AlertStore.read s₁.alerts other = AlertStore.read s.alerts other := by
    intro s₁ q hnotify
    obtain ⟨session, hstore, ha, hn, he⟩ := onAlerts_cases hnotify
    obtain ⟨hkeeps, hothers⟩ := AlertStore.updateNotified_keeps hstore
    have hretains := AlertStore.retains_updateNotified hstore
    rw [ha]
    exact ⟨hn, he, hkeeps, hretains, hothers⟩
  obtain ⟨e, hnotify, -⟩ | ⟨_, s₁, hnotify, hinterrupt⟩ := bind_cases hcall
  · exact hstored hnotify
  · obtain ⟨hn, he, hkeeps, hretains, hothers⟩ := hstored hnotify
    obtain ⟨_, -, hlast⟩ := interrupt_cases hinterrupt
    rw [hlast.alerts]
    exact ⟨hlast.notifications.trans hn, hlast.events.trans he, hkeeps, hretains, hothers⟩

end Collaborators

end Engine

end SpendAlerts

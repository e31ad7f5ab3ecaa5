import SpendAlerts.Engine.Refresh
import SpendAlerts.Proofs.Breakdown
import SpendAlerts.Proofs.Engine.Uncancelled

/-!
Calls that are over before their context is cancelled. A cancelled context stays so whoever
looks at it, so one that is live in the end was live at every look. A call that ends in a live
context therefore goes as it does in one that nobody cancels, and whatever is known of such
calls is true of it. That a sequence keeps to this is proved once, for every kind of state.
-/

namespace SpendAlerts

theorem Context.isCancelled_of_looked {c : Context} (h : c.looked.isCancelled = false) :
    c.isCancelled = false := by
  have hquiet : ∀ signal, advance signal ≠ some 0 → signal ≠ some 0 := by
    rintro signal hsignal rfl
    exact hsignal rfl
  simp only [isCancelled, Context.looked, Bool.or_eq_false_iff, decide_eq_false_iff_not,
    List.any_map, List.any_eq_false, Function.comp_apply, decide_eq_true_eq] at h ⊢
  refine ⟨hquiet _ (of_decide_eq_false h.1), ?_⟩
  exact fun signal hsignal => hquiet signal (h.2 signal hsignal)

section Following

variable {σ α β : Type} {live : σ → Prop} {calm : σ → σ}

/-- A call that ends live has begun live, and goes as the other call does from the calm state. -/
structure Follows (live : σ → Prop) (calm : σ → σ) (m m₀ : ExceptT Fault (StateM σ) α) :
    Prop where
  begins : ∀ s, live (m s).2 → live s
  agrees : ∀ s, live (m s).2 → m₀ (calm s) = ((m s).1, calm (m s).2)

namespace Follows

variable {m m₀ : ExceptT Fault (StateM σ) α}

theorem of_apply {f : σ → Except Fault α} (hm : ∀ s, m s = (f s, s))
    (hm₀ : ∀ s, m₀ (calm s) = (f s, calm s)) : Follows live calm m m₀ := by
  constructor
  · intro s hlive
    rwa [hm] at hlive
  · intro s _
    rw [hm, hm₀]

theorem pure (x : α) : Follows live calm (pure x) (pure x) := .of_apply (fun _ => rfl) fun _ => rfl

theorem bind {f f₀ : α → ExceptT Fault (StateM σ) β} (hm : Follows live calm m m₀)
    (hf : ∀ x, Follows live calm (f x) (f₀ x)) : Follows live calm (m >>= f) (m₀ >>= f₀) := by
  have hfirst : ∀ s, live ((m >>= f) s).2 → live (m s).2 := by
    intro s hlive
    rw [bind_apply] at hlive
    cases hr : (m s).1 with
    | error e =>
        rw [hr] at hlive
        exact hlive
    | ok x =>
        rw [hr] at hlive
        exact (hf x).begins _ hlive
  constructor
  · intro s hlive
    exact hm.begins s (hfirst s hlive)
  · intro s hlive
    have hagrees := hm.agrees s (hfirst s hlive)
    rw [bind_apply m f] at hlive ⊢
    cases hr : (m s).1 with
    | error e =>
        rw [hr] at hagrees
        exact bind_of_error hagrees
    | ok x =>
        rw [hr] at hlive hagrees
        rw [bind_of_ok hagrees]
        exact (hf x).agrees _ hlive

end Follows

end Following

def Session.Live (s : Session) : Prop := s.context.isCancelled = false

def Session.calm (s : Session) : Session := { s with context := .fresh }

namespace StoreM

variable {α : Type}

/-- The call goes its way in any context that stays live. -/
def Steady (m : StoreM α) : Prop := Follows Session.Live Session.calm m m

theorem Peeks.steady {m : StoreM α} {f : Documents → Except Fault α} (h : m.Peeks f) :
    m.Steady := by
  have hcalm (s : Session) : m s.calm = (f s.documents, s.calm) := by
    cases h s.calm with
    | inl hm => exact hm
    | inr hm => exact hm
  constructor
  · intro s hlive
    cases h s with
    | inl hm => rwa [hm] at hlive
    | inr hm =>
        rw [hm] at hlive
        exact Context.isCancelled_of_looked hlive
  · intro s hlive
    rw [hcalm]
    cases h s with
    | inl hm => rw [hm]
    | inr hm =>
        rw [hm] at hlive ⊢
        rw [show s.context.isCancelled = false from Context.isCancelled_of_looked hlive]
        rfl

theorem steady_check : check.Steady := by
  have hpeeks : check.Peeks fun _ => .ok () := fun s => .inr (check_apply s)
  exact hpeeks.steady

theorem steady_documents : documents.Steady := .of_apply (fun _ => rfl) fun _ => rfl

theorem steady_ofExcept (x : Except Fault α) : (ofExcept x).Steady :=
  .of_apply (ofExcept_apply x) fun s => ofExcept_apply x s.calm

theorem steady_setDocuments (d : Documents) : (setDocuments d).Steady :=
  ⟨fun _ => id, fun _ _ => rfl⟩

end StoreM

theorem Documents.steady_transaction (name key : String)
    (f : Option Value → Except Fault Write) :
    (transaction name key fun doc => Guarded.ofExcept (f doc)).Steady := by
  refine StoreM.steady_check.bind fun _ => StoreM.steady_documents.bind fun d =>
    (StoreM.steady_ofExcept (f (d.find? name key))).bind fun write =>
      StoreM.steady_check.bind fun _ => ?_
  cases write with
  | keep => exact .pure false
  | put doc => exact (StoreM.steady_setDocuments _).bind fun _ => .pure true

namespace Engine

def State.Live (s : State) : Prop := s.context.isCancelled = false

def State.calm (s : State) : State := { s with context := .fresh }

theorem State.same_of_calm {s s' : State} {asked : List String} {requests : List QueryRequest}
    (h : s'.calm = { s.calm with asked, requests }) : State.Same s s' := by
  have hcalm : State.Same s.calm s'.calm := by
    rw [h]
    exact ⟨rfl, rfl, rfl⟩
  exact ⟨hcalm.alerts, hcalm.notifications, hcalm.events⟩

/-- The same collaborators for a caller that never cancels. -/
def Collaborators.calm (c : Collaborators) : Collaborators :=
  { c with interrupts := fun _ => false }

theorem Undisturbed.calm (c : Collaborators) (s : State) : Undisturbed c.calm s.calm :=
  ⟨Context.uncancelled_fresh, fun _ => rfl⟩

namespace Run

variable {α : Type}

/-- The second call is the first in a state that nobody cancels. -/
def Matches (m m₀ : Run α) : Prop := Follows State.Live State.calm m m₀

namespace Matches

theorem pure (x : α) : Matches (pure x) (pure x) := Follows.pure x

theorem bind {β : Type} {m m₀ : Run α} {f f₀ : α → Run β} (hm : Matches m m₀)
    (hf : ∀ x, Matches (f x) (f₀ x)) : Matches (m >>= f) (m₀ >>= f₀) :=
  Follows.bind hm hf

theorem ofExcept (x : Except Fault α) : Matches (ofExcept x) (ofExcept x) :=
  .of_apply (fun _ => rfl) fun _ => rfl

theorem change {f : State → State} (hcontext : ∀ s, (f s).context = s.context)
    (hcalm : ∀ s, f s.calm = (f s).calm) : Matches (change f) (change f) := by
  constructor
  · intro s hlive
    rw [State.Live, ← hcontext s]
    exact hlive
  · intro s _
    exact congrArg (Prod.mk _) (hcalm s)

theorem check : Matches (guarded Guarded.check) (guarded Guarded.check) := by
  constructor
  · intro s hlive
    rw [guarded, Guarded.check_apply] at hlive
    exact Context.isCancelled_of_looked hlive
  · intro s hlive
    rw [guarded, Guarded.check_apply] at hlive
    have hbegins := Context.isCancelled_of_looked hlive
    rw [guarded, guarded, Guarded.check_apply, Guarded.check_apply, hbegins]
    rfl

theorem onAlerts {m : StoreM α} (hm : m.Steady) : Matches (onAlerts m) (onAlerts m) := by
  constructor
  · exact fun s hlive => hm.begins ⟨s.context, s.alerts⟩ hlive
  · intro s hlive
    have hagrees := hm.agrees ⟨s.context, s.alerts⟩ hlive
    rw [Session.calm] at hagrees
    simp only [Run.onAlerts, State.calm, hagrees]
    rfl

theorem onNotifications {m : StoreM α} (hm : m.Steady) :
    Matches (onNotifications m) (onNotifications m) := by
  constructor
  · exact fun s hlive => hm.begins ⟨s.context, s.notifications⟩ hlive
  · intro s hlive
    have hagrees := hm.agrees ⟨s.context, s.notifications⟩ hlive
    rw [Session.calm] at hagrees
    simp only [Run.onNotifications, State.calm, hagrees]
    rfl

theorem attempt {m m₀ : Run α} (hm : Matches m m₀) : Matches (attempt m) (attempt m₀) := by
  constructor
  · exact hm.begins
  · intro s hlive
    exact attempt_of (hm.agrees s hlive)

end Matches

end Run

namespace Collaborators

open Run

variable {c : Collaborators}

theorem matches_interrupt (c : Collaborators) (m : Moment) :
    Matches (c.interrupt m) (c.calm.interrupt m) := by
  have happly (s : State) : c.interrupt m s =
      (.ok (), if c.interrupts m then { s with context := s.context.cancel } else s) := rfl
  have huncancelled : ∀ s, State.Live (c.interrupt m s).2 → c.interrupts m = false := by
    intro s hlive
    cases hinterrupts : c.interrupts m with
    | false => rfl
    | true =>
        rw [happly, hinterrupts] at hlive
        cases hlive
  constructor
  · intro s hlive
    rwa [happly, huncancelled s hlive] at hlive
  · intro s hlive
    rw [happly, huncancelled s hlive]
    rfl

theorem matches_call {α β : Type} (service : Service α β) (x : α) :
    Matches (call service x) (call service x) := by
  rw [call]
  split
  · exact Matches.check.bind fun _ => .ofExcept _
  · exact .ofExcept _

theorem matches_checkAccess (c : Collaborators) (customerId : String) :
    Matches (c.checkAccess customerId) (c.calm.checkAccess customerId) := by
  apply Matches.bind
  · exact .change (fun _ => rfl) fun _ => rfl
  · intro _
    exact (c.matches_interrupt _).bind fun _ => matches_call c.access customerId

theorem matches_execute (c : Collaborators) (request : QueryRequest) :
    Matches (c.execute request) (c.calm.execute request) := by
  have hrest : Matches
      (do
        .change fun s => { s with requests := s.requests ++ [request] }
        c.interrupt (.executed request.alertId)
        Run.ofExcept (c.executor.answer request))
      (do
        .change fun s => { s with requests := s.requests ++ [request] }
        c.calm.interrupt (.executed request.alertId)
        Run.ofExcept (c.executor.answer request)) := by
    apply Matches.bind
    · exact .change (fun _ => rfl) fun _ => rfl
    · intro _
      exact (c.matches_interrupt _).bind fun _ => .ofExcept _
  rw [execute, execute]
  change Matches _ (if c.executor.heedsContext then _ else _)
  split
  · exact Matches.check.bind fun _ => hrest
  · exact hrest

theorem matches_dispatch (c : Collaborators) (place : Nat) (event : WebhookEvent) :
    Matches (c.dispatch place event) (c.calm.dispatch place event) := by
  refine (matches_call (c.webhooks place) event).attempt.bind fun result => ?_
  apply Matches.bind
  · exact .change (fun _ => rfl) fun _ => rfl
  · exact fun _ => .pure result.isOk

theorem matches_addDetected (c : Collaborators) (n : Notification) (etag : String) :
    Matches (c.addDetected n etag) (c.calm.addDetected n etag) := by
  have hfailing : Matches (failing (c.addFault n.key)) (failing (c.addFault n.key)) := by
    cases c.addFault n.key with
    | none => exact .pure ()
    | some e => exact .ofExcept (.error e)
  exact hfailing.bind fun _ =>
    (Matches.onNotifications (Documents.steady_transaction _ _ _)).bind fun _ =>
      (c.matches_interrupt _).bind fun _ => .pure _

end Collaborators

open Run

variable {c : Collaborators} {s s' : State}

theorem matches_addAll (c : Collaborators) (etag : String) (ns : List Notification) :
    Matches (addAll c etag ns) (addAll c.calm etag ns) := by
  induction ns with
  | nil => exact .pure []
  | cons n ns ih =>
      exact (c.matches_addDetected n etag).bind fun _ => ih.bind fun _ => .pure _

theorem matches_dispatchAll (c : Collaborators) (a : Alert) (place : Nat)
    (ns : List Notification) :
    Matches (dispatchAll c a place ns) (dispatchAll c.calm a place ns) := by
  induction ns generalizing place with
  | nil => exact .pure 0
  | cons n ns ih =>
      exact (c.matches_dispatch _ _).bind fun _ => (ih _).bind fun _ => .pure _

theorem matches_record (c : Collaborators) (a : Alert) (ns : List Notification) :
    Matches (record c a ns) (record c.calm a ns) :=
  (matches_addAll c a.etag _).bind fun _ => (matches_dispatchAll c a 0 _).bind fun _ => .pure _

theorem matches_evaluateAlert (c : Collaborators) (a : Alert) :
    Matches (evaluateAlert c a) (evaluateAlert c.calm a) := by
  refine (Matches.ofExcept a.validate).bind fun _ => ?_
  change Matches _ (if onlyNotifiesNobody c.settings a then _ else _)
  split
  · exact .pure _
  · have hbuild := Matches.onNotifications
      (QueryRequest.peeks_build c.settings.breakdownLimit a c.now).steady
    refine hbuild.bind fun built => ?_
    cases built with
    | none => exact .pure _
    | some request =>
        exact (c.matches_execute request).bind fun _ =>
          (Matches.ofExcept _).bind fun ns => matches_record c a ns

theorem matches_refreshAlert (c : Collaborators) (id : String) :
    Matches (refreshAlert c id) (refreshAlert c.calm id) := by
  have hpeeks : (AlertStore.get id).Peeks (AlertStore.read · id) :=
    fun s => .inr (AlertStore.get_apply id s)
  refine (Matches.onAlerts hpeeks.steady).bind fun a => ?_
  refine (c.matches_checkAccess a.customerId).bind fun access => ?_
  cases access with
  | denied reason => exact .pure _
  | granted => exact matches_evaluateAlert c a

/-- A refresh that ends in a live context goes as one that nobody cancels. -/
theorem refreshAlert_calm {id : String} {r : Except Fault RefreshReport}
    (hrun : refreshAlert c id s = (r, s')) (hlive : s'.context.isCancelled = false) :
    refreshAlert c.calm id s.calm = (r, s'.calm) := by
  have hagrees := (matches_refreshAlert c id).agrees s
  rw [hrun] at hagrees
  exact hagrees hlive

end Engine

end SpendAlerts

import SpendAlerts.Proofs.Digest.Buckets
import SpendAlerts.Proofs.Engine.Keys
import SpendAlerts.Proofs.Engine.Live
import SpendAlerts.Proofs.Engine.Stamping
import SpendAlerts.Proofs.Engine.Visibility

/-!
The sections of a digest, whatever the store holds and whenever the context is cancelled. They
come in the order of their alerts, each is about an alert as the digest has found it, shows
notifications that were pending with its current etag, and goes to the recipients of the
first of these. In a breakdown the body of a section is laid out by days and values.
-/

namespace SpendAlerts

namespace Engine

open NotificationStore Run

variable {c : Collaborators} {s s' : State} {customerId : String}

section Views

variable {γ : Type} {view : State → γ}

variable (hview : ∀ (s : State) (context : Context) (notifications : Documents),
  view { s with context, notifications } = view s)
include hview

theorem fixes_stampAll (ns : List Notification) : Fixes view (stampAll c ns) := by
  induction ns with
  | nil => exact .pure _
  | cons n ns ih =>
      have hstore : Fixes view
          (onNotifications (NotificationStore.markSent n.key (c.stampTime n.key))) :=
        fun s => hview s _ _
      have hmark : Fixes view (c.markSent n.key (c.stampTime n.key)) :=
        (Collaborators.fixes_failing _).bind fun _ => hstore.bind fun _ =>
          Collaborators.fixes_interrupt (fun s context => hview s context s.notifications) c _
      exact hmark.attempt.bind fun _ => ih.bind fun _ => .pure _

theorem fixes_compileAlert (a : Alert) (pending : List Notification) :
    Fixes view (compileAlert c a pending) := by
  rw [compileAlert]
  split
  · exact .pure _
  · refine (Fixes.ofExcept _).bind ?_
    intro label
    refine (fixes_stampAll hview _).bind ?_
    intro stamped
    simp only
    split
    · exact .pure _
    · exact .pure _

end Views

/-- The section is about some of these notifications, which were pending. -/
structure Section.About (c : Collaborators) (pending : List Notification) (x : Section) :
    Prop where
  part : x.stamped.Sublist (pending.filter (·.etag = x.alert.etag))
  nonempty : x.stamped ≠ []
  recipients : ∃ first, pending.find? (·.etag = x.alert.etag) = some first ∧
    x.recipients = targets x.alert first
  body : ∃ label, breakdownLabel? x.alert = .ok label ∧ x.body = .ofNotifications x.alert label
    (x.alert.sentence c.settings.metricLabels) x.stamped

theorem compileAlert_about {a : Alert} {pending : List Notification} {x : Section}
    (h : compileAlert c a pending s = (.ok (some x), s')) : x.alert = a ∧ x.About c pending := by
  obtain ⟨-, hnone | ⟨e, he⟩⟩ |
      ⟨first, others, label, stamped, hcurrent, hlabel, hstamp, hreturn⟩ := compileAlert_opens h
  · cases hnone
  · cases he
  · obtain ⟨-, hnone⟩ | ⟨hne, hsome⟩ := hreturn
    · cases hnone
    cases hsome
    obtain ⟨_, hok, hsub⟩ := sublist_stampAll hstamp
    cases hok
    refine ⟨rfl, hcurrent ▸ hsub, hne, ⟨first, ?_, rfl⟩, label, hlabel, rfl⟩
    rw [← List.head?_filter, hcurrent]
    rfl

theorem sectionFor_about {id : String} {pending : List Notification}
    {r : Except Fault (Option Section)} (h : sectionFor c id pending s = (r, s')) :
    ∃ sec, r = .ok sec ∧ s'.alerts = s.alerts ∧ ∀ x, sec = some x →
      AlertStore.read s.alerts id = .ok x.alert ∧ x.About c pending := by
  obtain ⟨_, rfl, ⟨rfl, hsame⟩ | ⟨a, s₁, compiled, hread, hsame, hcompile, rfl⟩⟩ :=
    sectionFor_opens h
  · exact ⟨none, rfl, hsame.alerts, fun x hx => by cases hx⟩
  · have hfixes : Fixes State.alerts (compileAlert c a pending) :=
      fixes_compileAlert (fun _ _ _ => rfl) a pending
    have halerts : s'.alerts = s₁.alerts := hfixes.eq hcompile
    refine ⟨_, rfl, halerts.trans hsame.alerts, ?_⟩
    intro x hx
    cases compiled with
    | error e => cases hx
    | ok sec =>
        cases (hx : sec = some x)
        obtain ⟨rfl, habout⟩ := compileAlert_about hcompile
        exact ⟨hread, habout⟩

/-- Sections of some groups, with the alerts as they are read from some documents. -/
structure Sections (c : Collaborators) (alerts : Documents)
    (groups : List (String × List Notification)) (sections : List Section) : Prop where
  part : (sections.map (·.alert.id)).Sublist (groups.map (·.1))
  read : ∀ x ∈ sections, AlertStore.read alerts x.alert.id = .ok x.alert
  about : ∀ x ∈ sections, ∃ g ∈ groups, g.1 = x.alert.id ∧ x.About c g.2

namespace Sections

variable {alerts : Documents} {g : String × List Notification}
  {groups : List (String × List Notification)} {sections : List Section}

theorem nil : Sections c alerts groups [] :=
  ⟨List.nil_sublist _, List.forall_mem_nil _, List.forall_mem_nil _⟩

theorem skip (h : Sections c alerts groups sections) :
    Sections c alerts (g :: groups) sections where
  part := h.part.cons g.1
  read := h.read
  about x hx := by
    obtain ⟨g', hg, habout⟩ := h.about x hx
    exact ⟨g', List.mem_cons_of_mem g hg, habout⟩

/-- Alerts that are read as before have the same sections. -/
theorem congr {alerts' : Documents} (h : Sections c alerts' groups sections)
    (hread : ∀ g ∈ groups, AlertStore.read alerts' g.1 = AlertStore.read alerts g.1) :
    Sections c alerts groups sections where
  part := h.part
  read x hx := by
    obtain ⟨g, hg, hid, -⟩ := h.about x hx
    rw [← hid, ← hread g hg, hid]
    exact h.read x hx
  about := h.about

theorem cons {x : Section} (hread : AlertStore.read alerts g.1 = .ok x.alert)
    (habout : x.About c g.2) (h : Sections c alerts groups sections) :
    Sections c alerts (g :: groups) (x :: sections) := by
  have hid : x.alert.id = g.1 := (AlertStore.read_eq_ok hread).1
  refine ⟨?_, ?_, ?_⟩
  · rw [List.map_cons, List.map_cons, hid]
    exact h.part.cons_cons g.1
  · exact List.forall_mem_cons.2 ⟨hid ▸ hread, h.read⟩
  · refine List.forall_mem_cons.2 ⟨⟨g, List.mem_cons_self, hid.symm, habout⟩, ?_⟩
    intro y hy
    obtain ⟨g', hg, habout⟩ := h.about y hy
    exact ⟨g', List.mem_cons_of_mem g hg, habout⟩

end Sections

/-- Compiling never fails. An alert is read before the digest of its own group is remembered, so
all of them are read as they were at the beginning. -/
theorem compileAll_sections {groups : List (String × List Notification)}
    {r : Except Fault (List Section)} (hids : (groups.map (·.1)).Nodup)
    (h : compileAll c groups s = (r, s')) :
    ∃ sections, r = .ok sections ∧ Sections c s.alerts groups sections := by
  induction groups generalizing s s' r with
  | nil =>
      cases h
      exact ⟨[], rfl, .nil⟩
  | cons g groups ih =>
      obtain ⟨hnew, hids⟩ := List.nodup_cons.1 hids
      obtain ⟨cancelled, s₁, hsame, hopen⟩ := bind_cases_of_ok isCancelled_cases h
      cases cancelled with
      | true =>
          cases hopen
          exact ⟨[], rfl, .nil⟩
      | false =>
          obtain ⟨sec, s₂, ⟨halerts, hsec⟩, hrest⟩ := bind_cases_of_ok sectionFor_about hopen
          rw [hsame.alerts] at halerts hsec
          cases sec with
          | none =>
              obtain ⟨sections, rfl, hsections⟩ := ih hids hrest
              exact ⟨sections, rfl, (halerts ▸ hsections).skip⟩
          | some x =>
              obtain ⟨_, s₃, hnotify, htail⟩ := bind_cases_of_ok attempt_cases hrest
              obtain ⟨-, -, -, -, hother⟩ := Collaborators.updateNotified_cases hnotify
              obtain ⟨sections, s₄, hsections, hreturn⟩ := bind_cases_of_ok (ih hids) htail
              cases hreturn
              obtain ⟨hread, habout⟩ := hsec x rfl
              refine ⟨x :: sections, rfl, .cons hread habout (hsections.congr ?_)⟩
              intro g' hg
              rw [hother g'.1 (fun heq => hnew (List.mem_map.2 ⟨g', hg, heq⟩)), halerts]

/-- A compilation of pending notifications, with the alerts as they are read from some
documents. -/
structure Compilation.Covers (c : Collaborators) (alerts : Documents) (ns : List Notification)
    (d : Compilation) : Prop where
  ordered : (d.sections.map (·.alert.id)).Pairwise (· < ·)
  read : ∀ x ∈ d.sections, AlertStore.read alerts x.alert.id = .ok x.alert
  about : ∀ x ∈ d.sections, x.About c (ns.filter (·.alertId = x.alert.id))

theorem covers_of_sections {alerts : Documents} {ns : List Notification}
    {sections : List Section} (h : Sections c alerts (byAlert ns).entries sections) :
    Compilation.Covers c alerts ns ⟨sections⟩ where
  ordered := (List.pairwise_map.2 (byAlert ns).ordered).sublist h.part
  read := h.read
  about x hx := by
    obtain ⟨g, hg, hid, habout⟩ := h.about x hx
    rwa [eq_of_mem_entries_byAlert hg, hid] at habout

theorem check_apply (s : State) : Run.guarded Guarded.check s =
    (if s.context.isCancelled then .error .cancelled else .ok (),
      { s with context := s.context.looked }) := by
  rw [Run.guarded, Guarded.check_apply]

theorem pendingFor_apply (customerId : String) (s : State) :
    onNotifications (pendingFor customerId) s =
      (if s.context.isCancelled then .error .cancelled
        else (pendingOf s.notifications customerId).map byAlert,
        { s with context := s.context.looked }) := by
  rw [onNotifications, pendingFor, bind_pure_apply, select_apply, pendingOf]
  cases s.context.isCancelled with
  | true => rfl
  | false => rfl

/-- A digest is compiled unless its context is cancelled from the beginning or a pending
notification of the customer cannot be read, and then it covers what is pending. -/
theorem compileDigest_covers {r : Except Fault Compilation}
    (h : compileDigest c customerId s = (r, s')) :
    (s.context.looked.isCancelled = true ∧ r = .error .cancelled) ∨
      s.context.looked.isCancelled = false ∧
        ((∃ e, pendingOf s.notifications customerId = .error e ∧ r = .error e) ∨
          ∃ ns d, pendingOf s.notifications customerId = .ok ns ∧ r = .ok d ∧
            d.Covers c s.alerts ns) := by
  have hcheck := check_apply s
  have hread := pendingFor_apply customerId { s with context := s.context.looked }
  rw [compileDigest] at h
  cases hlooked : s.context.looked.isCancelled with
  | true =>
      refine .inl ⟨rfl, ?_⟩
      simp only [hlooked, if_true] at hread
      cases hcancelled : s.context.isCancelled with
      | true =>
          simp only [hcancelled, if_true] at hcheck
          rw [bind_of_error hcheck] at h
          exact (Prod.mk.inj h).1.symm
      | false =>
          simp only [hcancelled, Bool.false_eq_true, if_false] at hcheck
          rw [bind_of_ok hcheck, bind_of_error hread] at h
          exact (Prod.mk.inj h).1.symm
  | false =>
      refine .inr ⟨rfl, ?_⟩
      simp only [Context.isCancelled_of_looked hlooked, Bool.false_eq_true, if_false] at hcheck
      simp only [hlooked, Bool.false_eq_true, if_false] at hread
      rw [bind_of_ok hcheck] at h
      cases hpending : pendingOf s.notifications customerId with
      | error e =>
          rw [hpending] at hread
          rw [bind_of_error hread] at h
          exact .inl ⟨e, rfl, (Prod.mk.inj h).1.symm⟩
      | ok ns =>
          rw [hpending] at hread
          rw [bind_of_ok hread] at h
          obtain ⟨sections, s₁, hsections, hreturn⟩ :=
            bind_cases_of_ok (compileAll_sections (byAlert ns).nodup_keys) h
          cases hreturn
          exact .inr ⟨ns, _, rfl, rfl, covers_of_sections hsections⟩

/-- A digest lays out what it has stamped for an alert with a breakdown, in any context. -/
theorem stamped_laidOut {d : Compilation} {x : Section}
    (h : compileDigest c customerId s = (.ok d, s')) (hx : x ∈ d.sections)
    (hbreakdown : x.alert.config.breakdown? ≠ none) :
    x.body.LaysOut x.alert.config x.stamped ∧ x.stamped ≠ [] ∧
      (∃ ns, pendingOf s.notifications customerId = .ok ns ∧ x.stamped.Sublist ns) ∧
      (Keyed s.notifications →
        Stamps c.stampTime s.notifications (d.sections.flatMap (·.stamped)) s'.notifications) := by
  obtain ⟨-, hr⟩ | ⟨-, ⟨e, -, hr⟩ | ⟨ns, _, hpending, hr, hcovers⟩⟩ := compileDigest_covers h
  · cases hr
  · cases hr
  cases hr
  have habout := hcovers.about x hx
  refine ⟨?_, habout.nonempty, ⟨ns, hpending, ?_⟩, ?_⟩
  · obtain ⟨label, hlabel, hbody⟩ := habout.body
    have hsome := isSome_breakdownLabel? hlabel
    cases label with
    | none => exact absurd (Option.isSome_eq_false_iff.1 hsome.symm) (by simpa using hbreakdown)
    | some label =>
        rw [hbody]
        exact Digest.Body.laysOut_ofNotifications x.alert label _ x.stamped
  · exact habout.part.trans (List.filter_sublist.trans List.filter_sublist)
  · intro hd
    obtain ⟨⟨e, hr⟩, -⟩ | ⟨_, _, hr, -, hcompiles⟩ := compileDigest_cases hd h
    · cases hr
    · cases hr
      exact hcompiles.stamps

namespace Sample

/-- The digest of a history has the sections of what is pending after it. -/
theorem exists_sections {β : Type} (ts : List Step) (f : Section → β) (facts : List β)
    (h : (pendingOf (ready ts).notifications "acme").toOption.map (fun ns =>
      (sectionsOf collaborators (ready ts).alerts (byAlert ns).entries).map f) = some facts) :
    ∃ d s', compileDigest collaborators "acme" (ready ts) = (.ok d, s') ∧
      d.sections.map f = facts := by
  have hd : Keyed (ready ts).notifications := keyed_ready ts
  have hrun := compileDigest_eq hd (undisturbed_ready ts) "acme"
  cases hpending : pendingOf (ready ts).notifications "acme" with
  | error e =>
      rw [hpending] at h
      cases h
  | ok ns =>
      rw [hpending] at h
      simp only [hpending] at hrun
      exact ⟨_, _, hrun, Option.some.inj h⟩

def dailyByService : Alert := alert Layout.daily.config

def dailyServices : List Step :=
  [step may ⟨serviceRows, []⟩ (.put dailyByService), step may ⟨serviceRows, []⟩ (.refresh "a1")]

end Sample

open Sample in
/-- A service of one day and two of the next are laid out in two days. -/
theorem stamped_laidOut_daily : ∃ d s',
    compileDigest collaborators "acme" (ready dailyServices) = (.ok d, s') ∧
      d.sections.map (·.stamped.map Notification.key) =
        [["a1_2024-05-13_R0tF", "a1_2024-05-14_R0tF", "a1_2024-05-14_UnVu"]] ∧
      ∀ x ∈ d.sections, x.body.LaysOut x.alert.config x.stamped := by
  obtain ⟨d, s', hrun, hsections⟩ := exists_sections dailyServices
    (fun x => (x.stamped.map Notification.key, x.alert.config.breakdown?))
    [(["a1_2024-05-13_R0tF", "a1_2024-05-14_R0tF", "a1_2024-05-14_UnVu"],
      some "fixed:service_description")] (by decide +kernel)
  obtain ⟨x, hx, hfact⟩ := List.map_eq_singleton_iff.1 hsections
  obtain ⟨hkeys, hbreakdown⟩ := Prod.mk.inj hfact
  refine ⟨d, s', hrun, by rw [hx, List.map_singleton, hkeys], ?_⟩
  rw [hx]
  intro y hy
  rw [List.mem_singleton.1 hy]
  refine (stamped_laidOut hrun (hx ▸ List.mem_singleton_self x) ?_).1
  rw [hbreakdown]
  simp

end Engine

end SpendAlerts

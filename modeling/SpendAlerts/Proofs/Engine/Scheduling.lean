import SpendAlerts.Proofs.Engine.History
import SpendAlerts.Proofs.Engine.Uncancelled
import SpendAlerts.Proofs.Store.Listing

/-!
Scheduling the refreshes of all alerts. What is known about customers agrees with what the access
check answers, so every alert fares as if it was asked about on its own, and a customer is asked
about again only if the check has failed. The alerts are those that a listing leaves, so no alert
is lost, scheduled twice or deleted by mistake. All this holds of every grace that can be counted
back from the clock; with a longer one a single alert that is not valid stops the scheduling.
-/

namespace SpendAlerts

/-- A grace that is too long to be kept in milliseconds exceeds every age. -/
theorem Settings.lt_grace_iff (s : Settings) (t : Instant) :
    t.age < (s.grace / 1000 : Nat) ↔ t.age < s.graceSeconds := by
  have hage := t.age_lt
  have hmax : maxGrace = 9223372036854775807 := by decide
  rw [grace]
  split <;> omega

theorem Settings.grace_eq {s : Settings} {t : Instant} (h : ¬ t.age < s.graceSeconds) :
    s.grace / 1000 = s.graceSeconds := by
  have hage := t.age_lt
  have hmax : maxGrace = 9223372036854775807 := by decide
  rw [grace]
  split <;> omega

namespace Engine

open Run

variable {c : Collaborators} {s : State} {known : List (String × Bool)} {as : List Alert}
  {customerId other : String}

/-- Whether a customer has access, if the check answers. -/
def Collaborators.hasAccess? (c : Collaborators) (customerId : String) : Option Bool :=
  match c.access.answer customerId with
  | .ok answer => some (answer = .granted)
  | .error _ => none

/-- What is known about customers is what the check answers. -/
def Agrees (c : Collaborators) (known : List (String × Bool)) : Prop :=
  ∀ customerId granted, known.lookup customerId = some granted →
    c.hasAccess? customerId = some granted

/-- What is known once a customer has been looked at. -/
def learn (c : Collaborators) (known : List (String × Bool)) (customerId : String) :
    List (String × Bool) :=
  match known.lookup customerId, c.hasAccess? customerId with
  | none, some granted => (customerId, granted) :: known
  | _, _ => known

/-- Only customers that nothing is known about are asked about. -/
def question (known : List (String × Bool)) (customerId : String) : List String :=
  if known.lookup customerId = none then [customerId] else []

/-- The customers that are asked about, in the order of the alerts. -/
def questions (c : Collaborators) : List (String × Bool) → List Alert → List String
  | _, [] => []
  | known, a :: as =>
      question known a.customerId ++ questions c (learn c known a.customerId) as

/-- The refreshes of the alerts whose customers have access. -/
def refreshes (c : Collaborators) (as : List Alert) : List Task :=
  (as.filter (c.hasAccess? ·.customerId = some true)).map (.refresh ·.id)

/-- A report after one more alert, by the access of its customer. -/
def ScheduleReport.count (report : ScheduleReport) : Option Bool → ScheduleReport
  | some true => { report with enqueued := report.enqueued + 1 }
  | some false => { report with denied := report.denied + 1 }
  | none => { report with failed := report.failed + 1 }

/-- A report after some more alerts. -/
def ScheduleReport.countAll (c : Collaborators) (report : ScheduleReport) (as : List Alert) :
    ScheduleReport :=
  as.foldl (fun report a => report.count (c.hasAccess? a.customerId)) report

/-! ### One alert -/

theorem lookup_learn : (learn c known customerId).lookup other =
    if customerId = other ∧ known.lookup customerId = none then c.hasAccess? customerId
    else known.lookup other := by
  rw [learn]
  cases hknown : known.lookup customerId with
  | some granted => simp
  | none =>
      cases haccess : c.hasAccess? customerId with
      | none =>
          by_cases h : customerId = other
          · subst h
            simp [hknown]
          · simp [h]
      | some granted =>
          by_cases h : customerId = other
          · subst h
            simp
          · have hne : (other == customerId) = false := by simpa using Ne.symm h
            simp [h, List.lookup_cons, hne]

theorem agrees_nil (c : Collaborators) : Agrees c [] := fun _ _ h => nomatch h

theorem Agrees.learn (h : Agrees c known) (customerId : String) :
    Agrees c (learn c known customerId) := by
  intro other granted hlookup
  rw [lookup_learn] at hlookup
  split at hlookup
  · next hsame => exact hsame.1 ▸ hlookup
  · exact h other granted hlookup

/-- What is known about a customer or asked is what the check answers. -/
theorem accessFor_eq (h : Undisturbed c s) (hknown : Agrees c known) (customerId : String) :
    accessFor c known customerId s = (.ok (c.hasAccess? customerId, learn c known customerId),
      { s with asked := s.asked ++ question known customerId }) := by
  rw [accessFor, Engine.learn, question]
  cases hlookup : known.lookup customerId with
  | some granted =>
      rw [hknown customerId granted hlookup, if_neg (Option.some_ne_none _), List.append_nil]
      rfl
  | none =>
      rw [if_pos rfl]
      refine (bind_of_ok (attempt_of (h.checkAccess customerId))).trans ?_
      rw [Collaborators.hasAccess?]
      cases c.access.answer customerId with
      | ok answer => rfl
      | error e => rfl

theorem Undisturbed.enqueue (h : Undisturbed c s) {t : Task} (hfault : c.enqueueFault t = none) :
    c.enqueue t s = (.ok (), { s with queue := s.queue ++ [t] }) := by
  rw [Collaborators.enqueue, hfault, bind_of_ok (Collaborators.failing_none s), bind_of_ok h.check]
  rfl

theorem scheduleAlerts_cons (h : Undisturbed c s) (hknown : Agrees c known)
    (hqueue : ∀ t, c.enqueueFault t = none) (report : ScheduleReport) (a : Alert)
    (as : List Alert) : scheduleAlerts c known report (a :: as) s =
      scheduleAlerts c (learn c known a.customerId) (report.count (c.hasAccess? a.customerId)) as
        { s with
          asked := s.asked ++ question known a.customerId
          queue := s.queue ++ refreshes c [a] } := by
  have hasked : Undisturbed c { s with asked := s.asked ++ question known a.customerId } :=
    h.of_context rfl
  rw [scheduleAlerts, bind_of_ok (accessFor_eq h hknown a.customerId)]
  match haccess : c.hasAccess? a.customerId with
  | none => simp [refreshes, haccess, ScheduleReport.count]
  | some false => simp [refreshes, haccess, ScheduleReport.count]
  | some true =>
      refine (bind_of_ok (attempt_of (hasked.enqueue (hqueue _)))).trans ?_
      simp [refreshes, haccess, ScheduleReport.count]

/-! ### All alerts -/

theorem refreshes_cons (c : Collaborators) (a : Alert) (as : List Alert) :
    refreshes c (a :: as) = refreshes c [a] ++ refreshes c as := by
  rw [refreshes, refreshes, refreshes, ← List.map_append, ← List.filter_append]
  rfl

/-- Every alert fares as if its customer was asked about on its own. -/
theorem scheduleAlerts_eq (h : Undisturbed c s) (hknown : Agrees c known)
    (hqueue : ∀ t, c.enqueueFault t = none) (report : ScheduleReport) (as : List Alert) :
    scheduleAlerts c known report as s = (.ok (report.countAll c as),
      { s with
        asked := s.asked ++ questions c known as
        queue := s.queue ++ refreshes c as }) := by
  induction as generalizing s known report with
  | nil =>
      simp only [questions, refreshes, List.filter_nil, List.map_nil, List.append_nil]
      rfl
  | cons a as ih =>
      have hnext : Undisturbed c { s with
          asked := s.asked ++ question known a.customerId
          queue := s.queue ++ refreshes c [a] } := h.of_context rfl
      rw [scheduleAlerts_cons h hknown hqueue, questions, refreshes_cons c a as,
        ← List.append_assoc, ← List.append_assoc]
      exact ih hnext (hknown.learn _) _

/-- The report counts every alert once, by the access of its customer. -/
theorem countAll_eq (c : Collaborators) (report : ScheduleReport) (as : List Alert) :
    report.countAll c as =
      { report with
        enqueued := report.enqueued + as.countP (c.hasAccess? ·.customerId = some true)
        denied := report.denied + as.countP (c.hasAccess? ·.customerId = some false)
        failed := report.failed + as.countP (c.hasAccess? ·.customerId = none) } := by
  induction as generalizing report with
  | nil => rfl
  | cons a as ih =>
      refine (ih _).trans ?_
      match haccess : c.hasAccess? a.customerId with
      | some true | some false | none =>
          simp [haccess, ScheduleReport.count, Nat.add_assoc, Nat.add_comm 1]

theorem countP_hasAccess? (c : Collaborators) (as : List Alert) :
    as.countP (c.hasAccess? ·.customerId = some true) +
      as.countP (c.hasAccess? ·.customerId = some false) +
      as.countP (c.hasAccess? ·.customerId = none) = as.length := by
  induction as with
  | nil => rfl
  | cons a as ih =>
      match haccess : c.hasAccess? a.customerId with
      | some true | some false | none =>
          simp only [List.countP_cons, haccess, List.length_cons]
          simp
          omega

/-! ### How often a customer is asked about -/

theorem count_question_of_ne (h : other ≠ customerId) :
    (question known other).count customerId = 0 := by
  rw [question]
  split
  · simp [h]
  · rfl

/-- Nobody asks about a customer that is known. -/
theorem count_questions_of_known (h : known.lookup customerId ≠ none) :
    (questions c known as).count customerId = 0 := by
  induction as generalizing known with
  | nil => rfl
  | cons a as ih =>
      have hnext : (learn c known a.customerId).lookup customerId ≠ none := by
        rw [lookup_learn]
        split
        · next hsame =>
          rw [← hsame.1] at h
          exact absurd hsame.2 h
        · exact h
      rw [questions, List.count_append, ih hnext, question]
      split
      · next hnone =>
        have hne : a.customerId ≠ customerId := fun heq => h (heq ▸ hnone)
        simp [hne]
      · rfl

/-- A customer is asked about once if the check answers. -/
theorem count_questions_of_answer {granted : Bool}
    (haccess : c.hasAccess? customerId = some granted) (h : known.lookup customerId = none) :
    (questions c known as).count customerId =
      if ∃ a ∈ as, a.customerId = customerId then 1 else 0 := by
  induction as generalizing known with
  | nil => simp [questions]
  | cons a as ih =>
      rw [questions, List.count_append]
      by_cases hsame : a.customerId = customerId
      · subst hsame
        have hnext : (learn c known a.customerId).lookup a.customerId ≠ none := by
          rw [lookup_learn, if_pos ⟨rfl, h⟩, haccess]
          exact Option.some_ne_none _
        rw [count_questions_of_known hnext, question, if_pos h]
        simp
      · have hnext : (learn c known a.customerId).lookup customerId = none := by
          rw [lookup_learn, if_neg (fun hboth => hsame hboth.1), h]
        rw [ih hnext]
        simp [count_question_of_ne hsame, hsame]

/-- A customer is asked about for every alert while the check fails. -/
theorem count_questions_of_error (haccess : c.hasAccess? customerId = none)
    (h : known.lookup customerId = none) :
    (questions c known as).count customerId = as.countP (·.customerId = customerId) := by
  induction as generalizing known with
  | nil => rfl
  | cons a as ih =>
      have hnext : (learn c known a.customerId).lookup customerId = none := by
        rw [lookup_learn]
        split
        · next hsame => exact hsame.1 ▸ haccess
        · exact h
      rw [questions, List.count_append, ih hnext, List.countP_cons]
      by_cases hsame : a.customerId = customerId
      · subst hsame
        rw [question, if_pos h]
        simp [Nat.add_comm]
      · simp [count_question_of_ne hsame, hsame]

/-- How often a customer is asked about. -/
theorem count_questions (c : Collaborators) (as : List Alert) (customerId : String) :
    (questions c [] as).count customerId = if c.hasAccess? customerId = none then
        as.countP (·.customerId = customerId)
      else if ∃ a ∈ as, a.customerId = customerId then 1 else 0 := by
  cases haccess : c.hasAccess? customerId with
  | none => exact count_questions_of_error haccess rfl
  | some granted =>
      rw [if_neg (Option.some_ne_none _)]
      exact count_questions_of_answer haccess rfl

/-! ### The schedule -/

/-- The alerts of a listing are scheduled by the access of their customers, on a queue that takes
every task. Nothing is deleted but alerts that are not valid and were last modified before the
grace, every other alert counts once, and customers are asked about again only if the check has
failed. -/
theorem refreshAll_exact {limit : Instant} (h : Undisturbed c s)
    (hqueue : ∀ t, c.enqueueFault t = none)
    (hlimit : c.now.plusSeconds? (-(c.settings.graceSeconds : Int)) = some limit) :
    ∃ report d asked, refreshAll c s = (.ok report,
        { s with
          alerts := d
          asked := s.asked ++ asked
          queue := s.queue ++ ((AlertStore.readable d).filter
            (c.hasAccess? ·.customerId = some true)).map (.refresh ·.id) }) ∧
      (∀ id, d.find? AlertStore.collectionName id =
        (s.alerts.find? AlertStore.collectionName id).filter
          (¬ AlertStore.Stores (Alert.Dangling limit) ·)) ∧
      (∀ name, name ≠ AlertStore.collectionName → d.collection name = s.alerts.collection name) ∧
      (∀ a, a ∈ AlertStore.readable d ↔ AlertStore.read d a.id = .ok a) ∧
      (AlertStore.readable d).Pairwise (·.id < ·.id) ∧
      report.listed = (AlertStore.readable d).length ∧
      report.enqueued = (AlertStore.readable d).countP (c.hasAccess? ·.customerId = some true) ∧
      report.denied = (AlertStore.readable d).countP (c.hasAccess? ·.customerId = some false) ∧
      report.failed = (AlertStore.readable d).countP (c.hasAccess? ·.customerId = none) ∧
      report.enqueued + report.denied + report.failed = report.listed ∧
      ∀ customerId, asked.count customerId = if c.hasAccess? customerId = none then
          (AlertStore.readable d).countP (·.customerId = customerId)
        else if ∃ a ∈ AlertStore.readable d, a.customerId = customerId then 1 else 0 := by
  have hgrace : c.settings.grace / 1000 = c.settings.graceSeconds := by
    refine Settings.grace_eq (t := c.now) (mt (c.now.plusSeconds?_eq_none_iff _).2 ?_)
    rw [hlimit]
    exact Option.some_ne_none _
  have hlist : onAlerts (AlertStore.list c.now (c.settings.grace / 1000 : Nat)) s =
      (.ok (AlertStore.readable (AlertStore.sweep limit s.alerts)),
        { s with alerts := AlertStore.sweep limit s.alerts }) := by
    rw [hgrace, onAlerts, AlertStore.list_of_some h.context.isCancelled h.context.looked hlimit]
  have hlisted : Undisturbed c { s with alerts := AlertStore.sweep limit s.alerts } :=
    h.of_context rfl
  have hrun := scheduleAlerts_eq hlisted (agrees_nil c) hqueue
    ⟨(AlertStore.readable (AlertStore.sweep limit s.alerts)).length, 0, 0, 0⟩
    (AlertStore.readable (AlertStore.sweep limit s.alerts))
  rw [countAll_eq] at hrun
  simp only [Nat.zero_add] at hrun
  refine ⟨_, _, _, (bind_of_ok hlist).trans hrun, AlertStore.find?_sweep limit s.alerts,
    fun name hname => AlertStore.collection_sweep limit s.alerts hname,
    fun a => AlertStore.mem_readable, AlertStore.pairwise_readable _, rfl, rfl, rfl, rfl,
    countP_hasAccess? c _, count_questions c _⟩

namespace Sample

def owned (id customerId : String) (isValid : Bool) (modified : Instant) : Alert :=
  .define id "Spend" customerId (monthly.withScope ["attr-1"]) ["ops@acme.com"] "v1" isValid
    (some modified) april

def stored (as : List Alert) (d : Documents) : Documents :=
  as.foldl (fun d a => d.insert AlertStore.collectionName a.id a.encode) d

/-- Six alerts of three customers, two of them not valid, and a document that does not decode. -/
def portfolio : State :=
  { State.empty with
    alerts := stored
      [owned "a1" "acme" true april, owned "a2" "acme" false april, owned "a3" "acme" false may,
        owned "b1" "beta" true april, owned "c1" "gamma" true april, owned "c2" "gamma" true april]
      (Documents.empty.insert AlertStore.collectionName "a0" .null) }

/-- One customer has access, one has none, and the check fails for all others. -/
def gatekept : Collaborators :=
  { Collaborators.quiet .standard may ∅ with
    access := ⟨true, fun
      | "acme" => .ok .granted
      | "beta" => .ok (.denied "not subscribed")
      | _ => .error (.access "unavailable")⟩ }

end Sample

open Sample in
theorem refreshAll_exact_portfolio :
    Undisturbed gatekept portfolio ∧ (∀ t, gatekept.enqueueFault t = none) ∧
      gatekept.now.plusSeconds? (-(gatekept.settings.graceSeconds : Int)) =
        some (.midnight ⟨2024, 5, 14, by decide⟩) ∧
      ∃ report s', refreshAll gatekept portfolio = (.ok report, s') ∧
        report = ⟨5, 2, 1, 2⟩ ∧ report.enqueued + report.denied + report.failed = report.listed ∧
        s'.queue = [.refresh "a1", .refresh "a3"] ∧
        s'.asked = ["acme", "beta", "gamma", "gamma"] ∧
        s'.alerts.find? AlertStore.collectionName "a2" = none ∧
        (s'.alerts.find? AlertStore.collectionName "a0").isSome := by
  have hundisturbed : Undisturbed gatekept portfolio := ⟨Context.uncancelled_fresh, fun _ => rfl⟩
  have hqueue : ∀ t, gatekept.enqueueFault t = none := fun _ => rfl
  have hlimit : gatekept.now.plusSeconds? (-(gatekept.settings.graceSeconds : Int)) =
      some (.midnight ⟨2024, 5, 14, by decide⟩) := by
    decide +kernel
  have hreport : (refreshAll gatekept portfolio).1 = .ok ⟨5, 2, 1, 2⟩ := by decide +kernel
  have hqueued : (refreshAll gatekept portfolio).2.queue = [.refresh "a1", .refresh "a3"] := by
    decide +kernel
  have hasked : (refreshAll gatekept portfolio).2.asked = ["acme", "beta", "gamma", "gamma"] := by
    decide +kernel
  obtain ⟨report, d, asked, hrun, hfind, -, -, -, -, -, -, -, hsum, -⟩ :=
    refreshAll_exact hundisturbed hqueue hlimit
  rw [hrun] at hreport hqueued hasked
  refine ⟨hundisturbed, hqueue, hlimit, report, _, hrun, Except.ok.inj hreport, hsum, hqueued,
    hasked, ?_, ?_⟩
  · rw [hfind]
    decide +kernel
  · rw [hfind]
    decide +kernel

/-! ### A grace that reaches behind the calendar -/

theorem accessFor_cases (c : Collaborators) (known : List (String × Bool)) (customerId : String)
    (s : State) : ∃ answer s', accessFor c known customerId s = (.ok answer, s') ∧
      State.Same s s' := by
  rw [accessFor]
  cases known.lookup customerId with
  | some granted => exact ⟨_, s, rfl, .refl s⟩
  | none =>
      cases hcheck : c.checkAccess customerId s with
      | mk r s₁ =>
          have hsame := (Collaborators.quiet_checkAccess c customerId).same hcheck
          cases r with
          | ok answer => exact ⟨_, s₁, bind_of_ok (attempt_of hcheck), hsame⟩
          | error e => exact ⟨_, s₁, bind_of_ok (attempt_of hcheck), hsame⟩

theorem quiet_enqueue (c : Collaborators) (t : Task) : Quiet (c.enqueue t) :=
  Quiet.bind (fun _ => by cases c.enqueueFault t <;> exact .refl _) fun _ =>
    (Quiet.guarded _).bind fun _ _ => ⟨rfl, rfl, rfl⟩

/-- Scheduling never fails, and touches no document. -/
theorem scheduleAlerts_cases (c : Collaborators) (known : List (String × Bool))
    (report : ScheduleReport) (as : List Alert) (s : State) : ∃ report' s',
      scheduleAlerts c known report as s = (.ok report', s') ∧ State.Same s s' := by
  induction as generalizing known report s with
  | nil => exact ⟨report, s, rfl, .refl s⟩
  | cons a as ih =>
      obtain ⟨⟨granted, known'⟩, s₁, haccess, hsame⟩ := accessFor_cases c known a.customerId s
      have hrest : ∀ report' s₂, State.Same s s₂ → ∃ report'' s',
          scheduleAlerts c known' report' as s₂ = (.ok report'', s') ∧ State.Same s s' := by
        intro report' s₂ hsame₂
        obtain ⟨report'', s', hrun, hsame'⟩ := ih known' report' s₂
        exact ⟨report'', s', hrun, hsame₂.trans hsame'⟩
      rw [scheduleAlerts, bind_of_ok haccess]
      match granted with
      | none => exact hrest _ s₁ hsame
      | some false => exact hrest _ s₁ hsame
      | some true =>
          cases henqueue : c.enqueue (.refresh a.id) s₁ with
          | mk r s₂ =>
              have hsame₂ := hsame.trans ((quiet_enqueue c _).same henqueue)
              dsimp only
              rw [bind_of_ok (attempt_of henqueue)]
              cases r with
              | ok _ => exact hrest _ s₂ hsame₂
              | error e => exact hrest _ s₂ hsame₂

/-- A schedule fails exactly as its listing does, and leaves the documents that the listing
leaves. -/
theorem refreshAll_cases (c : Collaborators) (s : State) : ∃ r session,
    AlertStore.list c.now (c.settings.grace / 1000 : Nat) ⟨s.context, s.alerts⟩ = (r, session) ∧
      (refreshAll c s).2.alerts = session.documents ∧
      ∀ e, (refreshAll c s).1 = .error e ↔ r = .error e := by
  cases hlist : AlertStore.list c.now (c.settings.grace / 1000 : Nat) ⟨s.context, s.alerts⟩ with
  | mk r session =>
      have hlisted : onAlerts (AlertStore.list c.now (c.settings.grace / 1000 : Nat)) s =
          (r, { s with context := session.context, alerts := session.documents }) := by
        rw [onAlerts, hlist]
      refine ⟨r, session, rfl, ?_⟩
      cases r with
      | error e =>
          rw [refreshAll, bind_of_error hlisted]
          exact ⟨rfl, fun e' => ⟨fun h => congrArg _ (Except.error.inj h),
            fun h => congrArg _ (Except.error.inj h)⟩⟩
      | ok as =>
          obtain ⟨report, s', hrun, hsame⟩ := scheduleAlerts_cases c [] ⟨as.length, 0, 0, 0⟩ as
            { s with context := session.context, alerts := session.documents }
          rw [refreshAll, bind_of_ok hlisted, hrun]
          refine ⟨hsame.alerts, fun e => ?_⟩
          constructor
          · rintro ⟨⟩
          · rintro ⟨⟩

/-- A schedule, and a listing, leave the calendar exactly if the grace cannot be counted back from
the clock and some alert is not valid. Nothing is deleted then, and no alert is found dangling;
with any other grace a schedule fails for nothing but its context. -/
theorem refreshAll_outOfRange_iff (c : Collaborators) (s : State) :
    ((refreshAll c s).1 = .error .dateOutOfRange ↔ s.context.isCancelled = false ∧
      c.now.plusSeconds? (-(c.settings.graceSeconds : Int)) = none ∧
      ∃ a ∈ AlertStore.readable s.alerts, a.isValid = false) ∧
    ((AlertStore.list c.now (c.settings.grace / 1000 : Nat) ⟨s.context, s.alerts⟩).1 =
        .error .dateOutOfRange ↔ (refreshAll c s).1 = .error .dateOutOfRange) ∧
    (c.now.plusSeconds? (-(c.settings.graceSeconds : Int)) = none ↔
      c.now.age < c.settings.graceSeconds) ∧
    (c.now.plusSeconds? (-(c.settings.graceSeconds : Int)) = none →
      (refreshAll c s).2.alerts = s.alerts ∧
        ∀ a : Alert, a.isDangling c.now (c.settings.grace / 1000 : Nat) ≠ .ok true) ∧
    ∀ e, (refreshAll c s).1 = .error e → e = .dateOutOfRange ∨ e = .cancelled := by
  obtain ⟨r, session, hlist, halerts, herror⟩ := refreshAll_cases c s
  have hsame : (AlertStore.list c.now (c.settings.grace / 1000 : Nat) ⟨s.context, s.alerts⟩).1 =
      .error .dateOutOfRange ↔ (refreshAll c s).1 = .error .dateOutOfRange := by
    rw [hlist, herror]
  have hage := c.now.plusSeconds?_eq_none_iff c.settings.graceSeconds
  have hshift : c.now.plusSeconds? (-((c.settings.grace / 1000 : Nat) : Int)) = none ↔
      c.now.plusSeconds? (-(c.settings.graceSeconds : Int)) = none :=
    ((c.now.plusSeconds?_eq_none_iff _).trans (c.settings.lt_grace_iff c.now)).trans hage.symm
  by_cases hnone : c.now.plusSeconds? (-(c.settings.graceSeconds : Int)) = none
  · obtain ⟨hkept, hfails⟩ := AlertStore.list_of_none (hshift.2 hnone) ⟨s.context, s.alerts⟩
    rw [hlist] at hkept hfails
    refine ⟨?_, hsame, hage, fun _ => ⟨halerts.trans hkept, fun a => ?_⟩, fun e he => ?_⟩
    · rw [herror, hfails]
      simp [hnone]
    · rw [Alert.isDangling_of_none (hshift.2 hnone)]
      split <;> nofun
    · obtain ⟨-, rfl⟩ | ⟨-, -, rfl⟩ := (hfails e).1 ((herror e).1 he)
      · exact .inr rfl
      · exact .inl rfl
  · obtain ⟨limit, hlimit⟩ := Option.ne_none_iff_exists'.1 (mt hshift.1 hnone)
    have hcancelled : ∀ e, (refreshAll c s).1 = .error e → e = .cancelled := by
      intro e he
      obtain rfl := (herror e).1 he
      exact AlertStore.list_eq_error hlimit hlist
    refine ⟨?_, hsame, hage, (absurd · hnone), fun e he => .inr (hcancelled e he)⟩
    exact iff_of_false (fun h => nomatch hcancelled _ h) (fun h => hnone h.2.1)

namespace Sample

/-- The longest grace that settings can hold. -/
def endless : Collaborators :=
  .quiet { Settings.standard with graceSeconds := UInt64.size - 1 } may ∅

def unfinished : State :=
  { State.empty with alerts := stored [owned "a1" "acme" false april] .empty }

end Sample

open Sample in
/-- It is not true that between the years 1970 and 9999 every grace of 64 bits can be counted back
from the clock. -/
theorem not_forall_grace_in_range :
    ¬ ∀ (c : Collaborators) (s : State), c.settings.graceSeconds < UInt64.size →
      1970 ≤ c.now.date.year → c.now.date.year ≤ 9999 →
      (refreshAll c s).1 ≠ .error .dateOutOfRange ∧
        (AlertStore.list c.now (c.settings.grace / 1000 : Nat) ⟨s.context, s.alerts⟩).1 ≠
          .error .dateOutOfRange := by
  intro h
  have hfails : (refreshAll endless unfinished).1 = .error .dateOutOfRange := by decide +kernel
  exact (h endless unfinished (by decide) (by decide) (by decide)).1 hfails

end Engine

end SpendAlerts

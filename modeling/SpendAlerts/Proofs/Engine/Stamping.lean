import SpendAlerts.Proofs.Engine.Overflow
import SpendAlerts.Proofs.Engine.Uncancelled
import SpendAlerts.Proofs.Store.Queries
import Mathlib.Data.List.Flatten
import Mathlib.Data.Set.Card

/-!
What a digest stamps. A notification can be sent if it is pending for the customer, its
alert is readable, current and labelled, and its stamp does not fail. A digest that nobody
cancels stamps just these, remembers just their alerts, and counts both; it does so unless
a pending notification of the customer cannot be read, and then it changes nothing.
-/

namespace SpendAlerts

namespace Engine

open Run NotificationStore

variable {c : Collaborators} {s s' : State}

/-- What a digest stamps of the pending notifications of an alert. -/
def chosen (c : Collaborators) (a : Alert) (pending : List Notification) : List Notification :=
  match breakdownLabel? a with
  | .error _ => []
  | .ok _ => pending.filter fun n => n.etag = a.etag ∧ c.markFault n.key = none

/-- What a digest stamps of a group of pending notifications. -/
def eligible (c : Collaborators) (alerts : Documents) (g : String × List Notification) :
    List Notification :=
  match AlertStore.read alerts g.1 with
  | .error _ => []
  | .ok a => chosen c a g.2

theorem sublist_chosen (a : Alert) (pending : List Notification) :
    (chosen c a pending).Sublist pending := by
  rw [chosen]
  split
  · exact List.nil_sublist _
  · exact List.filter_sublist

theorem sublist_eligible (alerts : Documents) (g : String × List Notification) :
    (eligible c alerts g).Sublist g.2 := by
  rw [eligible]
  split
  · exact List.nil_sublist _
  · exact sublist_chosen _ _

theorem stampAll_undisturbed (h : Undisturbed c s) {ns : List Notification}
    (hns : Ready s.notifications ns) :
    stampAll c ns s = (.ok (ns.filter fun n => c.markFault n.key = none),
      { s with notifications :=
        stampEach c.stampTime s.notifications (ns.filter fun n => c.markFault n.key = none) }) := by
  induction ns generalizing s with
  | nil => rfl
  | cons n ns ih =>
      have hns' : Ready s.notifications ([n] ++ ns) := hns
      rw [stampAll]
      cases hfault : c.markFault n.key with
      | some e =>
          have hrest := ih h (hns'.sublist (List.sublist_append_right _ _))
          rw [bind_of_ok (attempt_of (Undisturbed.markSent_of_fault hfault _)), bind_of_ok hrest]
          simp [hfault, Except.isOk, Except.toBool]
          rfl
      | none =>
          have hmark := h.markSent hfault (hns.finite n List.mem_cons_self)
            (hns.stored n List.mem_cons_self) (c.stampTime n.key)
          have hafter : Undisturbed c
              { s with notifications := write s.notifications (n.sentAt (c.stampTime n.key)) } :=
            h.of_context rfl
          have hrest := ih hafter (hns'.of_stamps .write (.refl _))
          rw [bind_of_ok (attempt_of hmark), bind_of_ok hrest]
          simp [hfault, Except.isOk, Except.toBool]
          rfl

theorem filter_current (a : Alert) (pending : List Notification) :
    (pending.filter (·.etag = a.etag)).filter (fun n => c.markFault n.key = none) =
      pending.filter fun n => n.etag = a.etag ∧ c.markFault n.key = none := by
  rw [List.filter_filter]
  congr 1
  funext n
  simp [Bool.and_comm]

theorem chosen_eq_nil {a : Alert} {pending : List Notification}
    (hnone : pending.filter (·.etag = a.etag) = []) : chosen c a pending = [] := by
  rw [chosen]
  split
  · rfl
  · rw [← filter_current, hnone, List.filter_nil]

/-- The section of an alert with the notifications that are chosen, if there are any. -/
def sectionOf (c : Collaborators) (a : Alert) (pending : List Notification) : Option Section :=
  match breakdownLabel? a, pending.filter (·.etag = a.etag) with
  | .ok label, first :: _ =>
      if chosen c a pending = [] then none
      else some ⟨a, chosen c a pending, .ofNotifications a label
        (a.sentence c.settings.metricLabels) (chosen c a pending), targets a first⟩
  | _, _ => none

/-- The section of a group of pending notifications. -/
def sectionIn (c : Collaborators) (alerts : Documents) (g : String × List Notification) :
    Option Section :=
  (AlertStore.read alerts g.1).toOption.bind fun a => sectionOf c a g.2

/-- There is a section if anything is chosen, and it has stamped that. -/
theorem stamped_sectionOf (a : Alert) (pending : List Notification) :
    (sectionOf c a pending).map (·.stamped) =
      if chosen c a pending = [] then none else some (chosen c a pending) := by
  rw [sectionOf]
  cases hcurrent : pending.filter (·.etag = a.etag) with
  | nil =>
      rw [if_pos (chosen_eq_nil hcurrent)]
      cases breakdownLabel? a with
      | error e => rfl
      | ok label => rfl
  | cons first others =>
      cases hlabel : breakdownLabel? a with
      | error e =>
          rw [chosen, hlabel]
          rfl
      | ok label => exact apply_ite (Option.map _) _ _ _

theorem stamped_sectionIn (alerts : Documents) (g : String × List Notification) :
    (sectionIn c alerts g).map (·.stamped) =
      if eligible c alerts g = [] then none else some (eligible c alerts g) := by
  rw [sectionIn, eligible]
  cases AlertStore.read alerts g.1 with
  | error e => rfl
  | ok a => exact stamped_sectionOf a g.2

/-- Compiling an alert stamps what is chosen, and gives its section. -/
theorem compileAlert_undisturbed (h : Undisturbed c s) {a : Alert} {pending : List Notification}
    (hp : Ready s.notifications pending) :
    ∃ r, compileAlert c a pending s = (r,
        { s with notifications := stampEach c.stampTime s.notifications (chosen c a pending) }) ∧
      r.toOption.join = sectionOf c a pending := by
  rw [compileAlert, sectionOf]
  cases hcurrent : pending.filter (·.etag = a.etag) with
  | nil =>
      rw [chosen_eq_nil hcurrent]
      refine ⟨.ok none, rfl, ?_⟩
      cases breakdownLabel? a with
      | error e => rfl
      | ok label => rfl
  | cons first others =>
      cases hlabel : breakdownLabel? a with
      | error e =>
          rw [chosen, hlabel]
          exact ⟨.error e, rfl, rfl⟩
      | ok label =>
          have hstamp := stampAll_undisturbed h (hp.sublist (hcurrent ▸ List.filter_sublist))
          have hchosen : chosen c a pending =
              pending.filter fun n => n.etag = a.etag ∧ c.markFault n.key = none := by
            rw [chosen, hlabel]
          rw [← hcurrent, filter_current, ← hchosen] at hstamp
          have hname : Run.ofExcept (.ok label) s = (.ok label, s) := rfl
          simp only
          rw [bind_of_ok hname, ← hcurrent, bind_of_ok hstamp]
          split
          next hempty =>
            have hnil := Digest.Body.isEmpty_ofNotifications.1 hempty
            refine ⟨.ok none, rfl, ?_⟩
            rw [if_pos hnil]
            rfl
          next hshown =>
            have hne := fun hnil => hshown (Digest.Body.isEmpty_ofNotifications.2 hnil)
            refine ⟨_, rfl, ?_⟩
            rw [if_neg hne]
            rfl

/-- The section of an alert stamps what is eligible. -/
theorem sectionFor_undisturbed (h : Undisturbed c s) {g : String × List Notification}
    (hg : Ready s.notifications g.2) :
    sectionFor c g.1 g.2 s = (.ok (sectionIn c s.alerts g), { s with
      notifications := stampEach c.stampTime s.notifications (eligible c s.alerts g) }) := by
  rw [sectionFor, bind_of_ok (attempt_of (h.get g.1)), eligible, sectionIn]
  cases AlertStore.read s.alerts g.1 with
  | error e => rfl
  | ok a =>
      obtain ⟨r, hr, hsection⟩ := compileAlert_undisturbed h (a := a) hg
      simp only
      rw [bind_of_ok (attempt_of hr), Except.toOption, Option.bind_some, ← hsection]
      cases r with
      | error e => rfl
      | ok sec => rfl

/-- The groups that a digest includes. -/
def included (c : Collaborators) (alerts : Documents)
    (groups : List (String × List Notification)) : List (String × List Notification) :=
  groups.filter fun g => eligible c alerts g ≠ []

/-- The state after a digest of some groups. -/
def digested (c : Collaborators) (groups : List (String × List Notification)) (s : State) :
    State :=
  { s with
    notifications := stampEach c.stampTime s.notifications (groups.flatMap (eligible c s.alerts))
    alerts :=
      AlertStore.rememberEach c.digestTime s.alerts ((included c s.alerts groups).map (·.1)) }

variable {g : String × List Notification} {groups : List (String × List Notification)}
  {time : Instant}

theorem included_congr {alerts alerts' : Documents}
    (h : ∀ g ∈ groups, eligible c alerts' g = eligible c alerts g) :
    included c alerts' groups = included c alerts groups :=
  List.filter_congr fun g hg => by rw [h g hg]

/-- The sections of a digest of some groups. -/
def sectionsOf (c : Collaborators) (alerts : Documents)
    (groups : List (String × List Notification)) : List Section :=
  groups.filterMap (sectionIn c alerts)

/-- There is a section for each group that is included, and it stamps what is eligible. -/
theorem stamped_sectionsOf (alerts : Documents) (groups : List (String × List Notification)) :
    (sectionsOf c alerts groups).map (·.stamped) =
      (included c alerts groups).map (eligible c alerts) := by
  induction groups with
  | nil => rfl
  | cons g groups ih =>
      have hstamped := stamped_sectionIn (c := c) alerts g
      rw [sectionsOf] at ih ⊢
      by_cases hnone : eligible c alerts g = []
      · rw [if_pos hnone, Option.map_eq_none_iff] at hstamped
        simpa [included, hnone, hstamped] using ih
      · rw [if_neg hnone] at hstamped
        obtain ⟨x, hx, hstamped⟩ := Option.map_eq_some_iff.1 hstamped
        simpa [included, hnone, hx, hstamped] using ih

/-- The ids of the groups differ, so remembering the digest of one of them has no part in what
is read for the others. -/
theorem read_remember {alerts : Documents} (hids : ((g :: groups).map (·.1)).Nodup)
    {g' : String × List Notification} (hg : g' ∈ groups) :
    AlertStore.read (AlertStore.remember time alerts g.1) g'.1 = AlertStore.read alerts g'.1 := by
  refine AlertStore.read_remember_of_ne ?_
  intro heq
  exact (List.nodup_cons.1 hids).1 (List.mem_map.2 ⟨g', hg, heq.symm⟩)

theorem eligible_remember {alerts : Documents} (hids : ((g :: groups).map (·.1)).Nodup)
    {g' : String × List Notification} (hg : g' ∈ groups) :
    eligible c (AlertStore.remember time alerts g.1) g' = eligible c alerts g' := by
  rw [eligible, eligible, read_remember hids hg]

theorem sectionsOf_remember {alerts : Documents} (hids : ((g :: groups).map (·.1)).Nodup) :
    sectionsOf c (AlertStore.remember time alerts g.1) groups = sectionsOf c alerts groups := by
  refine List.filterMap_congr ?_
  intro g' hg
  rw [sectionIn, sectionIn, read_remember hids hg]

theorem digested_cons_of_eq_nil (hnone : eligible c s.alerts g = []) :
    digested c (g :: groups) s = digested c groups s := by
  simp [digested, included, hnone]

theorem digested_cons (hids : ((g :: groups).map (·.1)).Nodup)
    (hne : eligible c s.alerts g ≠ []) :
    digested c (g :: groups) s = digested c groups { s with
      notifications := stampEach c.stampTime s.notifications (eligible c s.alerts g)
      alerts := AlertStore.remember (c.digestTime g.1) s.alerts g.1 } := by
  have hothers : ∀ g' ∈ groups,
      eligible c (AlertStore.remember (c.digestTime g.1) s.alerts g.1) g' =
        eligible c s.alerts g' :=
    fun _ hg => eligible_remember hids hg
  have hflat : groups.flatMap (eligible c (AlertStore.remember (c.digestTime g.1) s.alerts g.1)) =
      groups.flatMap (eligible c s.alerts) := by
    rw [List.flatMap_def, List.flatMap_def, List.map_congr_left hothers]
  simp only [digested, included_congr hothers, hflat, List.flatMap_cons, stampEach_append]
  simp [included, hne, AlertStore.rememberEach]

/-- A digest of groups stamps what is eligible in each of them, and gives their sections. -/
theorem compileAll_undisturbed (h : Undisturbed c s) (hp : Pending s.notifications groups) :
    compileAll c groups s = (.ok (sectionsOf c s.alerts groups), digested c groups s) := by
  induction groups generalizing s with
  | nil => rfl
  | cons g groups ih =>
      have hready : Ready s.notifications g.2 := hp.ready.sublist (List.sublist_append_left _ _)
      have hsection := sectionFor_undisturbed h hready
      have hstamped := stamped_sectionIn (c := c) s.alerts g
      have hstamps : Stamps c.stampTime s.notifications (eligible c s.alerts g)
          (stampEach c.stampTime s.notifications (eligible c s.alerts g)) :=
        stamps_stampEach (hready.keys.sublist ((sublist_eligible s.alerts g).map _))
      have hpending := hp.tail hstamps (sublist_eligible s.alerts g)
      rw [compileAll, bind_of_ok h.isCancelled]
      simp only [Bool.false_eq_true, if_false]
      rw [bind_of_ok hsection]
      by_cases hnone : eligible c s.alerts g = []
      · rw [if_pos hnone, Option.map_eq_none_iff] at hstamped
        rw [hnone] at hpending ⊢
        rw [digested_cons_of_eq_nil hnone, sectionsOf, List.filterMap_cons, hstamped]
        exact ih h hpending
      · rw [if_neg hnone] at hstamped
        obtain ⟨x, hx, -⟩ := Option.map_eq_some_iff.1 hstamped
        have hafter : Undisturbed c { s with
            notifications := stampEach c.stampTime s.notifications (eligible c s.alerts g) } :=
          h.of_context rfl
        obtain ⟨r, hnotify⟩ := hafter.updateNotified g.1 (c.digestTime g.1)
        have hall := ih (s := { s with
          notifications := stampEach c.stampTime s.notifications (eligible c s.alerts g)
          alerts := AlertStore.remember (c.digestTime g.1) s.alerts g.1 })
            (h.of_context rfl) hpending
        rw [digested_cons hp.ids hnone, sectionsOf, List.filterMap_cons, hx]
        simp only
        rw [bind_of_ok (attempt_of hnotify), bind_of_ok hall, sectionsOf_remember hp.ids]
        rfl

/-- A digest fails over what is pending, or has the sections of that. -/
theorem compileDigest_eq (hd : Keyed s.notifications) (h : Undisturbed c s)
    (customerId : String) : compileDigest c customerId s =
      match pendingOf s.notifications customerId with
      | .error e => (.error e, s)
      | .ok ns => (.ok ⟨sectionsOf c s.alerts (byAlert ns).entries⟩,
          digested c (byAlert ns).entries s) := by
  have hread : onNotifications (pendingFor customerId) s =
      (pendingOf s.notifications customerId >>= fun ns => .ok (byAlert ns), s) :=
    h.peek ((peeks_select _).bind fun _ _ => rfl)
  rw [compileDigest, bind_of_ok h.check]
  cases hpending : pendingOf s.notifications customerId with
  | error e =>
      rw [hpending] at hread
      exact bind_of_error hread
  | ok ns =>
      rw [hpending] at hread
      have hp : Pending s.notifications (byAlert ns).entries :=
        pending_byAlert [.textEquals "customerId" customerId] hd hpending
      rw [bind_of_ok hread, bind_of_ok (compileAll_undisturbed h hp)]
      rfl

theorem compileDigest_undisturbed (hd : Keyed s.notifications) (h : Undisturbed c s)
    (customerId : String) :
    (∃ e, pendingOf s.notifications customerId = .error e ∧
        compileDigest c customerId s = (.error e, s)) ∨
      ∃ ns d, pendingOf s.notifications customerId = .ok ns ∧
        compileDigest c customerId s = (.ok d, digested c (byAlert ns).entries s) ∧
        d.sections.map (·.stamped) =
          (included c s.alerts (byAlert ns).entries).map (eligible c s.alerts) := by
  have hrun := compileDigest_eq hd h customerId
  cases hpending : pendingOf s.notifications customerId with
  | error e =>
      rw [hpending] at hrun
      exact .inl ⟨e, rfl, hrun⟩
  | ok ns =>
      rw [hpending] at hrun
      exact .inr ⟨ns, _, rfl, hrun, stamped_sectionsOf _ _⟩

/-- A digest of the customer can send the notification: it is pending, its alert is there, is
current and has a label for its breakdown, and the stamp does not fail. -/
structure Sendable (c : Collaborators) (customerId : String) (s : State) (n : Notification) :
    Prop where
  stored : document? s.notifications n.key = some n.encode
  customer : n.customerId = customerId
  unsent : n.sent = none
  alert : ∃ doc a, s.alerts.find? AlertStore.collectionName n.alertId = some doc ∧
    Alert.decode doc = .ok a ∧ n.etag = a.etag ∧
    ∀ id, a.config.breakdown? = some id → ∃ label, Dimension.label? id = .ok label
  stampable : c.markFault n.key = none

theorem exists_breakdownLabel? {a : Alert} : (∃ label, breakdownLabel? a = .ok label) ↔
    ∀ id, a.config.breakdown? = some id → ∃ label, Dimension.label? id = .ok label := by
  rw [breakdownLabel?]
  cases a.config.breakdown? with
  | none => simp
  | some id =>
      simp only [Option.some.injEq, forall_eq']
      cases Dimension.label? id with
      | ok label => simp [Except.map]
      | error e => simp [Except.map]

theorem mem_chosen {a : Alert} {pending : List Notification} {n : Notification} :
    n ∈ chosen c a pending ↔ n ∈ pending ∧ c.markFault n.key = none ∧ n.etag = a.etag ∧
      ∀ id, a.config.breakdown? = some id → ∃ label, Dimension.label? id = .ok label := by
  rw [chosen, ← exists_breakdownLabel?]
  cases breakdownLabel? a with
  | error e => simp
  | ok label => simp [and_comm]

theorem mem_eligible {alerts : Documents} {g : String × List Notification} {n : Notification} :
    n ∈ eligible c alerts g ↔ n ∈ g.2 ∧ c.markFault n.key = none ∧
      ∃ doc a, alerts.find? AlertStore.collectionName g.1 = some doc ∧ Alert.decode doc = .ok a ∧
        n.etag = a.etag ∧
        ∀ id, a.config.breakdown? = some id → ∃ label, Dimension.label? id = .ok label := by
  rw [eligible]
  cases hread : AlertStore.read alerts g.1 with
  | error e =>
      refine iff_of_false List.not_mem_nil ?_
      rintro ⟨-, -, doc, a, hdoc, ha, -⟩
      rw [AlertStore.read_eq_ok_iff.2 ⟨doc, a, hdoc, ha, rfl⟩] at hread
      cases hread
  | ok b =>
      obtain ⟨doc, a, hdoc, ha, rfl⟩ := AlertStore.read_eq_ok_iff.1 hread
      refine mem_chosen.trans ?_
      constructor
      · rintro ⟨hn, hfault, hcurrent⟩
        exact ⟨hn, hfault, doc, a, hdoc, ha, hcurrent⟩
      · rintro ⟨hn, hfault, doc', a', hdoc', ha', hcurrent⟩
        cases hdoc.symm.trans hdoc'
        cases ha.symm.trans ha'
        exact ⟨hn, hfault, hcurrent⟩

theorem mem_eligible_byAlert {customerId : String} {ns : List Notification}
    (hd : Keyed s.notifications) (hns : pendingOf s.notifications customerId = .ok ns)
    {g : String × List Notification} (hg : g ∈ (byAlert ns).entries) {n : Notification} :
    n ∈ eligible c s.alerts g ↔ Sendable c customerId s n ∧ n.alertId = g.1 := by
  rw [mem_eligible, eq_of_mem_entries_byAlert hg, List.mem_filter, mem_pendingOf hd hns]
  constructor
  · rintro ⟨⟨⟨hstored, hcustomer, hunsent⟩, hid⟩, hfault, halert⟩
    rw [decide_eq_true_iff] at hid
    exact ⟨⟨hstored, hcustomer, hunsent, hid ▸ halert, hfault⟩, hid⟩
  · rintro ⟨hn, hid⟩
    exact ⟨⟨⟨hn.stored, hn.customer, hn.unsent⟩, by simpa using hid⟩, hn.stampable,
      hid ▸ hn.alert⟩

/-- What is eligible in the groups of a customer are the notifications that can be sent. -/
theorem mem_flatMap_eligible {customerId : String} {ns : List Notification}
    (hd : Keyed s.notifications) (hns : pendingOf s.notifications customerId = .ok ns)
    {n : Notification} : n ∈ (byAlert ns).entries.flatMap (eligible c s.alerts) ↔
      Sendable c customerId s n := by
  rw [List.mem_flatMap]
  constructor
  · rintro ⟨g, hg, hn⟩
    exact ((mem_eligible_byAlert hd hns hg).1 hn).1
  · intro hn
    have hmem := (mem_pendingOf hd hns).2 ⟨hn.stored, hn.customer, hn.unsent⟩
    exact ⟨_, mem_entries_byAlert hmem,
      (mem_eligible_byAlert hd hns (mem_entries_byAlert hmem)).2 ⟨hn, rfl⟩⟩

theorem mem_included {customerId : String} {ns : List Notification}
    (hd : Keyed s.notifications) (hns : pendingOf s.notifications customerId = .ok ns)
    {id : String} : id ∈ (included c s.alerts (byAlert ns).entries).map (·.1) ↔
      ∃ n, Sendable c customerId s n ∧ n.alertId = id := by
  rw [List.mem_map]
  constructor
  · rintro ⟨g, hg, rfl⟩
    obtain ⟨hg, hne⟩ := List.mem_filter.1 hg
    obtain ⟨n, hn⟩ := List.exists_mem_of_ne_nil _ (of_decide_eq_true hne)
    exact ⟨n, (mem_eligible_byAlert hd hns hg).1 hn⟩
  · rintro ⟨n, hn, rfl⟩
    have hg := mem_entries_byAlert ((mem_pendingOf hd hns).2 ⟨hn.stored, hn.customer, hn.unsent⟩)
    refine ⟨_, List.mem_filter.2 ⟨hg, decide_eq_true ?_⟩, rfl⟩
    exact List.ne_nil_of_mem ((mem_eligible_byAlert hd hns hg).2 ⟨hn, rfl⟩)

theorem ncard_of_mem_iff {α : Type} [DecidableEq α] {xs : List α} {p : α → Prop}
    (hnodup : xs.Nodup) (h : ∀ x, x ∈ xs ↔ p x) : {x | p x}.ncard = xs.length := by
  have hset : {x | p x} = (xs.toFinset : Set α) := by
    ext x
    simp [h]
  rw [hset, Set.ncard_coe_finset, List.toFinset_card_of_nodup hnodup]

/-- Sending never fails and keeps the counts of what was compiled. -/
theorem sendAll_counts (customerId : String) (report : DigestReport)
    (messages : List (String × List Digest.Body)) (s : State) :
    ∃ sent, (sendAll c customerId report messages s).1 = .ok sent ∧
      sent.alertsIncluded = report.alertsIncluded ∧
      sent.notificationsSent = report.notificationsSent := by
  cases h : sendAll c customerId report messages s with
  | mk r s' =>
      obtain ⟨_, sent, rfl, hposts⟩ := sendAll_cases h
      exact ⟨sent, rfl, by rw [hposts.report], by rw [hposts.report]⟩

/-- The digest stamps the notifications that can be sent and no others, remembers the alerts
of these and no others, and counts both. -/
structure Sends (c : Collaborators) (customerId : String) (s : State) (d : Compilation)
    (s' : State) : Prop where
  stamped : ∀ n, Sendable c customerId s n →
    document? s'.notifications n.key = some (n.sentAt (c.stampTime n.key)).encode
  others : ∀ k, (∀ n, Sendable c customerId s n → n.key ≠ k) →
    document? s'.notifications k = document? s.notifications k
  remembered : ∀ n, Sendable c customerId s n → ∃ doc a,
    s.alerts.find? AlertStore.collectionName n.alertId = some doc ∧ Alert.decode doc = .ok a ∧
      s'.alerts.find? AlertStore.collectionName n.alertId =
        some { a with lastAlerted := some (c.digestTime n.alertId) }.encode
  otherAlerts : ∀ id, (∀ n, Sendable c customerId s n → n.alertId ≠ id) →
    s'.alerts.find? AlertStore.collectionName id = s.alerts.find? AlertStore.collectionName id
  report : ∃ report, (sendAll c customerId ⟨d.alertsIncluded, d.notificationsSent, 0, 0, 0⟩
      d.bodies.entries s').1 = .ok report ∧
    report.notificationsSent = {n | Sendable c customerId s n}.ncard ∧
    report.alertsIncluded = {id | ∃ n, Sendable c customerId s n ∧ n.alertId = id}.ncard

theorem length_flatMap_included (alerts : Documents) (groups : List (String × List Notification)) :
    ((included c alerts groups).map fun g => (eligible c alerts g).length).sum =
      (groups.flatMap (eligible c alerts)).length := by
  induction groups with
  | nil => rfl
  | cons g groups ih =>
      by_cases hnone : eligible c alerts g = []
      · simpa [included, hnone] using ih
      · simpa [included, hnone] using ih

/-- The counts of a compilation are those of what its groups stamp. -/
theorem counts_of_sections {alerts : Documents} {d : Compilation}
    (h : d.sections.map (·.stamped) = (included c alerts groups).map (eligible c alerts)) :
    d.notificationsSent = (groups.flatMap (eligible c alerts)).length ∧
      d.alertsIncluded = ((included c alerts groups).map (·.1)).length := by
  constructor
  · have hlengths := congrArg (List.map List.length) h
    rw [List.map_map, List.map_map] at hlengths
    exact (congrArg List.sum hlengths).trans (length_flatMap_included alerts groups)
  · have hlength := congrArg List.length h
    rw [List.length_map, List.length_map] at hlength
    rw [List.length_map]
    exact hlength

theorem sends_of_digested {customerId : String} {ns : List Notification} {d : Compilation}
    (hd : Keyed s.notifications) (hns : pendingOf s.notifications customerId = .ok ns)
    (hsections : d.sections.map (·.stamped) =
      (included c s.alerts (byAlert ns).entries).map (eligible c s.alerts)) :
    Sends c customerId s d (digested c (byAlert ns).entries s) := by
  have hp : Pending s.notifications (byAlert ns).entries :=
    pending_byAlert [.textEquals "customerId" customerId] hd hns
  have hkeys : (((byAlert ns).entries.flatMap (eligible c s.alerts)).map (·.key)).Nodup :=
    hp.ready.keys.sublist <|
      (List.Sublist.flatMap_right _ fun g _ => sublist_eligible s.alerts g).map _
  have hids : ((included c s.alerts (byAlert ns).entries).map (·.1)).Nodup :=
    hp.ids.sublist (List.filter_sublist.map _)
  have hstamps : Stamps c.stampTime s.notifications
      ((byAlert ns).entries.flatMap (eligible c s.alerts))
      (digested c (byAlert ns).entries s).notifications :=
    stamps_stampEach hkeys
  refine ⟨?_, ?_, ?_, ?_, ?_⟩
  · intro n hn
    exact hstamps.sent n ((mem_flatMap_eligible hd hns).2 hn)
  · intro k hk
    refine hstamps.others k ?_
    intro hmem
    obtain ⟨n, hn, hkey⟩ := List.mem_map.1 hmem
    exact hk n ((mem_flatMap_eligible hd hns).1 hn) hkey
  · intro n hn
    obtain ⟨doc, a, hdoc, ha, -⟩ := hn.alert
    exact ⟨doc, a, hdoc, ha, AlertStore.find?_rememberEach hids
      ((mem_included hd hns).2 ⟨n, hn, rfl⟩) hdoc ha⟩
  · intro id hid
    refine AlertStore.find?_rememberEach_of_notMem ?_
    intro hmem
    obtain ⟨n, hn, heq⟩ := (mem_included hd hns).1 hmem
    exact hid n hn heq
  · obtain ⟨report, hreport, halerts, hnotifications⟩ := sendAll_counts (c := c) customerId
      ⟨d.alertsIncluded, d.notificationsSent, 0, 0, 0⟩ d.bodies.entries
      (digested c (byAlert ns).entries s)
    obtain ⟨hsent, hincluded⟩ := counts_of_sections hsections
    refine ⟨report, hreport, ?_, ?_⟩
    · rw [hnotifications, ncard_of_mem_iff (List.Nodup.of_map _ hkeys)
        (fun n => mem_flatMap_eligible hd hns)]
      exact hsent
    · rw [halerts, ncard_of_mem_iff hids (fun id => mem_included hd hns)]
      exact hincluded

/-- In any context and whenever it is cancelled, a digest that fails leaves both stores as they
are. One that nobody cancels fails exactly if a pending notification of the customer has a
value that is not finite, and otherwise stamps and remembers just what can be sent. -/
theorem digest_exact {customerId : String} {r : Except Fault Compilation}
    (hd : Keyed s.notifications) (h : (compileDigest c customerId).run s = (r, s')) :
    ((∃ e, r = .error e) → s'.notifications = s.notifications ∧ s'.alerts = s.alerts) ∧
      (Undisturbed c s →
        ((∃ e, r = .error e) ↔ ∃ n, Stuck s.notifications n ∧ n.customerId = customerId) ∧
        ∀ d, r = .ok d → Sends c customerId s d s') := by
  constructor
  · rintro ⟨e, rfl⟩
    obtain ⟨-, hsame⟩ | ⟨_, _, hr, -⟩ := compileDigest_cases hd h
    · exact ⟨hsame.notifications, hsame.alerts⟩
    · cases hr
  · intro hu
    have hreadable : (∃ ns, pendingOf s.notifications customerId = .ok ns) ↔
        ¬∃ n, Stuck s.notifications n ∧ n.customerId = customerId :=
      exists_pendingOf_iff hd
    obtain ⟨e, hpending, hrun⟩ | ⟨ns, d, hpending, hrun, hsections⟩ :=
      compileDigest_undisturbed hd hu customerId
    · obtain ⟨rfl, rfl⟩ := Prod.mk.inj (h.symm.trans hrun)
      refine ⟨iff_of_true ⟨e, rfl⟩ (Classical.not_not.1 (mt hreadable.2 ?_)), ?_⟩
      · rintro ⟨ns, hns⟩
        rw [hpending] at hns
        cases hns
      · intro d hd
        cases hd
    · obtain ⟨rfl, rfl⟩ := Prod.mk.inj (h.symm.trans hrun)
      refine ⟨iff_of_false ?_ (hreadable.1 ⟨ns, hpending⟩), ?_⟩
      · rintro ⟨e, he⟩
        cases he
      · intro d' hd'
        cases hd'
        exact sends_of_digested hd hpending hsections

namespace Sample

def second : Alert :=
  .define "b1" "Spend" "acme" (monthly.withScope ["attr-1"]) ["ops@acme.com"] "v1" true none april

def onSecond (call : Call) : Step :=
  ⟨.quiet .standard may (Table.ofList [("b1", ⟨[[.int 2024, .int 5, .float 30.0]], []⟩)]), .fresh,
    call⟩

def pendingSecond : List Step := [onSecond (.put second), onSecond (.refresh "b1")]

def costing (now : Instant) (call : Call) : Step :=
  ⟨.quiet .standard now (Table.ofList (["a1", "b1", "c1"].map fun id =>
    (id, ⟨[[.int 2024, .int 5, .float 30.0]], []⟩))), .fresh, call⟩

/-- One alert has detections of two months, another one has one, and a third has changed since
its detection. -/
def pendingMixed : List Step :=
  [costing april (.put (alert monthly)), costing april (.refresh "a1"),
    costing may (.refresh "a1"), costing may (.put second), costing may (.refresh "b1"),
    costing may (.put { second with id := "c1" }), costing may (.refresh "c1"),
    costing may (.put { second with id := "c1", etag := "v2" })]

/-- One notification cannot be stamped, and the clock has moved on when alerts are remembered. -/
def overQuota : Collaborators :=
  { collaborators with
    markFault := fun key =>
      if key = "a1_2024-04" then some (.store "write quota exceeded") else none
    digestTime := fun _ => .midnight ⟨2024, 5, 16, by decide⟩ }

/-- A forecast of the customer has overflowed under an old version of its alert. -/
def blocked : List Step :=
  forecasting ++ onSecond (.put { alert monthly with etag := "v2" }) :: pendingSecond

/-- The state in which the digest of a history begins. -/
def ready (ts : List Step) : State := { runs .empty ts with context := .fresh }

theorem keyed_ready (ts : List Step) : Keyed (ready ts).notifications :=
  keyed_runs (s := .empty) (fun _ _ h => by cases h) ts

theorem undisturbed_ready (ts : List Step) : Undisturbed collaborators (ready ts) :=
  ⟨Context.uncancelled_fresh, fun _ => rfl⟩

theorem sendable_second : ∃ n, Sendable collaborators "acme" (ready blocked) n ∧
    Decimal.isFinite n.value = true := by
  have hstored : ((document? (ready blocked).notifications "b1_2024-05").bind fun doc =>
      (decode doc).toOption).map (fun n => (n.alertId, n.customerId, n.etag, n.sent)) =
        some ("b1", "acme", "v1", none) := by
    decide +kernel
  have halert : ((ready blocked).alerts.find? AlertStore.collectionName "b1").bind
      (fun doc => (Alert.decode doc).toOption) = some second := by
    decide +kernel
  obtain ⟨n, hn, hfields⟩ := Option.map_eq_some_iff.1 hstored
  obtain ⟨doc, hdoc, hdecode⟩ := Option.bind_eq_some_iff.1 hn
  obtain ⟨alertDoc, halertDoc, hsecond⟩ := Option.bind_eq_some_iff.1 halert
  obtain ⟨m, hkey, rfl⟩ := keyed_ready blocked _ _ hdoc
  obtain ⟨hfinite, rfl⟩ := decode_eq_ok.1 (toOption_eq_some.1 hdecode)
  simp only [Prod.mk.injEq] at hfields
  obtain ⟨hid, hcustomer, hetag, hunsent⟩ := hfields
  refine ⟨n, ⟨hkey ▸ hdoc, hcustomer, hunsent, ?_, rfl⟩, hfinite⟩
  refine ⟨alertDoc, second, hid ▸ halertDoc, toOption_eq_some.1 hsecond, hetag, ?_⟩
  intro id hbreakdown
  cases hbreakdown

end Sample

open Sample in
/-- A digest includes two alerts. It leaves the notification that it cannot stamp, and those of
an alert that has changed since. -/
theorem digest_exact_mixed : ∃ d s',
    (compileDigest overQuota "acme").run (ready pendingMixed) = (.ok d, s') ∧
      d.sections.map (·.stamped.map Notification.key) = [["a1_2024-05"], ["b1_2024-05"]] ∧
      (pendingOf s'.notifications "acme").toOption.map (·.map Notification.key) =
        some ["a1_2024-04", "c1_2024-05"] ∧
      Sends overQuota "acme" (ready pendingMixed) d s' := by
  have hsections : ((compileDigest overQuota "acme").run (ready pendingMixed)).1.toOption.map
      (fun d => d.sections.map (·.stamped.map Notification.key)) =
        some [["a1_2024-05"], ["b1_2024-05"]] := by
    decide +kernel
  have hleft : (pendingOf ((compileDigest overQuota "acme").run
      (ready pendingMixed)).2.notifications "acme").toOption.map (·.map Notification.key) =
        some ["a1_2024-04", "c1_2024-05"] := by
    decide +kernel
  cases hrun : (compileDigest overQuota "acme").run (ready pendingMixed) with
  | mk r s' =>
      rw [hrun] at hsections hleft
      have hd : Keyed (ready pendingMixed).notifications := keyed_ready pendingMixed
      have hu : Undisturbed overQuota (ready pendingMixed) :=
        ⟨Context.uncancelled_fresh, fun _ => rfl⟩
      cases r with
      | error e => cases hsections
      | ok d =>
          have hstamped : d.sections.map (·.stamped.map Notification.key) = _ :=
            Option.some.inj hsections
          exact ⟨d, s', rfl, hstamped, hleft, ((digest_exact hd hrun).2 hu).2 d rfl⟩

open Sample in
/-- It is not true that a digest that nobody cancels stamps all that can be sent. -/
theorem not_forall_sendable_stamped :
    ¬∀ (c : Collaborators) (customerId : String) (s : State), Keyed s.notifications →
      Undisturbed c s → ∀ n, Sendable c customerId s n →
        document? ((compileDigest c customerId).run s).2.notifications n.key =
          some (n.sentAt (c.stampTime n.key)).encode := by
  intro h
  have hfails : ((compileDigest collaborators "acme").run (ready blocked)).1.isOk = false := by
    decide +kernel
  have hd : Keyed (ready blocked).notifications := keyed_ready blocked
  obtain ⟨n, hn, hfinite⟩ := sendable_second
  have hsent := h collaborators "acme" (ready blocked) hd (undisturbed_ready blocked) n hn
  cases hrun : (compileDigest collaborators "acme").run (ready blocked) with
  | mk r s' =>
      rw [hrun] at hfails hsent
      obtain ⟨-, hsame⟩ | ⟨_, _, rfl, -⟩ := compileDigest_cases hd hrun
      · simp only [hsame.notifications, hn.stored, Option.some.injEq] at hsent
        have hunsent := hn.unsent
        rw [eq_of_encode_eq hfinite hsent] at hunsent
        cases hunsent
      · cases hfails

end Engine

end SpendAlerts

import SpendAlerts.Proofs.Engine.History
import SpendAlerts.Proofs.Period
import Mathlib.Data.List.Induction

/-!
What a digest stamps and what its messages show. A notification that is stamped is never
looked at again, so it should be seen in the body of its alert. That is so for alerts with
a breakdown and for daily ones, whose notifications have slots of their own. The single
value of any other alert is that of the last notification, and the others are lost.
-/

namespace SpendAlerts

namespace Digest

/-- The body shows as many values as there are notifications, and theirs among them. -/
structure Body.Shows (b : Body) (config : AlertConfig) (ns : List Notification) : Prop where
  count : b.values.length = ns.length
  values : ∀ n ∈ ns, config.valueText n.value ∈ b.values

variable {a : Alert} {ns : List Notification}

/-- Detections of one daily alert without breakdown do not share a day. -/
theorem nodup_bucketName (hday : a.config.interval = .day) (hnone : a.config.breakdown? = none)
    (hdetects : ∀ n ∈ ns, n.Detects a) (hkeys : (ns.map (·.key)).Nodup) :
    (ns.map (Draft.bucketName a.config.interval)).Nodup := by
  refine List.pairwise_map.2 ((List.pairwise_map.1 hkeys).imp_of_mem ?_)
  intro n m hn hm hne hname
  have hlabel : dayLabel n.detected = dayLabel m.detected := by
    simpa [Draft.bucketName, hday] using hname
  have hperiod : n.period = m.period := by
    have hnp := (hdetects n hn).period
    have hmp := (hdetects m hm).period
    rw [hday] at hnp hmp
    rw [Period.name?_day_eq hlabel, hmp] at hnp
    exact (Except.ok.inj hnp).symm
  apply hne
  rw [Notification.key, Notification.key, hperiod, (hdetects n hn).alertId,
    (hdetects m hm).alertId, (hdetects n hn).breakdown hnone, (hdetects m hm).breakdown hnone]

theorem shows_of_perm {b : Body} {config : AlertConfig}
    (h : b.values.Perm (ns.map fun n => config.valueText n.value)) : b.Shows config ns where
  count := by simpa using h.length_eq
  values _ hn := h.mem_iff.2 (List.mem_map_of_mem hn)

/-- A body shows all detections of its alert, unless several of them have to share the
single value of an alert that has no breakdown and is not daily. -/
theorem shows_ofNotifications_iff {label : Option String} {sentence : String}
    (hlabel : label.isSome = a.config.breakdown?.isSome) (hne : ns ≠ [])
    (hdetects : ∀ n ∈ ns, n.Detects a) (hkeys : (ns.map (·.key)).Nodup) :
    (Body.ofNotifications a label sentence ns).Shows a.config ns ↔
      a.config.breakdown? ≠ none ∨ a.config.interval = .day ∨ ns.length = 1 := by
  have hperm := Body.perm_values_ofNotifications a label sentence ns
  have hslots : label.isSome = true ∨ a.config.interval = .day →
      (Body.ofNotifications a label sentence ns).Shows a.config ns := by
    intro h
    refine shows_of_perm (hperm.trans (Draft.perm_values_foldl (d := .empty) ?_))
    by_cases hsome : label.isSome = true
    · exact .inl hsome
    · have hday := h.resolve_left hsome
      have hnone : a.config.breakdown? = none := by simpa [hlabel] using hsome
      exact .inr ⟨hday, nodup_bucketName hday hnone hdetects hkeys, fun _ _ => rfl⟩
  cases hsome : label.isSome with
  | true =>
      refine iff_of_true (hslots (.inl hsome)) (.inl ?_)
      intro hnone
      rw [hsome, hnone] at hlabel
      cases hlabel
  | false =>
      have hnone : a.config.breakdown? = none := by simpa [hsome] using hlabel.symm
      by_cases hday : a.config.interval = .day
      · exact iff_of_true (hslots (.inr hday)) (.inr (.inl hday))
      rw [hsome, Draft.foldl_single hday hne] at hperm
      have hvalues : (Body.ofNotifications a label sentence ns).values =
          [a.config.valueText (ns.getLast hne).value] := List.perm_singleton.1 hperm
      simp only [hnone, ne_eq, not_true, hday, false_or]
      constructor
      · intro h
        rw [← h.count, hvalues]
        rfl
      · intro hone
        obtain ⟨n, rfl⟩ := List.length_eq_one_iff.1 hone
        exact shows_of_perm (hvalues ▸ .refl _)

end Digest

namespace Engine

open NotificationStore

/-- The alerts that the refreshes of a history read. -/
def alertsRead (s : State) : List Step → List Alert
  | [] => []
  | t :: ts => (t.alert? s).toList ++ alertsRead (t.after s) ts

/-- The config of an alert has been the same since its etag became current. -/
def ConfigsKept (s : State) (ts : List Step) : Prop :=
  ∀ a ∈ alertsRead s ts, ∀ b, AlertStore.read (runs s ts).alerts a.id = .ok b →
    a.etag = b.etag → a.config = b.config

variable {s s' : State} {t : Step} {n : Notification}

theorem alertsRead_append (s : State) (ts us : List Step) :
    alertsRead s (ts ++ us) = alertsRead s ts ++ alertsRead (runs s ts) us := by
  induction ts generalizing s with
  | nil => rfl
  | cons t ts ih =>
      rw [List.cons_append, alertsRead, alertsRead, ih, List.append_assoc]
      rfl

/-- What a step records are detections of the alert, with the recipients that it has. -/
theorem Step.Records.detects {a : Alert} {written : List Notification}
    (h : t.Records s a written) (hn : n ∈ written) :
    n.Detects a ∧ n.recipients = a.recipients := by
  cases h with
  | intro request result ns written answer evaluated part records =>
      obtain ⟨m, hm, rfl⟩ := List.mem_map.1 (part.subset hn)
      have hrecipients : m.recipients = a.recipients :=
        Evaluation.recipients_of_evaluate evaluated hm
      exact ⟨detects_nameFor (mem_evaluate evaluated hm).1, hrecipients⟩

/-- What is pending after a step was pending before, or the step has recorded it. -/
theorem Step.pending_after (hd : Keyed s.notifications) (hunsent : n.sent = none)
    (hfinite : Decimal.isFinite n.value = true)
    (hn : document? (t.after s).notifications n.key = some n.encode) :
    document? s.notifications n.key = some n.encode ∨
      ∃ a written, t.alert? s = some a ∧ t.Records s a written ∧ n ∈ written := by
  cases hcall : t.call with
  | put a =>
      rw [(Step.put_cases (s := s) hcall).1] at hn
      exact .inl hn
  | digest customerId =>
      by_cases hk : n.key ∈ (t.stamped s).map (·.key)
      · obtain ⟨m, hm, hkey⟩ := List.mem_map.1 hk
        obtain ⟨-, -, -, -, hdoc⟩ := Step.of_mem_stamped hd hm
        rw [hkey, hn] at hdoc
        have hsent : n = m.sentAt (t.collaborators.stampTime n.key) :=
          eq_of_encode_eq hfinite (Option.some.inj hdoc)
        rw [hsent] at hunsent
        cases hunsent
      · rw [Step.document?_after hd (fun id h => by cases hcall.symm.trans h) hk] at hn
        exact .inl hn
  | refresh id =>
      obtain ⟨-, ⟨hsame, -⟩ | ⟨a, written, hread, hrecords, -⟩⟩ :=
        Step.refresh_cases (s := s) hcall
      · exact .inl (hsame ▸ hn)
      obtain ⟨-, hsame⟩ | ⟨m, hm, -, hdoc, -⟩ := hrecords.stored.document?_cases n.key
      · exact .inl (hsame ▸ hn)
      · rw [hn] at hdoc
        have ha : t.alert? s = some a := by
          simp [Step.alert?, hcall, hread, Except.toOption]
        have heq : n = m := eq_of_encode_eq hfinite (Option.some.inj hdoc)
        exact .inr ⟨a, written, ha, hrecords, heq ▸ hm⟩

/-- What is pending after a history was detected for an alert that the history has read, and
carries the recipients that the alert had then. -/
theorem detected_runs {ts : List Step} (hempty : ∀ k, document? s.notifications k = none)
    (hunsent : n.sent = none) (hfinite : Decimal.isFinite n.value = true)
    (hn : document? (runs s ts).notifications n.key = some n.encode) :
    ∃ a ∈ alertsRead s ts, n.Detects a ∧ n.recipients = a.recipients := by
  have hd := keyed_of_empty hempty
  induction ts using List.reverseRecOn with
  | nil =>
      rw [runs, hempty] at hn
      cases hn
  | append_singleton ts t ih =>
      rw [alertsRead_append]
      rw [runs_append] at hn
      obtain hold | ⟨a, written, ha, hrecords, hmem⟩ :=
        Step.pending_after (keyed_runs hd ts) hunsent hfinite hn
      · obtain ⟨a, ha, hdetects⟩ := ih hold
        exact ⟨a, List.mem_append_left _ ha, hdetects⟩
      · refine ⟨a, List.mem_append_right _ ?_, hrecords.detects hmem⟩
        simp [alertsRead, ha]

theorem pending_runs {ts : List Step} (hempty : ∀ k, document? s.notifications k = none)
    (hunsent : n.sent = none) (hfinite : Decimal.isFinite n.value = true)
    (hn : document? (runs s ts).notifications n.key = some n.encode) :
    ∃ a ∈ alertsRead s ts, n.Detects a := by
  obtain ⟨a, ha, hdetects, -⟩ := detected_runs hempty hunsent hfinite hn
  exact ⟨a, ha, hdetects⟩

theorem detects_of_config_eq {a b : Alert} (h : n.Detects a) (hid : b.id = a.id)
    (hetag : a.etag = b.etag) (hconfig : a.config = b.config) : n.Detects b where
  alertId := h.alertId.trans hid.symm
  etag := h.etag.trans hetag
  unsent := h.unsent
  period := hconfig ▸ h.period
  breakdown := hconfig ▸ h.breakdown

theorem isSome_breakdownLabel? {a : Alert} {label : Option String}
    (h : breakdownLabel? a = .ok label) : label.isSome = a.config.breakdown?.isSome := by
  rw [breakdownLabel?] at h
  split at h
  · next hnone =>
    cases h
    rw [hnone]
  · next id hsome =>
    rw [hsome]
    cases hlabel : Dimension.label? id with
    | ok text =>
        rw [hlabel] at h
        cases h
        rfl
    | error e =>
        rw [hlabel] at h
        cases h

/-- A digest after a history stamps what its sections name, and nothing if it fails. A section
shows all that it has stamped, exactly if its alert has a breakdown, or is daily, or if it has
stamped a single notification. -/
theorem shows_stamped_iff {ts : List Step} {context : Context} {c : Collaborators}
    {customerId : String} {r : Except Fault Compilation}
    (hempty : ∀ k, document? s.notifications k = none) (hconfigs : ConfigsKept s ts)
    (h : compileDigest c customerId { runs s ts with context := context } = (r, s')) :
    ((∃ e, r = .error e) ∧ s'.notifications = (runs s ts).notifications) ∨
      ∃ d, r = .ok d ∧
        Stamps c.stampTime (runs s ts).notifications (d.sections.flatMap (·.stamped))
          s'.notifications ∧
        ∀ x ∈ d.sections, x.body.Shows x.alert.config x.stamped ↔
          x.alert.config.breakdown? ≠ none ∨ x.alert.config.interval = .day ∨
            x.stamped.length = 1 := by
  have hd := keyed_of_empty hempty
  have hd' : Keyed (State.notifications { runs s ts with context := context }) :=
    keyed_runs hd ts
  obtain ⟨hfail, hsame⟩ | ⟨groups, d, hr, hp, hcompiles⟩ := compileDigest_cases hd' h
  · exact .inl ⟨hfail, hsame.notifications⟩
  refine .inr ⟨d, hr, hcompiles.stamps, ?_⟩
  intro x hx
  obtain ⟨g, hg, hread, hsec⟩ := hcompiles.sections x hx
  obtain ⟨label, sentence, hlabel, hbody⟩ := hsec.body
  have hgroup : g.2.Sublist (groups.flatMap (·.2)) := by
    rw [List.flatMap_def]
    exact List.sublist_flatten_of_mem (List.mem_map_of_mem hg)
  have hready := hp.ready.sublist (hsec.part.trans hgroup)
  have hdetects : ∀ n ∈ x.stamped, n.Detects x.alert := by
    intro n hn
    have hng := hsec.part.subset hn
    obtain ⟨a, ha, hna⟩ := pending_runs hempty (hp.unsent g hg n hng)
      (hready.finite n hn) (hready.stored n hn)
    have hid : g.1 = a.id := (hp.alertId g hg n hng).symm.trans hna.alertId
    have hetag : a.etag = x.alert.etag := hna.etag.symm.trans (hsec.etag n hn)
    have hreada : AlertStore.read (runs s ts).alerts a.id = .ok x.alert := hid ▸ hread
    refine detects_of_config_eq hna (AlertStore.read_eq_ok hreada).1 hetag ?_
    exact hconfigs a ha x.alert hreada hetag
  rw [hbody]
  exact Digest.shows_ofNotifications_iff (isSome_breakdownLabel? hlabel) hsec.nonempty hdetects
    hready.keys

namespace Sample

/-- Spend above the threshold in two months, with no digest between them. -/
def twoMonths : List Step :=
  [step april ⟨[[.int 2024, .int 4, .float 25.0]], []⟩ (.put (alert monthly)),
    step april ⟨[[.int 2024, .int 4, .float 25.0]], []⟩ (.refresh "a1"),
    step may ⟨[[.int 2024, .int 5, .float 30.0]], []⟩ (.refresh "a1")]

theorem configsKept_twoMonths : ConfigsKept .empty twoMonths := by
  intro a ha b hb _
  have hread : ∀ a ∈ alertsRead .empty twoMonths,
      a.id = "a1" ∧ a.config = (alert monthly).config := by
    decide +kernel
  obtain ⟨hid, hconfig⟩ := hread a ha
  have hcurrent : ((AlertStore.read (runs .empty twoMonths).alerts "a1").toOption.map (·.config)) =
      some (alert monthly).config := by
    decide +kernel
  rw [hid] at hb
  rw [hb] at hcurrent
  exact hconfig.trans (Option.some.inj hcurrent).symm

def digest : Except Fault Compilation × State :=
  compileDigest (.quiet .standard may ∅) "acme" { runs .empty twoMonths with context := .fresh }

end Sample

open Sample in
/-- The digest of two months stamps both, and its body does not show them. -/
theorem two_months_not_shown : ∃ d, digest.1 = .ok d ∧ d.sections.map (·.stamped.length) = [2] ∧
    ∀ x ∈ d.sections, ¬x.body.Shows x.alert.config x.stamped := by
  have hfacts : (digest.1.toOption.map fun d => d.sections.map fun x =>
      (x.stamped.length, x.alert.config.breakdown?, x.alert.config.interval)) =
        some [(2, none, .month)] := by
    decide +kernel
  have hrun : compileDigest (.quiet .standard may ∅) "acme"
      { runs .empty twoMonths with context := .fresh } = (digest.1, digest.2) := rfl
  obtain ⟨⟨e, he⟩, -⟩ | ⟨d, hd, -, hshows⟩ :=
    shows_stamped_iff (fun _ => rfl) configsKept_twoMonths hrun
  · rw [he] at hfacts
    cases hfacts
  · rw [hd] at hfacts
    have hlist : d.sections.map (fun x =>
        (x.stamped.length, x.alert.config.breakdown?, x.alert.config.interval)) =
          [(2, none, .month)] := Option.some.inj hfacts
    refine ⟨d, hd, ?_, ?_⟩
    · have hlengths := congrArg (List.map Prod.fst) hlist
      rwa [List.map_map] at hlengths
    · intro x hx hshown
      have hfact := List.mem_map_of_mem (f := fun x : Section =>
        (x.stamped.length, x.alert.config.breakdown?, x.alert.config.interval)) hx
      rw [hlist, List.mem_singleton] at hfact
      obtain ⟨htwo, hrest⟩ := Prod.mk.inj hfact
      obtain ⟨hnone, hmonth⟩ := Prod.mk.inj hrest
      obtain hbreakdown | hday | hone := (hshows x hx).1 hshown
      · exact hbreakdown hnone
      · rw [hmonth] at hday
        cases hday
      · rw [htwo] at hone
        cases hone

open Sample in
/-- It is not true that a digest shows all that it stamps. -/
theorem not_forall_shown :
    ¬∀ (ts : List Step) (c : Collaborators) (customerId : String) (d : Compilation) (s' : State),
      ConfigsKept .empty ts →
      compileDigest c customerId { runs .empty ts with context := .fresh } = (.ok d, s') →
      ∀ x ∈ d.sections, x.body.Shows x.alert.config x.stamped := by
  intro h
  have hfacts : (digest.1.toOption.map fun d => d.sections.map fun x =>
      (x.body.values, x.stamped.length)) = some [(["$30.00"], 2)] := by
    decide +kernel
  cases hd : digest.1 with
  | error e =>
      rw [hd] at hfacts
      cases hfacts
  | ok d =>
      rw [hd] at hfacts
      have hlist : d.sections.map (fun x => (x.body.values, x.stamped.length)) =
        [(["$30.00"], 2)] := Option.some.inj hfacts
      cases hsections : d.sections with
      | nil =>
          rw [hsections] at hlist
          cases hlist
      | cons x xs =>
          rw [hsections] at hlist
          obtain ⟨hone, htwo⟩ := Prod.mk.inj (List.cons.inj hlist).1
          have hcount := (h twoMonths (.quiet .standard may ∅) "acme" d digest.2
            configsKept_twoMonths (Prod.ext hd rfl) x (hsections ▸ List.mem_cons_self)).count
          rw [hone, htwo] at hcount
          cases hcount

end Engine

end SpendAlerts

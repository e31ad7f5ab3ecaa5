import SpendAlerts.Proofs.Digest.Body
import SpendAlerts.Proofs.Engine.Posting

/-!
What a digest can do. It fails before anything is stamped, or it compiles sections, each
about one alert with pending notifications. A section has stamped some of those that
carry the current etag of its alert and shows these in its body. Documents of other
notifications stay as they are, and so do the etags of all alerts.
-/

namespace SpendAlerts

namespace Engine

open Run NotificationStore

variable {c : Collaborators} {s s' : State}

/-- Stamping never fails, and stamps those of the notifications that it gives. -/
theorem stampAll_cases {ns : List Notification} {r : Except Fault (List Notification)}
    (hd : Keyed s.notifications) (hns : Ready s.notifications ns)
    (h : stampAll c ns s = (r, s')) :
    ∃ stamped, r = .ok stamped ∧ s'.alerts = s.alerts ∧ s'.events = s.events ∧
      stamped.Sublist ns ∧ Stamps c.stampTime s.notifications stamped s'.notifications := by
  induction ns generalizing s s' r with
  | nil =>
      cases h
      exact ⟨[], rfl, rfl, rfl, .slnil, .nil _ _⟩
  | cons n ns ih =>
      obtain ⟨result, s₁, hmark, htail⟩ := bind_cases_of_ok attempt_cases h
      obtain ⟨ha₁, he₁, hcases⟩ := Collaborators.markSent_cases hd hmark
      have hfirst : (if result.isOk then [n] else []).Sublist [n] ∧
          Stamps c.stampTime s.notifications (if result.isOk then [n] else [])
            s₁.notifications := by
        obtain ⟨⟨e, rfl⟩, hsame⟩ | ⟨m, -, hdoc, -, rfl, hwrite⟩ := hcases
        · rw [hsame]
          exact ⟨List.nil_sublist _, .nil _ _⟩
        · rw [hns.stored n List.mem_cons_self] at hdoc
          have : n = m :=
            eq_of_encode_eq (hns.finite n List.mem_cons_self) (Option.some.inj hdoc)
          rw [hwrite, this]
          exact ⟨.refl _, .write⟩
      obtain ⟨hsub₁, hstamps₁⟩ := hfirst
      have hns' : Ready s.notifications ([n] ++ ns) := hns
      obtain ⟨others, s₂, ⟨ha, he, hsub, hstamps⟩, hreturn⟩ :=
        bind_cases_of_ok (ih (hstamps₁.keyed hd) (hns'.of_stamps hstamps₁ hsub₁)) htail
      obtain ⟨rfl, rfl⟩ := Prod.mk.inj hreturn
      refine ⟨(if result.isOk then [n] else []) ++ others, ?_, ha.trans ha₁, he.trans he₁,
        hsub₁.append hsub, hstamps₁.append hstamps ?_⟩
      · cases result.isOk with
        | true => rfl
        | false => rfl
      · intro m hm hothers
        exact hns'.disjoint m (hsub₁.subset hm) ((hsub.map _).subset hothers)

theorem sublist_stampAll {ns : List Notification} {r : Except Fault (List Notification)}
    (h : stampAll c ns s = (r, s')) : ∃ stamped, r = .ok stamped ∧ stamped.Sublist ns := by
  induction ns generalizing s s' r with
  | nil =>
      cases h
      exact ⟨[], rfl, .slnil⟩
  | cons n ns ih =>
      obtain ⟨result, s₁, -, htail⟩ := bind_cases_of_ok attempt_cases h
      obtain ⟨others, s₂, hsub, hreturn⟩ := bind_cases_of_ok ih htail
      cases hreturn
      refine ⟨_, rfl, ?_⟩
      cases result.isOk with
      | true => exact hsub.cons_cons n
      | false => exact hsub.cons n

/-- Compiling does nothing without a pending notification that has the current etag. It fails
before anything is stamped, or gives a section of those that are stamped if there are any. -/
theorem compileAlert_opens {a : Alert} {pending : List Notification}
    {r : Except Fault (Option Section)} (h : compileAlert c a pending s = (r, s')) :
    (s' = s ∧ (r = .ok none ∨ ∃ e, r = .error e)) ∨
      ∃ first others label stamped, pending.filter (·.etag = a.etag) = first :: others ∧
        breakdownLabel? a = .ok label ∧ stampAll c (first :: others) s = (.ok stamped, s') ∧
        (stamped = [] ∧ r = .ok none ∨ stamped ≠ [] ∧ r = .ok (some ⟨a, stamped,
          .ofNotifications a label (a.sentence c.settings.metricLabels) stamped,
          targets a first⟩)) := by
  rw [compileAlert] at h
  cases hcurrent : pending.filter (·.etag = a.etag) with
  | nil =>
      rw [hcurrent] at h
      cases h
      exact .inl ⟨rfl, .inl rfl⟩
  | cons first others =>
      rw [hcurrent] at h
      obtain ⟨e, hlabel, rfl⟩ | ⟨label, s₁, hlabel, hbody⟩ := bind_cases h
      · exact .inl ⟨(Prod.mk.inj hlabel).2.symm, .inr ⟨e, rfl⟩⟩
      obtain ⟨hname, rfl⟩ := Prod.mk.inj hlabel
      obtain ⟨e, hstamp, -⟩ | ⟨stamped, s₂, hstamp, hreturn⟩ := bind_cases hbody
      · obtain ⟨_, hok, -⟩ := sublist_stampAll hstamp
        cases hok
      refine .inr ⟨first, others, label, stamped, rfl, hname, ?_⟩
      simp only at hreturn
      split at hreturn
      next hempty =>
        cases hreturn
        exact ⟨hstamp, .inl ⟨Digest.Body.isEmpty_ofNotifications.1 hempty, rfl⟩⟩
      next hshown =>
        cases hreturn
        exact ⟨hstamp, .inr ⟨mt Digest.Body.isEmpty_ofNotifications.2 hshown, rfl⟩⟩

/-- The section about an alert with pending notifications: some with the current etag are
stamped, and the body shows these. -/
structure Compiles (a : Alert) (pending : List Notification) (sec : Section) : Prop where
  alert : sec.alert = a
  part : sec.stamped.Sublist pending
  nonempty : sec.stamped ≠ []
  etag : ∀ n ∈ sec.stamped, n.etag = a.etag
  body : ∃ label sentence, breakdownLabel? a = .ok label ∧
    sec.body = Digest.Body.ofNotifications a label sentence sec.stamped

/-- What the sections of some alerts have stamped, each at most one. -/
def stampedBy (sec : Option Section) : List Notification :=
  (sec.map (·.stamped)).getD []

theorem compileAlert_cases {a : Alert} {pending : List Notification}
    {r : Except Fault (Option Section)} (hd : Keyed s.notifications)
    (hp : Ready s.notifications pending) (h : compileAlert c a pending s = (r, s')) :
    s'.alerts = s.alerts ∧ s'.events = s.events ∧
      (((∃ e, r = .error e) ∧ s'.notifications = s.notifications) ∨
        ∃ sec, r = .ok sec ∧ Stamps c.stampTime s.notifications (stampedBy sec) s'.notifications ∧
          ∀ x, sec = some x → Compiles a pending x) := by
  obtain ⟨rfl, rfl | ⟨e, rfl⟩⟩ |
      ⟨first, others, label, stamped, hcurrent, hlabel, hstamp, hreturn⟩ := compileAlert_opens h
  · exact ⟨rfl, rfl, .inr ⟨none, rfl, .nil _ _, fun x hx => by cases hx⟩⟩
  · exact ⟨rfl, rfl, .inl ⟨⟨e, rfl⟩, rfl⟩⟩
  · have hsub : (first :: others).Sublist pending := hcurrent ▸ List.filter_sublist
    obtain ⟨_, hok, ha, he, hpart, hstamps⟩ := stampAll_cases hd (hp.sublist hsub) hstamp
    cases hok
    refine ⟨ha, he, .inr ?_⟩
    obtain ⟨rfl, rfl⟩ | ⟨hne, rfl⟩ := hreturn
    · exact ⟨none, rfl, hstamps, fun x hx => by cases hx⟩
    · refine ⟨_, rfl, hstamps, ?_⟩
      intro x hx
      cases hx
      refine ⟨rfl, hpart.trans hsub, hne, ?_, label, _, hlabel, rfl⟩
      intro n hn
      have hmem : n ∈ pending.filter (·.etag = a.etag) := hcurrent ▸ hpart.subset hn
      simpa using (List.mem_filter.1 hmem).2

/-- A section is compiled for the alert as it is read. There is none if reading or compiling
fails. -/
theorem sectionFor_opens {id : String} {pending : List Notification}
    {r : Except Fault (Option Section)} (h : sectionFor c id pending s = (r, s')) :
    ∃ sec, r = .ok sec ∧ (sec = none ∧ State.Same s s' ∨
      ∃ a s₁ compiled, AlertStore.read s.alerts id = .ok a ∧ State.Same s s₁ ∧
        compileAlert c a pending s₁ = (compiled, s') ∧ sec = compiled.toOption.join) := by
  obtain ⟨found, s₁, hget, hopen⟩ := bind_cases_of_ok attempt_cases h
  have hsame := (Quiet.onAlerts (AlertStore.reads_get id)).same hget
  cases found with
  | error e =>
      cases hopen
      exact ⟨none, rfl, .inl ⟨rfl, hsame⟩⟩
  | ok a =>
      have ha : AlertStore.read s.alerts id = .ok a :=
        AlertStore.read_of_get (onAlerts_cases hget).choose_spec.1
      obtain ⟨compiled, s₂, hrun, hreturn⟩ := bind_cases_of_ok attempt_cases hopen
      cases compiled with
      | error e =>
          cases hreturn
          exact ⟨none, rfl, .inr ⟨a, s₁, _, ha, hsame, hrun, rfl⟩⟩
      | ok sec =>
          cases hreturn
          exact ⟨sec, rfl, .inr ⟨a, s₁, _, ha, hsame, hrun, rfl⟩⟩

theorem sectionFor_cases {id : String} {pending : List Notification}
    {r : Except Fault (Option Section)} (hd : Keyed s.notifications)
    (hp : Ready s.notifications pending) (h : sectionFor c id pending s = (r, s')) :
    ∃ sec, r = .ok sec ∧ s'.alerts = s.alerts ∧ s'.events = s.events ∧
      Stamps c.stampTime s.notifications (stampedBy sec) s'.notifications ∧
      ∀ x, sec = some x →
        AlertStore.read s.alerts id = .ok x.alert ∧ Compiles x.alert pending x := by
  obtain ⟨_, rfl, ⟨rfl, hsame⟩ | ⟨a, s₁, compiled, ha, hsame, hrun, rfl⟩⟩ := sectionFor_opens h
  · exact ⟨none, rfl, hsame.alerts, hsame.events, hsame.notifications ▸ .nil _ _,
      fun x hx => by cases hx⟩
  · rw [← hsame.notifications] at hd hp
    obtain ⟨ha₂, he₂, ⟨⟨e, rfl⟩, hn₂⟩ | ⟨sec, rfl, hstamps, hsec⟩⟩ :=
      compileAlert_cases hd hp hrun
    · exact ⟨none, rfl, ha₂.trans hsame.alerts, he₂.trans hsame.events,
        hn₂.trans hsame.notifications ▸ .nil _ _, fun x hx => by cases hx⟩
    · rw [hsame.notifications] at hstamps
      refine ⟨sec, rfl, ha₂.trans hsame.alerts, he₂.trans hsame.events, hstamps, ?_⟩
      intro x hx
      have hcompiles := hsec x hx
      rw [hcompiles.alert]
      exact ⟨ha, hcompiles⟩

/-- What compiling the sections of groups does. -/
structure CompilesAll (c : Collaborators) (groups : List (String × List Notification))
    (s : State) (sections : List Section) (s' : State) : Prop where
  events : s'.events = s.events
  alerts : AlertStore.Keeps s.alerts s'.alerts
  retains : AlertStore.Retains s.alerts s'.alerts
  stamps : Stamps c.stampTime s.notifications (sections.flatMap (·.stamped)) s'.notifications
  sections : ∀ x ∈ sections, ∃ g ∈ groups,
    AlertStore.read s.alerts g.1 = .ok x.alert ∧ Compiles x.alert g.2 x

/-- A digest that stamps nothing. -/
theorem CompilesAll.of_quiet {groups : List (String × List Notification)}
    (hsame : State.Same s s') : CompilesAll c groups s [] s' where
  events := hsame.events
  alerts := hsame.alerts ▸ .refl _
  retains := hsame.alerts ▸ .refl _
  stamps := hsame.notifications ▸ .nil _ _
  sections := List.forall_mem_nil _

/-- Compiling the first group and then the others. -/
theorem CompilesAll.cons {g : String × List Notification}
    {groups : List (String × List Notification)} {sec : Option Section}
    {sections : List Section} {s₁ : State} (hp : Pending s.notifications (g :: groups))
    (halerts : AlertStore.Keeps s.alerts s₁.alerts)
    (hretains : AlertStore.Retains s.alerts s₁.alerts) (hevents : s₁.events = s.events)
    (hother : ∀ other, other ≠ g.1 →
      AlertStore.read s₁.alerts other = AlertStore.read s.alerts other)
    (hstamps : Stamps c.stampTime s.notifications (stampedBy sec) s₁.notifications)
    (hsec : ∀ x, sec = some x →
      AlertStore.read s.alerts g.1 = .ok x.alert ∧ Compiles x.alert g.2 x)
    (h : CompilesAll c groups s₁ sections s') :
    CompilesAll c (g :: groups) s (sec.toList ++ sections) s' where
  events := h.events.trans hevents
  alerts := halerts.trans h.alerts
  retains := hretains.trans h.retains
  stamps := by
    have hflat : (sec.toList ++ sections).flatMap (·.stamped) =
        stampedBy sec ++ sections.flatMap (·.stamped) := by
      cases sec with
      | none => rfl
      | some x => rfl
    rw [hflat]
    refine hstamps.append h.stamps ?_
    intro n hn hmem
    have hfirst : n ∈ g.2 := by
      cases sec with
      | none => cases hn
      | some x => exact (hsec x rfl).2.part.subset hn
    refine hp.ready.disjoint n hfirst ?_
    obtain ⟨m, hm, heq⟩ := List.mem_map.1 hmem
    obtain ⟨x, hx, hm⟩ := List.mem_flatMap.1 hm
    obtain ⟨g', hg, -, hcompiles⟩ := h.sections x hx
    exact heq ▸ List.mem_map_of_mem (List.mem_flatMap.2 ⟨g', hg, hcompiles.part.subset hm⟩)
  sections x hx := by
    cases List.mem_append.1 hx with
    | inl hx => exact ⟨g, List.mem_cons_self, hsec x (Option.mem_toList.1 hx)⟩
    | inr hx =>
        obtain ⟨g', hg, hread, hcompiles⟩ := h.sections x hx
        have hne : g'.1 ≠ g.1 := fun heq =>
          (List.nodup_cons.1 hp.ids).1 (List.mem_map.2 ⟨g', hg, heq⟩)
        rw [hother _ hne] at hread
        exact ⟨g', List.mem_cons_of_mem _ hg, hread, hcompiles⟩

/-- Compiling never fails. What it has stamped is what its sections show, alerts are read
as they were when it began, and none of their etags changes. -/
theorem compileAll_cases {groups : List (String × List Notification)}
    {r : Except Fault (List Section)} (hd : Keyed s.notifications)
    (hp : Pending s.notifications groups) (h : compileAll c groups s = (r, s')) :
    ∃ sections, r = .ok sections ∧ CompilesAll c groups s sections s' := by
  induction groups generalizing s s' r with
  | nil =>
      cases h
      exact ⟨[], rfl, .of_quiet (.refl _)⟩
  | cons g groups ih =>
      obtain ⟨cancelled, s₁, hsame, hopen⟩ := bind_cases_of_ok isCancelled_cases h
      cases cancelled with
      | true =>
          cases hopen
          exact ⟨[], rfl, .of_quiet hsame⟩
      | false =>
          have hd₁ : Keyed s₁.notifications := hsame.notifications ▸ hd
          have hready : Ready s₁.notifications g.2 :=
            hsame.notifications ▸ hp.ready.sublist (List.sublist_append_left _ _)
          obtain ⟨sec, s₂, ⟨ha, he, hstamps, hsec⟩, hrest⟩ :=
            bind_cases_of_ok (sectionFor_cases hd₁ hready) hopen
          rw [hsame.notifications] at hstamps
          rw [hsame.alerts] at ha hsec
          -- The groups share no key, so those that follow are as ready as before.
          have hkeyed := hstamps.keyed hd
          have hpart : (stampedBy sec).Sublist g.2 := by
            cases sec with
            | none => exact List.nil_sublist _
            | some x => exact (hsec x rfl).2.part
          have hpending := hp.tail hstamps hpart
          cases sec with
          | none =>
              obtain ⟨sections, rfl, hall⟩ := ih hkeyed hpending hrest
              exact ⟨sections, rfl, hall.cons hp (ha ▸ .refl _) (ha ▸ .refl _)
                (he.trans hsame.events) (fun _ _ => ha ▸ rfl) hstamps hsec⟩
          | some x =>
              obtain ⟨_, s₃, hnotify, htail⟩ := bind_cases_of_ok attempt_cases hrest
              obtain ⟨hn₃, he₃, hkeeps, hretains, hother⟩ :=
                Collaborators.updateNotified_cases hnotify
              rw [← hn₃] at hkeyed hpending hstamps
              rw [ha] at hkeeps hretains hother
              obtain ⟨sections, s₄, hall, hreturn⟩ :=
                bind_cases_of_ok (ih hkeyed hpending) htail
              cases hreturn
              exact ⟨x :: sections, rfl, hall.cons hp hkeeps hretains
                ((he₃.trans he).trans hsame.events) hother hstamps hsec⟩

theorem CompilesAll.of_same {groups : List (String × List Notification)}
    {sections : List Section} {s₁ : State} (hsame : State.Same s s₁)
    (h : CompilesAll c groups s₁ sections s') : CompilesAll c groups s sections s' where
  events := h.events.trans hsame.events
  alerts := hsame.alerts ▸ h.alerts
  retains := hsame.alerts ▸ h.retains
  stamps := hsame.notifications ▸ h.stamps
  sections := hsame.alerts ▸ h.sections

/-- A digest fails before it stamps anything, or compiles what is pending. -/
theorem compileDigest_cases {customerId : String} {r : Except Fault Compilation}
    (hd : Keyed s.notifications) (h : compileDigest c customerId s = (r, s')) :
    ((∃ e, r = .error e) ∧ State.Same s s') ∨
      ∃ groups d, r = .ok d ∧ Pending s.notifications groups ∧
        CompilesAll c groups s d.sections s' := by
  obtain ⟨e, hcheck, rfl⟩ | ⟨_, s₁, hcheck, hread⟩ := bind_cases h
  · exact .inl ⟨⟨e, rfl⟩, (Quiet.guarded _).same hcheck⟩
  have hsame := (Quiet.guarded _).same hcheck
  obtain ⟨e, hpending, rfl⟩ | ⟨t, s₂, hpending, hcompile⟩ := bind_cases hread
  · obtain ⟨session, hquery, hn, ha, he⟩ := onNotifications_cases hpending
    obtain ⟨hdocs, -⟩ := pendingFor_cases (hsame.notifications ▸ hd) hquery
    exact .inl ⟨⟨e, rfl⟩, hsame.trans ⟨ha, hn.trans hdocs, he⟩⟩
  obtain ⟨session, hquery, hn, ha, he⟩ := onNotifications_cases hpending
  obtain ⟨hdocs, ht⟩ := pendingFor_cases (hsame.notifications ▸ hd) hquery
  have hsame₂ : State.Same s s₂ := hsame.trans ⟨ha, hn.trans hdocs, he⟩
  have hp : Pending s.notifications t.entries := hsame.notifications ▸ ht t rfl
  have hd₂ : Keyed s₂.notifications := hsame₂.notifications ▸ hd
  have hp₂ : Pending s₂.notifications t.entries := hsame₂.notifications ▸ hp
  obtain ⟨sections, s₃, hcompiles, hreturn⟩ :=
    bind_cases_of_ok (compileAll_cases hd₂ hp₂) hcompile
  obtain ⟨rfl, rfl⟩ := Prod.mk.inj hreturn
  exact .inr ⟨t.entries, ⟨sections⟩, rfl, hp, hcompiles.of_same hsame₂⟩

/-- The sections of a digest, none without access. -/
def sectionsFor (c : Collaborators) (customerId : String) : Run (List Section) := do
  match ← c.checkAccess customerId with
  | .denied _ => return []
  | .granted => return (← compileDigest c customerId).sections

theorem sectionsFor_cases {customerId : String} {r : Except Fault (List Section)}
    (hd : Keyed s.notifications) (h : sectionsFor c customerId s = (r, s')) :
    ∃ groups, Pending s.notifications groups ∧
      CompilesAll c groups s (r.toOption.getD []) s' := by
  have hquiet : ∀ {q : Except Fault (List Section)}, q.toOption.getD [] = [] →
      State.Same s s' → ∃ groups, Pending s.notifications groups ∧
        CompilesAll c groups s (q.toOption.getD []) s' := by
    intro q hq hsame
    rw [hq]
    refine ⟨[], ⟨.nil, ⟨.nil, ?_, ?_⟩, ?_, ?_⟩, .of_quiet hsame⟩
    all_goals exact List.forall_mem_nil _
  obtain ⟨e, haccess, rfl⟩ | ⟨access, s₁, haccess, hopen⟩ := bind_cases h
  · exact hquiet rfl ((Collaborators.quiet_checkAccess c _).same haccess)
  have hsame := (Collaborators.quiet_checkAccess c _).same haccess
  cases access with
  | denied reason =>
      cases hopen
      exact hquiet rfl hsame
  | granted =>
      have hd₁ : Keyed s₁.notifications := hsame.notifications ▸ hd
      obtain ⟨e, hcompile, rfl⟩ | ⟨d, s₂, hcompile, hreturn⟩ := bind_cases hopen
      · obtain ⟨-, hsame₂⟩ | ⟨_, _, hr, -⟩ := compileDigest_cases hd₁ hcompile
        · exact hquiet rfl (hsame.trans hsame₂)
        · cases hr
      obtain ⟨rfl, rfl⟩ := Prod.mk.inj hreturn
      obtain ⟨⟨e, hr⟩, -⟩ | ⟨groups, _, hr, hp, hcompiles⟩ := compileDigest_cases hd₁ hcompile
      · cases hr
      cases hr
      exact ⟨groups, hsame.notifications ▸ hp, hcompiles.of_same hsame⟩

theorem quiet_sendAll (c : Collaborators) (customerId : String) (report : DigestReport)
    (messages : List (String × List Digest.Body)) :
    Quiet (sendAll c customerId report messages) := by
  intro s
  cases h : sendAll c customerId report messages s with
  | mk r s' =>
      obtain ⟨_, _, -, hposts⟩ := sendAll_cases h
      exact hposts.same

/-- A digest changes documents by its sections alone; sending is quiet. -/
theorem sendDigest_cases {customerId : String} {r : Except Fault DigestReport}
    (h : sendDigest c customerId s = (r, s')) :
    ∃ sections s₁, sectionsFor c customerId s = (sections, s₁) ∧ State.Same s₁ s' := by
  obtain ⟨e, haccess, -⟩ | ⟨access, s₁, haccess, hopen⟩ := bind_cases h
  · refine ⟨.error e, s', ?_, .refl _⟩
    rw [sectionsFor, bind_apply, haccess]
  cases access with
  | denied reason =>
      cases hopen
      refine ⟨.ok [], s', ?_, .refl _⟩
      rw [sectionsFor, bind_apply, haccess]
      rfl
  | granted =>
      obtain ⟨e, hcompile, -⟩ | ⟨d, s₂, hcompile, hsend⟩ := bind_cases hopen
      · refine ⟨.error e, s', ?_, .refl _⟩
        rw [sectionsFor, bind_apply, haccess]
        simp only
        rw [bind_apply, hcompile]
      · refine ⟨.ok d.sections, s₂, ?_, (quiet_sendAll c customerId _ _).same hsend⟩
        rw [sectionsFor, bind_apply, haccess]
        simp only
        rw [bind_apply, hcompile]
        rfl

end Engine

end SpendAlerts

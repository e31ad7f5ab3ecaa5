import SpendAlerts.Proofs.Engine.Effect
import SpendAlerts.Proofs.Engine.NotifiedOnce
import SpendAlerts.Proofs.Store.Independence

/-!
Batches run in any order. A refresh looks at the notifications of its alert and writes these
alone; a digest looks at what is pending for its customer, stamps that, and changes nothing of an
alert but the time of its last digest. So refreshes of different alerts, and digests of different
customers, have the same effect before and after each other, their effects commute, and by
exchanging neighbours a batch does the same in every order.
-/

namespace SpendAlerts

namespace Engine

open Run NotificationStore

variable {c : Collaborators} {s : State}

/-! ### Digests do not look at the times of alerts -/

def Section.timeless (x : Section) : Section := { x with alert := x.alert.timeless }

namespace Compilation

variable (sections : List Section)

theorem bodies_timeless : bodies ⟨sections.map Section.timeless⟩ = bodies ⟨sections⟩ := by
  rw [bodies, bodies, List.foldl_map]
  rfl

theorem alertsIncluded_timeless :
    alertsIncluded ⟨sections.map Section.timeless⟩ = alertsIncluded ⟨sections⟩ :=
  List.length_map _

theorem notificationsSent_timeless :
    notificationsSent ⟨sections.map Section.timeless⟩ = notificationsSent ⟨sections⟩ := by
  rw [notificationsSent, notificationsSent, List.map_map]
  rfl

end Compilation

theorem sectionOf_timeless (a : Alert) (pending : List Notification) :
    sectionOf c a.timeless pending = (sectionOf c a pending).map Section.timeless := by
  have hlabel : breakdownLabel? a.timeless = breakdownLabel? a := rfl
  have hetag : a.timeless.etag = a.etag := rfl
  have hchosen : chosen c a.timeless pending = chosen c a pending := rfl
  rw [sectionOf, sectionOf, hlabel, hetag, hchosen]
  cases breakdownLabel? a with
  | error e => rfl
  | ok label =>
      cases pending.filter (·.etag = a.etag) with
      | nil => rfl
      | cons first others =>
          simp only
          split
          · rfl
          · rfl

theorem sectionIn_timeless (alerts : Documents) (g : String × List Notification) :
    (sectionIn c alerts g).map Section.timeless =
      ((AlertStore.read alerts g.1).map Alert.timeless).toOption.bind fun a =>
        sectionOf c a g.2 := by
  rw [sectionIn]
  cases AlertStore.read alerts g.1 with
  | error e => rfl
  | ok a => exact (sectionOf_timeless a g.2).symm

theorem eligible_timeless (alerts : Documents) (g : String × List Notification) :
    eligible c alerts g = match (AlertStore.read alerts g.1).map Alert.timeless with
      | .error _ => []
      | .ok a => chosen c a g.2 := by
  rw [eligible]
  cases AlertStore.read alerts g.1 with
  | error e => rfl
  | ok a => rfl

variable {alerts alerts' d d' : Documents} {customerId : String}
  {groups : List (String × List Notification)}

theorem compiledEffect_congr (h : AlertStore.Alike alerts alerts') :
    compiledEffect c customerId alerts groups = compiledEffect c customerId alerts' groups := by
  have hsections : (sectionsOf c alerts groups).map Section.timeless =
      (sectionsOf c alerts' groups).map Section.timeless := by
    rw [sectionsOf, sectionsOf, List.map_filterMap, List.map_filterMap]
    refine List.filterMap_congr fun g _ => ?_
    rw [sectionIn_timeless, sectionIn_timeless, h g.1]
  have heligible : eligible c alerts = eligible c alerts' := by
    funext g
    rw [eligible_timeless, eligible_timeless, h g.1]
  rw [compiledEffect, compiledEffect, included, included, heligible,
    ← Compilation.bodies_timeless, ← Compilation.alertsIncluded_timeless,
    ← Compilation.notificationsSent_timeless, hsections, Compilation.bodies_timeless,
    Compilation.alertsIncluded_timeless, Compilation.notificationsSent_timeless]

/-! ### Refreshes look at the notifications of their alert -/

theorem verdict_congr (hd : Keyed d) (hd' : Keyed d') {id : String}
    (h : ∀ n : Notification, n.alertId = id → document? d n.key = document? d' n.key) :
    verdict c alerts d id = verdict c alerts d' id := by
  rw [verdict, verdict]
  cases hread : AlertStore.read alerts id with
  | error e => rfl
  | ok a =>
      have hrequest : QueryRequest.ofDocuments c.settings.breakdownLimit a c.now d =
          QueryRequest.ofDocuments c.settings.breakdownLimit a c.now d' :=
        QueryRequest.ofDocuments_congr hd hd' ((AlertStore.read_eq_ok hread).1 ▸ h)
      simp only [ok_bind, evaluated, hrequest]

theorem alertId_of_verdict {id : String} {a : Alert} {ns : List Notification}
    (h : verdict c alerts d id = .ok (.detected a ns)) (labels : Table String) :
    ∀ n ∈ ns.map (nameFor a labels), n.alertId = id := by
  obtain ⟨request, result, hdetections⟩ := detections_of_verdict
    (s := { State.empty with alerts := alerts, notifications := d }) h
  refine List.forall_mem_map.2 fun n hn => ?_
  exact (mem_evaluate hdetections.evaluated hn).1.alertId.trans
    (AlertStore.read_eq_ok hdetections.alert).1

theorem refreshEffect_congr (hd : Keyed d) (hd' : Keyed d') {id : String}
    (h : ∀ n : Notification, n.alertId = id → document? d n.key = document? d' n.key) :
    refreshEffect c id d (verdict c alerts d id) =
      refreshEffect c id d' (verdict c alerts d' id) := by
  rw [← verdict_congr hd hd' h]
  cases hverdict : verdict c alerts d id with
  | error e => rfl
  | ok v =>
      cases v with
      | skipped why => rfl
      | detected a ns =>
          have hids := alertId_of_verdict hverdict c.settings.metricLabels
          rw [refreshEffect, refreshEffect, reported, reported,
            recording_congr fun n hn => h n (hids n hn)]

/-! ### What a task writes and posts -/

/-- The task may write the notification: it is of its alert, or it is of its customer and over
another of that customer. -/
def Owns (d : Documents) (t : Task) (n : Notification) : Prop :=
  match t with
  | .refresh id => n.alertId = id
  | .digest customerId => n.customerId = customerId ∧
      ∃ m : Notification, document? d n.key = some m.encode ∧ m.customerId = customerId

theorem quiet_or_compiled (c : Collaborators) (customerId : String) (alerts d : Documents) :
    (∃ r, digestEffect c customerId alerts d = .quiet r) ∨
      ∃ ns, pendingOf d customerId = .ok ns ∧
        digestEffect c customerId alerts d =
          compiledEffect c customerId alerts (byAlert ns).entries := by
  rw [digestEffect]
  split
  · exact .inl ⟨_, rfl⟩
  · exact .inl ⟨_, rfl⟩
  · split
    · exact .inl ⟨_, rfl⟩
    · next ns hns => exact .inr ⟨ns, hns, rfl⟩

theorem refreshEffect_fields (c : Collaborators) (id : String) (d : Documents)
    (v : Except Fault Verdict) :
    (refreshEffect c id d v).remembered = [] ∧ (refreshEffect c id d v).posted = [] := by
  cases v with
  | error e => exact ⟨rfl, rfl⟩
  | ok v =>
      cases v with
      | skipped why => exact ⟨rfl, rfl⟩
      | detected a ns => exact ⟨rfl, rfl⟩

variable {x y : Stores} {t u : Task}

theorem owns_of_written (hd : Keyed x.notifications) {n : Notification}
    (hn : n ∈ (effect c x t).written) : Owns x.notifications t n := by
  cases t with
  | refresh id =>
      change n ∈ (refreshEffect c id x.notifications
        (verdict c x.alerts x.notifications id)).written at hn
      cases hverdict : verdict c x.alerts x.notifications id with
      | error e =>
          rw [hverdict] at hn
          cases hn
      | ok v =>
          rw [hverdict] at hn
          cases v with
          | skipped why => cases hn
          | detected a ns => exact alertId_of_verdict hverdict _ n (sublist_recording.subset hn)
  | digest customerId =>
      change n ∈ (digestEffect c customerId x.alerts x.notifications).written at hn
      obtain ⟨r, hquiet⟩ | ⟨ns, hns, hcompiled⟩ :=
        quiet_or_compiled c customerId x.alerts x.notifications
      · rw [hquiet] at hn
        cases hn
      · rw [hcompiled] at hn
        obtain ⟨m, hm, rfl⟩ := List.mem_map.1 hn
        obtain ⟨g, hg, hm⟩ := List.mem_flatMap.1 hm
        have hgroup := (sublist_eligible x.alerts g).subset hm
        rw [eq_of_mem_entries_byAlert hg] at hgroup
        obtain ⟨hstored, hcustomer, -⟩ :=
          (mem_pendingOf hd hns).1 (List.mem_of_mem_filter hgroup)
        exact ⟨hcustomer, m, hstored, hcustomer⟩

/-- Only digests post messages, and those of their customer. -/
theorem eq_digest_of_posted {e : Delivery Digest.Email} (he : e ∈ (effect c x t).posted) :
    t = .digest e.content.customerId := by
  cases t with
  | refresh id =>
      change e ∈ (refreshEffect c id x.notifications
        (verdict c x.alerts x.notifications id)).posted at he
      rw [(refreshEffect_fields _ _ _ _).2] at he
      cases he
  | digest customerId =>
      change e ∈ (digestEffect c customerId x.alerts x.notifications).posted at he
      obtain ⟨r, hquiet⟩ | ⟨ns, -, hcompiled⟩ :=
        quiet_or_compiled c customerId x.alerts x.notifications
      · rw [hquiet] at he
        cases he
      · rw [hcompiled] at he
        obtain ⟨message, -, rfl⟩ := List.mem_map.1 he
        rfl

/-! ### Independent tasks -/

/-- Refreshes of different alerts with plain ids, or digests of different customers. -/
inductive Independent : Task → Task → Prop where
  | refreshes {id other : String} (plain : '_' ∉ id.toList) (plain' : '_' ∉ other.toList)
      (different : id ≠ other) : Independent (.refresh id) (.refresh other)
  | digests {customerId other : String} (different : customerId ≠ other) :
      Independent (.digest customerId) (.digest other)

namespace Independent

theorem symm (h : Independent t u) : Independent u t := by
  cases h with
  | refreshes plain plain' different => exact .refreshes plain' plain different.symm
  | digests different => exact .digests different.symm

theorem key_ne (h : Independent t u) {n m : Notification} (hn : Owns d t n) (hm : Owns d u m) :
    n.key ≠ m.key := by
  intro hkey
  cases h with
  | refreshes plain plain' different =>
      change n.alertId = _ at hn
      change m.alertId = _ at hm
      exact different (hn ▸ hm ▸ Notification.alertId_of_key (hn ▸ plain) (hm ▸ plain') hkey)
  | digests different =>
      obtain ⟨-, x, hx, hxc⟩ := hn
      obtain ⟨-, y, hy, hyc⟩ := hm
      rw [hkey, hy, Option.some.injEq] at hx
      exact different (hxc ▸ hyc ▸ (Notification.customerId_of_encode_eq hx).symm)

theorem customer_ne (h : Independent t u) {customerId : String} (ht : t = .digest customerId) :
    u ≠ .digest customerId := by
  cases h with
  | refreshes plain plain' different => nofun
  | digests different =>
      rintro ⟨⟩
      cases ht
      exact different rfl

end Independent

/-- Notifications are under their own keys, and alerts can be written again. -/
structure Coherent (x : Stores) : Prop where
  keyed : Keyed x.notifications
  rewritable : AlertStore.Rewritable x.alerts

/-- The stores after a task. -/
def Stores.after (c : Collaborators) (x : Stores) (t : Task) : Stores :=
  (effect c x t).on c.digestTime x

theorem Coherent.after (h : Coherent x) (c : Collaborators) (t : Task) :
    Coherent (x.after c t) where
  keyed := h.keyed.writeEach _
  rewritable := h.rewritable.of_retains AlertStore.retains_rememberEach

/-- A task has the same effect before and after a task that is independent of it. -/
theorem effect_after (h : Independent t u) (hx : Coherent x) :
    effect c (x.after c t) u = effect c x u := by
  have howns : ∀ n ∈ (effect c x t).written, Owns x.notifications t n :=
    fun n hn => owns_of_written hx.keyed hn
  cases h with
  | @refreshes id other plain plain' different =>
      -- A refresh remembers nothing, and its writes miss every key that the other one reads.
      have halerts : (x.after c (.refresh id)).alerts = x.alerts := by
        change AlertStore.rememberEach c.digestTime x.alerts (refreshEffect c id x.notifications
          (verdict c x.alerts x.notifications id)).remembered = x.alerts
        rw [(refreshEffect_fields _ _ _ _).1]
        rfl
      have hview : ∀ n : Notification, n.alertId = other →
          document? (x.after c (.refresh id)).notifications n.key =
            document? x.notifications n.key := by
        intro n hn
        refine document?_writeEach_of_ne fun m hm => ?_
        have hdistinct : Independent (.refresh id) (.refresh other) :=
          .refreshes plain plain' different
        exact hdistinct.key_ne (d := x.notifications) (howns m hm) hn
      rw [effect, effect, halerts, refreshEffect_congr (hx.after c _).keyed hx.keyed hview]
  | @digests customerId other different =>
      -- The alerts do change here, in their stamps alone, which a compiled digest does not show.
      have halike : AlertStore.Alike (x.after c (.digest customerId)).alerts x.alerts :=
        hx.rewritable.alike_rememberEach
      have hpending : pendingOf (x.after c (.digest customerId)).notifications other =
          pendingOf x.notifications other := by
        refine pendingOf_writeEach hx.keyed ?_ ?_
        · intro n hn
          exact (howns n hn).1 ▸ different
        · intro n hn m hm
          obtain ⟨-, m', hm', hcustomer⟩ := howns n hn
          rw [hm, Option.some.injEq] at hm'
          rw [Notification.customerId_of_encode_eq hm', hcustomer]
          exact different
      rw [effect, effect, digestEffect, digestEffect, hpending]
      simp only [compiledEffect_congr halike]

/-- The same documents, and for each customer the same messages in the same order. -/
structure Stores.Agree (x y : Stores) : Prop where
  alerts : x.alerts = y.alerts
  notifications : x.notifications = y.notifications
  emails : ∀ customerId, x.emails.filter (·.content.customerId = customerId) =
    y.emails.filter (·.content.customerId = customerId)

namespace Stores.Agree

theorem refl (x : Stores) : Agree x x := ⟨rfl, rfl, fun _ => rfl⟩

theorem trans {z : Stores} (h : Agree x y) (h' : Agree y z) : Agree x z :=
  ⟨h.alerts.trans h'.alerts, h.notifications.trans h'.notifications,
    fun customerId => (h.emails customerId).trans (h'.emails customerId)⟩

theorem effect_eq (h : Agree x y) (t : Task) : effect c x t = effect c y t := by
  cases t with
  | refresh id => rw [effect, effect, h.alerts, h.notifications]
  | digest customerId => rw [effect, effect, h.alerts, h.notifications]

theorem after (h : Agree x y) (c : Collaborators) (t : Task) :
    Agree (x.after c t) (y.after c t) := by
  rw [Stores.after, Stores.after, h.effect_eq t]
  refine ⟨?_, ?_, ?_⟩
  · exact congrArg (AlertStore.rememberEach c.digestTime · _) h.alerts
  · exact congrArg (writeEach · _) h.notifications
  · intro customerId
    simp only [Effect.on, List.filter_append, h.emails]

end Stores.Agree

/-- Independent tasks do the same in both orders. -/
theorem Independent.agree_after (h : Independent t u) (hx : Coherent x) :
    Stores.Agree ((x.after c t).after c u) ((x.after c u).after c t) := by
  have hfirst : (x.after c t).after c u = (effect c x u).on c.digestTime (x.after c t) :=
    congrArg (Effect.on c.digestTime · _) (effect_after h hx)
  have hsecond : (x.after c u).after c t = (effect c x t).on c.digestTime (x.after c u) :=
    congrArg (Effect.on c.digestTime · _) (effect_after h.symm hx)
  rw [hfirst, hsecond]
  refine ⟨AlertStore.rememberEach_comm, ?_, ?_⟩
  · exact writeEach_comm fun n hn m hm =>
      h.key_ne (owns_of_written hx.keyed hn) (owns_of_written hx.keyed hm)
  · intro customerId
    have hnone : ∀ t : Task, t ≠ .digest customerId →
        (effect c x t).posted.filter (·.content.customerId = customerId) = [] := by
      intro t ht
      refine List.filter_eq_nil_iff.2 fun e he hcustomer => ht ?_
      rw [← of_decide_eq_true hcustomer]
      exact eq_digest_of_posted he
    simp only [Effect.on, Stores.after, List.filter_append, List.append_assoc]
    by_cases ht : t = .digest customerId
    · rw [hnone u (h.customer_ne ht), List.append_nil, List.nil_append]
    · rw [hnone t ht, List.append_nil, List.nil_append]

/-- The outcomes of tasks one after the other, and the stores they leave. -/
def perform (c : Collaborators) :
    List Task → Stores → List (Task × Except Fault Outcome) × Stores
  | [], x => ([], x)
  | t :: ts, x =>
      let (results, y) := perform c ts (x.after c t)
      ((t, (effect c x t).outcome) :: results, y)

theorem perform_agree (ts : List Task) (h : Stores.Agree x y) :
    (perform c ts x).1 = (perform c ts y).1 ∧
      Stores.Agree (perform c ts x).2 (perform c ts y).2 := by
  induction ts generalizing x y with
  | nil => exact ⟨rfl, h⟩
  | cons t ts ih =>
      obtain ⟨hresults, hstores⟩ := ih (h.after c t)
      exact ⟨congrArg₂ (fun e results => (t, Effect.outcome e) :: results)
        (h.effect_eq t) hresults, hstores⟩

/-- Pairwise independent tasks do the same in every order, by exchanging neighbours. -/
theorem perform_perm {ts us : List Task} (h : ts.Perm us) (hts : ts.Pairwise Independent)
    (hx : Coherent x) : (perform c ts x).1.Perm (perform c us x).1 ∧
      Stores.Agree (perform c ts x).2 (perform c us x).2 := by
  induction h generalizing x with
  | nil => exact ⟨.refl _, .refl _⟩
  | cons t _ ih =>
      obtain ⟨hresults, hstores⟩ := ih (List.pairwise_cons.1 hts).2 (hx.after c t)
      exact ⟨hresults.cons _, hstores⟩
  | swap t u ts =>
      -- Neither task reads what the other writes, so the first two results only change places,
      -- and the tail starts from stores that agree.
      have hindependent : Independent u t := (List.pairwise_cons.1 hts).1 t List.mem_cons_self
      obtain ⟨hresults, hstores⟩ := perform_agree ts (hindependent.agree_after (c := c) hx)
      refine ⟨?_, hstores⟩
      change List.Perm (_ :: (t, (effect c (x.after c u) t).outcome) :: _)
        (_ :: (u, (effect c (x.after c t) u).outcome) :: _)
      rw [effect_after hindependent hx, effect_after hindependent.symm hx, hresults]
      exact .swap _ _ _
  | trans hfirst _ ih ih' =>
      obtain ⟨hresults, hstores⟩ := ih hts hx
      obtain ⟨hresults', hstores'⟩ :=
        ih' (hfirst.pairwise hts fun h => h.symm) hx
      exact ⟨hresults.trans hresults', hstores.trans hstores'⟩

/-! ### Batches -/

theorem Undisturbed.child (h : Undisturbed c s) :
    Undisturbed c { s with context := s.context.child } := by
  refine ⟨?_, h.moments⟩
  exact List.forall_mem_cons.2 ⟨rfl, h.context⟩

/-- A task in a child context does what its effect says, and the context stays as it is. -/
theorem runInChild_effect (hd : Keyed s.notifications) (h : Undisturbed c s) (t : Task) :
    (runInChild c t s).1 = (effect c s.stores t).outcome ∧
      (runInChild c t s).2.context = s.context ∧
      (runInChild c t s).2.stores = s.stores.after c t := by
  obtain ⟨houtcome, hcontext, hstores⟩ := effect_describes
    (s := { s with context := s.context.child }) hd h.child t
  refine ⟨houtcome, ?_, hstores⟩
  change ((runTask c t { s with context := s.context.child }).2.context).parent = s.context
  rw [hcontext]
  rfl

theorem runBatch_perform (ts : List Task) (hd : Keyed s.notifications) (h : Undisturbed c s) :
    (runBatch c ts s).1 = (perform c ts s.stores).1 ∧
      (runBatch c ts s).2.stores = (perform c ts s.stores).2 := by
  induction ts generalizing s with
  | nil => exact ⟨rfl, rfl⟩
  | cons t ts ih =>
      obtain ⟨houtcome, hcontext, hstores⟩ := runInChild_effect hd h t
      have hkeyed : Keyed (runInChild c t s).2.notifications := by
        change Keyed (runInChild c t s).2.stores.notifications
        rw [hstores]
        exact hd.writeEach _
      obtain ⟨hresults, hrest⟩ := ih hkeyed (h.of_context hcontext)
      rw [hstores] at hresults hrest
      refine ⟨?_, hrest⟩
      change (t, (runInChild c t s).1) :: (runBatch c ts (runInChild c t s).2).1 = _
      rw [houtcome, hresults]
      rfl

theorem rewritable_runs (hd : Keyed s.notifications) (h : AlertStore.Rewritable s.alerts)
    (ts : List Step) : AlertStore.Rewritable (runs s ts).alerts := by
  induction ts generalizing s with
  | nil => exact h
  | cons t ts ih =>
      refine ih (Step.keyed_after hd) ?_
      cases hcall : t.call with
      | refresh id => exact (Step.refresh_cases (s := s) hcall).1 ▸ h
      | digest customerId =>
          obtain ⟨groups, sections, -, -, hcompiles⟩ := Step.digest_cases hcall hd
          exact h.of_retains hcompiles.retains
      | put a =>
          obtain ⟨-, -, ⟨-, hsame⟩ | ⟨-, hput⟩⟩ := Step.put_cases (s := s) hcall
          · exact hsame ▸ h
          · exact hput ▸ h.put a

/-- Two runs of a batch have the same outcome of each task, leave the same documents, and have
handed over the same messages for each customer. -/
structure SameWork (x y : List (Task × Except Fault Outcome) × State) : Prop where
  outcomes : x.1.Perm y.1
  alerts : x.2.alerts = y.2.alerts
  notifications : x.2.notifications = y.2.notifications
  emails : ∀ customerId, x.2.emails.filter (·.content.customerId = customerId) =
    y.2.emails.filter (·.content.customerId = customerId)

theorem sameWork_of_independent {ts us : List Task} (hd : Keyed s.notifications)
    (halerts : AlertStore.Rewritable s.alerts) (h : Undisturbed c s) (hp : ts.Perm us)
    (hts : ts.Pairwise Independent) : SameWork (runBatch c ts s) (runBatch c us s) := by
  obtain ⟨hresults, hstores⟩ := runBatch_perform ts hd h
  obtain ⟨hresults', hstores'⟩ := runBatch_perform us hd h
  obtain ⟨houtcomes, hagree⟩ := perform_perm (c := c) hp hts (x := s.stores) ⟨hd, halerts⟩
  rw [← hresults, ← hresults'] at houtcomes
  rw [← hstores, ← hstores'] at hagree
  exact ⟨houtcomes, hagree.alerts, hagree.notifications, hagree.emails⟩

/-- After every history that begins without notifications, batches that nobody cancels can run
in any order: refreshes of different alerts with plain ids, and digests of different customers. -/
theorem runBatch_perm {ts : List Step} {context : Context}
    (hempty : ∀ k, document? s.notifications k = none)
    (hjson : ∀ id doc, s.alerts.find? AlertStore.collectionName id = some doc → doc.IsJson)
    (hcontext : context.Uncancelled) (hmoments : ∀ m, c.interrupts m = false) :
    (∀ ids ids' : List String, ids.Nodup → (∀ id ∈ ids, '_' ∉ id.toList) → ids.Perm ids' →
      SameWork (runBatch c (ids.map .refresh) { runs s ts with context })
        (runBatch c (ids'.map .refresh) { runs s ts with context })) ∧
    ∀ customers customers' : List String, customers.Nodup → customers.Perm customers' →
      SameWork (runBatch c (customers.map .digest) { runs s ts with context })
        (runBatch c (customers'.map .digest) { runs s ts with context }) := by
  have hd : Keyed (runs s ts).notifications := keyed_runs (keyed_of_empty hempty) ts
  have halerts := rewritable_runs (keyed_of_empty hempty)
    (AlertStore.rewritable_of_isJson hjson) ts
  have h : Undisturbed c { runs s ts with context } := ⟨hcontext, hmoments⟩
  constructor
  · intro ids ids' hids hplain hperm
    refine sameWork_of_independent hd halerts h (hperm.map _) (List.pairwise_map.2 ?_)
    exact hids.imp_of_mem fun hid hother hne => .refreshes (hplain _ hid) (hplain _ hother) hne
  · intro customers customers' hcustomers hperm
    refine sameWork_of_independent hd halerts h (hperm.map _) (List.pairwise_map.2 ?_)
    exact hcustomers.imp fun hne => .digests hne

namespace Sample

def aprilSpend : QueryResult := ⟨[[.int 2024, .int 4, .float 25.0]], []⟩

def maySpend : QueryResult := ⟨[[.int 2024, .int 5, .float 30.0]], []⟩

/-- One alert has detections for two customers, and another alert has none yet. -/
def handedOver : List Step :=
  [step april aprilSpend (.put (alert monthly)), step april aprilSpend (.refresh "a1"),
    step may maySpend (.put { alert monthly with customerId := "beta" }),
    step may maySpend (.refresh "a1"), onSecond (.put second)]

def spending : Collaborators :=
  .quiet .standard may (Table.ofList [("a1", maySpend), ("b1", maySpend)])

end Sample

open Sample in
/-- Two refreshes that add a detection each, and two digests that share an alert. -/
theorem runBatch_perm_two :
    (runBatch spending [.refresh "a1", .refresh "b1"] (ready handedOver)).1.map
        (·.2.toOption) = [some (.refreshed ⟨"a1", none, 1, 1, 1, 0⟩),
          some (.refreshed ⟨"b1", none, 1, 1, 1, 0⟩)] ∧
      SameWork (runBatch spending [.refresh "a1", .refresh "b1"] (ready handedOver))
        (runBatch spending [.refresh "b1", .refresh "a1"] (ready handedOver)) ∧
      (runBatch spending [.digest "acme", .digest "beta"] (ready handedOver)).1.map
        (·.2.toOption) = [some (.digested ⟨1, 1, 1, 0, 0⟩),
          some (.digested ⟨1, 1, 1, 0, 0⟩)] ∧
      SameWork (runBatch spending [.digest "acme", .digest "beta"] (ready handedOver))
        (runBatch spending [.digest "beta", .digest "acme"] (ready handedOver)) :=
  have h := @runBatch_perm spending .empty handedOver .fresh (fun _ => rfl)
    (fun _ _ hdoc => nomatch hdoc) Context.uncancelled_fresh (fun _ => rfl)
  ⟨by decide +kernel, h.1 ["a1", "b1"] ["b1", "a1"] (by decide) (by decide) (.swap _ _ _),
    by decide +kernel, h.2 ["acme", "beta"] ["beta", "acme"] (by decide) (.swap _ _ _)⟩

end Engine

end SpendAlerts

import SpendAlerts.Proofs.Engine.Budget
import SpendAlerts.Proofs.Engine.NotifiedOnce
import SpendAlerts.Proofs.Engine.Sections

/-!
Who gets the bodies of a digest. An address gets a copy of the body of an alert whenever it is
among the targets of the alert, in the order of the alerts, and the last of its copies is
marked. The targets are the recipients of one notification, the first of those that are
pending with the current etag. Recipients of the others, which the same digest stamps,
get nothing if the alert has been given other recipients without a new etag.
-/

namespace SpendAlerts

/-- The body without its mark. -/
def Digest.Body.unmarked (b : Body) : Body := { b with isLast := false }

theorem Digest.Body.unmarked_eq {b : Body} (h : b.isLast = false) : b.unmarked = b := by
  cases b
  cases h
  rfl

namespace Engine

open NotificationStore Run

theorem markLast_append (bs : List Digest.Body) (b : Digest.Body) :
    markLast (bs ++ [b]) = bs ++ [{ b with isLast := true }] := by
  induction bs with
  | nil => rfl
  | cons first others ih =>
      cases others with
      | nil => rfl
      | cons second others =>
          simp only [List.cons_append] at ih ⊢
          rw [markLast, ih]
          simp

/-- The last of some bodies is marked, and no other. -/
def MarkedLast (bodies : List Digest.Body) : Prop :=
  ∃ init last, bodies = init ++ [last] ∧ last.isLast = true ∧ ∀ b ∈ init, b.isLast = false

theorem markedLast_markLast {bs : List Digest.Body} (hne : bs ≠ [])
    (h : ∀ b ∈ bs, b.isLast = false) : MarkedLast (markLast bs) := by
  induction bs using List.reverseRecOn with
  | nil => exact absurd rfl hne
  | append_singleton init last _ =>
      rw [markLast_append]
      exact ⟨init, _, rfl, rfl, fun b hb => h b (List.mem_append_left _ hb)⟩

theorem map_unmarked_markLast (bs : List Digest.Body) :
    (markLast bs).map (·.unmarked) = bs.map (·.unmarked) := by
  induction bs using List.reverseRecOn with
  | nil => rfl
  | append_singleton init last _ =>
      rw [markLast_append, List.map_append, List.map_append]
      rfl

namespace Compilation

/-- The copies that an address gets: one for each time that it stands among the recipients. -/
def copies (d : Compilation) (address : String) : List Digest.Body :=
  d.sections.flatMap fun x => List.replicate (x.recipients.count address) x.body

theorem mem_copies {d : Compilation} {address : String} {b : Digest.Body} :
    b ∈ d.copies address ↔ ∃ x ∈ d.sections, address ∈ x.recipients ∧ x.body = b := by
  simp only [copies, List.mem_flatMap, List.mem_replicate, ne_eq, List.count_eq_zero,
    Decidable.not_not, eq_comm]

theorem length_copies (d : Compilation) (address : String) : (d.copies address).length =
    ((d.sections.map (·.recipients)).map (·.count address)).sum := by
  simp [copies, List.length_flatMap, Function.comp_def]

/-- An address is found if it gets a copy, and then with its copies. -/
theorem find?_bodies (d : Compilation) (address : String) : d.bodies.find? address =
    if d.copies address = [] then none else some (markLast (d.copies address)) := by
  have hfold : d.sections.foldl addSection ∅ =
      (d.sections.flatMap fun x => x.recipients.map fun r => (r, x.body)).foldl
        (fun t copy => t.push copy.1 copy.2) ∅ := by
    simp only [List.foldl_flatMap, List.foldl_map]
    rfl
  have hcopies : ((d.sections.flatMap fun x => x.recipients.map fun r => (r, x.body)).filter
      (·.1 = address)).map Prod.snd = d.copies address := by
    rw [copies, List.filter_flatMap, List.map_flatMap]
    congr 1
    funext x
    rw [List.filter_map, List.map_map, List.count, List.countP_eq_length_filter]
    exact List.map_const'
  rw [bodies, Table.find?_map, hfold, Table.find?_foldl_push_empty, ← hcopies]
  simp only [List.map_eq_nil_iff]
  split
  · rfl
  · rfl

/-- The bodies of a compilation go to the targets of its alerts. -/
structure Addresses (alerts : Documents) (ns : List Notification) (d : Compilation) : Prop where
  ordered : (d.sections.map (·.alert.id)).Pairwise (· < ·)
  targets : ∀ x ∈ d.sections, AlertStore.read alerts x.alert.id = .ok x.alert ∧
    ∃ first, ns.find? (fun n => n.alertId = x.alert.id ∧ n.etag = x.alert.etag) = some first ∧
      x.recipients = if first.recipients = [] then x.alert.recipients else first.recipients
  addressed : ∀ address, d.bodies.find? address ≠ none ↔
    ∃ x ∈ d.sections, address ∈ x.recipients
  bodies : ∀ address bodies, d.bodies.find? address = some bodies →
    bodies.map (·.unmarked) = d.copies address ∧ MarkedLast bodies

theorem addressed_iff (d : Compilation) (address : String) : d.bodies.find? address ≠ none ↔
    ∃ x ∈ d.sections, address ∈ x.recipients := by
  have hcopies : d.copies address ≠ [] ↔ ∃ x ∈ d.sections, address ∈ x.recipients := by
    simp [copies, List.flatMap_eq_nil_iff, List.count_eq_zero]
  rw [find?_bodies, ← hcopies]
  split
  · next hnone => simp [hnone]
  · next hne => simp [hne]

variable {c : Collaborators} {alerts : Documents} {ns : List Notification} {d : Compilation}

theorem Covers.unmarked (h : d.Covers c alerts ns) (address : String) :
    ∀ b ∈ d.copies address, b.isLast = false := by
  intro b hb
  obtain ⟨x, hx, -, rfl⟩ := mem_copies.1 hb
  obtain ⟨label, -, hbody⟩ := (h.about x hx).body
  rw [hbody]
  rfl

theorem Covers.addresses (h : d.Covers c alerts ns) : d.Addresses alerts ns where
  ordered := h.ordered
  targets x hx := by
    obtain ⟨first, hfirst, hrecipients⟩ := (h.about x hx).recipients
    refine ⟨h.read x hx, first, ?_, hrecipients⟩
    rw [List.find?_filter] at hfirst
    simpa using hfirst
  addressed := d.addressed_iff
  bodies address bodies hfind := by
    rw [find?_bodies] at hfind
    split at hfind
    · cases hfind
    · next hne =>
      cases hfind
      refine ⟨?_, markedLast_markLast hne (h.unmarked address)⟩
      rw [map_unmarked_markLast]
      have hself := List.map_congr_left fun b hb =>
        Digest.Body.unmarked_eq (h.unmarked address b hb)
      exact hself.trans (List.map_id' _)

end Compilation

variable {c : Collaborators} {s s' : State} {customerId : String}

/-- Between the states a pending notification of the alert has been stamped. -/
def StampedFor (c : Collaborators) (s s' : State) (id : String) : Prop :=
  ∃ n : Notification, n.alertId = id ∧ n.sent = none ∧
    document? s.notifications n.key = some n.encode ∧
    document? s'.notifications n.key = some (n.sentAt (c.stampTime n.key)).encode

/-- The alerts of the sections are those for which the digest has stamped something. -/
theorem exists_section_iff {d : Compilation} {id : String} (hd : Keyed s.notifications)
    (h : compileDigest c customerId s = (.ok d, s')) :
    (∃ x ∈ d.sections, x.alert.id = id) ↔ StampedFor c s s' id := by
  obtain ⟨⟨e, hr⟩, -⟩ | ⟨groups, _, hr, hp, hcompiles⟩ := compileDigest_cases hd h
  · cases hr
  cases hr
  have hstamped : ∀ x ∈ d.sections, ∀ n ∈ x.stamped, n.alertId = x.alert.id ∧ n.sent = none ∧
      document? s.notifications n.key = some n.encode := by
    intro x hx n hn
    obtain ⟨g, hg, hread, hsec⟩ := hcompiles.sections x hx
    have hng := hsec.part.subset hn
    refine ⟨?_, hp.unsent g hg n hng, hp.ready.stored n (List.mem_flatMap.2 ⟨g, hg, hng⟩)⟩
    rw [hp.alertId g hg n hng, (AlertStore.read_eq_ok hread).1]
  constructor
  · rintro ⟨x, hx, rfl⟩
    obtain ⟨g, -, -, hsec⟩ := hcompiles.sections x hx
    obtain ⟨n, hn⟩ := List.exists_mem_of_ne_nil _ hsec.nonempty
    obtain ⟨hid, hunsent, hstored⟩ := hstamped x hx n hn
    exact ⟨n, hid, hunsent, hstored, hcompiles.stamps.sent n (List.mem_flatMap.2 ⟨x, hx, hn⟩)⟩
  · rintro ⟨n, rfl, hunsent, hstored, hsent⟩
    by_cases hkey : n.key ∈ (d.sections.flatMap (·.stamped)).map (·.key)
    · obtain ⟨m, hm, hkey⟩ := List.mem_map.1 hkey
      obtain ⟨x, hx, hmx⟩ := List.mem_flatMap.1 hm
      obtain ⟨hid, -, hdoc⟩ := hstamped x hx m hmx
      rw [hkey, hstored, Option.some.injEq] at hdoc
      exact ⟨x, hx, hid.symm.trans (Notification.fields_of_encode_eq hdoc).2.1.symm⟩
    · -- A document that is not stamped stays, and the stamp would show in it.
      rw [hcompiles.stamps.others n.key hkey, hstored, Option.some.injEq] at hsent
      have hnull := n.holds_unsent
      rw [hsent, (n.sentAt (c.stampTime n.key)).holds_unsent, hunsent] at hnull
      cases hnull

/-- A digest that is not cancelled from the beginning gives the bodies if it can read what is
pending. They go to the targets of the alerts that it includes, and these are the alerts of
what it has stamped. -/
theorem bodies_addressed {r : Except Fault Compilation}
    (h : compileDigest c customerId s = (r, s')) :
    ((∃ d, r = .ok d) ↔ s.context.looked.isCancelled = false ∧
        ∃ ns, pendingOf s.notifications customerId = .ok ns) ∧
      ∀ d, r = .ok d →
        (∃ ns, pendingOf s.notifications customerId = .ok ns ∧ d.Addresses s.alerts ns) ∧
        (Keyed s.notifications → ∀ id,
          (∃ x ∈ d.sections, x.alert.id = id) ↔ StampedFor c s s' id) := by
  obtain ⟨hlooked, rfl⟩ | ⟨hlooked, ⟨e, hpending, rfl⟩ | ⟨ns, d, hpending, rfl, hcovers⟩⟩ :=
    compileDigest_covers h
  · refine ⟨?_, fun d hr => by cases hr⟩
    simp [hlooked]
  · refine ⟨?_, fun d hr => by cases hr⟩
    simp [hpending]
  · refine ⟨iff_of_true ⟨d, rfl⟩ ⟨hlooked, ns, hpending⟩, ?_⟩
    intro _ hr
    cases hr
    exact ⟨⟨ns, hpending, hcovers.addresses⟩, fun hd _ => exists_section_iff hd h⟩

namespace Sample

/-- Two alerts whose recipients overlap, one of them with an address that is there twice. -/
def overlapping : List Step :=
  let first := { alert monthly with recipients := ["ops@acme.com", "cfo@acme.com"] }
  let other := { second with recipients := ["ops@acme.com", "ops@acme.com"] }
  [inMay (.put first), inMay (.refresh "a1"), onSecond (.put other), onSecond (.refresh "b1")]

end Sample

open Sample in
/-- An address that is there once and then twice gets three bodies. -/
theorem bodies_addressed_overlapping : ∃ d s',
    compileDigest collaborators "acme" (ready overlapping) = (.ok d, s') ∧
      ∃ bodies, d.bodies.find? "ops@acme.com" = some bodies ∧ bodies.length = 3 ∧
        MarkedLast bodies := by
  obtain ⟨d, s', hrun, hrecipients⟩ := exists_sections overlapping (·.recipients)
    [["ops@acme.com", "cfo@acme.com"], ["ops@acme.com", "ops@acme.com"]] (by decide +kernel)
  have hlength := d.length_copies "ops@acme.com"
  rw [hrecipients] at hlength
  obtain ⟨⟨ns, -, haddresses⟩, -⟩ := (bodies_addressed hrun).2 d rfl
  have hfound : d.bodies.find? "ops@acme.com" ≠ none := by
    rw [d.find?_bodies, if_neg (List.ne_nil_of_length_pos (by rw [hlength]; decide))]
    simp
  obtain ⟨bodies, hbodies⟩ := Option.ne_none_iff_exists'.1 hfound
  obtain ⟨hcopies, hmarked⟩ := haddresses.bodies _ bodies hbodies
  have hsame := congrArg List.length hcopies
  rw [List.length_map, hlength] at hsame
  exact ⟨d, s', hrun, bodies, hbodies, hsame, hmarked⟩

/-- The address gets the body, marked or not. -/
def Compilation.Reaches (d : Compilation) (address : String) (body : Digest.Body) : Prop :=
  ∃ bodies, d.bodies.find? address = some bodies ∧ body ∈ bodies.map (·.unmarked)

namespace Compilation.Addresses

variable {alerts : Documents} {ns : List Notification} {d : Compilation} {x y : Section}

theorem reaches_iff (h : d.Addresses alerts ns) {address : String} {body : Digest.Body} :
    d.Reaches address body ↔ ∃ x ∈ d.sections, address ∈ x.recipients ∧ x.body = body := by
  rw [← mem_copies]
  constructor
  · rintro ⟨bodies, hfind, hbody⟩
    exact (h.bodies address bodies hfind).1 ▸ hbody
  · intro hbody
    obtain ⟨x, hx, haddress, -⟩ := mem_copies.1 hbody
    have hfound := (h.addressed address).2 ⟨x, hx, haddress⟩
    obtain ⟨bodies, hfind⟩ := Option.ne_none_iff_exists'.1 hfound
    exact ⟨bodies, hfind, (h.bodies address bodies hfind).1.symm ▸ hbody⟩

theorem eq_of_id_eq (h : d.Addresses alerts ns) (hx : x ∈ d.sections) (hy : y ∈ d.sections)
    (hid : x.alert.id = y.alert.id) : x = y :=
  List.inj_on_of_nodup_map (h.ordered.imp String.ne_of_lt) hx hy hid

/-- An address gets the body of an alert as a target, or because another alert with an equal body
has it as a target. -/
theorem reaches_body_iff (h : d.Addresses alerts ns) (hx : x ∈ d.sections) {address : String} :
    d.Reaches address x.body ↔ address ∈ x.recipients ∨
      ∃ y ∈ d.sections, y.alert.id ≠ x.alert.id ∧ y.body = x.body ∧ address ∈ y.recipients := by
  rw [h.reaches_iff]
  constructor
  · rintro ⟨y, hy, haddress, hbody⟩
    by_cases hid : y.alert.id = x.alert.id
    · exact .inl (h.eq_of_id_eq hy hx hid ▸ haddress)
    · exact .inr ⟨y, hy, hid, hbody, haddress⟩
  · rintro (haddress | ⟨y, hy, -, hbody, haddress⟩)
    · exact ⟨x, hx, haddress, rfl⟩
    · exact ⟨y, hy, haddress, hbody⟩

end Compilation.Addresses

/-- No refresh has read an alert with other recipients under the same etag. -/
def RecipientsKept (s : State) (ts : List Step) : Prop :=
  ∀ a ∈ alertsRead s ts, ∀ b ∈ alertsRead s ts, a.id = b.id → a.etag = b.etag →
    a.recipients = b.recipients

theorem detected_pending {ts : List Step} {ns : List Notification} {n : Notification}
    (hempty : ∀ k, document? s.notifications k = none)
    (hpending : pendingOf (runs s ts).notifications customerId = .ok ns) (hn : n ∈ ns) :
    ∃ a ∈ alertsRead s ts, n.Detects a ∧ n.recipients = a.recipients := by
  have hd := keyed_runs (keyed_of_empty hempty) ts
  obtain ⟨hstored, -, hunsent⟩ := (mem_pendingOf hd hpending).1 hn
  exact detected_runs hempty hunsent ((select_keyed hd hpending).2 n hn).1 hstored

/-- While recipients are kept, those of any pending notification with the current etag of an
alert are targets of its body. -/
theorem mem_recipients_of_kept {ts : List Step} {ns : List Notification} {d : Compilation}
    {x : Section} {n : Notification} {address : String}
    (hempty : ∀ k, document? s.notifications k = none) (hkept : RecipientsKept s ts)
    (hpending : pendingOf (runs s ts).notifications customerId = .ok ns)
    (haddresses : d.Addresses (runs s ts).alerts ns) (hx : x ∈ d.sections) (hn : n ∈ ns)
    (hid : n.alertId = x.alert.id) (hetag : n.etag = x.alert.etag)
    (haddress : address ∈ n.recipients) : address ∈ x.recipients := by
  obtain ⟨-, first, hfirst, hrecipients⟩ := haddresses.targets x hx
  have hcurrent := List.find?_some hfirst
  simp only [decide_eq_true_eq] at hcurrent
  obtain ⟨hfirstId, hfirstEtag⟩ := hcurrent
  obtain ⟨a, ha, hna, hnrecipients⟩ := detected_pending hempty hpending hn
  obtain ⟨b, hb, hfb, hfrecipients⟩ :=
    detected_pending hempty hpending (List.mem_of_find?_eq_some hfirst)
  have hsame : a.recipients = b.recipients := by
    apply hkept a ha b hb
    · rw [← hna.alertId, ← hfb.alertId, hid, hfirstId]
    · rw [← hna.etag, ← hfb.etag, hetag, hfirstEtag]
  rw [hnrecipients, hsame, ← hfrecipients] at haddress
  rw [hrecipients, if_neg (List.ne_nil_of_mem haddress)]
  exact haddress

/-- A digest after a history fails if it is cancelled from the beginning or cannot read what is
pending, and otherwise it stamps what its sections name. Recipients that a stamped notification
has from its detection get the body of its alert exactly if they are targets of the alert, or
of one with an equal body. They all are if no alert was given other recipients under the same
etag. -/
theorem recipients_reached_iff {ts : List Step} {context : Context}
    {r : Except Fault Compilation} (hempty : ∀ k, document? s.notifications k = none)
    (h : compileDigest c customerId { runs s ts with context := context } = (r, s')) :
    ((context.looked.isCancelled = true ∨
        ∃ e, pendingOf (runs s ts).notifications customerId = .error e) ∧
        (∃ e, r = .error e) ∧ s'.notifications = (runs s ts).notifications) ∨
      ∃ ns d, r = .ok d ∧ pendingOf (runs s ts).notifications customerId = .ok ns ∧
        d.Addresses (runs s ts).alerts ns ∧
        Stamps c.stampTime (runs s ts).notifications (d.sections.flatMap (·.stamped))
          s'.notifications ∧
        ∀ x ∈ d.sections, ∀ n ∈ x.stamped,
          (∃ a ∈ alertsRead s ts, n.Detects a ∧ n.recipients = a.recipients) ∧
          (∀ address ∈ n.recipients, d.Reaches address x.body ↔ address ∈ x.recipients ∨
            ∃ y ∈ d.sections, y.alert.id ≠ x.alert.id ∧ y.body = x.body ∧
              address ∈ y.recipients) ∧
          (RecipientsKept s ts → ∀ address ∈ n.recipients, d.Reaches address x.body) := by
  have hd' : Keyed (State.notifications { runs s ts with context := context }) :=
    keyed_runs (keyed_of_empty hempty) ts
  have hunchanged : (∃ e, r = .error e) → s'.notifications = (runs s ts).notifications := by
    intro ⟨e, hr⟩
    obtain ⟨-, hsame⟩ | ⟨_, _, hok, -⟩ := compileDigest_cases hd' h
    · exact hsame.notifications
    · cases hok.symm.trans hr
  obtain ⟨hcancelled, hr⟩ | ⟨-, ⟨e, hpending, hr⟩ | ⟨ns, d, hpending, hr, hcovers⟩⟩ :=
    compileDigest_covers h
  · exact .inl ⟨.inl hcancelled, ⟨_, hr⟩, hunchanged ⟨_, hr⟩⟩
  · exact .inl ⟨.inr ⟨e, hpending⟩, ⟨_, hr⟩, hunchanged ⟨_, hr⟩⟩
  obtain ⟨⟨e, herror⟩, -⟩ | ⟨_, _, hok, -, hcompiles⟩ := compileDigest_cases hd' h
  · cases hr.symm.trans herror
  cases hr
  cases hok
  have haddresses := hcovers.addresses
  refine .inr ⟨ns, d, rfl, hpending, haddresses, hcompiles.stamps, ?_⟩
  intro x hx n hn
  obtain ⟨hgroup, hetag⟩ := List.mem_filter.1 ((hcovers.about x hx).part.subset hn)
  obtain ⟨hmem, hid⟩ := List.mem_filter.1 hgroup
  refine ⟨detected_pending hempty hpending hmem, ?_, ?_⟩
  · intro address _
    exact haddresses.reaches_body_iff hx
  · intro hkept address haddress
    exact (haddresses.reaches_body_iff hx).2 <| .inl <|
      mem_recipients_of_kept hempty hkept hpending haddresses hx hmem
        (of_decide_eq_true hid) (of_decide_eq_true hetag) haddress

namespace Sample

/-- A service is detected before the recipients of its alert are edited, and another one after. -/
def edited : List Step :=
  [step may ⟨[serviceRow 30.0 "BigQuery"], []⟩ (.put byService),
    step may ⟨[serviceRow 30.0 "BigQuery"], []⟩ (.refresh "a1"),
    step may ⟨[serviceRow 30.0 "GKE"], []⟩ (.put { byService with recipients := ["cfo@acme.com"] }),
    step may ⟨[serviceRow 30.0 "GKE"], []⟩ (.refresh "a1")]

end Sample

open Sample

/-- The digest stamps both and takes the recipients of the first. -/
theorem edited_section : ∃ d s' x,
    compileDigest collaborators "acme" (ready edited) = (.ok d, s') ∧ d.sections = [x] ∧
      x.recipients = ["ops@acme.com"] ∧
      x.stamped.map (·.recipients) = [["ops@acme.com"], ["cfo@acme.com"]] := by
  obtain ⟨d, s', hrun, hsections⟩ := exists_sections edited
    (fun x => (x.recipients, x.stamped.map (·.recipients)))
    [(["ops@acme.com"], [["ops@acme.com"], ["cfo@acme.com"]])] (by decide +kernel)
  obtain ⟨x, hx, hfact⟩ := List.map_eq_singleton_iff.1 hsections
  obtain ⟨hrecipients, hstamped⟩ := Prod.mk.inj hfact
  exact ⟨d, s', x, hrun, hx, hrecipients, hstamped⟩

/-- Of two stamped notifications with different recipients, those of the first get the body and
those of the second do not. -/
theorem recipients_reached_edited : ∃ d s' x,
    compileDigest collaborators "acme" (ready edited) = (.ok d, s') ∧ x ∈ d.sections ∧
      d.Reaches "ops@acme.com" x.body ∧ ¬d.Reaches "cfo@acme.com" x.body := by
  obtain ⟨d, s', x, hrun, hsections, hrecipients, hstamped⟩ := edited_section
  have hx : x ∈ d.sections := hsections ▸ List.mem_singleton.2 rfl
  obtain ⟨-, ⟨e, hr⟩, -⟩ | ⟨ns, _, hr, -, -, -, hreached⟩ :=
    recipients_reached_iff (fun _ => rfl) hrun
  · cases hr
  cases hr
  refine ⟨d, s', x, hrun, hx, ?_, ?_⟩
  · obtain ⟨n, hn, hto⟩ : ∃ n ∈ x.stamped, n.recipients = ["ops@acme.com"] :=
      List.mem_map.1 (by simp [hstamped])
    obtain ⟨-, hiff, -⟩ := hreached x hx n hn
    exact (hiff "ops@acme.com" (by simp [hto])).2 (.inl (by simp [hrecipients]))
  · obtain ⟨n, hn, hto⟩ : ∃ n ∈ x.stamped, n.recipients = ["cfo@acme.com"] :=
      List.mem_map.1 (by simp [hstamped])
    obtain ⟨-, hiff, -⟩ := hreached x hx n hn
    rw [hiff "cfo@acme.com" (by simp [hto])]
    simp [hrecipients, hsections]

/-- Also while etags are kept, it is not true that everybody who is a recipient of a stamped
notification gets a message. -/
theorem not_forall_recipients_found :
    ¬∀ (ts : List Step) (c : Collaborators) (customerId : String) (d : Compilation) (s' : State),
      (∀ a ∈ alertsRead .empty ts, ∀ b ∈ alertsRead .empty ts, a.id = b.id → a.etag = b.etag) →
      compileDigest c customerId { runs .empty ts with context := .fresh } = (.ok d, s') →
      ∀ x ∈ d.sections, ∀ n ∈ x.stamped, ∀ address ∈ n.recipients,
        d.bodies.find? address ≠ none := by
  intro h
  obtain ⟨d, s', x, hrun, hsections, hrecipients, hstamped⟩ := edited_section
  have hx : x ∈ d.sections := hsections ▸ List.mem_singleton.2 rfl
  obtain ⟨n, hn, hto⟩ : ∃ n ∈ x.stamped, n.recipients = ["cfo@acme.com"] :=
    List.mem_map.1 (by simp [hstamped])
  have hetag : ∀ a ∈ alertsRead .empty edited, a.etag = "v1" := by
    decide +kernel
  have hkept : ∀ a ∈ alertsRead .empty edited, ∀ b ∈ alertsRead .empty edited,
      a.id = b.id → a.etag = b.etag :=
    fun a ha b hb _ => (hetag a ha).trans (hetag b hb).symm
  have hfound := h edited collaborators "acme" d s' hkept hrun x hx n hn "cfo@acme.com"
    (by simp [hto])
  rw [d.addressed_iff, hsections] at hfound
  simp [hrecipients] at hfound

end Engine

end SpendAlerts

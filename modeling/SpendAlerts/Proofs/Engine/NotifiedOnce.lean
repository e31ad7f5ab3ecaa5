import SpendAlerts.Proofs.Engine.History
import SpendAlerts.Proofs.Key

/-!
Detections are notified once. As long as no alert goes back to an etag that was replaced,
a notification that a digest has stamped under an etag is never stamped again under that
etag, and no refresh under it writes or dispatches the detection again. The stamped
document stays as it is until a refresh under another etag puts a new detection in its
place. Keys tell alerts apart because ids do not contain the separator of keys.
-/

namespace SpendAlerts

namespace Engine

open NotificationStore

/-- The etag that the step puts for an alert. -/
def Step.etagPut? (id : String) (t : Step) : Option String :=
  match t.call with
  | .put a => if a.id = id ∧ t.context.isCancelled = false then some a.etag else none
  | _ => none

/-- The etags of an alert one after the other: what it begins with, and what is put. -/
def etags (s : State) (id : String) (ts : List Step) : List String :=
  (AlertStore.etag? s.alerts id).toList ++ ts.filterMap (Step.etagPut? id)

/-- No etag comes back after another one. -/
def NeverReused (es : List String) : Prop :=
  ∀ e e', e' ≠ e → ¬[e, e', e].Sublist es

/-- No alert that there is, or that is put, has the separator of keys in its id. -/
structure PlainIds (s : State) (ts : List Step) : Prop where
  stored : ∀ id, s.alerts.find? AlertStore.collectionName id ≠ none → '_' ∉ id.toList
  put : ∀ t ∈ ts, ∀ a, t.call = .put a → '_' ∉ a.id.toList

/-- A refresh under another etag replaces the document under the key. -/
structure Step.Supersedes (t : Step) (s : State) (k etag : String) : Prop where
  other : ∃ a, t.alert? s = some a ∧ a.etag ≠ etag
  replaced : document? (t.after s).notifications k ≠ document? s.notifications k

def SupersededIn (s : State) (ts : List Step) (k etag : String) : Prop :=
  ∃ before t after, ts = before ++ t :: after ∧ t.Supersedes (runs s before) k etag

theorem sublist_of_reuse {e e' : String} {es₁ es₂ es₃ : List String} (h₁₂ : es₁ <+: es₂)
    (h₂₃ : es₂ <+: es₃) (h₁ : es₁.getLast? = some e) (h₂ : es₂.getLast? = some e')
    (h₃ : es₃.getLast? = some e) (hne : e' ≠ e) : [e, e', e].Sublist es₃ := by
  obtain ⟨ys, rfl⟩ := h₁₂
  obtain ⟨zs, rfl⟩ := h₂₃
  have hys : e' ∈ ys := by
    cases hlast : ys.getLast? with
    | none =>
        rw [List.getLast?_append, hlast, h₁] at h₂
        exact absurd (Option.some.inj h₂).symm hne
    | some y =>
        rw [List.getLast?_append, hlast] at h₂
        exact Option.some.inj h₂ ▸ List.mem_of_getLast? hlast
  have hzs : e ∈ zs := by
    cases hlast : zs.getLast? with
    | none =>
        rw [List.getLast?_append, hlast, h₂] at h₃
        exact absurd (Option.some.inj h₃) hne
    | some z =>
        rw [List.getLast?_append, hlast] at h₃
        exact Option.some.inj h₃ ▸ List.mem_of_getLast? hlast
  exact ((List.singleton_sublist.2 (List.mem_of_getLast? h₁)).append
    (List.singleton_sublist.2 hys)).append (List.singleton_sublist.2 hzs)

variable {s : State} {t : Step}

theorem etag?_after {id e : String} (hd : Keyed s.notifications)
    (h : AlertStore.etag? (t.after s).alerts id = some e) :
    t.etagPut? id = some e ∨ t.etagPut? id = none ∧ AlertStore.etag? s.alerts id = some e := by
  cases hcall : t.call with
  | refresh id' =>
      rw [(Step.refresh_cases (s := s) hcall).1] at h
      exact .inr ⟨by simp [Step.etagPut?, hcall], h⟩
  | digest customerId =>
      obtain ⟨groups, sections, -, -, hcompiles⟩ := Step.digest_cases hcall hd
      exact .inr ⟨by simp [Step.etagPut?, hcall], (hcompiles.alerts id).2 e h⟩
  | put a =>
      obtain ⟨-, -, ⟨hcancelled, hsame⟩ | ⟨hlive, hput⟩⟩ := Step.put_cases (s := s) hcall
      · rw [hsame] at h
        exact .inr ⟨by simp [Step.etagPut?, hcall, hcancelled], h⟩
      · rw [hput] at h
        have hetag := AlertStore.etag?_insert h
        by_cases hid : a.id = id
        · rw [if_pos hid] at hetag
          exact .inl (by simp [Step.etagPut?, hcall, hid, hlive, hetag])
        · rw [if_neg hid] at hetag
          exact .inr ⟨by simp [Step.etagPut?, hcall, hid], hetag⟩

theorem etags_append (s : State) (id : String) (ts us : List Step) :
    etags s id (ts ++ us) = etags s id ts ++ us.filterMap (Step.etagPut? id) := by
  simp [etags]

theorem etags_mono (s : State) (id : String) {ts us : List Step} (h : ts <+: us) :
    etags s id ts <+: etags s id us := by
  obtain ⟨rest, rfl⟩ := h
  rw [etags_append]
  exact List.prefix_append _ _

/-- The etag of an alert is the last of its history. -/
theorem getLast?_etags {id e : String} (hd : Keyed s.notifications) (ts : List Step)
    (h : AlertStore.etag? (runs s ts).alerts id = some e) :
    (etags s id ts).getLast? = some e := by
  obtain ⟨us, rfl⟩ : ∃ us : List Step, ts = us.reverse := ⟨ts.reverse, by simp⟩
  induction us generalizing e with
  | nil =>
      have hinit : AlertStore.etag? s.alerts id = some e := h
      simp [etags, hinit]
  | cons t us ih =>
      rw [List.reverse_cons, runs_append] at h
      rw [List.reverse_cons, etags_append]
      cases etag?_after (keyed_runs hd us.reverse) h with
      | inl hput => simp [hput]
      | inr hkeep =>
          obtain ⟨hnone, hetag⟩ := hkeep
          simpa [hnone] using ih hetag

theorem plainIds_after {ts : List Step} (hd : Keyed s.notifications)
    (h : PlainIds s (t :: ts)) : PlainIds (t.after s) ts where
  put u hu := h.put u (List.mem_cons_of_mem _ hu)
  stored id hid := by
    cases hcall : t.call with
    | refresh id' =>
        rw [(Step.refresh_cases (s := s) hcall).1] at hid
        exact h.stored id hid
    | digest customerId =>
        obtain ⟨groups, sections, -, -, hcompiles⟩ := Step.digest_cases hcall hd
        exact h.stored id (mt (hcompiles.alerts id).1 hid)
    | put a =>
        obtain ⟨-, -, ⟨-, hsame⟩ | ⟨-, hput⟩⟩ := Step.put_cases (s := s) hcall
        · rw [hsame] at hid
          exact h.stored id hid
        · rw [hput, Documents.find?_insert] at hid
          by_cases hne : a.id = id
          · exact hne ▸ h.put t List.mem_cons_self a hcall
          · exact h.stored id (by simpa [hne] using hid)

theorem plainIds_runs {ts us : List Step} (hd : Keyed s.notifications)
    (h : PlainIds s (ts ++ us)) : PlainIds (runs s ts) us := by
  induction ts generalizing s with
  | nil => exact h
  | cons t ts ih => exact ih (Step.keyed_after hd) (plainIds_after hd h)

theorem plain_of_read {ts : List Step} {id : String} {a : Alert} (h : PlainIds s ts)
    (hread : AlertStore.read s.alerts id = .ok a) : '_' ∉ id.toList :=
  h.stored id (AlertStore.read_eq_ok hread).2.2

/-- A notification that has been sent is under its key. -/
structure Settled (s : State) (n : Notification) : Prop where
  document : document? s.notifications n.key = some n.encode
  finite : Decimal.isFinite n.value = true
  sent : n.sent ≠ none

theorem Settled.not_stamped {n : Notification} (h : Settled s n) (hd : Keyed s.notifications) :
    ∀ m ∈ t.stamped s, m.key ≠ n.key := by
  intro m hm hkey
  obtain ⟨-, hunsent, hfinite, hdoc, -⟩ := Step.of_mem_stamped hd hm
  rw [hkey, h.document] at hdoc
  have hsame := eq_of_encode_eq h.finite (Option.some.inj hdoc)
  exact h.sent (hsame ▸ hunsent)

/-- Under the etag of what was sent, a refresh leaves the key alone. -/
theorem Settled.refresh {n : Notification} {a : Alert} (h : Settled s n)
    (ha : t.alert? s = some a) (hetag : a.etag = n.etag) :
    document? (t.after s).notifications n.key = document? s.notifications n.key ∧
      ∀ event ∈ t.dispatched s, event.notification.key ≠ n.key := by
  obtain ⟨id, hcall, hread⟩ := Step.refresh_of_alert? ha
  obtain hkeep | ⟨b, m, -, hb, -, -, -, hold⟩ := Step.document?_refresh (k := n.key) hcall
  · exact hkeep
  · rw [hread] at hb
    cases hb
    exact absurd (hold n h.document hetag.symm) h.sent

theorem Settled.after {n : Notification} (h : Settled s n) (hd : Keyed s.notifications) :
    Settled (t.after s) n ∨ t.Supersedes s n.key n.etag := by
  by_cases hsame : document? (t.after s).notifications n.key = document? s.notifications n.key
  · exact .inl ⟨hsame.trans h.document, h.finite, h.sent⟩
  · refine .inr ⟨?_, hsame⟩
    cases hcall : t.call with
    | refresh id =>
        obtain ⟨hkeep, -⟩ | ⟨a, m, ha, -⟩ := Step.document?_refresh (s := s) (k := n.key) hcall
        · exact absurd hkeep hsame
        · exact ⟨a, ha, fun hetag => hsame (h.refresh ha hetag).1⟩
    | digest customerId =>
        refine absurd (Step.document?_after hd (by simp [hcall]) ?_) hsame
        intro hmem
        obtain ⟨m, hm, hkey⟩ := List.mem_map.1 hmem
        exact h.not_stamped hd m hm hkey
    | put a =>
        refine absurd ?_ hsame
        rw [(Step.put_cases (s := s) hcall).1]

theorem SupersededIn.cons {ts : List Step} {k etag : String}
    (h : SupersededIn (t.after s) ts k etag) : SupersededIn s (t :: ts) k etag := by
  obtain ⟨before, u, after, rfl, hu⟩ := h
  exact ⟨t :: before, u, after, rfl, hu⟩

/-- What was sent stays under its key until it is superseded. -/
theorem Settled.runs {n : Notification} (h : Settled s n) (hd : Keyed s.notifications)
    (ts : List Step) : Settled (Engine.runs s ts) n ∨ SupersededIn s ts n.key n.etag := by
  induction ts generalizing s with
  | nil => exact .inl h
  | cons t ts ih =>
      cases h.after (t := t) hd with
      | inl hafter => exact (ih hafter (Step.keyed_after hd)).imp_right SupersededIn.cons
      | inr hsup => exact .inr ⟨[], t, ts, rfl, hsup⟩

/-- A refresh that touches the key of a notification has read its alert. -/
theorem alertId_of_refresh {ts : List Step} {n m : Notification} {a : Alert} {id : String}
    (hplain : PlainIds s ts) (hid : '_' ∉ n.alertId.toList)
    (hread : AlertStore.read s.alerts id = .ok a) (hdetects : m.Detects a)
    (hkey : m.key = n.key) : n.alertId = id := by
  have haid : a.id = id := (AlertStore.read_eq_ok hread).1
  have hm : '_' ∉ m.alertId.toList := by
    rw [hdetects.alertId, haid]
    exact plain_of_read hplain hread
  exact (Notification.alertId_of_key hid hm hkey.symm).trans (hdetects.alertId.trans haid)

/-- Superseding shows that the alert had another etag at that moment. -/
theorem exists_read_of_supersedes {ts : List Step} {n : Notification} (hplain : PlainIds s ts)
    (hid : '_' ∉ n.alertId.toList) (h : t.Supersedes s n.key n.etag) :
    ∃ a, AlertStore.read s.alerts n.alertId = .ok a ∧ a.etag ≠ n.etag := by
  obtain ⟨⟨a, ha, hne⟩, hreplaced⟩ := h
  obtain ⟨id, hcall, hread⟩ := Step.refresh_of_alert? ha
  obtain ⟨hkeep, -⟩ | ⟨b, m, -, hb, hdetects, hkey, -, -⟩ :=
    Step.document?_refresh (s := s) (k := n.key) hcall
  · exact absurd hkeep hreplaced
  · rw [hread] at hb
    cases hb
    exact ⟨a, alertId_of_refresh hplain hid hread hdetects hkey ▸ hread, hne⟩

/-- The alert of the notification does not have its etag any more. -/
def Replaced (s : State) (n : Notification) : Prop :=
  ∀ a, AlertStore.read s.alerts n.alertId = .ok a → a.etag ≠ n.etag

theorem Replaced.not_stamped {ts : List Step} {n : Notification} (h : Replaced s n)
    (hd : Keyed s.notifications) (hplain : PlainIds s ts) (hid : '_' ∉ n.alertId.toList) :
    ∀ m ∈ t.stamped s, m.key = n.key → m.etag ≠ n.etag := by
  intro m hm hkey hetag
  obtain ⟨⟨a, hread, ha⟩, -⟩ := Step.of_mem_stamped hd hm
  have hsame := Notification.alertId_of_key hid (plain_of_read hplain hread) hkey.symm
  exact h a (hsame ▸ hread) (ha.symm.trans hetag)

theorem Replaced.refresh {ts : List Step} {n : Notification} {a : Alert} (h : Replaced s n)
    (hplain : PlainIds s ts) (hid : '_' ∉ n.alertId.toList) (ha : t.alert? s = some a)
    (hetag : a.etag = n.etag) :
    document? (t.after s).notifications n.key = document? s.notifications n.key ∧
      ∀ event ∈ t.dispatched s, event.notification.key ≠ n.key := by
  obtain ⟨id, hcall, hread⟩ := Step.refresh_of_alert? ha
  obtain hkeep | ⟨b, m, -, hb, hdetects, hkey, -, -⟩ :=
    Step.document?_refresh (k := n.key) hcall
  · exact hkeep
  · rw [hread] at hb
    cases hb
    exact absurd hetag (h a (alertId_of_refresh hplain hid hread hdetects hkey ▸ hread))

/-- Once superseded, the etag of what was sent is gone for good. -/
theorem replaced_of_superseded {n : Notification} {before mid rest : List Step}
    (hd : Keyed s.notifications) (hplain : PlainIds s (before ++ t :: (mid ++ rest)))
    (hetags : NeverReused (etags s n.alertId (before ++ t :: (mid ++ rest))))
    (hread : ∃ a, AlertStore.read (runs s before).alerts n.alertId = .ok a ∧ n.etag = a.etag)
    (h : SupersededIn (t.after (runs s before)) mid n.key n.etag) :
    Replaced (runs (t.after (runs s before)) mid) n := by
  obtain ⟨a, ha, hetag⟩ := hread
  obtain ⟨mid₁, u, mid₂, rfl, hu⟩ := h
  have hid : '_' ∉ n.alertId.toList := plain_of_read (plainIds_runs hd hplain) ha
  have hruns : ∀ us, runs (t.after (runs s before)) us = runs s (before ++ t :: us) := by
    intro us
    rw [runs_append]
    rfl
  rw [hruns] at hu
  have hplain₁ : PlainIds (runs s (before ++ t :: mid₁)) (u :: mid₂ ++ rest) := by
    refine plainIds_runs hd ?_
    simpa using hplain
  obtain ⟨b, hb, hne⟩ := exists_read_of_supersedes hplain₁ hid hu
  intro c hc hcetag
  rw [hruns] at hc
  -- The etag was current at the stamp, another one at the refresh, and it would be again.
  have hfirst : (etags s n.alertId before).getLast? = some n.etag := by
    rw [hetag]
    exact getLast?_etags hd before (AlertStore.read_eq_ok ha).2.1
  have hother : (etags s n.alertId (before ++ t :: mid₁)).getLast? = some b.etag :=
    getLast?_etags hd _ (AlertStore.read_eq_ok hb).2.1
  have hagain : (etags s n.alertId (before ++ t :: (mid₁ ++ u :: mid₂))).getLast? =
      some n.etag := by
    rw [← hcetag]
    exact getLast?_etags hd _ (AlertStore.read_eq_ok hc).2.1
  have hreuse := sublist_of_reuse
    (etags_mono s n.alertId ⟨t :: mid₁, rfl⟩) (etags_mono s n.alertId ⟨u :: mid₂, by simp⟩)
    hfirst hother hagain hne
  exact hetags n.etag b.etag hne
    (hreuse.trans (etags_mono s n.alertId ⟨rest, by simp⟩).sublist)

/-- The step does not stamp the key of a notification under its etag again, and as a refresh
under this etag it writes nothing there, dispatches nothing for it and adds nothing else. -/
structure Step.Respects (t : Step) (s : State) (n : Notification) : Prop where
  stamps : ∀ m ∈ t.stamped s, m.key = n.key → m.etag ≠ n.etag
  document : ∀ a, t.alert? s = some a → a.etag = n.etag →
    document? (t.after s).notifications n.key = document? s.notifications n.key
  events : ∀ a, t.alert? s = some a → a.etag = n.etag →
    ∀ event ∈ t.dispatched s, event.notification.key ≠ n.key
  added : ∀ a, t.alert? s = some a → t.added s = (t.dispatched s).length

theorem Step.added_of_alert? {a : Alert} (h : t.alert? s = some a) :
    t.added s = (t.dispatched s).length := by
  obtain ⟨id, hcall, -⟩ := Step.refresh_of_alert? h
  exact Step.added_eq hcall

theorem Settled.respects {n : Notification} (h : Settled s n) (hd : Keyed s.notifications) :
    t.Respects s n where
  stamps m hm hkey := absurd hkey (h.not_stamped hd m hm)
  document _ ha hetag := (h.refresh ha hetag).1
  events _ ha hetag := (h.refresh ha hetag).2
  added _ ha := Step.added_of_alert? ha

theorem Replaced.respects {ts : List Step} {n : Notification} (h : Replaced s n)
    (hd : Keyed s.notifications) (hplain : PlainIds s ts) (hid : '_' ∉ n.alertId.toList) :
    t.Respects s n where
  stamps := h.not_stamped hd hplain hid
  document _ ha hetag := (h.refresh hplain hid ha hetag).1
  events _ ha hetag := (h.refresh hplain hid ha hetag).2
  added _ ha := Step.added_of_alert? ha

/-- In every history that begins without notifications and in which no alert goes back to an
etag that was replaced, what a digest stamps under an etag is settled. Its document stays
until a refresh under another etag supersedes it, and every later step respects it. -/
theorem notified_once {s : State} {before mid rest : List Step} {t : Step}
    (hempty : ∀ k, document? s.notifications k = none)
    (hplain : PlainIds s (before ++ t :: (mid ++ rest)))
    (hetags : ∀ id, NeverReused (etags s id (before ++ t :: (mid ++ rest)))) :
    ∀ n ∈ t.stamped (runs s before),
      (document? (runs (t.after (runs s before)) mid).notifications n.key =
          some (n.sentAt (t.collaborators.stampTime n.key)).encode ∨
        SupersededIn (t.after (runs s before)) mid n.key n.etag) ∧
      ∀ u later, rest = u :: later → u.Respects (runs (t.after (runs s before)) mid) n := by
  intro n hn
  have hd₀ := keyed_of_empty hempty
  have hd := keyed_runs hd₀ before
  have hd' := keyed_runs (Step.keyed_after (t := t) hd) mid
  obtain ⟨hread, -, hfinite, -, hdoc⟩ := Step.of_mem_stamped hd hn
  have hid : '_' ∉ n.alertId.toList := plain_of_read (plainIds_runs hd₀ hplain) hread.choose_spec.1
  have hplain' : PlainIds (runs (t.after (runs s before)) mid) rest := by
    refine plainIds_runs (Step.keyed_after hd) ?_
    exact plainIds_after hd (plainIds_runs hd₀ hplain)
  -- Until superseded the stamped document protects itself; afterwards its etag is gone.
  have hsettled : Settled (t.after (runs s before)) (n.sentAt (t.collaborators.stampTime n.key)) :=
    ⟨hdoc, hfinite, by simp [Notification.sentAt]⟩
  cases hsettled.runs (Step.keyed_after hd) mid with
  | inl h =>
      refine ⟨.inl h.document, ?_⟩
      intro u later _
      have hrespects : u.Respects _ (n.sentAt (t.collaborators.stampTime n.key)) := h.respects hd'
      exact ⟨hrespects.stamps, hrespects.document, hrespects.events, hrespects.added⟩
  | inr h =>
      have hgone := replaced_of_superseded hd₀ hplain (hetags n.alertId) hread h
      exact ⟨.inr h, fun _ _ _ => hgone.respects hd' hplain' hid⟩

namespace Sample

/-- A step in a month with spend above the threshold. -/
def inMay (call : Call) : Step :=
  step may ⟨[[.int 2024, .int 5, .float 30.0]], []⟩ call

def detected : List Step := [inMay (.put (alert monthly)), inMay (.refresh "a1")]

theorem plainIds_detected : PlainIds .empty
    (detected ++ inMay (.digest "acme") :: ([] ++ [inMay (.refresh "a1")])) := by
  constructor
  · intro id hid
    exact absurd rfl hid
  · intro t ht a hcall
    simp only [detected, List.cons_append, List.nil_append, List.mem_cons, List.not_mem_nil] at ht
    obtain rfl | rfl | rfl | rfl | ⟨⟨⟩⟩ := ht
    all_goals cases hcall
    decide

theorem neverReused_detected (id : String) : NeverReused (etags .empty id
    (detected ++ inMay (.digest "acme") :: ([] ++ [inMay (.refresh "a1")]))) := by
  intro e e' _ hsub
  have hlength := hsub.length_le
  have hnone : AlertStore.etag? State.empty.alerts id = none := rfl
  have hrefresh : Step.etagPut? id (inMay (.refresh "a1")) = none := rfl
  have hdigest : Step.etagPut? id (inMay (.digest "acme")) = none := rfl
  simp only [detected, etags, hnone, List.cons_append, List.nil_append, List.filterMap_cons,
    hrefresh, hdigest] at hlength
  -- Only the first step puts an etag, and an etag that comes back takes three.
  cases h : Step.etagPut? id (inMay (.put (alert monthly))) with
  | none => simp [h] at hlength
  | some etag => simp [h] at hlength

end Sample

open Sample in
/-- Spend that was sent in a month is not dispatched again in that month. -/
theorem notified_once_monthly :
    ((inMay (.digest "acme")).stamped (runs .empty detected)).map (·.key) = ["a1_2024-05"] ∧
      ∀ n ∈ (inMay (.digest "acme")).stamped (runs .empty detected),
        ∀ event ∈ (inMay (.refresh "a1")).dispatched
            ((inMay (.digest "acme")).after (runs .empty detected)),
          event.notification.key ≠ n.key := by
  refine ⟨by decide +kernel, ?_⟩
  intro n hn
  have hetag : n.etag = "v1" := by
    have hall : ∀ n ∈ (inMay (.digest "acme")).stamped (runs .empty detected), n.etag = "v1" := by
      decide +kernel
    exact hall n hn
  have hread : ∃ a, (inMay (.refresh "a1")).alert?
      ((inMay (.digest "acme")).after (runs .empty detected)) = some a ∧ a.etag = n.etag := by
    rw [hetag]
    refine Option.map_eq_some_iff.1 ?_
    decide +kernel
  obtain ⟨a, ha, hsame⟩ := hread
  have hrespects := (notified_once (fun _ => rfl) plainIds_detected neverReused_detected n hn).2
  exact (hrespects _ _ rfl).events a ha hsame

end Engine

end SpendAlerts

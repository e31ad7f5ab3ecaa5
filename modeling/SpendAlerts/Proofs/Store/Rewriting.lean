import SpendAlerts.Proofs.Document.RoundTrip
import SpendAlerts.Proofs.Store.Notifications

/-!
Updates of stored records. Remembering a digest in an alert and stamping a notification as sent
decode a document, change the record and write it back. The new document need not look like the old
one, which may lack fields, have more of them or be a list, but it decodes to the changed record.
Whatever keeps the call from doing so, nothing is written.
-/

namespace SpendAlerts

namespace Documents

variable {α : Type}

/-- The call changes the record under a key and nothing else, or fails and changes nothing. -/
structure Updates (decode : Decoder α) (change : α → α) (name key : String) (s : Session)
    (call : Except Fault Unit × Session) : Prop where
  succeeds : call.1 = .ok () ↔ s.context.isCancelled = false ∧
    s.context.looked.isCancelled = false ∧
    ∃ doc x, s.documents.find? name key = some doc ∧ decode doc = .ok x
  record : ∀ doc x, call.1 = .ok () → s.documents.find? name key = some doc → doc.IsJson →
    decode doc = .ok x →
    ∃ doc', call.2.documents.find? name key = some doc' ∧ decode doc' = .ok (change x)
  others : ∀ name' key', ¬(name' = name ∧ key' = key) →
    call.2.documents.find? name' key' = s.documents.find? name' key'
  cancelled : s.context.isCancelled = true → call.1 = .error .cancelled
  missing : s.context.isCancelled = false → s.documents.find? name key = none →
    call.1 = .error (.notFound name key)
  unreadable : ∀ doc m, s.context.isCancelled = false → s.documents.find? name key = some doc →
    decode doc = .error m → call.1 = .error (.serialization m.message)
  /-- The context is cancelled between the decision and the write. -/
  interrupted : ∀ doc x, s.context.isCancelled = false → s.context.looked.isCancelled = true →
    s.documents.find? name key = some doc → decode doc = .ok x → call.1 = .error .cancelled
  failed : ∀ e, call.1 = .error e → call.2.documents = s.documents

variable {decode : Decoder α} {encode : α → Value} {change : α → α} {name key : String}

theorem updates_rewrite {s s' : Session} {r : Except Fault Unit}
    (hround : ∀ doc x, doc.IsJson → decode doc = .ok x →
      decode (encode (change x)) = .ok (change x))
    (h : rewrite name key decode encode change s = (r, s')) :
    Updates decode change name key s (r, s') where
  succeeds := by
    constructor
    · intro hok
      obtain ⟨⟨e, rfl⟩, -⟩ | ⟨doc, x, hlive, hlater, hdoc, hx, -, -⟩ := rewrite_cases h
      · cases hok
      · exact ⟨hlive, hlater, doc, x, hdoc, hx⟩
    · intro ⟨hlive, hlater, doc, x, hdoc, hx⟩
      simp only [rewrite_apply, hlive, hlater, hdoc, hx, Bool.false_eq_true, if_false] at h
      cases h
      rfl
  record doc x hok hdoc hjson hx := by
    obtain ⟨⟨e, rfl⟩, -⟩ | ⟨doc', x', -, -, hdoc', hx', -, hwrite⟩ := rewrite_cases h
    · cases hok
    · obtain rfl : doc' = doc := Option.some.inj (hdoc'.symm.trans hdoc)
      obtain rfl : x' = x := Except.ok.inj (hx'.symm.trans hx)
      refine ⟨encode (change x'), ?_, hround doc' x' hjson hx⟩
      rw [hwrite, find?_insert, if_pos ⟨rfl, rfl⟩]
  others name' key' hne := by
    obtain ⟨-, hsame⟩ | ⟨_, _, -, -, -, -, -, hwrite⟩ := rewrite_cases h
    · rw [hsame]
    · rw [hwrite, find?_insert, if_neg fun h => hne ⟨h.1.symm, h.2.symm⟩]
  cancelled hcancelled := by
    rw [rewrite_apply, if_pos hcancelled] at h
    cases h
    rfl
  missing hlive hdoc := by
    simp only [rewrite_apply, hlive, hdoc, Bool.false_eq_true, if_false] at h
    cases h
    rfl
  unreadable doc m hlive hdoc hm := by
    simp only [rewrite_apply, hlive, hdoc, hm, Bool.false_eq_true, if_false] at h
    cases h
    rfl
  interrupted doc x hlive hlater hdoc hx := by
    simp only [rewrite_apply, hlive, hlater, hdoc, hx, Bool.false_eq_true, if_false, if_true] at h
    cases h
    rfl
  failed e he := by
    obtain ⟨-, hsame⟩ | ⟨_, _, -, -, -, -, rfl, -⟩ := rewrite_cases h
    · exact hsame
    · cases he

end Documents

/-- Remembering a digest sets the time in the alert, and stamping sets it in the notification. -/
theorem stamping_sets_time (s : Session) (time : Instant) :
    (∀ id, Documents.Updates Alert.decode (fun a => { a with lastAlerted := some time })
      AlertStore.collectionName id s (AlertStore.updateNotified id time s)) ∧
    ∀ key, Documents.Updates Notification.decode (fun n => { n with sent := some time })
      NotificationStore.collectionName key s (NotificationStore.markSent key time s) := by
  refine ⟨fun id => ?_, fun key => ?_⟩
  · rw [AlertStore.updateNotified_eq_rewrite]
    refine Documents.updates_rewrite (fun doc a hjson ha => ?_) rfl
    -- the time is no double, so the alert can still be written
    have hstorable : { a with lastAlerted := some time }.Storable := Alert.makes doc a hjson ha
    exact Alert.decode_encode hstorable
  · rw [NotificationStore.markSent_eq_rewrite]
    refine Documents.updates_rewrite (fun doc n hjson hn => ?_) rfl
    exact Notification.decode_encode _ (Notification.makes doc n hjson hn)

open RoundTrip in
/-- A notification that is kept as a list is stamped like any other. -/
theorem stamping_sets_time_listed :
    ∃ doc, (NotificationStore.markSent "k" may
        ⟨.fresh, .insert .empty NotificationStore.collectionName "k" listed⟩).2.documents.find?
          NotificationStore.collectionName "k" = some doc ∧
      Notification.decode doc = .ok { read with sent := some may } :=
  have hlisted : listed.IsJson := by
    simp [listed, Value.IsJson, Value.AllJson]
  have hstamp := (stamping_sets_time
    ⟨.fresh, .insert .empty NotificationStore.collectionName "k" listed⟩ may).2 "k"
  hstamp.record listed read (hstamp.succeeds.2 ⟨rfl, rfl, listed, read, rfl, decode_listed⟩) rfl
    hlisted decode_listed

end SpendAlerts

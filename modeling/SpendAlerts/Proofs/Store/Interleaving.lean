import SpendAlerts.Proofs.Store.Notifications

/-!
Interleavings of calls on one store of notifications. Any number of refreshes record
detections, and any number of digests read what is pending once and stamp each notification
they have read, in any order and in any contexts. A stamp is for a key and not for what was
read: it stamps just that, unsent, exactly if nothing else was written there since, so
digests can send the same notification twice or stamp one that no message shows.
-/

namespace SpendAlerts

namespace NotificationStore

/-- A call of a refresh, or the read or a stamp of the digest with a number. -/
inductive StoreStep where
  | add (context : Context) (n : Notification) (etag : String)
  | read (context : Context) (digest : Nat) (customerId : String)
  | stamp (context : Context) (digest : Nat) (n : Notification) (time : Instant)

/-- The documents, and what each digest that has read has still to stamp. -/
structure Shared where
  documents : Documents
  taken : Nat → Option (List Notification)

namespace Shared

def take (s : Shared) (digest : Nat) (ns : List Notification) : Nat → Option (List Notification) :=
  fun d => if d = digest then some ns else s.taken d

def after (s : Shared) : StoreStep → Shared
  | .add context n etag =>
      { s with documents := ((addDetected n etag).run ⟨context, s.documents⟩).2.documents }
  | .read context digest customerId =>
      let (result, session) := (pendingFor customerId).run ⟨context, s.documents⟩
      ⟨session.documents,
        s.take digest ((result.toOption.map fun t => t.entries.flatMap (·.2)).getD [])⟩
  | .stamp context digest n time =>
      ⟨((markSent n.key time).run ⟨context, s.documents⟩).2.documents,
        s.take digest (((s.taken digest).getD []).erase n)⟩

def runs (s : Shared) : List StoreStep → Shared
  | [] => s
  | u :: us => runs (s.after u) us

/-- A digest reads once, and stamps what it has read and not stamped yet. -/
def Allows (s : Shared) : StoreStep → Prop
  | .add .. => True
  | .read _ digest _ => s.taken digest = none
  | .stamp _ digest n _ => ∃ ns, s.taken digest = some ns ∧ n ∈ ns

def AllowsAll (s : Shared) : List StoreStep → Prop
  | [] => True
  | u :: us => s.Allows u ∧ (s.after u).AllowsAll us

def writes (s : Shared) : StoreStep → Bool
  | .add context n etag => match ((addDetected n etag).run ⟨context, s.documents⟩).1 with
    | .ok written => written
    | .error _ => false
  | .read .. => false
  | .stamp context _ n time => ((markSent n.key time).run ⟨context, s.documents⟩).1.isOk

end Shared

def StoreStep.key? : StoreStep → Option String
  | .add _ n _ => some n.key
  | .read .. => none
  | .stamp _ _ n _ => some n.key

namespace Shared

/-- The last of some calls to write the document under a key. -/
def lastWriter? (k : String) (s : Shared) : List StoreStep → Option StoreStep
  | [] => none
  | u :: us => (lastWriter? k (s.after u) us).or
      (if u.key? = some k ∧ s.writes u = true then some u else none)

theorem runs_append (s : Shared) (us vs : List StoreStep) :
    s.runs (us ++ vs) = (s.runs us).runs vs := by
  induction us generalizing s with
  | nil => rfl
  | cons u us ih => exact ih (s.after u)

theorem allowsAll_append {s : Shared} {us vs : List StoreStep} (h : s.AllowsAll (us ++ vs)) :
    s.AllowsAll us ∧ (s.runs us).AllowsAll vs := by
  induction us generalizing s with
  | nil => exact ⟨trivial, h⟩
  | cons u us ih =>
      obtain ⟨hus, hvs⟩ := ih h.2
      exact ⟨⟨h.1, hus⟩, hvs⟩

/-- What is under a key, as the last call that has written there has left it. -/
inductive Holds (k : String) (s : Shared) (doc : Option Value) : Option StoreStep → Prop where
  | same (unchanged : doc = document? s.documents k) : Holds k s doc none
  | recorded (context : Context) (n : Notification) (etag : String) (key : n.key = k)
      (written : doc = some n.encode) : Holds k s doc (some (.add context n etag))
  | stamped (context : Context) (digest : Nat) (n : Notification) (time : Instant)
      (m : Notification) (key : m.key = k) (written : doc = some (m.sentAt time).encode) :
      Holds k s doc (some (.stamp context digest n time))

variable {s : Shared}

theorem add_cases (s : Shared) (context : Context) (n : Notification) (etag : String) :
    (s.writes (.add context n etag) = false ∧
        (s.after (.add context n etag)).documents = s.documents) ∨
      (s.writes (.add context n etag) = true ∧
        (s.after (.add context n etag)).documents = write s.documents n) := by
  cases hrun : (addDetected n etag).run ⟨context, s.documents⟩ with
  | mk r session =>
      simp only [writes, after, hrun]
      obtain ⟨⟨e, rfl⟩, hsame⟩ | ⟨rfl, hsame⟩ | ⟨rfl, hwrite, -⟩ := addDetected_cases hrun
      · exact .inl ⟨rfl, hsame⟩
      · exact .inl ⟨rfl, hsame⟩
      · exact .inr ⟨rfl, hwrite⟩

theorem stamp_cases (hd : Keyed s.documents) (context : Context) (digest : Nat)
    (n : Notification) (time : Instant) :
    (s.writes (.stamp context digest n time) = false ∧
        (s.after (.stamp context digest n time)).documents = s.documents) ∨
      (s.writes (.stamp context digest n time) = true ∧ ∃ m : Notification, m.key = n.key ∧
        document? s.documents n.key = some m.encode ∧
        (s.after (.stamp context digest n time)).documents =
          write s.documents (m.sentAt time)) := by
  cases hrun : (markSent n.key time).run ⟨context, s.documents⟩ with
  | mk r session =>
      simp only [writes, after, hrun]
      have hd' : Keyed (Session.mk context s.documents).documents := hd
      obtain ⟨⟨e, rfl⟩, hsame⟩ | ⟨m, hkey, hdoc, -, rfl, hwrite⟩ := markSent_cases hd' hrun
      · exact .inl ⟨rfl, hsame⟩
      · exact .inr ⟨rfl, m, hkey, hdoc, hwrite⟩

/-- A read leaves the documents as they are and takes what is pending. -/
theorem read_cases (hd : Keyed s.documents) (context : Context) (digest : Nat)
    (customerId : String) : (s.after (.read context digest customerId)).documents = s.documents ∧
      ∃ ns, (s.after (.read context digest customerId)).taken digest = some ns ∧
        Ready s.documents ns ∧ ∀ n ∈ ns, n.sent = none := by
  cases hrun : (pendingFor customerId).run ⟨context, s.documents⟩ with
  | mk r session =>
      simp only [after, hrun, take, if_true]
      have hd' : Keyed (Session.mk context s.documents).documents := hd
      obtain ⟨hsame, hpending⟩ := pendingFor_cases hd' hrun
      refine ⟨hsame, _, rfl, ?_⟩
      cases r with
      | error e =>
          refine ⟨⟨.nil, ?_, ?_⟩, ?_⟩
          all_goals exact List.forall_mem_nil _
      | ok t =>
          refine ⟨(hpending t rfl).ready, ?_⟩
          intro n hn
          obtain ⟨g, hg, hng⟩ := List.mem_flatMap.1 hn
          exact (hpending t rfl).unsent g hg n hng

theorem keyed_after (hd : Keyed s.documents) (u : StoreStep) : Keyed (s.after u).documents := by
  cases u with
  | add context n etag =>
      cases add_cases s context n etag with
      | inl h => exact h.2.symm ▸ hd
      | inr h => exact h.2.symm ▸ hd.write n
  | read context digest customerId => exact (read_cases hd context digest customerId).1.symm ▸ hd
  | stamp context digest n time =>
      obtain ⟨-, hsame⟩ | ⟨-, m, -, -, hwrite⟩ := stamp_cases hd context digest n time
      · exact hsame.symm ▸ hd
      · exact hwrite.symm ▸ hd.write _

theorem keyed_runs (hd : Keyed s.documents) (us : List StoreStep) :
    Keyed (s.runs us).documents := by
  induction us generalizing s with
  | nil => exact hd
  | cons u us ih => exact ih (keyed_after hd u)

theorem holds_after (hd : Keyed s.documents) (k : String) (u : StoreStep) :
    Holds k s (document? (s.after u).documents k)
      (if u.key? = some k ∧ s.writes u = true then some u else none) := by
  cases u with
  | add context n etag =>
      obtain ⟨hw, hsame⟩ | ⟨hw, hwrite⟩ := add_cases s context n etag
      · rw [hw, hsame]
        simpa using Holds.same rfl
      · rw [hw, hwrite, document?_write]
        by_cases hk : n.key = k
        · simpa [StoreStep.key?, hk] using Holds.recorded context n etag hk rfl
        · simpa [StoreStep.key?, hk] using Holds.same rfl
  | read context digest customerId =>
      rw [(read_cases hd context digest customerId).1]
      exact .same rfl
  | stamp context digest n time =>
      obtain ⟨hw, hsame⟩ | ⟨hw, m, hkey, -, hwrite⟩ := stamp_cases hd context digest n time
      · rw [hw, hsame]
        simpa using Holds.same rfl
      · rw [hw, hwrite, document?_write, Notification.key_sentAt, hkey]
        by_cases hk : n.key = k
        · simpa [StoreStep.key?, hk] using
            Holds.stamped context digest n time m (hkey.trans hk) rfl
        · simpa [StoreStep.key?, hk] using Holds.same rfl

/-- Any number of calls leave what is under a key as the last to write there has left it. -/
theorem holds_runs (hd : Keyed s.documents) (k : String) (us : List StoreStep) :
    Holds k s (document? (s.runs us).documents k) (lastWriter? k s us) := by
  induction us generalizing s with
  | nil => exact .same rfl
  | cons u us ih =>
      have hrest := ih (keyed_after hd u)
      rw [lastWriter?]
      -- A later writer decides; only without one does the first call matter.
      generalize lastWriter? k (s.after u) us = writer at hrest
      cases hrest with
      | recorded context n etag key written => exact .recorded context n etag key written
      | stamped context digest n time m key written =>
          exact .stamped context digest n time m key written
      | same unchanged =>
          rw [Option.none_or]
          have hfirst := holds_after hd k u
          rw [← unchanged] at hfirst
          exact hfirst

theorem taken_after {u : StoreStep} {digest : Nat} {ns : List Notification}
    (hallows : s.Allows u) (htaken : s.taken digest = some ns) :
    ∃ ms, (s.after u).taken digest = some ms ∧ ms ⊆ ns := by
  cases u with
  | add context n etag => exact ⟨ns, htaken, List.Subset.refl _⟩
  | read context d customerId =>
      have hne : digest ≠ d := by
        rintro rfl
        rw [Allows, htaken] at hallows
        cases hallows
      exact ⟨ns, by simpa [after, take, hne] using htaken, List.Subset.refl _⟩
  | stamp context d n time =>
      by_cases hd : digest = d
      · subst hd
        exact ⟨ns.erase n, by simp [after, take, htaken], List.erase_subset⟩
      · exact ⟨ns, by simpa [after, take, hd] using htaken, List.Subset.refl _⟩

/-- A digest has nothing to stamp but what it has read. -/
theorem taken_runs {us : List StoreStep} {digest : Nat} {ns : List Notification}
    (hallows : s.AllowsAll us) (htaken : s.taken digest = some ns) :
    ∃ ms, (s.runs us).taken digest = some ms ∧ ms ⊆ ns := by
  induction us generalizing s ns with
  | nil => exact ⟨ns, htaken, List.Subset.refl _⟩
  | cons u us ih =>
      obtain ⟨ms, hms, hsub⟩ := taken_after hallows.1 htaken
      obtain ⟨ls, hls, hsub'⟩ := ih hallows.2 hms
      exact ⟨ls, hls, List.Subset.trans hsub' hsub⟩

/-- What is under the key of a notification that was stored unsent and readable is the same
notification exactly if the last to write there, if any, has recorded it. -/
theorem Holds.exact_iff {n m : Notification} {writer : Option StoreStep}
    (h : Holds n.key s (some m.encode) writer)
    (hstored : document? s.documents n.key = some n.encode)
    (hfinite : Decimal.isFinite n.value = true) (hunsent : n.sent = none) :
    (m = n ∧ m.sent = none) ↔
      ∀ u, writer = some u → ∃ context etag, u = .add context n etag := by
  have hunique : ∀ {m' : Notification}, n.encode = m'.encode → n = m' :=
    fun heq => eq_of_encode_eq hfinite heq
  cases h with
  | same unchanged =>
      rw [hstored] at unchanged
      obtain rfl := hunique (Option.some.inj unchanged).symm
      refine ⟨?_, fun _ => ⟨rfl, hunsent⟩⟩
      intro _ u hu
      cases hu
  | recorded context n' etag key written =>
      constructor
      · rintro ⟨rfl, -⟩ u hu
        obtain rfl := hunique (Option.some.inj written)
        cases hu
        exact ⟨context, etag, rfl⟩
      · intro h
        obtain ⟨_, _, hadd⟩ := h _ rfl
        cases hadd
        obtain rfl := hunique (Option.some.inj written).symm
        exact ⟨rfl, hunsent⟩
  | stamped context d n' time m' key written =>
      constructor
      · rintro ⟨rfl, hsent⟩
        obtain rfl := hunique (Option.some.inj written)
        cases hsent
      · intro h
        obtain ⟨_, _, hadd⟩ := h _ rfl
        cases hadd

/-- A stamp that succeeds sends what is under the key just then. That is the notification the
digest has read, still unsent, exactly if the last call that has written under the key since
the read, if any, has recorded this same notification. -/
theorem stamp_exact {before between : List StoreStep} {context context' : Context}
    {digest : Nat} {customerId : String} {n : Notification} {time : Instant}
    (hd : Keyed s.documents)
    (hallows : s.AllowsAll (before ++ .read context digest customerId ::
      (between ++ [.stamp context' digest n time])))
    (hok : (s.runs (before ++ .read context digest customerId :: between)).writes
      (.stamp context' digest n time) = true) :
    ∃ m : Notification,
      document? (s.runs (before ++ .read context digest customerId :: between)).documents n.key =
        some m.encode ∧
      document? (s.runs (before ++ .read context digest customerId ::
        (between ++ [.stamp context' digest n time]))).documents n.key =
          some (m.sentAt time).encode ∧
      ((m = n ∧ m.sent = none) ↔
        ∀ u, lastWriter? n.key ((s.runs before).after (.read context digest customerId)) between =
          some u → ∃ context'' etag, u = .add context'' n etag) := by
  obtain ⟨hbefore, hread, hbetween⟩ := allowsAll_append hallows
  obtain ⟨hmiddle, hstamp, -⟩ := allowsAll_append hbetween
  have hruns : s.runs (before ++ .read context digest customerId :: between) =
      ((s.runs before).after (.read context digest customerId)).runs between := runs_append s _ _
  have hlast : s.runs (before ++ .read context digest customerId ::
      (between ++ [.stamp context' digest n time])) =
      (s.runs (before ++ .read context digest customerId :: between)).after
        (.stamp context' digest n time) := by
    rw [hruns, runs_append]
    exact runs_append _ _ _
  rw [hlast]
  rw [hruns] at hok ⊢
  have hd₁ := keyed_runs hd before
  obtain ⟨hsame, ns, htaken, hready, hunsent⟩ := read_cases hd₁ context digest customerId
  have hd₂ := keyed_after hd₁ (.read context digest customerId)
  obtain ⟨ms, hms, hsub⟩ := taken_runs hmiddle htaken
  obtain ⟨ls, hls, hn⟩ := hstamp
  rw [hms] at hls
  cases hls
  have hnread := hsub hn
  obtain ⟨hw, -⟩ | ⟨-, m, hkey, hdoc, hwrite⟩ :=
    stamp_cases (keyed_runs hd₂ between) context' digest n time
  · rw [hw] at hok
    cases hok
  refine ⟨m, hdoc, ?_, ?_⟩
  · rw [hwrite, document?_write, Notification.key_sentAt, hkey]
    simp
  have hholds := holds_runs hd₂ n.key between
  rw [hdoc] at hholds
  refine hholds.exact_iff ?_ (hready.finite n hnread) (hunsent n hnread)
  rw [hsame]
  exact hready.stored n hnread

def empty : Shared := ⟨.empty, fun _ => none⟩

def spend (value : Float) : Notification where
  alertId := "a1"
  alertName := "Spend"
  sentence := "Spend above $20.00"
  customerId := "acme"
  recipients := ["ops@acme.com"]
  value := value
  period := "2024-05"
  breakdown := none
  breakdownLabel := none
  etag := "v1"
  detected := .midnight ⟨2024, 5, 1, by decide⟩
  sent := none
  expiry := .midnight ⟨2024, 11, 1, by decide⟩

/-- A detection that is superseded after the digest has read it, and then stamped. -/
theorem allowsAll_superseded : empty.AllowsAll ([.add .fresh (spend 30.0) "v1"] ++
    .read .fresh 0 "acme" :: ([.add .fresh (spend 40.0) "v1"] ++
      [.stamp .fresh 0 (spend 30.0) (spend 30.0).detected])) := by
  refine ⟨trivial, rfl, trivial, ⟨_, rfl, ?_⟩, trivial⟩
  decide +kernel

/-- Of two detections of a month, the second is sent for the first. -/
theorem stamp_exact_superseded :
    ∃ m : Notification,
      document? (empty.runs [.add .fresh (spend 30.0) "v1", .read .fresh 0 "acme",
        .add .fresh (spend 40.0) "v1"]).documents "a1_2024-05" = some m.encode ∧
      document? (empty.runs [.add .fresh (spend 30.0) "v1", .read .fresh 0 "acme",
        .add .fresh (spend 40.0) "v1",
        .stamp .fresh 0 (spend 30.0) (spend 30.0).detected]).documents "a1_2024-05" =
          some (m.sentAt (spend 30.0).detected).encode ∧
      ¬(m = spend 30.0 ∧ m.sent = none) := by
  obtain ⟨m, hbefore, hafter, hexact⟩ := stamp_exact (fun _ _ h => by cases h)
    allowsAll_superseded (by decide +kernel)
  refine ⟨m, hbefore, hafter, ?_⟩
  intro hread
  obtain ⟨context, etag, hadd⟩ := hexact.1 hread (.add .fresh (spend 40.0) "v1") <| by
    rw [lastWriter?, lastWriter?, Option.none_or, if_pos (by decide +kernel)]
  have hvalue : (spend 40.0).value = (spend 30.0).value := by
    injection hadd with _ hn _
    rw [hn]
  exact absurd hvalue (by decide +kernel)

/-- It is not true that every stamp sends what the digest has read, and unsent. -/
theorem not_forall_stamp_as_read :
    ¬∀ (us : List StoreStep) (context : Context) (digest : Nat) (n : Notification)
      (time : Instant), empty.AllowsAll (us ++ [.stamp context digest n time]) →
      (empty.runs us).writes (.stamp context digest n time) = true →
      document? (empty.runs us).documents n.key = some n.encode ∧ n.sent = none := by
  intro h
  have hread := (h [.add .fresh (spend 30.0) "v1", .read .fresh 0 "acme",
    .add .fresh (spend 40.0) "v1"] .fresh 0 (spend 30.0) (spend 30.0).detected
    allowsAll_superseded (by decide +kernel)).1
  have hdecode := congrArg (fun doc => doc.bind fun v => (decode v).toOption) hread
  exact absurd hdecode (by decide +kernel)

end Shared

end NotificationStore

end SpendAlerts

import SpendAlerts.Proofs.Store.Readability
import Mathlib.Data.List.Induction

/-!
Recording the same detections twice. What becomes of a detection is decided by the document
under its key, and detections that are recorded do not change any of these decisions, since
each of them can be replaced as well as what it has replaced. So the second time the same
detections are recorded over each other, and the documents stay as they are. A detection that
cannot be read once it is stored is the exception: recording comes to an end there. That does
no harm where all keys differ.
-/

namespace SpendAlerts

namespace Documents

theorem insert_twice (d : Documents) (name k l : String) (x y : Value) :
    (d.insert name k x).insert name l y =
      ⟨d.collections.insert name (((d.collection name).insert k x).insert l y)⟩ := by
  have hcollection := d.collection_insert name k name x
  rw [if_pos rfl] at hcollection
  change Documents.mk ((d.collections.insert name _).insert name
    (((d.insert name k x).collection name).insert l y)) = _
  rw [hcollection, Table.insert_insert]

theorem insert_insert (d : Documents) (name key : String) (x y : Value) :
    (d.insert name key x).insert name key y = d.insert name key y := by
  rw [insert_twice, Table.insert_insert]
  rfl

theorem insert_comm (d : Documents) (name : String) {k l : String} (hne : k ≠ l) (x y : Value) :
    (d.insert name k x).insert name l y = (d.insert name l y).insert name k x := by
  rw [insert_twice, insert_twice, Table.insert_comm _ hne]

end Documents

namespace NotificationStore

variable {d : Documents} {n m : Notification} {ns : List Notification} {etag : String}
  {fault : String → Option Fault}

def writeEach (d : Documents) (ns : List Notification) : Documents := ns.foldl write d

theorem stampEach_eq_writeEach (time : String → Instant) (d : Documents)
    (ns : List Notification) :
    stampEach time d ns = writeEach d (ns.map fun n => n.sentAt (time n.key)) :=
  List.foldl_map.symm

theorem write_write (h : n.key = m.key) : write (write d n) m = write d m := by
  rw [write, write, h]
  exact d.insert_insert _ _ _ _

theorem write_comm (h : n.key ≠ m.key) : write (write d n) m = write (write d m) n :=
  d.insert_comm _ h _ _

/-- A write that is made again in the end need not have been made in the beginning. -/
theorem write_writeEach (d : Documents) (n : Notification) (ns : List Notification) :
    write (writeEach (write d n) ns) n = write (writeEach d ns) n := by
  induction ns generalizing d with
  | nil => exact write_write rfl
  | cons m ns ih =>
      by_cases hkey : n.key = m.key
      · have hsame : write (write d n) m = write d m := write_write hkey
        change write (writeEach (write (write d n) m) ns) n = write (writeEach (write d m) ns) n
        rw [hsame]
      · change write (writeEach (write (write d n) m) ns) n = write (writeEach (write d m) ns) n
        rw [write_comm hkey, ih]

/-- Writes under other keys can come later. -/
theorem write_writeEach_of_notMem (h : n.key ∉ ns.map (·.key)) :
    write (writeEach d ns) n = writeEach (write d n) ns := by
  induction ns generalizing d with
  | nil => rfl
  | cons m ns ih =>
      rw [List.map_cons, List.mem_cons, not_or] at h
      change write (writeEach (write d m) ns) n = writeEach (write (write d n) m) ns
      rw [ih h.2, write_comm h.1]

theorem writeEach_writeEach (d : Documents) (ns : List Notification) :
    writeEach (writeEach d ns) ns = writeEach d ns := by
  induction ns using List.reverseRecOn with
  | nil => rfl
  | append_singleton ns n ih =>
      have hlast : ∀ d, writeEach d (ns ++ [n]) = write (writeEach d ns) n :=
        fun d => List.foldl_append
      rw [hlast, hlast, write_writeEach, ih]

/-- The documents after recording detections in order, up to the first that fails. -/
def recorded (fault : String → Option Fault) (etag : String) (d : Documents) :
    List Notification → Documents
  | [] => d
  | n :: ns => match fault n.key, recordBody n etag (document? d n.key) with
    | none, .ok .keep => recorded fault etag d ns
    | none, .ok (.put _) => recorded fault etag (write d n) ns
    | _, _ => d

/-- What is written of detections that are recorded in order, and the fault that ends it. -/
structure Recording where
  written : List Notification
  fault : Option Fault

def Recording.result (r : Recording) : Except Fault (List Notification) :=
  match r.fault with
  | some e => .error e
  | none => .ok r.written

def recording (fault : String → Option Fault) (etag : String) (d : Documents) :
    List Notification → Recording
  | [] => ⟨[], none⟩
  | n :: ns => match fault n.key, recordBody n etag (document? d n.key) with
    | none, .ok .keep => recording fault etag d ns
    | none, .ok (.put _) =>
        let rest := recording fault etag (write d n) ns
        ⟨n :: rest.written, rest.fault⟩
    | none, .error e => ⟨[], some e⟩
    | some e, _ => ⟨[], some e⟩

/-- The detections that are written if all decisions are made over the same documents. -/
def accepted (fault : String → Option Fault) (etag : String) (d : Documents) :
    List Notification → List Notification
  | [] => []
  | n :: ns => match fault n.key, recordBody n etag (document? d n.key) with
    | none, .ok .keep => accepted fault etag d ns
    | none, .ok (.put _) => n :: accepted fault etag d ns
    | _, _ => []

/-- The document under the key of a detection lets it be written. -/
def Admits (etag : String) (d : Documents) (n : Notification) : Prop :=
  ∃ doc, recordBody n etag (document? d n.key) = .ok (.put doc)

/-- A detection that can be stored, and replaced by another of its etag. -/
structure Fresh (n : Notification) : Prop where
  finite : Decimal.isFinite n.value = true
  unsent : n.sent = none

theorem recordBody_put {doc : Option Value} {x : Value}
    (h : recordBody n etag doc = .ok (.put x)) (m : Notification) :
    recordBody m etag doc = .ok (.put m.encode) := by
  cases doc with
  | none => rfl
  | some stored =>
      cases hdecode : decode stored with
      | error e => simp [recordBody, hdecode] at h
      | ok old =>
          by_cases hclosed : old.etag = etag ∧ old.isSent = true
          · simp [recordBody, hdecode, hclosed] at h
          · simp only [recordBody, hdecode, if_neg hclosed]

theorem Fresh.recordBody (h : Fresh n) (m : Notification) :
    NotificationStore.recordBody m etag (some n.encode) = .ok (.put m.encode) := by
  simp [NotificationStore.recordBody, decode_eq_ok.2 ⟨h.finite, rfl⟩, Notification.isSent,
    h.unsent]

theorem recorded_eq_writeEach :
    recorded fault etag d ns = writeEach d (recording fault etag d ns).written := by
  induction ns generalizing d with
  | nil => rfl
  | cons n ns ih =>
      rw [recorded, recording]
      cases fault n.key with
      | some e => rfl
      | none =>
          cases recordBody n etag (document? d n.key) with
          | error e => rfl
          | ok w =>
              cases w with
              | keep => exact ih
              | put x => exact ih (d := write d n)

theorem sublist_recording : (recording fault etag d ns).written.Sublist ns := by
  induction ns generalizing d with
  | nil => exact .slnil
  | cons n ns ih =>
      rw [recording]
      split
      · exact ih.cons n
      · exact ih.cons_cons n
      · exact List.nil_sublist _
      · exact List.nil_sublist _

/-- Recording looks at the documents under the keys of the detections only. -/
theorem recording_congr {d' : Documents}
    (h : ∀ n ∈ ns, document? d n.key = document? d' n.key) :
    recording fault etag d ns = recording fault etag d' ns := by
  induction ns generalizing d d' with
  | nil => rfl
  | cons n ns ih =>
      rw [List.forall_mem_cons] at h
      have hwrite : recording fault etag (write d n) ns = recording fault etag (write d' n) ns := by
        refine ih fun m hm => ?_
        rw [document?_write, document?_write, h.2 m hm]
      rw [recording, recording, h.1, ih h.2, hwrite]

/-- A detection that is written leaves all decisions as they were. -/
theorem recordBody_write (hn : Fresh n) (hadmits : Admits etag d n) (m : Notification) :
    recordBody m etag (document? (write d n) m.key) =
      recordBody m etag (document? d m.key) := by
  rw [document?_write]
  by_cases hkey : n.key = m.key
  · obtain ⟨x, hx⟩ := hadmits
    rw [if_pos hkey, hn.recordBody, ← hkey, recordBody_put hx]
  · rw [if_neg hkey]

theorem accepted_write (hn : Fresh n) (hadmits : Admits etag d n) :
    accepted fault etag (write d n) ns = accepted fault etag d ns := by
  induction ns with
  | nil => rfl
  | cons m ns ih => rw [accepted, accepted, recordBody_write hn hadmits, ih]

theorem accepted_writeEach {ms : List Notification} (hms : ∀ m ∈ ms, Fresh m ∧ Admits etag d m) :
    accepted fault etag (writeEach d ms) ns = accepted fault etag d ns := by
  induction ms generalizing d with
  | nil => rfl
  | cons m ms ih =>
      rw [List.forall_mem_cons] at hms
      obtain ⟨⟨hm, hadmits⟩, hms⟩ := hms
      refine (ih (d := write d m) ?_).trans (accepted_write hm hadmits)
      intro l hl
      refine ⟨(hms l hl).1, ?_⟩
      rw [Admits, recordBody_write hm hadmits]
      exact (hms l hl).2

theorem mem_accepted (hn : n ∈ accepted fault etag d ns) : n ∈ ns ∧ Admits etag d n := by
  induction ns with
  | nil => cases hn
  | cons m ns ih =>
      rw [accepted] at hn
      split at hn
      · exact (ih hn).imp_left (List.mem_cons_of_mem _)
      · next x hfault hx =>
        cases List.mem_cons.1 hn with
        | inl heq => exact ⟨heq ▸ List.mem_cons_self, x, heq ▸ hx⟩
        | inr hmem => exact (ih hmem).imp_left (List.mem_cons_of_mem _)
      · cases hn

/-- Fresh detections are written as if all decisions were made beforehand. -/
theorem written_eq_accepted (h : ∀ n ∈ accepted fault etag d ns, Fresh n) :
    (recording fault etag d ns).written = accepted fault etag d ns := by
  induction ns generalizing d with
  | nil => rfl
  | cons n ns ih =>
      rw [accepted] at h
      rw [recording, accepted]
      cases hfault : fault n.key with
      | some e => rfl
      | none =>
          cases hbody : recordBody n etag (document? d n.key) with
          | error e => rfl
          | ok w =>
              simp only [hfault, hbody] at h
              cases w with
              | keep => exact ih h
              | put x =>
                  obtain ⟨hn, hns⟩ := List.forall_mem_cons.1 h
                  have hsame : accepted fault etag (write d n) ns = accepted fault etag d ns :=
                    accepted_write hn ⟨x, hbody⟩
                  change n :: (recording fault etag (write d n) ns).written = _
                  rw [ih (hsame ▸ hns), hsame]

theorem written_recording (hns : ∀ n ∈ ns, Fresh n) :
    (recording fault etag d ns).written = accepted fault etag d ns :=
  written_eq_accepted fun n hn => hns n (mem_accepted hn).1

/-- If what is written is fresh, then so is what is accepted. -/
theorem fresh_accepted (h : ∀ n ∈ (recording fault etag d ns).written, Fresh n) :
    ∀ n ∈ accepted fault etag d ns, Fresh n := by
  induction ns generalizing d with
  | nil => exact List.forall_mem_nil _
  | cons n ns ih =>
      rw [recording] at h
      rw [accepted]
      cases hfault : fault n.key with
      | some e => exact List.forall_mem_nil _
      | none =>
          cases hbody : recordBody n etag (document? d n.key) with
          | error e => exact List.forall_mem_nil _
          | ok w =>
              simp only [hfault, hbody] at h
              cases w with
              | keep => exact ih h
              | put x =>
                  obtain ⟨hn, hns⟩ := List.forall_mem_cons.1 h
                  refine List.forall_mem_cons.2 ⟨hn, ?_⟩
                  rw [← accepted_write hn ⟨x, hbody⟩]
                  exact ih hns

/-- If what is written is fresh, recording the same again changes nothing. -/
theorem recorded_recorded (h : ∀ n ∈ (recording fault etag d ns).written, Fresh n) :
    recorded fault etag (recorded fault etag d ns) ns = recorded fault etag d ns := by
  have hfresh : ∀ n ∈ accepted fault etag d ns, Fresh n := fresh_accepted h
  have hadmits : ∀ n ∈ accepted fault etag d ns, Fresh n ∧ Admits etag d n :=
    fun n hn => ⟨hfresh n hn, (mem_accepted hn).2⟩
  have hsame : accepted fault etag (writeEach d (accepted fault etag d ns)) ns =
      accepted fault etag d ns := accepted_writeEach hadmits
  rw [recorded_eq_writeEach (d := d), written_eq_accepted hfresh, recorded_eq_writeEach,
    written_eq_accepted (hsame.symm ▸ hfresh), hsame, writeEach_writeEach]

/-- What is recorded does not replace what cannot be read. -/
theorem Stuck.recordBody (h : Stuck d n) (etag : String) (hkey : m.key = n.key) :
    ∃ e, NotificationStore.recordBody m etag (document? d m.key) = .error e := by
  rw [hkey, h.stored, NotificationStore.recordBody]
  cases hdecode : decode n.encode with
  | error e => exact ⟨e, rfl⟩
  | ok old =>
      have hfinite := (decode_eq_ok.1 hdecode).1
      rw [h.infinite] at hfinite
      cases hfinite

theorem Stuck.write (h : Stuck d n) {x : Value}
    (hbody : NotificationStore.recordBody m etag (document? d m.key) = .ok (.put x)) :
    Stuck (NotificationStore.write d m) n := by
  refine ⟨?_, h.unsent, h.infinite⟩
  rw [document?_write, if_neg, h.stored]
  intro hkey
  obtain ⟨e, he⟩ := h.recordBody etag hkey
  cases hbody.symm.trans he

theorem Stuck.recorded (h : Stuck d n) : Stuck (recorded fault etag d ns) n := by
  induction ns generalizing d with
  | nil => exact h
  | cons m ns ih =>
      rw [NotificationStore.recorded]
      split
      · exact ih h
      · next hbody => exact ih (h.write hbody)
      · exact h

/-- Recording fails at the latest where it comes to what is stored already and cannot be read. -/
theorem Stuck.fault_recording (h : Stuck d n) (fault : String → Option Fault) (etag : String)
    (hn : n ∈ ns) :
    ∃ e, (recording fault etag d ns).fault = some e := by
  induction ns generalizing d with
  | nil => cases hn
  | cons m ns ih =>
      rw [recording]
      have htail : (∃ e, NotificationStore.recordBody m etag (document? d m.key) = .error e) ∨
          n ∈ ns := by
        obtain rfl | hmem := List.mem_cons.1 hn
        · exact .inl (h.recordBody etag rfl)
        · exact .inr hmem
      split
      · next hbody =>
        obtain ⟨e, he⟩ | hmem := htail
        · cases hbody.symm.trans he
        · exact ih h hmem
      · next hbody =>
        obtain ⟨e, he⟩ | hmem := htail
        · cases hbody.symm.trans he
        · exact ih (h.write hbody) hmem
      · exact ⟨_, rfl⟩
      · exact ⟨_, rfl⟩

/-- What is written and cannot be read stays as it is to the end. -/
theorem stuck_recorded (hn : n ∈ (recording fault etag d ns).written)
    (hunsent : n.sent = none) (hinfinite : Decimal.isFinite n.value = false) :
    Stuck (recorded fault etag d ns) n := by
  induction ns generalizing d with
  | nil => cases hn
  | cons m ns ih =>
      rw [recording] at hn
      rw [NotificationStore.recorded]
      cases hfault : fault m.key with
      | some e =>
          rw [hfault] at hn
          cases hn
      | none =>
          cases hbody : NotificationStore.recordBody m etag (document? d m.key) with
          | error e =>
              simp only [hfault, hbody] at hn
              cases hn
          | ok w =>
              simp only [hfault, hbody] at hn
              cases w with
              | keep => exact ih hn
              | put x =>
                  obtain rfl | hmem := List.mem_cons.1 hn
                  · refine Stuck.recorded ⟨?_, hunsent, hinfinite⟩
                    rw [document?_write, if_pos rfl]
                  · exact ih hmem

/-- Of unsent detections that are written, all are fresh or one cannot be read from then on. -/
theorem fresh_or_stuck (fault : String → Option Fault) (etag : String) (d : Documents)
    (hns : ∀ n ∈ ns, n.sent = none) :
    (∀ n ∈ (recording fault etag d ns).written, Fresh n) ∨
      ∃ n ∈ ns, Stuck (recorded fault etag d ns) n := by
  by_cases h : ∃ n ∈ (recording fault etag d ns).written, Decimal.isFinite n.value = false
  · obtain ⟨n, hn, hinfinite⟩ := h
    have hmem : n ∈ ns := sublist_recording.subset hn
    exact .inr ⟨n, hmem, stuck_recorded hn (hns n hmem) hinfinite⟩
  · refine .inl fun n hn => ⟨?_, hns n (sublist_recording.subset hn)⟩
    by_contra hinfinite
    exact h ⟨n, hn, Bool.eq_false_iff.2 hinfinite⟩

theorem document?_recorded_of_notMem {k : String} (hk : k ∉ ns.map (·.key)) :
    document? (recorded fault etag d ns) k = document? d k := by
  induction ns generalizing d with
  | nil => rfl
  | cons n ns ih =>
      rw [List.map_cons, List.mem_cons, not_or] at hk
      rw [recorded]
      split
      · exact ih hk.2
      · rw [ih hk.2, document?_write, if_neg (Ne.symm hk.1)]
      · rfl

/-- Recording detections with different keys again changes nothing, whatever their values are:
the first one that cannot be replaced is the one that was written there. -/
theorem recorded_recorded_of_nodup (hkeys : (ns.map (·.key)).Nodup) :
    recorded fault etag (recorded fault etag d ns) ns = recorded fault etag d ns := by
  induction ns generalizing d with
  | nil => rfl
  | cons n ns ih =>
      rw [List.map_cons, List.nodup_cons] at hkeys
      cases hfault : fault n.key with
      | some e => simp only [recorded, hfault]
      | none =>
          cases hbody : recordBody n etag (document? d n.key) with
          | error e => simp only [recorded, hfault, hbody]
          | ok w =>
              cases w with
              | keep =>
                  simp only [recorded, hfault, hbody, document?_recorded_of_notMem hkeys.1]
                  exact ih hkeys.2
              | put x =>
                  have hwritten : (recording fault etag (write d n) ns).written.Sublist ns :=
                    sublist_recording
                  have hagain : write (recorded fault etag (write d n) ns) n =
                      recorded fault etag (write d n) ns := by
                    rw [recorded_eq_writeEach, write_writeEach_of_notMem
                      fun hmem => hkeys.1 ((hwritten.map _).subset hmem), write_write rfl]
                  simp only [recorded, hfault, hbody]
                  split
                  · exact ih hkeys.2
                  · rw [hagain]
                    exact ih hkeys.2
                  · rfl

end NotificationStore

end SpendAlerts

import SpendAlerts.Proofs.Store.Readability
import SpendAlerts.Proofs.Store.Repetition

/-!
Recording over documents that can all be read. Then no decision fails, and a detection is
written unless its key is closed: the notification there was sent under the same etag. Writing
a detection that can be read opens and closes no key, so the detections that are written are
those whose keys are open in the beginning.
-/

namespace SpendAlerts

namespace NotificationStore

variable {d : Documents} {n : Notification} {ns : List Notification} {etag : String}
  {fault : String → Option Fault}

/-- The notification under the key was sent under the etag. -/
def isClosed (etag : String) (d : Documents) (k : String) : Bool :=
  ((document? d k).bind fun doc => (decode doc).toOption).any fun old =>
    old.etag = etag && old.isSent

theorem Readable.recordBody (hd : Readable d) (n : Notification) (etag : String) :
    NotificationStore.recordBody n etag (document? d n.key) =
      .ok (if isClosed etag d n.key then .keep else .put n.encode) := by
  rw [isClosed]
  cases hdoc : document? d n.key with
  | none => rfl
  | some doc =>
      obtain ⟨old, hold⟩ := hd n.key doc hdoc
      simp only [NotificationStore.recordBody, hold, Option.bind_some, Except.toOption,
        Option.any_some, Bool.and_eq_true, decide_eq_true_eq]
      split
      · rfl
      · rfl

theorem Readable.write (hd : Readable d) (hn : Decimal.isFinite n.value = true) :
    Readable (NotificationStore.write d n) := by
  intro k doc hdoc
  rw [document?_write] at hdoc
  by_cases hk : n.key = k
  · rw [if_pos hk] at hdoc
    cases hdoc
    exact ⟨n, decode_eq_ok.2 ⟨hn, rfl⟩⟩
  · rw [if_neg hk] at hdoc
    exact hd k doc hdoc

theorem Readable.accepted (hd : Readable d) (hfault : ∀ k, fault k = none) :
    NotificationStore.accepted fault etag d ns = ns.filter fun n => !isClosed etag d n.key := by
  induction ns with
  | nil => rfl
  | cons n ns ih =>
      rw [NotificationStore.accepted, hfault, hd.recordBody, List.filter_cons, ih]
      cases isClosed etag d n.key with
      | true => rfl
      | false => rfl

theorem Readable.fault_recording (hd : Readable d) (hfault : ∀ k, fault k = none)
    (hns : ∀ n ∈ ns, Decimal.isFinite n.value = true) :
    (recording fault etag d ns).fault = none := by
  induction ns generalizing d with
  | nil => rfl
  | cons n ns ih =>
      rw [List.forall_mem_cons] at hns
      rw [recording, hfault, hd.recordBody]
      cases isClosed etag d n.key with
      | true => exact ih hd hns.2
      | false => exact ih (hd.write hns.1) hns.2

/-- Detections that can be read again are all recorded but for those with closed keys. -/
theorem Readable.recording_fresh (hd : Readable d) (hfault : ∀ k, fault k = none)
    (hns : ∀ n ∈ ns, Fresh n) :
    recording fault etag d ns = ⟨ns.filter fun n => !isClosed etag d n.key, none⟩ := by
  have hwritten : (recording fault etag d ns).written = ns.filter fun n => !isClosed etag d n.key :=
    (written_recording hns).trans (hd.accepted hfault)
  rw [← hwritten, ← hd.fault_recording hfault fun n hn => (hns n hn).finite]

/-- So is one detection alone, whatever its value is. -/
theorem Readable.recording_singleton (hd : Readable d) (hfault : ∀ k, fault k = none) :
    recording fault etag d [n] = ⟨[n].filter fun n => !isClosed etag d n.key, none⟩ := by
  rw [recording, hfault, hd.recordBody, List.filter_cons]
  cases isClosed etag d n.key with
  | true => rfl
  | false => rfl

end NotificationStore

end SpendAlerts

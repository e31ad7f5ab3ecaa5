import SpendAlerts.Proofs.Document.Alert
import SpendAlerts.Proofs.Store.Calls

/-!
The store of alerts, as far as versions go. Reading changes nothing, putting an alert
makes its etag the current one, and remembering when an alert was included in a digest
makes no etag current that was not current before. What is read under an id depends on
the document there alone.
-/

namespace SpendAlerts

namespace AlertStore

def read (d : Documents) (id : String) : Except Fault Alert :=
  match d.find? collectionName id with
  | none => .error (.notFound collectionName id)
  | some doc => ofDocument id doc

/-- The etag in the document under an id, if that is the document of an alert. -/
def etag? (d : Documents) (id : String) : Option String :=
  match (d.find? collectionName id).map Alert.decode with
  | some (.ok a) => some a.etag
  | _ => none

theorem read_eq_ok {d : Documents} {id : String} {a : Alert} (h : read d id = .ok a) :
    a.id = id ∧ etag? d id = some a.etag ∧ d.find? collectionName id ≠ none := by
  rw [read] at h
  split at h
  · cases h
  · next doc hdoc =>
    rw [ofDocument] at h
    split at h
    · cases h
    · split at h
      · next b hb =>
        cases h
        simp [etag?, hdoc, hb]
      · cases h

theorem get_apply (id : String) (s : Session) : get id s =
    (if s.context.isCancelled then .error .cancelled else read s.documents id,
      { s with context := s.context.looked }) := by
  rw [get, bind_apply, Documents.getDoc_apply]
  cases s.context.isCancelled with
  | true => rfl
  | false =>
      simp only [Bool.false_eq_true, if_false, read]
      cases s.documents.find? collectionName id with
      | none => rfl
      | some doc => exact StoreM.ofExcept_apply _ _

theorem reads_get (id : String) : (get id).Reads := by
  intro s
  rw [get_apply]

theorem read_of_get {id : String} {a : Alert} {s s' : Session} (h : get id s = (.ok a, s')) :
    read s.documents id = .ok a := by
  rw [get_apply] at h
  have hread := (Prod.mk.inj h).1
  split at hread
  · cases hread
  · exact hread

/-- The second documents hold no alert and no etag that the first do not hold. -/
def Keeps (d d' : Documents) : Prop :=
  ∀ id, (d.find? collectionName id = none → d'.find? collectionName id = none) ∧
    ∀ e, etag? d' id = some e → etag? d id = some e

theorem Keeps.refl (d : Documents) : Keeps d d := fun _ => ⟨id, fun _ => id⟩

theorem Keeps.trans {d d' d'' : Documents} (h : Keeps d d') (h' : Keeps d' d'') : Keeps d d'' :=
  fun id => ⟨(h' id).1 ∘ (h id).1, fun e he => (h id).2 e ((h' id).2 e he)⟩

theorem put_cases {a : Alert} {s s' : Session} {r : Except Fault Unit} (h : put a s = (r, s')) :
    (s.context.isCancelled = true ∧ s'.documents = s.documents) ∨
      (s.context.isCancelled = false ∧
        s'.documents = s.documents.insert collectionName a.id a.encode) := by
  rw [put, Documents.putDoc_apply] at h
  cases hc : s.context.isCancelled with
  | true =>
      simp only [hc, if_true] at h
      obtain ⟨-, rfl⟩ := Prod.mk.inj h
      exact .inl ⟨rfl, rfl⟩
  | false =>
      simp only [hc, Bool.false_eq_true, if_false] at h
      obtain ⟨-, rfl⟩ := Prod.mk.inj h
      exact .inr ⟨rfl, rfl⟩

theorem etag?_insert {d : Documents} {a : Alert} {key id e : String}
    (h : etag? (d.insert collectionName key a.encode) id = some e) :
    if key = id then e = a.etag else etag? d id = some e := by
  by_cases hid : key = id
  · subst hid
    simp only [etag?, Documents.find?_insert, and_self, if_true, Option.map_some] at h ⊢
    split at h
    · next b hb =>
      cases h
      exact congrArg Alert.etag (Alert.eq_of_decode_encode (Option.some.inj hb))
    · cases h
  · simpa [etag?, Documents.find?_insert, hid] using h

/-- Remembering a digest touches one document only, and leaves its etag as it is. -/
theorem updateNotified_keeps {id : String} {time : Instant} {s s' : Session}
    {r : Except Fault Unit} (h : updateNotified id time s = (r, s')) :
    Keeps s.documents s'.documents ∧
      ∀ other, other ≠ id → read s'.documents other = read s.documents other := by
  rw [updateNotified_eq_rewrite] at h
  obtain ⟨-, hsame⟩ | ⟨stored, a, -, -, hdoc, ha, -, hput⟩ := Documents.rewrite_cases h
  · rw [hsame]
    exact ⟨.refl _, fun _ _ => rfl⟩
  · rw [hput]
    refine ⟨?_, ?_⟩
    · intro other
      by_cases hid : id = other
      · subst hid
        refine ⟨fun hnone => ?_, fun e he => ?_⟩
        · rw [hdoc] at hnone
          cases hnone
        · have hetag := etag?_insert he
          simp only [if_true] at hetag
          simp [etag?, hdoc, ha, hetag]
      · refine ⟨fun hnone => ?_, fun e he => ?_⟩
        · simpa [Documents.find?_insert, hid] using hnone
        · simpa [hid] using etag?_insert he
    · intro other hne
      simp [read, Documents.find?_insert, Ne.symm hne]

end AlertStore

end SpendAlerts

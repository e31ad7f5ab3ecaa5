import SpendAlerts.Document.Decode

/-!
What records are read as. A reading gives a value for the fields of a record if every
field that it knows is readable where it is present, and what it makes of the fields is
that value. The statements follow the way readings are put together, field by field, so
that a record type has one line per field; whether a record lists its fields in order
does not matter, only that no name occurs twice.
-/

namespace SpendAlerts

namespace Entries

variable {α : Type}

theorem find?_of_mem_nodup {k : String} {x : α} {es : List (String × α)}
    (hn : (es.map (·.1)).Nodup) (h : (k, x) ∈ es) : find? k es = some x := by
  induction es with
  | nil => simp at h
  | cons first rest ih =>
      obtain ⟨k', y⟩ := first
      rw [List.map_cons, List.nodup_cons] at hn
      rcases List.mem_cons.1 h with h | h
      · cases h
        simp [find?]
      · have hne : k' ≠ k := by
          rintro rfl
          exact hn.1 (List.mem_map.2 ⟨_, h, rfl⟩)
        simpa [find?, hne] using ih hn.2 h

theorem find?_append (k : String) (a b : List (String × α)) :
    find? k (a ++ b) = (find? k a).or (find? k b) := by
  induction a with
  | nil => rfl
  | cons e rest ih =>
      obtain ⟨k', y⟩ := e
      simp only [List.cons_append, find?, ih]
      split <;> rfl

end Entries

theorem Value.find?_present {α : Type} (k name : String) (f : α → Value) (o : Option α) :
    Entries.find? k (Value.present name f o) = if name = k then o.map f else none := by
  cases o with
  | none => simp [Value.present, Entries.find?]
  | some x => simp [Value.present, Entries.find?]

namespace Reading

variable {α β : Type}

structure Gives (r : Reading α) (fields : List (String × Value)) (x : α) : Prop where
  get : r.get fields = .ok x
  readable : ∀ c ∈ r.checks, ∀ v, Entries.find? c.name fields = some v → c.wrong? v = none

theorem Gives.seq {f : Reading (α → β)} {r : Reading α} {fields : List (String × Value)}
    {g : α → β} {x : α} (hf : f.Gives fields g) (hr : r.Gives fields x) :
    (f <*> r).Gives fields (g x) where
  get := by
    change (f.and r).get fields = _
    simp only [Reading.and, hf.get, hr.get]
    rfl
  readable c hc v hv := by
    rcases List.mem_append.1 hc with hc | hc
    · exact hf.readable c hc v hv
    · exact hr.readable c hc v hv

theorem Gives.map {r : Reading α} {fields : List (String × Value)} {x : α} (g : α → β)
    (hr : r.Gives fields x) : (g <$> r).Gives fields (g x) :=
  Gives.seq ⟨rfl, fun _ hc => by cases hc⟩ hr

/-- A field that is there and decodes. -/
theorem Gives.present {name : String} {decode : Decoder α} {default : Option α}
    {fields : List (String × Value)} {v : Value} {x : α}
    (hv : Entries.find? name fields = some v) (hx : decode v = .ok x) :
    (fieldOr name decode default).Gives fields x where
  get := by simp [fieldOr, hv, hx]
  readable c hc w hw := by
    rw [fieldOr, List.mem_singleton] at hc
    subst hc
    rw [hv, Option.some.injEq] at hw
    subst hw
    simp [hx, failure?]

/-- A field that is not there and has a default. -/
theorem Gives.absent {name : String} {decode : Decoder α} {fields : List (String × Value)}
    {x : α} (hv : Entries.find? name fields = none) :
    (fieldOr name decode (some x)).Gives fields x where
  get := by simp [fieldOr, hv]
  readable c hc w hw := by
    rw [fieldOr, List.mem_singleton] at hc
    subst hc
    simp [hv] at hw

/-- A field that is left out where there is nothing to write. -/
theorem Gives.optional {name : String} {decode : Decoder α} {f : α → Value}
    {fields : List (String × Value)} {o : Option α}
    (hv : Entries.find? name fields = o.map f)
    (hf : ∀ x, Decode.option decode (f x) = .ok (some x)) :
    (Reading.optional name decode).Gives fields o := by
  cases o with
  | none => exact .absent hv
  | some x => exact .present hv (hf x)

theorem firstWrong?_eq_none {checks : List FieldCheck} {fields : List (String × Value)} :
    firstWrong? checks fields = none ↔
      ∀ k v, (k, v) ∈ fields → (checks.find? (·.name = k)).bind (·.wrong? v) = none := by
  simp only [firstWrong?, List.findSome?_eq_none_iff, Prod.forall]

theorem Gives.ofFields {r : Reading α} {fields : List (String × Value)} {x : α}
    (hr : r.Gives fields x) (hn : (fields.map (·.1)).Nodup) : r.ofFields fields = .ok x := by
  have hnone : firstWrong? r.checks fields = none := by
    rw [firstWrong?_eq_none]
    intro k v hkv
    cases hc : r.checks.find? (·.name = k) with
    | none => rfl
    | some c =>
        have hname : c.name = k := by simpa using List.find?_some hc
        exact hr.readable c (List.mem_of_find?_eq_some hc) v
          (hname ▸ Entries.find?_of_mem_nodup hn hkv)
  simp [Reading.ofFields, hnone, hr.get]

theorem get_of_ofFields {r : Reading α} {fields : List (String × Value)} {x : α}
    (h : r.ofFields fields = .ok x) : r.get fields = .ok x := by
  rw [Reading.ofFields] at h
  split at h
  · cases h
  · exact h

/-- A record that is read has no field of the wrong type. -/
theorem wrong?_of_ofFields {r : Reading α} {fields : List (String × Value)} {x : α}
    (h : r.ofFields fields = .ok x) {c : FieldCheck} {v : Value}
    (hc : r.checks.find? (·.name = c.name) = some c) (hv : (c.name, v) ∈ fields) :
    c.wrong? v = none := by
  rw [Reading.ofFields] at h
  split at h
  · cases h
  · rename_i hnone
    simpa [hc] using firstWrong?_eq_none.1 hnone _ _ hv

theorem get_seq {f : Reading (α → β)} {r : Reading α} {fields : List (String × Value)} {y : β} :
    (f <*> r).get fields = .ok y ↔
      ∃ g x, f.get fields = .ok g ∧ r.get fields = .ok x ∧ g x = y := by
  change (f.and r).get fields = _ ↔ _
  simp only [Reading.and]
  cases hf : f.get fields with
  | error e => simp [bind, Except.bind]
  | ok g =>
      cases hr : r.get fields with
      | error e => simp [bind, Except.bind]
      | ok x => simp [bind, Except.bind]

theorem get_map {r : Reading α} {fields : List (String × Value)} {g : α → β} {y : β} :
    (g <$> r).get fields = .ok y ↔ ∃ x, r.get fields = .ok x ∧ g x = y := by
  change (pure g <*> r).get fields = _ ↔ _
  rw [get_seq]
  simp [Reading.pure]

theorem get_fieldOr {name : String} {decode : Decoder α} {default : Option α}
    {fields : List (String × Value)} {v : Value} (hv : Entries.find? name fields = some v) :
    (fieldOr name decode default).get fields = decode v := by
  simp [fieldOr, hv]

end Reading

end SpendAlerts

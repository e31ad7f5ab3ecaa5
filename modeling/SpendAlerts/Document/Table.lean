/-!
Tables sorted by a text key. Insertion and removal work on plain lists of pairs, and
`Table` bundles such a list with the proof that its keys are strictly increasing. Two
tables with the same look-ups are equal, so the order of insertions does not show.
-/

namespace SpendAlerts

namespace Entries

variable {α : Type}

/-- Puts a value in front of the first larger key, replacing one under the same key. -/
def insert (key : String) (x : α) : List (String × α) → List (String × α)
  | [] => [(key, x)]
  | (k, y) :: rest =>
      if key < k then (key, x) :: (k, y) :: rest
      else if key = k then (key, x) :: rest
      else (k, y) :: insert key x rest

def erase (key : String) (es : List (String × α)) : List (String × α) :=
  es.filter (·.1 ≠ key)

def find? (key : String) : List (String × α) → Option α
  | [] => none
  | (k, x) :: rest => if k = key then some x else find? key rest

/-- Sorts by key; of several values under one key the last one stays. -/
def ofList (es : List (String × α)) : List (String × α) :=
  es.foldl (fun sorted (k, x) => insert k x sorted) []

def Ordered (es : List (String × α)) : Prop :=
  es.Pairwise fun a b => a.1 < b.1

theorem mem_insert {key : String} {x : α} {es : List (String × α)} {e : String × α}
    (h : e ∈ insert key x es) : e = (key, x) ∨ e ∈ es := by
  induction es with
  | nil => simpa [insert] using h
  | cons first rest ih =>
      obtain ⟨k, y⟩ := first
      simp only [insert] at h
      split at h
      · simpa using h
      · split at h
        · rcases List.mem_cons.1 h with h | h
          · exact .inl h
          · exact .inr (List.mem_cons_of_mem _ h)
        · rcases List.mem_cons.1 h with h | h
          · exact .inr (h ▸ List.mem_cons_self)
          · exact (ih h).imp_right (List.mem_cons_of_mem _)

theorem lt_of_not_lt_of_ne {a b : String} (h : ¬a < b) (hne : a ≠ b) : b < a := by
  refine Decidable.byContradiction fun hba => hne ?_
  exact String.le_antisymm (String.not_lt.1 hba) (String.not_lt.1 h)

theorem ordered_insert (key : String) (x : α) {es : List (String × α)} (h : Ordered es) :
    Ordered (insert key x es) := by
  induction es with
  | nil => simp [insert, Ordered]
  | cons first rest ih =>
      obtain ⟨k, y⟩ := first
      have hrest := List.pairwise_cons.1 h
      simp only [insert]
      split
      · rename_i hk
        refine List.pairwise_cons.2 ⟨fun e he => ?_, h⟩
        rcases List.mem_cons.1 he with he | he
        · exact he ▸ hk
        · exact String.lt_trans hk (hrest.1 e he)
      · split
        · rename_i heq
          subst heq
          exact List.pairwise_cons.2 ⟨hrest.1, hrest.2⟩
        · rename_i hk hne
          refine List.pairwise_cons.2 ⟨fun e he => ?_, ih hrest.2⟩
          rcases mem_insert he with he | he
          · exact he ▸ lt_of_not_lt_of_ne hk hne
          · exact hrest.1 e he

theorem ordered_erase (key : String) {es : List (String × α)} (h : Ordered es) :
    Ordered (erase key es) :=
  List.Pairwise.sublist List.filter_sublist h

theorem ordered_foldl_insert (es sorted : List (String × α)) (h : Ordered sorted) :
    Ordered (es.foldl (fun sorted (k, x) => insert k x sorted) sorted) := by
  induction es generalizing sorted with
  | nil => exact h
  | cons e rest ih => exact ih _ (ordered_insert e.1 e.2 h)

theorem ordered_ofList (es : List (String × α)) : Ordered (ofList es) :=
  ordered_foldl_insert es [] List.Pairwise.nil

theorem find?_insert (key k : String) (x : α) (es : List (String × α)) :
    find? k (insert key x es) = if key = k then some x else find? k es := by
  induction es with
  | nil => rfl
  | cons first rest ih =>
      obtain ⟨k', y⟩ := first
      simp only [insert]
      split
      · rfl
      · split
        · rename_i heq
          subst heq
          simp only [find?]
          split <;> rfl
        · rename_i hne
          simp only [find?, ih]
          by_cases h : k' = k
          · subst h
            simp [hne]
          · simp [h]

theorem find?_erase (key k : String) (es : List (String × α)) :
    find? k (erase key es) = if key = k then none else find? k es := by
  induction es with
  | nil => simp [erase, find?]
  | cons first rest ih =>
      obtain ⟨k', y⟩ := first
      simp only [erase, List.filter_cons] at ih ⊢
      by_cases h : k' = key
      · subst h
        simp only [ne_eq, not_true, decide_false, Bool.false_eq_true, if_false, ih, find?]
        split <;> rfl
      · simp only [ne_eq, h, not_false_eq_true, decide_true, if_true, find?, ih]
        by_cases hk : k' = k
        · subst hk
          simp [Ne.symm h]
        · simp [hk]

theorem mem_of_find? {k : String} {x : α} {es : List (String × α)} (h : find? k es = some x) :
    (k, x) ∈ es := by
  induction es with
  | nil => simp [find?] at h
  | cons first rest ih =>
      obtain ⟨k', y⟩ := first
      simp only [find?] at h
      split at h
      · rename_i heq
        cases h
        exact heq ▸ List.mem_cons_self
      · exact List.mem_cons_of_mem _ (ih h)

theorem find?_of_mem {k : String} {x : α} {es : List (String × α)} (ho : Ordered es)
    (h : (k, x) ∈ es) : find? k es = some x := by
  induction es with
  | nil => simp at h
  | cons first rest ih =>
      obtain ⟨k', y⟩ := first
      have hrest := List.pairwise_cons.1 ho
      rcases List.mem_cons.1 h with h | h
      · cases h
        simp [find?]
      · have hlt : k' < k := hrest.1 _ h
        simp [find?, (String.ne_of_lt hlt), ih hrest.2 h]

/-- A key stands in ordered entries with the value that a look-up finds. -/
theorem mem_iff_find? {k : String} {x : α} {es : List (String × α)} (ho : Ordered es) :
    (k, x) ∈ es ↔ find? k es = some x :=
  ⟨find?_of_mem ho, mem_of_find?⟩

/-- Ordered entries are determined by their members. -/
theorem eq_of_mem_iff {a b : List (String × α)} (ha : Ordered a) (hb : Ordered b)
    (h : ∀ e, e ∈ a ↔ e ∈ b) : a = b := by
  induction a generalizing b with
  | nil => exact (List.eq_nil_iff_forall_not_mem.2 fun e he => by simpa using (h e).2 he).symm
  | cons x xs ih =>
      cases b with
      | nil => exact absurd ((h x).1 List.mem_cons_self) (by simp)
      | cons y ys =>
          have hx := List.pairwise_cons.1 ha
          have hy := List.pairwise_cons.1 hb
          have heq : x = y := by
            rcases List.mem_cons.1 ((h x).1 List.mem_cons_self) with hxy | hxy
            · exact hxy
            · rcases List.mem_cons.1 ((h y).2 List.mem_cons_self) with hyx | hyx
              · exact hyx.symm
              · exact absurd (String.lt_trans (hy.1 x hxy) (hx.1 y hyx)) (String.lt_irrefl _)
          subst heq
          refine congrArg (x :: ·) (ih hx.2 hy.2 fun e => ⟨fun he => ?_, fun he => ?_⟩)
          · rcases List.mem_cons.1 ((h e).1 (List.mem_cons_of_mem _ he)) with hxe | hxe
            · exact absurd (hx.1 e he) (hxe ▸ String.lt_irrefl _)
            · exact hxe
          · rcases List.mem_cons.1 ((h e).2 (List.mem_cons_of_mem _ he)) with hxe | hxe
            · exact absurd (hy.1 e he) (hxe ▸ String.lt_irrefl _)
            · exact hxe

end Entries

structure Table (α : Type) where
  entries : List (String × α)
  ordered : Entries.Ordered entries

namespace Table

variable {α : Type}

theorem ext_entries {a b : Table α} (h : a.entries = b.entries) : a = b := by
  cases a
  cases b
  cases h
  rfl

def empty : Table α := ⟨[], List.Pairwise.nil⟩

instance : EmptyCollection (Table α) := ⟨empty⟩
instance : Inhabited (Table α) := ⟨empty⟩

def find? (t : Table α) (key : String) : Option α :=
  Entries.find? key t.entries

def insert (t : Table α) (key : String) (x : α) : Table α :=
  ⟨Entries.insert key x t.entries, Entries.ordered_insert key x t.ordered⟩

def erase (t : Table α) (key : String) : Table α :=
  ⟨Entries.erase key t.entries, Entries.ordered_erase key t.ordered⟩

@[simp]
theorem find?_empty (key : String) : (∅ : Table α).find? key = none := rfl

@[simp]
theorem erase_empty (key : String) : (∅ : Table α).erase key = ∅ := rfl

@[simp]
theorem find?_insert (t : Table α) (key k : String) (x : α) :
    (t.insert key x).find? k = if key = k then some x else t.find? k :=
  Entries.find?_insert key k x t.entries

@[simp]
theorem find?_erase (t : Table α) (key k : String) :
    (t.erase key).find? k = if key = k then none else t.find? k :=
  Entries.find?_erase key k t.entries

/-- Tables with the same look-ups are equal. -/
theorem ext_find? {a b : Table α} (h : ∀ key, a.find? key = b.find? key) : a = b :=
  ext_entries <| Entries.eq_of_mem_iff a.ordered b.ordered fun (k, x) =>
    (Entries.mem_iff_find? a.ordered).trans <|
      Iff.trans (by rw [← find?, ← find?, h]) (Entries.mem_iff_find? b.ordered).symm

def ofList (es : List (String × α)) : Table α :=
  ⟨Entries.ofList es, Entries.ordered_ofList es⟩

def size (t : Table α) : Nat := t.entries.length

def keys (t : Table α) : List String := t.entries.map (·.1)

def values (t : Table α) : List α := t.entries.map (·.2)

theorem ordered_map {β : Type} (f : String → α → β) {es : List (String × α)}
    (h : Entries.Ordered es) : Entries.Ordered (es.map fun e => (e.1, f e.1 e.2)) :=
  List.pairwise_map.2 h

/-- Applies a function to every value, keeping the keys. -/
def map {β : Type} (f : α → β) (t : Table α) : Table β :=
  ⟨t.entries.map fun e => (e.1, f e.2), ordered_map (fun _ => f) t.ordered⟩

/-- Appends to the list under a key, starting one where there is none. -/
def push (t : Table (List α)) (key : String) (x : α) : Table (List α) :=
  t.insert key ((t.find? key).getD [] ++ [x])

end Table

end SpendAlerts

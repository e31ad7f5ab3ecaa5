import SpendAlerts.Document.Table

/-!
Tables as multisets of entries. An insertion is the new entry together with all others,
the entries under other keys are what a removal leaves, and pushing elements one after
the other files each under its key without losing or repeating any. Insertions under one
key replace each other, and those under different keys commute.
-/

namespace SpendAlerts

namespace Entries

variable {α : Type}

theorem erase_of_lt {key : String} {es : List (String × α)} (h : ∀ e ∈ es, key < e.1) :
    erase key es = es := by
  refine List.filter_eq_self.2 ?_
  intro e he
  have hne : e.1 ≠ key := fun heq => String.lt_irrefl key (heq ▸ h e he)
  simp [hne]

theorem perm_insert (key : String) (x : α) {es : List (String × α)} (ho : Ordered es) :
    (insert key x es).Perm ((key, x) :: erase key es) := by
  induction es with
  | nil => exact .refl _
  | cons first rest ih =>
      obtain ⟨k, y⟩ := first
      obtain ⟨hfirst, hrest⟩ := List.pairwise_cons.1 ho
      simp only [insert]
      split
      · next hlt =>
        have hall : ∀ e ∈ (k, y) :: rest, key < e.1 :=
          List.forall_mem_cons.2 ⟨hlt, fun e he => String.lt_trans hlt (hfirst e he)⟩
        rw [erase_of_lt hall]
      · split
        · next heq =>
          subst heq
          have : erase key ((key, y) :: rest) = rest := by
            rw [← erase_of_lt hfirst]
            simp [erase]
          rw [this]
        · next hne =>
          have : erase key ((k, y) :: rest) = (k, y) :: erase key rest := by
            simp [erase, Ne.symm hne]
          rw [this]
          exact ((ih hrest).cons _).trans (.swap _ _ _)

theorem perm_erase (key : String) {es : List (String × α)} (ho : Ordered es) :
    es.Perm ((find? key es).toList.map (key, ·) ++ erase key es) := by
  induction es with
  | nil => exact .refl _
  | cons first rest ih =>
      obtain ⟨k, y⟩ := first
      obtain ⟨hfirst, hrest⟩ := List.pairwise_cons.1 ho
      by_cases heq : k = key
      · subst heq
        have : erase k ((k, y) :: rest) = rest := by
          rw [← erase_of_lt hfirst]
          simp [erase]
        simp [find?, this]
      · have : erase key ((k, y) :: rest) = (k, y) :: erase key rest := by
          simp [erase, heq]
        rw [this, find?]
        simp only [heq, if_false]
        exact ((ih hrest).cons _).trans List.perm_middle.symm

/-- Under keys that are all different, what is found is what is there. -/
theorem find?_eq_some_iff {es : List (String × α)} (h : (es.map (·.1)).Nodup) {k : String}
    {x : α} : find? k es = some x ↔ (k, x) ∈ es := by
  refine ⟨mem_of_find?, fun hmem => ?_⟩
  induction es with
  | nil => cases hmem
  | cons first rest ih =>
      obtain ⟨hfirst, hrest⟩ := List.nodup_cons.1 h
      rw [find?]
      cases List.mem_cons.1 hmem with
      | inl heq => rw [← heq, if_pos rfl]
      | inr hmem =>
          have hkey : first.1 ≠ k := by
            rintro rfl
            exact hfirst (List.mem_map.2 ⟨_, hmem, rfl⟩)
          rw [if_neg hkey]
          exact ih hrest hmem

end Entries

namespace Table

variable {α : Type}

theorem find?_of_mem_entries {t : Table α} {k : String} {x : α} (h : (k, x) ∈ t.entries) :
    t.find? k = some x :=
  (Entries.mem_iff_find? t.ordered).1 h

theorem nodup_keys (t : Table α) : t.keys.Nodup := by
  refine List.pairwise_map.2 (t.ordered.imp ?_)
  intro a b hlt heq
  exact String.lt_irrefl b.1 (heq ▸ hlt)

theorem mem_values {t : Table α} {x : α} : x ∈ t.values ↔ ∃ k, t.find? k = some x := by
  rw [values, List.mem_map]
  constructor
  · rintro ⟨⟨k, x⟩, he, rfl⟩
    exact ⟨k, find?_of_mem_entries he⟩
  · rintro ⟨k, hk⟩
    exact ⟨(k, x), Entries.mem_of_find? hk, rfl⟩

/-- What is said of the values under different keys holds between all values. -/
theorem pairwise_values {R : α → α → Prop} {t : Table α}
    (h : ∀ k l x y, k ≠ l → t.find? k = some x → t.find? l = some y → R x y) :
    t.values.Pairwise R := by
  refine List.pairwise_map.2 (t.ordered.imp_of_mem ?_)
  intro a b ha hb hlt
  exact h a.1 b.1 a.2 b.2 (String.ne_of_lt hlt) (find?_of_mem_entries ha)
    (find?_of_mem_entries hb)

@[simp]
theorem find?_map {β : Type} (f : α → β) (t : Table α) (k : String) :
    (t.map f).find? k = (t.find? k).map f := by
  have hentries : ∀ es : List (String × α),
      Entries.find? k (es.map fun e => (e.1, f e.2)) = (Entries.find? k es).map f := by
    intro es
    induction es with
    | nil => rfl
    | cons e es ih =>
        rw [List.map_cons, Entries.find?, Entries.find?, ih, apply_ite (Option.map f)]
        rfl
  exact hentries t.entries

section Pushing

variable {β : Type} (f : β → String) (g : β → α) (xs : List β)

theorem find?_foldl_push (t : Table (List α)) (k : String) :
    ((xs.foldl (fun t x => t.push (f x) (g x)) t).find? k).getD [] =
      (t.find? k).getD [] ++ (xs.filter (f · = k)).map g := by
  induction xs generalizing t with
  | nil => simp
  | cons x xs ih =>
      rw [List.foldl_cons, ih, push, find?_insert]
      by_cases h : f x = k
      · subst h
        simp
      · simp [h]

/-- What pushing files under a key: what comes of the elements that belong there, if there are
any. -/
theorem find?_foldl_push_empty (k : String) :
    (xs.foldl (fun t x => t.push (f x) (g x)) (∅ : Table (List α))).find? k =
      if xs.filter (f · = k) = [] then none else some ((xs.filter (f · = k)).map g) := by
  suffices h : ∀ t : Table (List α), t.find? k ≠ some [] →
      (xs.foldl (fun t x => t.push (f x) (g x)) t).find? k ≠ some [] by
    have hgroup := find?_foldl_push f g xs ∅ k
    have hne := h ∅ (by simp)
    cases hfind : (xs.foldl (fun t x => t.push (f x) (g x)) (∅ : Table (List α))).find? k with
    | none =>
        rw [hfind] at hgroup
        have hmap : (xs.filter (f · = k)).map g = [] := hgroup.symm
        rw [if_pos (List.map_eq_nil_iff.1 hmap)]
    | some group =>
        rw [hfind] at hgroup hne
        obtain rfl : group = (xs.filter (f · = k)).map g := by simpa using hgroup
        rw [if_neg (fun hnil => hne (congrArg some (List.map_eq_nil_iff.2 hnil)))]
  induction xs with
  | nil => exact fun _ => id
  | cons x xs ih =>
      intro t ht
      refine ih _ ?_
      change (t.insert (f x) _).find? k ≠ some []
      rw [find?_insert]
      split
      · simp
      · exact ht

end Pushing

theorem mem_keys {t : Table α} {k : String} : k ∈ t.keys ↔ t.find? k ≠ none := by
  rw [keys, List.mem_map]
  constructor
  · rintro ⟨⟨k, x⟩, he, rfl⟩
    rw [find?_of_mem_entries he]
    simp
  · intro h
    obtain ⟨x, hx⟩ := Option.ne_none_iff_exists'.1 h
    exact ⟨(k, x), Entries.mem_of_find? hx, rfl⟩

/-- The keys of a list are kept when it becomes a table. -/
theorem mem_keys_ofList {es : List (String × α)} {k : String} :
    k ∈ (ofList es).keys ↔ k ∈ es.map (·.1) := by
  suffices h : ∀ sorted : List (String × α),
      Entries.find? k (es.foldl (fun sorted e => Entries.insert e.1 e.2 sorted) sorted) ≠ none ↔
        Entries.find? k sorted ≠ none ∨ k ∈ es.map (·.1) by
    rw [mem_keys]
    exact (h []).trans (by simp [Entries.find?])
  induction es with
  | nil => simp
  | cons e es ih =>
      intro sorted
      rw [List.foldl_cons, ih, Entries.find?_insert, List.map_cons, List.mem_cons]
      by_cases hk : e.1 = k
      · simp [hk]
      · simp [hk, Ne.symm hk]

theorem insert_insert (t : Table α) (k : String) (x y : α) :
    (t.insert k x).insert k y = t.insert k y := by
  refine ext_find? ?_
  intro key
  by_cases h : k = key
  · simp [h]
  · simp [h]

theorem insert_comm (t : Table α) {k l : String} (hne : k ≠ l) (x y : α) :
    (t.insert k x).insert l y = (t.insert l y).insert k x := by
  refine ext_find? ?_
  intro key
  by_cases hk : k = key
  · subst hk
    simp [Ne.symm hne]
  · simp [hk]

/-- The values after an insertion: the new one, and those under other keys. -/
theorem perm_values_insert (t : Table α) (key : String) (x : α) :
    (t.insert key x).values.Perm (x :: (t.erase key).values) :=
  (Entries.perm_insert key x t.ordered).map Prod.snd

theorem perm_values_erase (t : Table α) (key : String) :
    t.values.Perm ((t.find? key).toList ++ (t.erase key).values) := by
  have h := (Entries.perm_erase key t.ordered).map Prod.snd
  have hsnd : (Prod.snd ∘ fun x : α => (key, x)) = id := rfl
  rw [List.map_append, List.map_map, hsnd, List.map_id] at h
  exact h

end Table

end SpendAlerts

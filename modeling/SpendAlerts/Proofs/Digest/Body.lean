import SpendAlerts.Digest.Body
import SpendAlerts.Proofs.Document.Table
import Mathlib.Data.List.Perm.Basic

/-!
The values that a body shows: its own, those of its buckets and those of their items.
With a breakdown every notification adds an item, and without one every notification
of a day without bucket adds a bucket; such bodies show the value of every notification
once. Without breakdown and days the last value takes the place of all others.
-/

namespace SpendAlerts

namespace Digest

def Bucket.values (b : Bucket) : List String := b.value.toList ++ b.items.map (·.value)

def Body.values (b : Body) : List String := b.value.toList ++ b.buckets.flatMap Bucket.values

namespace Draft

variable {config : AlertConfig} {hasBreakdown : Bool}

def values (d : Draft) : List String := d.value.toList ++ d.buckets.values.flatMap Bucket.values

theorem values_bucketFor (d : Draft) (name : String) (n : Notification) :
    (d.bucketFor name n).values = (d.buckets.find? name).toList.flatMap Bucket.values := by
  rw [bucketFor]
  cases d.buckets.find? name with
  | none => rfl
  | some b => simp [Bucket.values]

theorem perm_values (d : Draft) (name : String) (n : Notification) :
    d.values.Perm (d.value.toList ++ (d.bucketFor name n).values ++
      (d.buckets.erase name).values.flatMap Bucket.values) := by
  have h := (d.buckets.perm_values_erase name).flatMap_right Bucket.values
  rw [List.flatMap_append, ← values_bucketFor d name n] at h
  rw [List.append_assoc]
  exact h.append_left _

theorem perm_values_insert (d : Draft) (name : String) (b : Bucket) :
    (Draft.mk (d.buckets.insert name b) d.value).values.Perm (d.value.toList ++ b.values ++
      (d.buckets.erase name).values.flatMap Bucket.values) := by
  have h := (d.buckets.perm_values_insert name b).flatMap_right Bucket.values
  rw [List.flatMap_cons] at h
  rw [List.append_assoc]
  exact h.append_left _

/-- The notification adds its own value and loses none. -/
def Adds (config : AlertConfig) (hasBreakdown : Bool) (d : Draft) (n : Notification) : Prop :=
  hasBreakdown = true ∨
    config.interval = .day ∧ d.buckets.find? (bucketName config.interval n) = none

theorem perm_values_add {d : Draft} {n : Notification} (h : Adds config hasBreakdown d n) :
    (d.add config hasBreakdown n).values.Perm (config.valueText n.value :: d.values) := by
  have hkeep := d.perm_values (bucketName config.interval n) n
  suffices hadd : (d.add config hasBreakdown n).values.Perm
      (d.value.toList ++ (d.bucketFor (bucketName config.interval n) n).values ++
        config.valueText n.value ::
          (d.buckets.erase (bucketName config.interval n)).values.flatMap Bucket.values) from
    hadd.trans (List.perm_middle.trans (hkeep.symm.cons _))
  cases hasBreakdown with
  | true =>
      refine (d.perm_values_insert _ _).trans ?_
      simp [Bucket.values, itemFor]
  | false =>
      obtain h | ⟨hday, hnone⟩ := h
      · cases h
      · simp only [add, hday, Bool.not_false, ne_eq, not_true, decide_false, Bool.and_false,
          Bool.false_eq_true, if_false]
        refine (d.perm_values_insert _ _).trans ?_
        rw [hday] at hnone
        simp [Bucket.values, bucketFor, hnone]

theorem find?_buckets_add {d : Draft} {n : Notification} {name : String}
    (hname : bucketName config.interval n ≠ name) :
    (d.add config hasBreakdown n).buckets.find? name = d.buckets.find? name := by
  simp only [add]
  split
  · rfl
  · simp [hname]

/-- Every notification adds its own value if there is a breakdown, or if the alert is daily
and no two notifications have a bucket in common. -/
theorem perm_values_foldl {d : Draft} {ns : List Notification}
    (h : hasBreakdown = true ∨ config.interval = .day ∧
      (ns.map (bucketName config.interval)).Nodup ∧
      ∀ n ∈ ns, d.buckets.find? (bucketName config.interval n) = none) :
    (ns.foldl (add config hasBreakdown) d).values.Perm
      (d.values ++ ns.map fun n => config.valueText n.value) := by
  induction ns generalizing d with
  | nil => simp
  | cons n ns ih =>
      have hadds : Adds config hasBreakdown d n := by
        cases h with
        | inl h => exact .inl h
        | inr h => exact .inr ⟨h.1, h.2.2 n List.mem_cons_self⟩
      have hrest : hasBreakdown = true ∨ config.interval = .day ∧
          (ns.map (bucketName config.interval)).Nodup ∧
          ∀ m ∈ ns, (d.add config hasBreakdown n).buckets.find?
            (bucketName config.interval m) = none := by
        cases h with
        | inl h => exact .inl h
        | inr h =>
            obtain ⟨hday, hnodup, hnone⟩ := h
            rw [List.map_cons, List.nodup_cons] at hnodup
            refine .inr ⟨hday, hnodup.2, ?_⟩
            intro m hm
            have hne : bucketName config.interval n ≠ bucketName config.interval m :=
              fun heq => hnodup.1 (heq ▸ List.mem_map_of_mem hm)
            rw [find?_buckets_add hne]
            exact hnone m (List.mem_cons_of_mem _ hm)
      rw [List.foldl_cons]
      refine (ih hrest).trans ?_
      refine ((perm_values_add hadds).append_right _).trans ?_
      exact List.perm_middle.symm

theorem add_single {d : Draft} {n : Notification} (hday : config.interval ≠ .day) :
    d.add config false n = ⟨d.buckets, some (config.valueText n.value)⟩ := by
  simp [add, hday]

/-- Without breakdown and days only the last value is left. -/
theorem foldl_single {d : Draft} {ns : List Notification} (hday : config.interval ≠ .day)
    (hns : ns ≠ []) : ns.foldl (add config false) d =
      ⟨d.buckets, some (config.valueText (ns.getLast hns).value)⟩ := by
  induction ns generalizing d with
  | nil => exact absurd rfl hns
  | cons n ns ih =>
      rw [List.foldl_cons, add_single hday]
      cases ns with
      | nil => rfl
      | cons m ms => exact ih (by simp)

/-- Whatever is added, a draft with a notification is not empty. -/
theorem add_ne_empty (d : Draft) (n : Notification) :
    (d.add config hasBreakdown n).value.isSome = true ∨
      (d.add config hasBreakdown n).buckets.values ≠ [] := by
  simp only [add]
  split
  · exact .inl rfl
  · refine .inr ?_
    intro hnil
    have hperm := d.buckets.perm_values_insert (bucketName config.interval n)
      (if hasBreakdown = true then
        { d.bucketFor (bucketName config.interval n) n with
          items := (d.bucketFor (bucketName config.interval n) n).items ++
            [itemFor (config.valueText n.value) n] }
      else { d.bucketFor (bucketName config.interval n) n with
        value := some (config.valueText n.value) })
    rw [hnil] at hperm
    exact absurd hperm.symm.eq_nil (by simp)

end Draft

namespace Bucket

theorem values_sortItems (c : Comparison) (b : Bucket) : (b.sortItems c).values.Perm b.values :=
  ((List.mergeSort_perm _ _).map _).append_left _

end Bucket

namespace Body

theorem perm_values_ofNotifications (a : Alert) (label : Option String) (sentence : String)
    (ns : List Notification) : (ofNotifications a label sentence ns).values.Perm
      (ns.foldl (Draft.add a.config label.isSome) .empty).values := by
  refine List.Perm.append_left _ ?_
  refine ((List.mergeSort_perm _ _).flatMap_right Bucket.values).trans ?_
  rw [List.flatMap_map]
  exact List.Perm.flatMap_left _ fun b _ => b.values_sortItems a.config.comparison

theorem eq_nil_of_sortBuckets {bs : List Bucket} (h : sortBuckets bs = []) : bs = [] := by
  have hperm : (sortBuckets bs).Perm bs := List.mergeSort_perm bs _
  rw [h] at hperm
  exact hperm.symm.eq_nil

/-- Only the body of no notifications is empty. -/
theorem isEmpty_ofNotifications {a : Alert} {label : Option String} {sentence : String}
    {ns : List Notification} :
    (ofNotifications a label sentence ns).isEmpty = true ↔ ns = [] := by
  obtain rfl | ⟨ms, n, rfl⟩ := List.eq_nil_or_concat ns
  · have hnone : (∅ : Table Bucket).values = [] := rfl
    simp [isEmpty, ofNotifications, sortBuckets, Draft.empty, hnone]
  · simp only [isEmpty, ofNotifications, List.concat_eq_append, List.foldl_append,
      List.foldl_cons, List.foldl_nil, Bool.and_eq_true, Option.isNone_iff_eq_none,
      List.isEmpty_iff, List.append_eq_nil_iff, List.cons_ne_nil, and_false, iff_false]
    rintro ⟨hvalue, hbuckets⟩
    cases Draft.add_ne_empty (ms.foldl (Draft.add a.config label.isSome) .empty) n with
    | inl hsome =>
        rw [hvalue] at hsome
        cases hsome
    | inr hne => exact absurd (List.map_eq_nil_iff.1 (eq_nil_of_sortBuckets hbuckets)) hne

end Body

end Digest

end SpendAlerts

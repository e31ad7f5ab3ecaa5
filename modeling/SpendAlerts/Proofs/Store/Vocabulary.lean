import SpendAlerts.Proofs.Store.AlertDocuments

/-!
Why an alert cannot be read. Four fields of a configuration hold names, and each has its own
fault for a text that is no name of its vocabulary. They are looked at before the rest of the
document, in a fixed order, and the first of them that is wrong decides. The look refuses no
document that decodes, and whatever else is wrong with a document is a fault of the alert under
its key, so every refusal counts as a malformed alert.
-/

namespace SpendAlerts

theorem Value.field?_eq_some_iff {v w : Value} {name : String} : v.field? name = some w ↔
    ∃ fields, v = .record fields ∧ Entries.find? name fields = some w := by
  cases v <;> simp [field?]

theorem Value.text?_eq_some_iff {v : Value} {s : String} : v.text? = some s ↔ v = .string s := by
  cases v <;> simp [text?]

namespace AlertStore

theorem configText?_eq_some_iff {doc : Value} {name s : String} :
    configText? doc name = some s ↔ ∃ fields config, doc = .record fields ∧
      Entries.find? "config" fields = some (.record config) ∧
      Entries.find? name config = some (.string s) := by
  simp only [configText?, Option.bind_eq_some_iff, Value.field?_eq_some_iff,
    Value.text?_eq_some_iff]
  constructor
  · rintro ⟨_, ⟨fields, hdoc, hconfig⟩, _, ⟨config, rfl, hfield⟩, rfl⟩
    exact ⟨fields, config, hdoc, hconfig, hfield⟩
  · rintro ⟨fields, config, hdoc, hconfig, hfield⟩
    exact ⟨_, ⟨fields, hdoc, hconfig⟩, _, ⟨config, rfl, hfield⟩, rfl⟩

/-- A field of the configuration, the names it may hold, and the fault of any other text. -/
structure Vocabulary where
  field : String
  names : List String
  fault : String → Fault

namespace Vocabulary

def condition : Vocabulary :=
  ⟨"condition", ["value", "percentage", "forecast"], .invalidCondition⟩

def comparison : Vocabulary := ⟨"operator", [">", "<"], .invalidOperator⟩

def interval : Vocabulary :=
  ⟨"timeInterval", ["hour", "day", "week", "month", "quarter", "year"], .invalidInterval⟩

def metric : Vocabulary :=
  ⟨"metric", ["cost", "usage", "savings", "margin", "custom", "extended"], .invalidMetric⟩

/-- In the order in which they are looked at. -/
def all : List Vocabulary := [condition, comparison, interval, metric]

/-- The document is a record with a record as its configuration, and that has a text in the field
which is no name. -/
def Foreign (v : Vocabulary) (doc : Value) (s : String) : Prop :=
  ∃ fields config, doc = .record fields ∧ Entries.find? "config" fields = some (.record config) ∧
    Entries.find? v.field config = some (.string s) ∧ s ∉ v.names

def check (doc : Value) (v : Vocabulary) : Except Fault Unit :=
  match configText? doc v.field with
  | none => .ok ()
  | some s => if s ∈ v.names then .ok () else .error (v.fault s)

variable {v : Vocabulary} {doc : Value} {s : String}

theorem foreign_iff : v.Foreign doc s ↔ configText? doc v.field = some s ∧ s ∉ v.names := by
  rw [configText?_eq_some_iff]
  constructor
  · rintro ⟨fields, config, hdoc, hconfig, hfield, hs⟩
    exact ⟨⟨fields, config, hdoc, hconfig, hfield⟩, hs⟩
  · rintro ⟨⟨fields, config, hdoc, hconfig, hfield⟩, hs⟩
    exact ⟨fields, config, hdoc, hconfig, hfield, hs⟩

theorem check_of_foreign (h : v.Foreign doc s) : v.check doc = .error (v.fault s) := by
  obtain ⟨htext, hs⟩ := foreign_iff.1 h
  rw [check, htext]
  exact if_neg hs

theorem check_of_forall (h : ∀ s, ¬v.Foreign doc s) : v.check doc = .ok () := by
  rw [check]
  cases htext : configText? doc v.field with
  | none => rfl
  | some s =>
      have hs : s ∈ v.names := by
        by_contra hs
        exact h s (foreign_iff.2 ⟨htext, hs⟩)
      exact if_pos hs

/-- The vocabulary has the names that are read, and the fault of the others. -/
def Lists {α : Type} (v : Vocabulary) (read : String → Except Fault α) : Prop :=
  ∀ s, (s ∈ v.names ∧ ∃ x, read s = .ok x) ∨ (s ∉ v.names ∧ read s = .error (v.fault s))

theorem Lists.checkName {α : Type} {read : String → Except Fault α} (h : v.Lists read)
    (doc : Value) : checkName read (configText? doc v.field) = v.check doc := by
  rw [check]
  cases configText? doc v.field with
  | none => rfl
  | some s =>
      obtain ⟨hs, x, hread⟩ | ⟨hs, hread⟩ := h s
      · simp [AlertStore.checkName, hread, hs]
      · simp [AlertStore.checkName, hread, hs]

theorem lists_condition : condition.Lists Condition.ofName? := by
  intro s
  rw [Condition.ofName?.eq_def]
  split <;> simp_all [condition]

theorem lists_comparison : comparison.Lists Comparison.ofSymbol? := by
  intro s
  rw [Comparison.ofSymbol?.eq_def]
  split <;> simp_all [comparison]

theorem lists_interval : interval.Lists Interval.ofName? := by
  intro s
  rw [Interval.ofName?.eq_def]
  split <;> simp_all [interval]

theorem lists_metric : metric.Lists Metric.ofName? := by
  intro s
  rw [Metric.ofName?.eq_def]
  split <;> simp_all [metric]

theorem isValidation_fault (h : v ∈ all) (s : String) : (v.fault s).isValidation = true := by
  simp only [all, List.mem_cons, List.not_mem_nil, or_false] at h
  rcases h with rfl | rfl | rfl | rfl <;> rfl

/-- Of some fields this is the first one that is wrong. -/
def First (vs : List Vocabulary) (doc : Value) (v : Vocabulary) (s : String) : Prop :=
  ∃ earlier later, vs = earlier ++ v :: later ∧
    (∀ u ∈ earlier, ∀ t, ¬u.Foreign doc t) ∧ v.Foreign doc s

theorem first_or_forall (vs : List Vocabulary) (doc : Value) :
    (∃ v s, First vs doc v s) ∨ ∀ v ∈ vs, ∀ s, ¬v.Foreign doc s := by
  induction vs with
  | nil => exact .inr (List.forall_mem_nil _)
  | cons w vs ih =>
      by_cases hw : ∃ s, w.Foreign doc s
      · obtain ⟨s, hs⟩ := hw
        exact .inl ⟨w, s, [], vs, rfl, List.forall_mem_nil _, hs⟩
      · rw [not_exists] at hw
        obtain ⟨v, s, earlier, later, rfl, hearlier, hv⟩ | hnone := ih
        · exact .inl ⟨v, s, w :: earlier, later, rfl, List.forall_mem_cons.2 ⟨hw, hearlier⟩, hv⟩
        · exact .inr (List.forall_mem_cons.2 ⟨hw, hnone⟩)

end Vocabulary

section Checking

variable {α : Type} {f : α → Except Fault Unit} {xs : List α}

theorem forM_of_forall (h : ∀ x ∈ xs, f x = .ok ()) : xs.forM f = .ok () := by
  induction xs with
  | nil => rfl
  | cons x xs ih =>
      rw [List.forall_mem_cons] at h
      rw [List.forM, h.1]
      exact ih h.2

theorem forM_of_first {x : α} {later : List α} {e : Fault} (h : ∀ y ∈ xs, f y = .ok ())
    (hx : f x = .error e) : (xs ++ x :: later).forM f = .error e := by
  induction xs with
  | nil =>
      rw [List.nil_append, List.forM, hx]
      rfl
  | cons y xs ih =>
      rw [List.forall_mem_cons] at h
      rw [List.cons_append, List.forM, h.1]
      exact ih h.2

end Checking

open Vocabulary

variable {doc : Value} {key : String}

theorem checkNames_eq (doc : Value) : checkNames doc = all.forM (·.check doc) := by
  have hcondition : checkName _ (configText? doc "condition") = condition.check doc :=
    lists_condition.checkName doc
  have hcomparison : checkName _ (configText? doc "operator") = comparison.check doc :=
    lists_comparison.checkName doc
  have hinterval : checkName _ (configText? doc "timeInterval") = interval.check doc :=
    lists_interval.checkName doc
  have hmetric : checkName _ (configText? doc "metric") = metric.check doc :=
    lists_metric.checkName doc
  rw [checkNames, hcondition, hcomparison, hinterval, hmetric]
  simp only [all, List.forM, bind_pure_unit]

theorem checkNames_of_first {v : Vocabulary} {s : String} (h : First all doc v s) :
    checkNames doc = .error (v.fault s) := by
  obtain ⟨earlier, later, hall, hearlier, hv⟩ := h
  rw [checkNames_eq, hall]
  exact forM_of_first (fun u hu => check_of_forall (hearlier u hu)) (check_of_foreign hv)

theorem checkNames_of_forall (h : ∀ v ∈ all, ∀ s, ¬v.Foreign doc s) :
    checkNames doc = .ok () := by
  rw [checkNames_eq]
  exact forM_of_forall fun v hv => check_of_forall (h v hv)

/-- What comes of reading an alert from a document under a key. -/
structure ReadsFrom (key : String) (doc : Value) (result : Except Fault Alert) : Prop where
  succeeds : ∀ a, result = .ok a ↔ ∃ b, Alert.decode doc = .ok b ∧ a = { b with id := key }
  malformed : ∀ e, result = .error e → e.isValidation = true
  foreign : ∀ v s, First all doc v s → result = .error (v.fault s)
  undecodable : ∀ m, (∀ v ∈ all, ∀ s, ¬v.Foreign doc s) → Alert.decode doc = .error m →
    result = .error (.invalidAlert key m.message)

theorem readsFrom_ofDocument (key : String) (doc : Value) :
    ReadsFrom key doc (ofDocument key doc) where
  succeeds _ := ofDocument_eq_ok_iff
  malformed e he := by
    rw [ofDocument] at he
    obtain ⟨v, s, hfirst⟩ | hnone := first_or_forall all doc
    · rw [checkNames_of_first hfirst] at he
      obtain ⟨earlier, later, hall, -⟩ := hfirst
      cases he
      exact isValidation_fault (hall ▸ List.mem_append_cons_self) s
    · rw [checkNames_of_forall hnone] at he
      cases hdecode : Alert.decode doc with
      | ok b => simp [hdecode] at he
      | error m =>
          simp only [hdecode, Except.error.injEq] at he
          rw [← he]
          rfl
  foreign v s h := by rw [ofDocument, checkNames_of_first h]
  undecodable m hnone hdecode := by rw [ofDocument, checkNames_of_forall hnone, hdecode]

/-- An alert is read exactly if its document decodes. If it does not, the alert is reported as
malformed, by the first name of its configuration that is in no vocabulary, if there is one. -/
theorem get_exact {s : Session} (hlive : s.context.isCancelled = false)
    (hdoc : s.documents.find? collectionName key = some doc) :
    ReadsFrom key doc (get key s).1 := by
  rw [get_apply, hlive]
  simp only [Bool.false_eq_true, if_false, read, hdoc]
  exact readsFrom_ofDocument key doc

/-- An alert without anything but a configuration, where two names are wrong. -/
def misnamed : Value :=
  .record [("config", .record [("condition", .string "value"), ("metric", .string "profit"),
    ("operator", .string ">=")])]

/-- Of two wrong names the one that is looked at first is reported. -/
theorem get_exact_misnamed :
    (get "a1" ⟨.fresh, .insert .empty collectionName "a1" misnamed⟩).1 =
      .error (.invalidOperator ">=") := by
  have hread : ReadsFrom "a1" misnamed
      (get "a1" ⟨.fresh, .insert .empty collectionName "a1" misnamed⟩).1 := get_exact rfl rfl
  refine hread.foreign comparison ">=" ⟨[condition], [interval, metric], rfl, ?_, ?_⟩
  · intro v hv s hs
    obtain rfl := List.mem_singleton.1 hv
    obtain ⟨htext, hnew⟩ := foreign_iff.1 hs
    obtain rfl : "value" = s := Option.some.inj htext
    exact hnew (by decide)
  · exact foreign_iff.2 ⟨rfl, by decide⟩

end AlertStore

end SpendAlerts

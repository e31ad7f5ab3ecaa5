import SpendAlerts.Proofs.Store.Independence

/-!
Histories of documents. Calls that may write are made one after the other, each in a context of
its own, which may be cancelled before the call, in the middle of it or never, and a transaction
has any body. Whoever knows the calls and their answers knows what stands under every key, since
a call commits at most one document and only one that its answer tells of. Reading gives that.
-/

namespace SpendAlerts

theorem Value.isNull_iff (v : Value) : v.isNull = true ↔ v = null := by
  cases v <;> simp [isNull]

namespace FieldFilter

/-- What a document reads as under a name: its field, or null if it has none. -/
inductive Reads (doc : Value) (name : String) : Value → Prop where
  | present {v : Value} (h : doc.field? name = some v) : Reads doc name v
  | missing (h : doc.field? name = none) : Reads doc name .null

def Admits (doc : Value) : FieldFilter → Prop
  | equals name v => ∃ w, Reads doc name w ∧ (w == v) = true
  | oneOf name vs => ∃ w, Reads doc name w ∧ ∃ v ∈ vs, (v == w) = true
  | isNull name => Reads doc name .null
  | notNull name => ∃ w, Reads doc name w ∧ w ≠ .null

theorem reads_iff {doc v : Value} {name : String} :
    Reads doc name v ↔ (doc.field? name).getD .null = v := by
  constructor
  · intro h
    cases h with
    | present h => rw [h, Option.getD_some]
    | missing h => rw [h, Option.getD_none]
  · rintro rfl
    cases hfield : doc.field? name with
    | none => exact .missing hfield
    | some v => exact .present hfield

theorem holds_iff (f : FieldFilter) (doc : Value) : f.holds doc = true ↔ f.Admits doc := by
  cases f with
  | equals name v => simp [holds, Admits, reads_iff]
  | oneOf name vs => simp [holds, Admits, reads_iff]
  | isNull name => simp [holds, Admits, reads_iff, Value.isNull_iff]
  | notNull name => simp [holds, Admits, reads_iff, ← Value.isNull_iff]

end FieldFilter

namespace Documents

/-- A call that may write. -/
inductive Call where
  | put (name key : String) (doc : Value)
  | delete (name key : String)
  | transact (name key : String) (body : Option Value → Guarded Write)

/-- What a call answers if it does not fail. -/
inductive Answer where
  | stored
  | deleted (found : Bool)
  | settled (wrote : Bool)
  deriving DecidableEq

namespace Call

/-- The collection that a call is about. -/
def collection : Call → String
  | put name _ _ | delete name _ | transact name _ _ => name

def key : Call → String
  | put _ key _ | delete _ key | transact _ key _ => key

def perform : Call → StoreM Answer
  | put name key doc => putDoc name key doc >>= fun _ => pure .stored
  | delete name key => deleteDoc name key >>= fun found => pure (.deleted found)
  | transact name key body => transaction name key body >>= fun wrote => pure (.settled wrote)

/-- What a call may answer in a context where `held` stands under its key, and what it then
commits there, if anything: a document, or that there is none. -/
inductive Acts (c : Context) (held : Option Value) :
    Call → Except Fault Answer → Option (Option Value) → Prop where
  | cancelled {call : Call} (h : c.isCancelled = true) :
      Acts c held call (.error .cancelled) none
  | stored {name key : String} {doc : Value} (live : c.isCancelled = false) :
      Acts c held (.put name key doc) (.ok .stored) (some (some doc))
  | deleted {name key : String} (live : c.isCancelled = false) :
      Acts c held (.delete name key) (.ok (.deleted held.isSome)) (some none)
  | refused {name key : String} {body : Option Value → Guarded Write} {e : Fault} {c' : Context}
      (live : c.isCancelled = false) (decided : body held c.looked = (.error e, c')) :
      Acts c held (.transact name key body) (.error e) none
  /-- The context is cancelled in the body, or between the body and the write. -/
  | interrupted {name key : String} {body : Option Value → Guarded Write} {write : Write}
      {c' : Context} (live : c.isCancelled = false)
      (decided : body held c.looked = (.ok write, c')) (late : c'.isCancelled = true) :
      Acts c held (.transact name key body) (.error .cancelled) none
  | kept {name key : String} {body : Option Value → Guarded Write} {c' : Context}
      (live : c.isCancelled = false) (decided : body held c.looked = (.ok .keep, c'))
      (alive : c'.isCancelled = false) :
      Acts c held (.transact name key body) (.ok (.settled false)) none
  | wrote {name key : String} {body : Option Value → Guarded Write} {doc : Value} {c' : Context}
      (live : c.isCancelled = false) (decided : body held c.looked = (.ok (.put doc), c'))
      (alive : c'.isCancelled = false) :
      Acts c held (.transact name key body) (.ok (.settled true)) (some (some doc))

/-- What a call has committed, going by its answer. -/
def committed (c : Context) (held : Option Value) :
    Call → Except Fault Answer → Option (Option Value)
  | _, .error _ => none
  | put _ _ doc, .ok _ => some (some doc)
  | delete _ _, .ok _ => some none
  | transact _ _ body, .ok (.settled true) =>
      match (body held c.looked).1 with
      | .ok (.put doc) => some (some doc)
      | _ => none
  | transact _ _ _, .ok _ => none

section

variable {c : Context} {held : Option Value} {call : Call} {answer : Except Fault Answer}
  {change : Option (Option Value)}

theorem Acts.committed_eq (h : Acts c held call answer change) :
    call.committed c held answer = change := by
  cases h with
  | cancelled _ | interrupted _ _ _ | refused _ _ => rw [committed]
  | stored _ | deleted _ | kept _ _ _ => rfl
  | wrote _ decided _ => simp [committed, decided]

/-- A call that fails, or decides to write nothing, commits nothing. -/
theorem Acts.eq_none (h : Acts c held call answer change)
    (hidle : (∃ e, answer = .error e) ∨ answer = .ok (.settled false)) : change = none := by
  cases h with
  | cancelled _ | refused _ _ | interrupted _ _ _ | kept _ _ _ => rfl
  | stored _ | deleted _ | wrote _ _ _ => simp at hidle

theorem Acts.of_wrote (h : Acts c held call answer change)
    (hwrote : answer = .ok (.settled true)) :
    ∃ name key body doc c', call = .transact name key body ∧
      body held c.looked = (.ok (.put doc), c') ∧ change = some (some doc) := by
  cases h with
  | wrote _ decided _ => exact ⟨_, _, _, _, _, rfl, decided, rfl⟩
  | cancelled _ | refused _ _ | interrupted _ _ _ | kept _ _ _ | stored _ | deleted _ =>
      simp at hwrote

end

end Call

/-- The documents with what is committed under a key. -/
def commit (d : Documents) (name key : String) : Option (Option Value) → Documents
  | none => d
  | some none => d.erase name key
  | some (some doc) => d.insert name key doc

theorem find?_commit (d : Documents) (name key : String) (change : Option (Option Value))
    (other k : String) : (d.commit name key change).find? other k =
      if name = other ∧ key = k then change.getD (d.find? name key) else d.find? other k := by
  cases change with
  | none =>
      split
      · next h => rw [commit, Option.getD_none, h.1, h.2]
      · rfl
  | some left =>
      cases left with
      | none => exact find?_erase d name key other k
      | some doc => exact find?_insert d name key other k doc

theorem collections_commit (d : Documents) {name other : String} (key : String)
    (change : Option (Option Value)) (h : name ≠ other) :
    (d.commit name key change).collections.find? other = d.collections.find? other := by
  cases change with
  | none => rfl
  | some left =>
      cases left with
      | none =>
          rw [commit, erase]
          split
          · rfl
          · exact (Table.find?_insert ..).trans (if_neg h)
      | some doc => exact (Table.find?_insert ..).trans (if_neg h)

/-- A call in the context it is made in. -/
structure Request where
  context : Context
  call : Call

namespace Request

def answer (r : Request) (d : Documents) : Except Fault Answer :=
  (r.call.perform ⟨r.context, d⟩).1

def after (r : Request) (d : Documents) : Documents :=
  (r.call.perform ⟨r.context, d⟩).2.documents

variable (r : Request) (d : Documents)

/-- The document under the key of the call. -/
def held : Option Value := d.find? r.call.collection r.call.key

def Commits (change : Option (Option Value)) : Prop :=
  r.call.Acts r.context (r.held d) (r.answer d) change ∧
    r.after d = d.commit r.call.collection r.call.key change

/-- A call is one step on the document under its key, and on nothing else. -/
theorem exists_commits : ∃ change, r.Commits d change := by
  obtain ⟨c, call⟩ := r
  cases call with
  | put name key doc =>
      simp only [Commits, held, answer, after, Call.perform, bind_pure_apply, putDoc_apply]
      cases hlive : c.isCancelled with
      | true => exact ⟨none, .cancelled hlive, rfl⟩
      | false => exact ⟨some (some doc), .stored hlive, rfl⟩
  | delete name key =>
      simp only [Commits, held, answer, after, Call.perform, bind_pure_apply, deleteDoc_apply]
      cases hlive : c.isCancelled with
      | true => exact ⟨none, .cancelled hlive, rfl⟩
      | false => exact ⟨some none, .deleted hlive, rfl⟩
  | transact name key body =>
      simp only [Commits, held, answer, after, Call.perform, bind_pure_apply, transaction_run]
      cases hlive : c.isCancelled with
      | true => exact ⟨none, .cancelled hlive, rfl⟩
      | false =>
          simp only [Bool.false_eq_true, if_false]
          cases hbody : body (d.find? name key) c.looked with
          | mk result c' =>
              cases result with
              | error e => exact ⟨none, .refused hlive hbody, rfl⟩
              | ok write =>
                  simp only
                  cases hlate : c'.isCancelled with
                  | true => exact ⟨none, .interrupted hlive hbody hlate, rfl⟩
                  | false =>
                      cases write with
                      | keep => exact ⟨none, .kept hlive hbody hlate, rfl⟩
                      | put doc => exact ⟨some (some doc), .wrote hlive hbody hlate, rfl⟩

/-- What stands under a key after a call. -/
theorem find?_after (name key : String) : (r.after d).find? name key =
    if r.call.collection = name ∧ r.call.key = key then
      (r.call.committed r.context (d.find? name key) (r.answer d)).getD (d.find? name key)
    else d.find? name key := by
  obtain ⟨change, hacts, hafter⟩ := r.exists_commits d
  rw [hafter, find?_commit]
  split
  · next h => rw [← h.1, ← h.2, ← held, hacts.committed_eq]
  · rfl

/-- What a call in some context does to documents, whatever was done to them before. -/
structure Serves (r : Request) (d : Documents) : Prop where
  /-- The answer, and the document under the key, come from the document that stood there. -/
  acts : ∃ change, r.call.Acts r.context (r.held d) (r.answer d) change ∧
    r.held (r.after d) = change.getD (r.held d)
  others : ∀ name key, ¬(r.call.collection = name ∧ r.call.key = key) →
    (r.after d).find? name key = d.find? name key
  collections : ∀ name, r.call.collection ≠ name →
    (r.after d).collections.find? name = d.collections.find? name
  failed : ∀ e, r.answer d = .error e → r.after d = d
  kept : r.answer d = .ok (.settled false) → r.after d = d
  /-- A transaction that wrote has written what its body says of the document it found. -/
  wrote : r.answer d = .ok (.settled true) → ∃ name key body doc c,
    r.call = .transact name key body ∧
    body (d.find? name key) r.context.looked = (.ok (.put doc), c) ∧
    (r.after d).find? name key = some doc

theorem serves : r.Serves d where
  acts := by
    obtain ⟨change, hacts, hafter⟩ := r.exists_commits d
    exact ⟨change, hacts, by rw [held, hafter, find?_commit, if_pos ⟨rfl, rfl⟩, held]⟩
  others name key h := by rw [find?_after, if_neg h]
  collections name h := by
    obtain ⟨change, -, hafter⟩ := r.exists_commits d
    rw [hafter, collections_commit d _ change h]
  failed e he := by
    obtain ⟨change, hacts, hafter⟩ := r.exists_commits d
    rw [hafter, hacts.eq_none (.inl ⟨e, he⟩), commit]
  kept hkept := by
    obtain ⟨change, hacts, hafter⟩ := r.exists_commits d
    rw [hafter, hacts.eq_none (.inr hkept), commit]
  wrote hwrote := by
    obtain ⟨change, hacts, hafter⟩ := r.exists_commits d
    obtain ⟨name, key, body, doc, c, hcall, hbody, rfl⟩ := hacts.of_wrote hwrote
    rw [held, hcall] at hbody
    rw [hcall] at hafter
    exact ⟨name, key, body, doc, c, hcall, hbody,
      by rw [hafter, find?_commit, if_pos ⟨rfl, rfl⟩, Option.getD_some]⟩

end Request

/-- The documents after some calls. -/
def served (d : Documents) : List Request → Documents
  | [] => d
  | r :: rest => served (r.after d) rest

/-- The calls with what each was answered. -/
def answered (d : Documents) : List Request → List (Request × Except Fault Answer)
  | [] => []
  | r :: rest => (r, r.answer d) :: answered (r.after d) rest

/-- What was last committed under a key where `held` stood at first, as far as calls and answers
tell. -/
def lastCommitted (name key : String) (held : Option Value) :
    List (Request × Except Fault Answer) → Option Value
  | [] => held
  | (r, answer) :: rest =>
      if r.call.collection = name ∧ r.call.key = key then
        lastCommitted name key ((r.call.committed r.context held answer).getD held) rest
      else lastCommitted name key held rest

theorem find?_served (d : Documents) (requests : List Request) (name key : String) :
    (served d requests).find? name key =
      lastCommitted name key (d.find? name key) (answered d requests) := by
  induction requests generalizing d with
  | nil => rfl
  | cons r rest ih =>
      rw [served, answered, lastCommitted, ih, r.find?_after]
      split
      · rfl
      · rfl

/-- What the next call does after some calls, and what can be read. -/
structure Faithful (d : Documents) (requests : List Request) : Prop where
  next : ∀ r : Request, r.Serves (served d requests)
  get : ∀ name key c, getDoc name key ⟨c, served d requests⟩ =
    (if c.isCancelled then .error .cancelled
      else .ok (lastCommitted name key (d.find? name key) (answered d requests)),
      ⟨c.looked, served d requests⟩)
  query : ∀ name filters, ∃ docs : List (String × Value),
    (∀ c, query name filters ⟨c, served d requests⟩ =
      (if c.isCancelled then .error .cancelled else .ok docs, ⟨c.looked, served d requests⟩)) ∧
    docs.Pairwise (·.1 < ·.1) ∧
    ∀ key doc, (key, doc) ∈ docs ↔
      lastCommitted name key (d.find? name key) (answered d requests) = some doc ∧
        ∀ f ∈ filters, f.Admits doc

/-- Whatever calls are made, a call that fails or decides to keep changes nothing, any other
changes what stands under its key, and reading gives what was committed last. -/
theorem history_faithful (d : Documents) (requests : List Request) : Faithful d requests where
  next r := r.serves _
  get name key c := by rw [getDoc_apply, find?_served]
  query name filters := by
    refine ⟨(served d requests).matching name filters, fun c => query_apply name filters _,
      ordered_matching _ name filters, fun key doc => ?_⟩
    rw [mem_matching, find?_served, List.all_eq_true]
    simp only [FieldFilter.holds_iff]

/-- A body that cancels its own context has decided in vain. -/
example :
    let d : Documents := .insert .empty "c" "k" (.int 1)
    let r : Request := ⟨.fresh, .transact "c" "k" fun _ c => (.ok (.put (.int 2)), c.cancel)⟩
    r.answer d = .error .cancelled ∧ (r.after d).find? "c" "k" = some (.int 1) :=
  ⟨rfl, rfl⟩

end Documents

end SpendAlerts

import SpendAlerts.Context.Basic
import SpendAlerts.Document.Printer
import SpendAlerts.Document.Tree

/-!
Collections of documents under keys. Every operation looks at the context first and
changes nothing once that is cancelled. A transaction looks at one document, decides
what to write, and writes it only if the context is still alive; a body that fails
writes nothing. Queries give the matching documents in the order of their keys, and
fields that a document does not have read as null.
-/

namespace SpendAlerts

/-- A condition on a field of documents. -/
inductive FieldFilter where
  | equals (field : String) (value : Value)
  | oneOf (field : String) (values : List Value)
  | isNull (field : String)
  | notNull (field : String)

namespace FieldFilter

def textEquals (field text : String) : FieldFilter := equals field (.string text)

def holds (f : FieldFilter) (doc : Value) : Bool :=
  let value (name : String) := (doc.field? name).getD .null
  match f with
  | equals name v => value name == v
  | oneOf name vs => vs.any (· == value name)
  | isNull name => (value name).isNull
  | notNull name => !(value name).isNull

end FieldFilter

/-- What the body of a transaction decides. -/
inductive Write where
  | keep
  | put (doc : Value)

structure Documents where
  collections : Table (Table Value)
  deriving Inhabited

namespace Documents

def empty : Documents := ⟨∅⟩

def collection (d : Documents) (name : String) : Table Value :=
  (d.collections.find? name).getD ∅

def find? (d : Documents) (name key : String) : Option Value :=
  (d.collection name).find? key

def insert (d : Documents) (name key : String) (doc : Value) : Documents :=
  ⟨d.collections.insert name ((d.collection name).insert key doc)⟩

/-- Removes a document; a collection stays when its last document goes. -/
def erase (d : Documents) (name key : String) : Documents :=
  match d.collections.find? name with
  | none => d
  | some docs => ⟨d.collections.insert name (docs.erase key)⟩

theorem collection_insert (d : Documents) (name key other : String) (doc : Value) :
    (d.insert name key doc).collection other =
      if name = other then (d.collection name).insert key doc else d.collection other := by
  simp only [collection, insert, Table.find?_insert]
  split <;> rfl

/-- A write shows under its own key and nowhere else. -/
theorem find?_insert (d : Documents) (name key other k : String) (doc : Value) :
    (d.insert name key doc).find? other k =
      if name = other ∧ key = k then some doc else d.find? other k := by
  simp only [find?, collection_insert]
  by_cases h : name = other
  · subst h
    simp
  · simp [h]

theorem collection_erase (d : Documents) (name key other : String) :
    (d.erase name key).collection other =
      if name = other then (d.collection name).erase key else d.collection other := by
  by_cases h : name = other
  · subst h
    cases hd : d.collections.find? name with
    | none => simp [collection, erase, hd, Table.erase_empty]
    | some docs => simp [collection, erase, hd]
  · cases hd : d.collections.find? name with
    | none => simp [erase, hd, h]
    | some docs => simp [collection, erase, hd, h]

/-- A removal shows under its own key and nowhere else. -/
theorem find?_erase (d : Documents) (name key other k : String) :
    (d.erase name key).find? other k =
      if name = other ∧ key = k then none else d.find? other k := by
  simp only [find?, collection_erase]
  by_cases h : name = other
  · subst h
    simp
  · simp [h]

def matching (d : Documents) (name : String) (filters : List FieldFilter) :
    List (String × Value) :=
  (d.collection name).entries.filter fun (_, doc) => filters.all (·.holds doc)

def size (d : Documents) (name : String) : Nat := (d.collection name).size

/-- The snapshot of all collections. -/
def toValue (d : Documents) : Value :=
  Value.ofTable (Value.ofTable id) d.collections

def text (d : Documents) : String := d.toValue.indentedText

/-- The collections of a snapshot, each a record of documents. -/
def collections? : List (String × Value) → Option (List (String × Table Value))
  | [] => some []
  | (name, .record docs) :: rest => (collections? rest).map ((name, Table.ofList docs) :: ·)
  | _ => none

def ofValue? : Value → Option Documents
  | .record collections => (collections? collections).map fun cs => ⟨Table.ofList cs⟩
  | _ => none

/-- Reads a snapshot. -/
def ofText? (text : String) : Option Documents :=
  (Value.ofText? text).bind ofValue?

end Documents

/-- Documents together with the context of whoever works on them. -/
structure Session where
  context : Context
  documents : Documents

/-- Work on documents in a context. -/
abbrev StoreM := ExceptT Fault (StateM Session)

namespace StoreM

def run {α : Type} (m : StoreM α) (s : Session) : Except Fault α × Session :=
  StateT.run (ExceptT.run m) s

/-- Work that touches the context only. -/
def guarded {α : Type} (m : Guarded α) : StoreM α :=
  fun s =>
    let (result, context) := m s.context
    (result, { s with context })

def ofExcept {α : Type} (x : Except Fault α) : StoreM α :=
  guarded (Guarded.ofExcept x)

def documents : StoreM Documents :=
  fun s => (.ok s.documents, s)

def setDocuments (d : Documents) : StoreM Unit :=
  fun s => (.ok (), { s with documents := d })

def check : StoreM Unit := guarded Guarded.check

end StoreM

namespace Documents

open StoreM

def getDoc (name key : String) : StoreM (Option Value) := do
  check
  return (← documents).find? name key

def putDoc (name key : String) (doc : Value) : StoreM Unit := do
  check
  setDocuments ((← documents).insert name key doc)

/-- Deletes a document and tells whether there was one. -/
def deleteDoc (name key : String) : StoreM Bool := do
  check
  let d ← documents
  setDocuments (d.erase name key)
  return (d.find? name key).isSome

def query (name : String) (filters : List FieldFilter) : StoreM (List (String × Value)) := do
  check
  return (← documents).matching name filters

/-- Decides on one document and writes what was decided; tells whether it wrote. -/
def transaction (name key : String) (body : Option Value → Guarded Write) : StoreM Bool := do
  check
  let d ← documents
  let write ← guarded (body (d.find? name key))
  check
  match write with
  | .keep => return false
  | .put doc =>
      setDocuments (d.insert name key doc)
      return true

end Documents

end SpendAlerts

import SpendAlerts.Document.Tree

/-!
Outlines of documents that are read for known fields. What lies outside an outline is
dropped before the tree is given a value, so that an unknown field may hold numbers and
texts without value and may be nested to any depth, while a known field of a record
may not be repeated.
-/

namespace SpendAlerts

inductive Outline where
  | any
  /-- A name, or a record of one field under that name. -/
  | choice
  | list (item : Outline)
  | table (item : Outline)
  | record (fields : List (String × Outline))
  /-- A cell of a result: percentage and value of a comparison may nest. -/
  | cell

namespace Outline

/-- A key occurs at most once among the fields. -/
def once (key : String) (fields : List (Option String × Tree)) : Bool :=
  (fields.filter fun f => f.1 = some key).length ≤ 1

def find? (key : String) : List (String × Outline) → Option Outline
  | [] => none
  | (k, o) :: rest => if k = key then some o else find? key rest

mutual

/-- The part of a tree that an outline covers. -/
def prune? (o : Outline) : Tree → Option Tree
  | .list xs =>
      match o with
      | list item => (pruneAll? item xs).map .list
      | record fields => (pruneInOrder? (fields.map (·.2)) xs).map .list
      | cell => (pruneAll? cell xs).map .list
      | _ => some (.list xs)
  | .record entries =>
      match o with
      | choice => if entries.length = 1 then some (.record entries) else none
      | table item => (pruneAllFields? item entries).map .record
      | record fields =>
          if entries.all (·.1.isSome) && fields.all fun f => once f.1 entries then
            (pruneFields? fields entries).map .record
          else none
      | cell =>
          if once "pct" entries && once "val" entries then
            (pruneCell? entries).map .record
          else none
      | _ => some (.record entries)
  | t => some t

def pruneAll? (item : Outline) : List Tree → Option (List Tree)
  | [] => some []
  | t :: ts => do
      let t ← prune? item t
      let ts ← pruneAll? item ts
      some (t :: ts)

def pruneInOrder? : List Outline → List Tree → Option (List Tree)
  | o :: os, t :: ts => do
      let t ← prune? o t
      let ts ← pruneInOrder? os ts
      some (t :: ts)
  | _, ts => some ts

def pruneAllFields? (item : Outline) :
    List (Option String × Tree) → Option (List (Option String × Tree))
  | [] => some []
  | (k, t) :: rest => do
      let t ← prune? item t
      let rest ← pruneAllFields? item rest
      some ((k, t) :: rest)

def pruneFields? (fields : List (String × Outline)) :
    List (Option String × Tree) → Option (List (Option String × Tree))
  | [] => some []
  | (k, t) :: rest => do
      let kept ← pruneFields? fields rest
      match k.bind fun key => find? key fields with
      | some o => do
          let t ← prune? o t
          some ((k, t) :: kept)
      | none => some kept

def pruneCell? :
    List (Option String × Tree) → Option (List (Option String × Tree))
  | [] => some []
  | (k, t) :: rest => do
      let t ← if k = some "pct" ∨ k = some "val" then prune? cell t else some t
      let rest ← pruneCell? rest
      some ((k, t) :: rest)

end

end Outline

namespace Value

/-- Reads a text for the fields of an outline. -/
def ofTextWithin? (o : Outline) (text : String) : Option Value :=
  ((Tree.ofText? text).bind o.prune?).bind (Tree.value? Tree.maxDepth)

end Value

end SpendAlerts

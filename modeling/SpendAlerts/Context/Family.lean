/-!
Families of contexts. Contexts are numbered in the order of their creation. A context
holds the signals of all contexts it descends from; a copy shares the signal of what it
copies, a child adds one of its own. Cancelling a context cancels its signal, and a
context is cancelled as soon as any of its signals is.
-/

namespace SpendAlerts

structure ContextFamily where
  /-- The signals of each member, its own first. -/
  members : List (List Nat)
  /-- The first signal that no member has yet. -/
  next : Nat
  cancelled : List Nat
  deriving DecidableEq

namespace ContextFamily

/-- One context, not cancelled. -/
def root : ContextFamily := ⟨[[0]], 1, []⟩

def signals (f : ContextFamily) (member : Nat) : List Nat :=
  f.members.getD member []

/-- Adds a child and gives its number. -/
def child (f : ContextFamily) (member : Nat) : Nat × ContextFamily :=
  (f.members.length,
    { f with members := f.members ++ [f.next :: f.signals member], next := f.next + 1 })

/-- Adds a copy and gives its number. -/
def copy (f : ContextFamily) (member : Nat) : Nat × ContextFamily :=
  (f.members.length, { f with members := f.members ++ [f.signals member] })

def cancel (f : ContextFamily) (member : Nat) : ContextFamily :=
  { f with cancelled := (f.signals member).take 1 ++ f.cancelled }

def isCancelled (f : ContextFamily) (member : Nat) : Bool :=
  (f.signals member).any (f.cancelled.contains ·)

def allCancelled (f : ContextFamily) : List Bool :=
  (List.range f.members.length).map f.isCancelled

end ContextFamily

end SpendAlerts

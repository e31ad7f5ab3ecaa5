import SpendAlerts.Fault

/-!
Request contexts. Work runs in a context that its caller may cancel at any moment, and
looks at the context at fixed points. A signal is described by the number of looks that
still find it quiet: none means that it is never cancelled, zero that it is cancelled
already, so every moment of cancellation is the choice of a number. A child context has
a signal of its own and is cancelled with any context around it.
-/

namespace SpendAlerts

/-- The own signal first, then those of the contexts around it. -/
structure Context where
  own : Option Nat
  around : List (Option Nat)
  deriving DecidableEq, Repr

namespace Context

/-- A context that nobody has cancelled. -/
def fresh : Context := ⟨none, []⟩

instance : Inhabited Context := ⟨fresh⟩

def isCancelled (c : Context) : Bool :=
  c.own = some 0 || c.around.any (· = some 0)

/-- One look nearer to cancellation. -/
def advance : Option Nat → Option Nat
  | some n => some (n - 1)
  | none => none

def looked (c : Context) : Context :=
  ⟨advance c.own, c.around.map advance⟩

def cancel (c : Context) : Context := { c with own := some 0 }

def child (c : Context) : Context := ⟨none, c.own :: c.around⟩

/-- The context around a child, as the child has left it. -/
def parent (c : Context) : Context :=
  match c.around with
  | own :: around => ⟨own, around⟩
  | [] => fresh

end Context

/-- Work in a context: it can fail, and the context stays known when it does. -/
abbrev Guarded := ExceptT Fault (StateM Context)

namespace Guarded

/-- Looks at the context. -/
def isCancelled : StateM Context Bool :=
  fun c => (c.isCancelled, c.looked)

/-- Fails if the context is cancelled. -/
def check : Guarded Unit := do
  if ← isCancelled then throw .cancelled

/-- An answer that does not depend on the context. -/
def ofExcept {α : Type} : Except Fault α → Guarded α
  | .ok x => pure x
  | .error e => throw e

end Guarded

end SpendAlerts

import SpendAlerts.Engine.Digest
import SpendAlerts.Engine.Refresh

/-!
Running queued tasks: one task in the current context, a whole queue one task after the
other, or a batch in which every task has a child context of its own.
-/

namespace SpendAlerts

namespace Engine

inductive Outcome where
  | refreshed (report : RefreshReport)
  | digested (report : DigestReport)
  deriving DecidableEq, Repr

def runTask (c : Collaborators) (t : Task) : Run Outcome := do
  Run.guarded Guarded.check
  match t with
  | .refresh alertId => return .refreshed (← refreshAlert c alertId)
  | .digest customerId => return .digested (← sendDigest c customerId)

/-- Runs a task in a child of the current context. -/
def runInChild (c : Collaborators) (t : Task) (s : State) : Except Fault Outcome × State :=
  let (result, s) := (runTask c t).run { s with context := s.context.child }
  (result, { s with context := s.context.parent })

/-- Runs tasks in order, whether they fail or not. -/
def runBatch (c : Collaborators) :
    List Task → State → List (Task × Except Fault Outcome) × State
  | [], s => ([], s)
  | t :: ts, s =>
      let (result, s) := runInChild c t s
      let (results, s) := runBatch c ts s
      ((t, result) :: results, s)

/-- Runs tasks in order in the current context. -/
def runEach (c : Collaborators) :
    List Task → State → List (Task × Except Fault Outcome) × State
  | [], s => ([], s)
  | t :: ts, s =>
      let (result, s) := (runTask c t).run s
      let (results, s) := runEach c ts s
      ((t, result) :: results, s)

end Engine

end SpendAlerts

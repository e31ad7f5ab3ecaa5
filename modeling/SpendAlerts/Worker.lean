import SpendAlerts.Engine.Work

/-!
The worker. It takes the whole queue as a batch, runs the batch, and puts failed tasks
back until they have no attempt left; then it takes the next batch, until the queue is
empty or the context is cancelled. A task runs with a permit, of which there are as many as
workers and at least one, and gives it back when its run ends. Attempts are counted per
task, so that equal tasks share them. A run that leaves the range of dates counts as a
failure and is not tried again. Which runs end when, and in which order the worker sees
their results, is left open.
-/

namespace SpendAlerts

namespace Worker

open Engine (Outcome)

structure Options where
  /-- How many tasks may run at once. -/
  workers : Nat
  maxAttempts : Nat
  deriving DecidableEq, Repr

/-- One task may always run. -/
def Options.permits (o : Options) : Nat := max o.workers 1

/-- The most permits that can be handed out, which leaves three bits of a word free. -/
def maxPermits : Nat := UInt64.size / 8 - 1

structure Summary where
  completed : Nat
  failures : Nat
  dropped : List Task
  notificationsAdded : Nat
  emailsSent : Nat
  deriving DecidableEq, Repr

def Summary.empty : Summary := ⟨0, 0, [], 0, 0⟩

/-- Why the worker does not come to an end. -/
inductive Stall where
  /-- More permits are asked for than can be handed out. -/
  | tooManyPermits
  /-- A task waits for a permit, and no task runs that could give one back. -/
  | noPermit
  deriving DecidableEq, Repr

/-- A task that was run, and how the run has ended. -/
abbrev Ran := Task × Except Fault Outcome

/-- The end of a run. -/
structure Finish (σ : Type) where
  /-- How many of the running tasks were started before it and run on. -/
  place : Nat
  /-- How many of the results before it are seen after it. -/
  overtakes : Nat
  result : Except Fault Outcome
  state : σ

/-- How runs go, and how the worker finds its context. -/
structure Pool (σ : Type) where
  /-- How many runs end before a task is started, should there be a permit for it. -/
  pause : Task → σ → Nat
  start : Task → σ → σ
  /-- One of the running tasks ends. -/
  finish : Task → List Task → σ → Finish σ
  isCancelled : σ → Bool × σ

variable {σ : Type}

/-- Tasks that run, and results in the order in which they are seen. -/
structure Running where
  tasks : List Task
  ended : List Ran

/-- Lets one of the running tasks end. -/
def finishOne (pool : Pool σ) (t : Task) (ts : List Task) (ended : List Ran) (s : σ) :
    Running × σ :=
  let f := pool.finish t ts s
  let place := min f.place ts.length
  (⟨(t :: ts).eraseIdx place,
    ended.insertIdx (ended.length - f.overtakes) ((t :: ts).getD place t, f.result)⟩, f.state)

/-- Lets some of the running tasks end, or all if there are fewer. -/
def finishSome (pool : Pool σ) : Nat → Running → σ → Running × σ
  | 0, r, s => (r, s)
  | n + 1, r, s => match r.tasks with
    | [] => (r, s)
    | t :: ts =>
        let (r, s) := finishOne pool t ts r.ended s
        finishSome pool n r s

/-- Starts tasks in turn, each with a permit, and lets all runs end. -/
def startAll (pool : Pool σ) (permits : Nat) :
    List Task → Running → σ → Except Stall (List Ran × σ)
  | [], r, s =>
      let (r, s) := finishSome pool r.tasks.length r s
      .ok (r.ended, s)
  | t :: waiting, r, s =>
      let (r, s) := finishSome pool (max (pool.pause t s) (r.tasks.length + 1 - permits)) r s
      if r.tasks.length < permits then
        startAll pool permits waiting { r with tasks := r.tasks ++ [t] } (pool.start t s)
      else .error .noPermit

def Pool.runBatch (pool : Pool σ) (permits : Nat) (batch : List Task) (s : σ) :
    Except Stall (List Ran × σ) :=
  startAll pool permits batch ⟨[], []⟩ s

structure Progress where
  summary : Summary
  /-- The failed runs so far, one entry per run. -/
  failed : List Task
  queue : List Task
  deriving DecidableEq, Repr

namespace Progress

def complete (p : Progress) (o : Outcome) : Progress :=
  let s := { p.summary with completed := p.summary.completed + 1 }
  { p with summary := match o with
      | .refreshed r => { s with notificationsAdded := s.notificationsAdded + r.added }
      | .digested r => { s with emailsSent := s.emailsSent + r.emailsSent } }

def fail (p : Progress) : Progress :=
  { p with summary := { p.summary with failures := p.summary.failures + 1 } }

def drop (p : Progress) (t : Task) : Progress :=
  { p with summary := { p.summary with dropped := p.summary.dropped ++ [t] } }

end Progress

/-- Books the result of one run. -/
def settle (pool : Pool σ) (maxAttempts : Nat) (p : Progress) (s : σ) (t : Task) :
    Except Fault Outcome → Progress × σ
  | .ok o => (p.complete o, s)
  | .error .dateOutOfRange => (p.fail, s)
  | .error _ =>
      let p := { p.fail with failed := t :: p.failed }
      if maxAttempts ≤ p.failed.count t then (p.drop t, s)
      else
        let (cancelled, s) := pool.isCancelled s
        if cancelled then (p.drop t, s) else ({ p with queue := p.queue ++ [t] }, s)

def settleAll (pool : Pool σ) (maxAttempts : Nat) (p : Progress) (s : σ) :
    List Ran → Progress × σ
  | [] => (p, s)
  | (t, result) :: rest =>
      let (p, s) := settle pool maxAttempts p s t result
      settleAll pool maxAttempts p s rest

/-- Runs batches until the queue is empty; each round uses up an attempt of every task
that is put back, which bounds their number. -/
def rounds (pool : Pool σ) (options : Options) : Nat → Progress → σ → Except Stall (Progress × σ)
  | 0, p, s => .ok (p, s)
  | more + 1, p, s =>
      if p.queue = [] then .ok (p, s)
      else
        let batch := p.queue
        let p := { p with queue := [] }
        let (cancelled, s) := pool.isCancelled s
        if cancelled then .ok (p, s)
        else match pool.runBatch options.permits batch s with
          | .error stall => .error stall
          | .ok (results, s) =>
              let (p, s) := settleAll pool options.maxAttempts p s results
              rounds pool options more p s

/-- Works off a queue and gives the summary, what is left of the queue, and the state. -/
def drain (pool : Pool σ) (options : Options) (queue : List Task) (s : σ) :
    Except Stall (Summary × List Task × σ) :=
  if maxPermits < options.permits then .error .tooManyPermits
  else match rounds pool options (max options.maxAttempts 1 + 1) ⟨.empty, [], queue⟩ s with
    | .error stall => .error stall
    | .ok (p, s) => .ok (p.summary, p.queue, s)

/-- The pool that runs tasks one after the other against an engine. -/
def enginePool (c : Engine.Collaborators) : Pool Engine.State where
  pause _ _ := 0
  start _ s := s
  finish t _ s :=
    let (result, s) := Engine.runInChild c t s
    ⟨0, 0, result, s⟩
  isCancelled s := (s.context.isCancelled, { s with context := s.context.looked })

/-- Works off the queue of an engine. -/
def drainEngine (c : Engine.Collaborators) (options : Options) (s : Engine.State) :
    Except Stall Summary × Engine.State :=
  match drain (enginePool c) options s.queue { s with queue := [] } with
  | .error stall => (.error stall, s)
  | .ok (summary, queue, s) => (.ok summary, { s with queue := queue ++ s.queue })

end Worker

end SpendAlerts

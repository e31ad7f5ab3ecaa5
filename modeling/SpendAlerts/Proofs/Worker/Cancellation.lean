import SpendAlerts.Proofs.Worker

/-!
What a cancelled worker loses. The queue is emptied before the look at the context that may
end the loop, so the batch in hand at that look is neither run nor dropped nor put back. Up to
there the account of the worker is complete, and what is lost is that batch and nothing else.
-/

namespace SpendAlerts

namespace Worker

variable {σ : Type} {pool : Pool σ} {options : Options} {p p' : Progress} {s s' : σ}
  {runs : List Ran}

/-- Rounds of the worker that follow each other, with the runs that they make. -/
inductive Rounds (pool : Pool σ) (options : Options) :
    Progress → σ → List Ran → Progress → σ → Prop where
  | none (p : Progress) (s : σ) : Rounds pool options p s [] p s
  | round {p p₁ p' : Progress} {s s₁ s₂ s₃ s' : σ} {results runs : List Ran}
      (more : p.queue ≠ []) (look : pool.isCancelled s = (false, s₁))
      (batch : pool.runBatch options.permits p.queue s₁ = .ok (results, s₂))
      (settled : settleAll pool options.maxAttempts { p with queue := [] } s₂ results = (p₁, s₃))
      (rest : Rounds pool options p₁ s₃ runs p' s') :
      Rounds pool options p s (results ++ runs) p' s'

/-- Where the worker stops: it has nothing in hand, or finds its context cancelled. -/
inductive Stops (pool : Pool σ) (p : Progress) (s : σ) : σ → Prop where
  | idle (done : p.queue = []) : Stops pool p s s
  | cancelled {s' : σ} (more : p.queue ≠ []) (look : pool.isCancelled s = (true, s')) :
      Stops pool p s s'

/-- A loop is some rounds and a stop; what is queued there is given up. -/
theorem Loops.exists_rounds (h : Loops pool options p s runs p' s') :
    ∃ p₁ s₁, Rounds pool options p s runs p₁ s₁ ∧ Stops pool p₁ s₁ s' ∧
      p' = { p₁ with queue := [] } := by
  induction h with
  | @idle p s done =>
      refine ⟨p, s, .none p s, .idle done, ?_⟩
      rw [← done]
  | @cancelled p s s₁ more look => exact ⟨p, s, .none p s, .cancelled more look, rfl⟩
  | round more look batch settled rest ih =>
      obtain ⟨p₂, s₂, hrounds, hstops, hp'⟩ := ih
      exact ⟨p₂, s₂, .round more look batch settled hrounds, hstops, hp'⟩

theorem Rounds.accounted (h : Rounds pool options p s runs p' s')
    (hruns : ∀ run ∈ runs, ¬ Panics run) :
    Accounted options.maxAttempts p.queue p runs p' := by
  induction h with
  | none p s => exact .nil
  | round more look batch settled rest ih =>
      obtain ⟨hresults, hlater⟩ := List.forall_mem_append.mp hruns
      have hperm := perm_of_runBatch options.permits_pos batch
      exact (accounted_of_batch hperm settled hresults).trans (ih hlater)

/-- Every queued copy of a task has completed, was dropped, or is left in the queue. -/
def Lossless (queue : List Task) (runs : List Ran) (summary : Summary) (left : List Task) : Prop :=
  ∀ t, queue.count t ≤ (completions runs).count t + summary.dropped.count t + left.count t

/-- The worker runs some rounds and stops, unless it is refused its permits and leaves the queue
alone. Copies that have completed, were dropped or are in hand at the stop are together the
queue; those in hand are lost, so nothing is lost exactly if nothing was in hand. -/
theorem drain_lossless_iff (pool : Pool σ) (options : Options) (queue : List Task) (s : σ) :
    (options.workers ≤ maxPermits →
      ∃ runs p s₁ s', Rounds pool options ⟨.empty, [], queue⟩ s runs p s₁ ∧
        Stops pool p s₁ s' ∧ drain pool options queue s = .ok (p.summary, [], s') ∧
        ((∀ run ∈ runs, ¬ Panics run) →
          p.summary.completed = (completions runs).length ∧
          (∀ t, (completions runs).count t + p.summary.dropped.count t + p.queue.count t =
            queue.count t) ∧
          (Lossless queue runs p.summary [] ↔ p.queue = []))) ∧
    (maxPermits < options.workers → drain pool options queue s = .error .tooManyPermits) := by
  obtain ⟨runs, p', s', hloops, hdrain⟩ := loops_queue pool options queue s
  refine ⟨fun hworkers => ?_, fun hworkers => hdrain.trans (if_pos hworkers)⟩
  obtain ⟨p, s₁, hrounds, hstops, rfl⟩ := hloops.exists_rounds
  refine ⟨runs, p, s₁, s', hrounds, hstops, hdrain.trans (if_neg (Nat.not_lt.2 hworkers)), ?_⟩
  intro hruns
  have hacc := hrounds.accounted hruns
  have hcopies (t : Task) :
      (completions runs).count t + p.summary.dropped.count t + p.queue.count t =
        queue.count t := hacc.copies t
  refine ⟨hacc.completed.trans (Nat.zero_add _), hcopies, fun h => ?_, fun hqueue t => ?_⟩
  · refine List.eq_nil_iff_forall_not_mem.mpr fun t ht => ?_
    have hlost := h t
    have hhand := List.count_pos_iff.mpr ht
    rw [List.count_nil] at hlost
    have := hcopies t
    omega
  · exact Nat.le_of_eq (hqueue ▸ (hcopies t).symm)

/-- A pool whose refreshes fail, and whose context is cancelled from the third look on. -/
def interrupted : Pool Nat where
  pause _ _ := 0
  start _ looks := looks
  finish t _ looks := ⟨0, 0, match t with
    | .refresh _ => .error (.query "timeout")
    | .digest _ => .ok (.digested ⟨1, 1, 2, 0, 0⟩), looks⟩
  isCancelled looks := (decide (2 ≤ looks), looks + 1)

/-- One copy of the refresh is put back and one is dropped; the copy put back is lost. -/
theorem drain_lossless_iff_interrupted :
    drain interrupted ⟨1, 2⟩ [.refresh "a1", .digest "acme", .refresh "a1"] 0 =
      .ok (⟨1, 2, [.refresh "a1"], 0, 2⟩, [], 3) ∧
    ∃ runs p s₁ s', Rounds interrupted ⟨1, 2⟩
        ⟨.empty, [], [.refresh "a1", .digest "acme", .refresh "a1"]⟩ 0 runs p s₁ ∧
      Stops interrupted p s₁ s' ∧
      drain interrupted ⟨1, 2⟩ [.refresh "a1", .digest "acme", .refresh "a1"] 0 =
        .ok (p.summary, [], s') ∧
      ((∀ run ∈ runs, ¬ Panics run) →
        p.summary.completed = (completions runs).length ∧
        (∀ t, (completions runs).count t + p.summary.dropped.count t + p.queue.count t =
          [.refresh "a1", .digest "acme", .refresh "a1"].count t) ∧
        (Lossless [.refresh "a1", .digest "acme", .refresh "a1"] runs p.summary [] ↔
          p.queue = [])) :=
  ⟨by decide, (drain_lossless_iff interrupted ⟨1, 2⟩ _ 0).1 (by decide)⟩

/-- A worker that is cancelled before its first look has already emptied the queue. -/
theorem not_forall_drainEngine_lossless :
    ¬ ∀ (c : Engine.Collaborators) (options : Options) (s s' s₁ : Engine.State)
      (summary : Summary) (runs : List Ran) (p : Progress),
      drainEngine c options s = (.ok summary, s') →
      Loops (enginePool c) options ⟨.empty, [], s.queue⟩ { s with queue := [] } runs p s₁ →
      (∀ run ∈ runs, ¬ Panics run) → Lossless s.queue runs summary s'.queue := by
  intro h
  have hlost := h (.quiet .standard (.midnight ⟨2024, 5, 15, by decide⟩) ∅) ⟨1, 1⟩
    { Engine.State.empty with context := ⟨some 0, []⟩, queue := [.refresh "a1"] } _ _ _ [] _
    rfl (.cancelled (List.cons_ne_nil _ _) rfl) (List.forall_mem_nil _) (.refresh "a1")
  exact absurd hlost (by decide)

end Worker

end SpendAlerts

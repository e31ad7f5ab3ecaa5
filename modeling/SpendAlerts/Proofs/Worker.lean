import SpendAlerts.Worker
import Mathlib.Data.List.Perm.Basic
import Mathlib.Data.List.Count

/-!
What the worker does with a queue. As long as there is a permit at all, every task of a batch
gets one and is run once, whichever runs end first. The loop over the batches has no bound of
its own, so it is described once without one, with the runs that it makes; a task that is put
back has used up one more attempt in every round, which is why the loop ends. Every run either
completes a copy of its task, drops it or puts it back, so what has completed and what was
dropped are together the queue, and a task is put back fewer times than it has attempts.
-/

namespace SpendAlerts

namespace Worker

open Engine (Outcome)

def completions (runs : List Ran) : List Task :=
  (runs.filter (·.2.isOk)).map (·.1)

def failing (runs : List Ran) : List Task :=
  (runs.filter (!·.2.isOk)).map (·.1)

theorem completions_append (runs later : List Ran) :
    completions (runs ++ later) = completions runs ++ completions later := by
  simp [completions]

theorem failing_append (runs later : List Ran) :
    failing (runs ++ later) = failing runs ++ failing later := by
  simp [failing]

@[simp] theorem completions_ok (t : Task) (o : Outcome) : completions [(t, .ok o)] = [t] := rfl

@[simp] theorem completions_error (t : Task) (e : Fault) : completions [(t, .error e)] = [] := rfl

@[simp] theorem failing_ok (t : Task) (o : Outcome) : failing [(t, .ok o)] = [] := rfl

@[simp] theorem failing_error (t : Task) (e : Fault) : failing [(t, .error e)] = [t] := rfl

/-- The run has left the range of dates. -/
def Panics (run : Ran) : Prop := run.2 = .error .dateOutOfRange

namespace Progress

variable (p : Progress) (o : Outcome) (t : Task)

@[simp] theorem complete_completed :
    (p.complete o).summary.completed = p.summary.completed + 1 := by
  cases o <;> rfl

@[simp] theorem complete_failures : (p.complete o).summary.failures = p.summary.failures := by
  cases o <;> rfl

@[simp] theorem complete_dropped : (p.complete o).summary.dropped = p.summary.dropped := by
  cases o <;> rfl

@[simp] theorem complete_failed : (p.complete o).failed = p.failed := rfl

@[simp] theorem complete_queue : (p.complete o).queue = p.queue := rfl

@[simp] theorem fail_failures : p.fail.summary.failures = p.summary.failures + 1 := rfl

@[simp] theorem fail_queue : p.fail.queue = p.queue := rfl

@[simp] theorem fail_dropped : p.fail.summary.dropped = p.summary.dropped := rfl

@[simp] theorem drop_failures : (p.drop t).summary.failures = p.summary.failures := rfl

@[simp] theorem drop_dropped : (p.drop t).summary.dropped = p.summary.dropped ++ [t] := rfl

@[simp] theorem drop_failed : (p.drop t).failed = p.failed := rfl

@[simp] theorem drop_queue : (p.drop t).queue = p.queue := rfl

end Progress

variable {σ : Type} {pool : Pool σ} {permits maxAttempts : Nat} {options : Options}
  {p p' : Progress} {s s' : σ}

/-! ### One batch -/

/-- The tasks that have been started. -/
def Running.started (r : Running) : List Task := r.tasks ++ r.ended.map (·.1)

theorem finishSome_induction {P : Running → σ → Prop}
    (hstep : ∀ {t ts ended s}, P ⟨t :: ts, ended⟩ s →
      P (finishOne pool t ts ended s).1 (finishOne pool t ts ended s).2)
    (n : Nat) {r : Running} (h : P r s) :
    P (finishSome pool n r s).1 (finishSome pool n r s).2 := by
  induction n generalizing r s with
  | zero => exact h
  | succ n ih =>
      obtain ⟨tasks, ended⟩ := r
      cases tasks with
      | nil => exact h
      | cons t ts => exact ih (hstep h)

theorem perm_finishOne (pool : Pool σ) (t : Task) (ts : List Task) (ended : List Ran) (s : σ) :
    (finishOne pool t ts ended s).1.started.Perm (t :: ts ++ ended.map (·.1)) := by
  rw [Running.started, finishOne]
  generalize pool.finish t ts s = f
  have hplace : min f.place ts.length < (t :: ts).length := by
    rw [List.length_cons]
    omega
  have hended := (List.perm_insertIdx ((t :: ts).getD (min f.place ts.length) t, f.result) ended
    (Nat.sub_le ended.length f.overtakes)).map Prod.fst
  simp only [List.map_cons, List.getD_eq_getElem?_getD, List.getElem?_eq_getElem hplace,
    Option.getD_some] at hended ⊢
  have htasks := List.getElem_cons_eraseIdx_perm hplace
  exact ((hended.append_left _).trans List.perm_middle).trans (htasks.append_right _)

theorem perm_finishSome (pool : Pool σ) (n : Nat) (r : Running) (s : σ) :
    (finishSome pool n r s).1.started.Perm r.started :=
  finishSome_induction (P := fun r' _ => r'.started.Perm r.started)
    (fun h => (perm_finishOne pool _ _ _ _).trans h) n (.refl _)

theorem length_finishSome (pool : Pool σ) (n : Nat) (r : Running) (s : σ) :
    (finishSome pool n r s).1.tasks.length = r.tasks.length - n := by
  induction n generalizing r s with
  | zero => rfl
  | succ n ih =>
      obtain ⟨tasks, ended⟩ := r
      cases tasks with
      | nil => exact (Nat.zero_sub _).symm
      | cons t ts =>
          have hone : (finishOne pool t ts ended s).1.tasks.length = ts.length := by
            simp only [finishOne, List.length_eraseIdx, List.length_cons]
            split <;> omega
          rw [finishSome, ih, hone, List.length_cons]
          omega

/-- With a permit to hand out every task is started, and all runs end. -/
theorem exists_startAll (pool : Pool σ) (hpermits : 0 < permits) (waiting : List Task)
    (r : Running) (s : σ) :
    ∃ results s', startAll pool permits waiting r s = .ok (results, s') ∧
      (results.map (·.1)).Perm (r.started ++ waiting) := by
  induction waiting generalizing r s with
  | nil =>
      refine ⟨_, _, rfl, ?_⟩
      have hperm := perm_finishSome pool r.tasks.length r s
      have hlength := length_finishSome pool r.tasks.length r s
      rw [Nat.sub_self, List.length_eq_zero_iff] at hlength
      rw [Running.started, hlength, List.nil_append] at hperm
      rwa [List.append_nil]
  | cons t waiting ih =>
      rw [startAll]
      generalize hn : max (pool.pause t s) (r.tasks.length + 1 - permits) = n
      have hperm := perm_finishSome pool n r s
      have hfree : (finishSome pool n r s).1.tasks.length < permits := by
        rw [length_finishSome]
        omega
      generalize finishSome pool n r s = next at hperm hfree
      obtain ⟨r', s₁⟩ := next
      obtain ⟨results, s', hstart, hresults⟩ :=
        ih { r' with tasks := r'.tasks ++ [t] } (pool.start t s₁)
      refine ⟨results, s', (if_pos hfree).trans hstart, hresults.trans ?_⟩
      have hstarted : (Running.started { r' with tasks := r'.tasks ++ [t] }).Perm
          (r'.started ++ [t]) := by
        simp only [Running.started, List.append_assoc]
        exact List.perm_append_comm.append_left _
      rw [List.append_cons r.started]
      exact (hstarted.trans (hperm.append_right _)).append_right _

theorem exists_runBatch (pool : Pool σ) (hpermits : 0 < permits) (batch : List Task) (s : σ) :
    ∃ results s', pool.runBatch permits batch s = .ok (results, s') ∧
      (results.map (·.1)).Perm batch :=
  exists_startAll pool hpermits batch ⟨[], []⟩ s

theorem perm_of_runBatch (hpermits : 0 < permits) {batch : List Task} {results : List Ran}
    (h : pool.runBatch permits batch s = .ok (results, s')) :
    (results.map (·.1)).Perm batch := by
  obtain ⟨_, _, hrun, hperm⟩ := exists_runBatch pool hpermits batch s
  cases h.symm.trans hrun
  exact hperm

/-- Without a permit not even the first task could be started. -/
theorem runBatch_zero (pool : Pool σ) (t : Task) (ts : List Task) (s : σ) :
    pool.runBatch 0 (t :: ts) s = .error .noPermit := by
  rw [Pool.runBatch, startAll]
  exact if_neg (Nat.not_lt_zero _)

theorem Options.permits_pos (o : Options) : 0 < o.permits := Nat.le_max_right _ _

/-! ### The loop -/

/-- The loop of the worker, with the runs that it makes until it ends. -/
inductive Loops (pool : Pool σ) (options : Options) :
    Progress → σ → List Ran → Progress → σ → Prop where
  | idle {p : Progress} {s : σ} (done : p.queue = []) : Loops pool options p s [] p s
  | cancelled {p : Progress} {s s₁ : σ} (more : p.queue ≠ [])
      (look : pool.isCancelled s = (true, s₁)) :
      Loops pool options p s [] { p with queue := [] } s₁
  | round {p p₁ p' : Progress} {s s₁ s₂ s₃ s' : σ} {results runs : List Ran}
      (more : p.queue ≠ []) (look : pool.isCancelled s = (false, s₁))
      (batch : pool.runBatch options.permits p.queue s₁ = .ok (results, s₂))
      (settled : settleAll pool options.maxAttempts { p with queue := [] } s₂ results = (p₁, s₃))
      (rest : Loops pool options p₁ s₃ runs p' s') :
      Loops pool options p s (results ++ runs) p' s'

/-- A failed run that has been counted: its task is dropped, or has an attempt left. -/
inductive Counted (maxAttempts : Nat) (p : Progress) (t : Task) : Progress → Prop where
  | dropped : Counted maxAttempts p t ({ p.fail with failed := t :: p.failed }.drop t)
  | back (left : p.failed.count t + 1 < maxAttempts) : Counted maxAttempts p t
      { p.fail with failed := t :: p.failed, queue := p.queue ++ [t] }

/-- What becomes of the result of one run. -/
inductive Settles (maxAttempts : Nat) (p : Progress) : Ran → Progress → Prop where
  | completed (t : Task) (o : Outcome) : Settles maxAttempts p (t, .ok o) (p.complete o)
  | panicked (t : Task) : Settles maxAttempts p (t, .error .dateOutOfRange) p.fail
  | failed (t : Task) (e : Fault) {p' : Progress} (date : e ≠ .dateOutOfRange)
      (counted : Counted maxAttempts p t p') : Settles maxAttempts p (t, .error e) p'

theorem settles_of_settle {run : Ran}
    (h : settle pool maxAttempts p s run.1 run.2 = (p', s')) : Settles maxAttempts p run p' := by
  obtain ⟨t, result⟩ := run
  have hcounted : ∀ {e : Fault}, e ≠ .dateOutOfRange → result = .error e →
      Counted maxAttempts p t p' := by
    rintro e hdate rfl
    rw [settle] at h
    · simp only [List.count_cons_self] at h
      split at h
      · cases h
        exact .dropped
      · next hleft =>
        split at h
        · cases h
          exact .dropped
        · cases h
          exact .back (Nat.lt_of_not_le hleft)
    · exact hdate
  cases result with
  | ok o =>
      cases h
      exact .completed t o
  | error e =>
      by_cases hdate : e = .dateOutOfRange
      · subst hdate
        cases h
        exact .panicked t
      · exact .failed t e hdate (hcounted hdate rfl)

/-- Settling results one after the other. -/
inductive SettlesAll (maxAttempts : Nat) : Progress → List Ran → Progress → Prop where
  | nil (p : Progress) : SettlesAll maxAttempts p [] p
  | cons {p p₁ p' : Progress} {run : Ran} {runs : List Ran}
      (first : Settles maxAttempts p run p₁) (rest : SettlesAll maxAttempts p₁ runs p') :
      SettlesAll maxAttempts p (run :: runs) p'

theorem settlesAll_of_settleAll {runs : List Ran}
    (h : settleAll pool maxAttempts p s runs = (p', s')) : SettlesAll maxAttempts p runs p' := by
  induction runs generalizing p s with
  | nil =>
      cases h
      exact .nil _
  | cons run runs ih =>
      rw [settleAll] at h
      exact .cons (settles_of_settle rfl) (ih h)

/-! ### The bound on the rounds -/

theorem Settles.failed_suffix {run : Ran} (h : Settles maxAttempts p run p') :
    p.failed <:+ p'.failed := by
  cases h with
  | completed t o => exact List.suffix_refl _
  | panicked t => exact List.suffix_refl _
  | failed t e date counted => cases counted <;> exact List.suffix_cons _ _

/-- What holds before a round: each queued task has failed in all rounds so far, and has an
attempt left. The first round looks at no attempts. -/
structure InRound (maxAttempts k : Nat) (p : Progress) : Prop where
  used : ∀ t ∈ p.queue, k ≤ p.failed.count t
  left : p.queue ≠ [] → k = 0 ∨ k < maxAttempts

theorem Settles.inRound {k : Nat} {run : Ran} (h : Settles maxAttempts p run p')
    (hin : InRound maxAttempts (k + 1) p) (hrun : k ≤ p.failed.count run.1) :
    InRound maxAttempts (k + 1) p' := by
  have hgrow (t : Task) : p.failed.count t ≤ p'.failed.count t :=
    h.failed_suffix.sublist.count_le t
  have hkept (hqueue : p'.queue = p.queue) : InRound maxAttempts (k + 1) p' :=
    ⟨fun t ht => Nat.le_trans (hin.used t (hqueue ▸ ht)) (hgrow t),
      fun hne => hin.left (hqueue ▸ hne)⟩
  cases h with
  | completed t o => exact hkept rfl
  | panicked t => exact hkept rfl
  | failed t e date counted =>
      cases counted with
      | dropped => exact hkept rfl
      | back left =>
          have hk : k ≤ p.failed.count t := hrun
          refine ⟨fun u hu => ?_, fun _ => .inr (by omega)⟩
          obtain hu | rfl := List.mem_append.mp hu |>.imp_right List.mem_singleton.mp
          · exact Nat.le_trans (hin.used u hu) (hgrow u)
          · exact Nat.le_trans (Nat.succ_le_succ hk) (Nat.le_of_eq List.count_cons_self.symm)

theorem SettlesAll.inRound {k : Nat} {runs : List Ran} (h : SettlesAll maxAttempts p runs p')
    (hin : InRound maxAttempts (k + 1) p) (hruns : ∀ run ∈ runs, k ≤ p.failed.count run.1) :
    InRound maxAttempts (k + 1) p' := by
  induction h with
  | nil p => exact hin
  | cons first rest ih =>
      obtain ⟨hrun, hruns⟩ := List.forall_mem_cons.mp hruns
      exact ih (first.inRound hin hrun)
        fun run hmem => Nat.le_trans (hruns run hmem) (first.failed_suffix.sublist.count_le run.1)

theorem InRound.next {k : Nat} {results : List Ran} (h : InRound maxAttempts k p)
    (hperm : (results.map (·.1)).Perm p.queue)
    (hsettled : SettlesAll maxAttempts { p with queue := [] } results p') :
    InRound maxAttempts (k + 1) p' :=
  hsettled.inRound ⟨fun _ hmem => absurd hmem List.not_mem_nil, fun hne => absurd rfl hne⟩
    fun _ hrun => h.used _ (hperm.subset (List.mem_map_of_mem hrun))

/-- The bound of `rounds` is never reached: the loop ends before. -/
theorem exists_loops (pool : Pool σ) {k more : Nat} (hin : InRound options.maxAttempts k p)
    (hmore : max options.maxAttempts 1 + 1 ≤ more + k) :
    ∃ runs p' s', rounds pool options more p s = .ok (p', s') ∧
      Loops pool options p s runs p' s' := by
  induction more generalizing p s k with
  | zero =>
      have hdone : p.queue = [] := by
        by_contra hne
        have := hin.left hne
        omega
      exact ⟨[], p, s, rfl, .idle hdone⟩
  | succ more ih =>
      rw [rounds]
      by_cases hdone : p.queue = []
      · exact ⟨[], p, s, if_pos hdone, .idle hdone⟩
      rw [if_neg hdone]
      cases hlook : pool.isCancelled s with
      | mk cancelled s₁ =>
      cases cancelled with
      | true => exact ⟨[], _, s₁, rfl, .cancelled hdone hlook⟩
      | false =>
          obtain ⟨results, s₂, hbatch, hperm⟩ :=
            exists_runBatch pool options.permits_pos p.queue s₁
          cases hsettle : settleAll pool options.maxAttempts { p with queue := [] } s₂ results with
          | mk p₁ s₃ =>
          have hnext := hin.next hperm (settlesAll_of_settleAll hsettle)
          obtain ⟨runs, p', s', hrounds, hruns⟩ := ih (s := s₃) hnext (by omega)
          refine ⟨results ++ runs, p', s', ?_, .round hdone hlook hbatch hsettle hruns⟩
          simp only [Bool.false_eq_true, if_false, hbatch, hsettle]
          exact hrounds

/-! ### What becomes of each copy of a task -/

/-- The account of some runs: `held` are the tasks that were queued or about to be run. Every
copy has completed, was dropped or is queued, and each run has used up a copy or an attempt. -/
structure Accounted (maxAttempts : Nat) (held : List Task) (p : Progress) (runs : List Ran)
    (p' : Progress) : Prop where
  completed : p'.summary.completed = p.summary.completed + (completions runs).length
  failures : p'.summary.failures = p.summary.failures + (failing runs).length
  copies : ∀ t, (completions runs).count t + p'.summary.dropped.count t + p'.queue.count t =
    held.count t + p.summary.dropped.count t
  tries : ∀ t, (runs.map (·.1)).count t + p'.queue.count t +
    (maxAttempts - 1 - p'.failed.count t) ≤ held.count t + (maxAttempts - 1 - p.failed.count t)

theorem Accounted.nil : Accounted maxAttempts p.queue p [] p :=
  ⟨rfl, rfl, fun _ => by simp [completions, Nat.add_comm], fun _ => by simp⟩

/-- Two accounts follow each other; the first does not touch the tasks of `rest`. -/
theorem Accounted.append {p₁ : Progress} {held rest : List Task} {runs later : List Ran}
    (h : Accounted maxAttempts held p runs p₁)
    (hlater : Accounted maxAttempts (p₁.queue ++ rest) p₁ later p') :
    Accounted maxAttempts (held ++ rest) p (runs ++ later) p' where
  completed := by
    rw [hlater.completed, h.completed, completions_append, List.length_append, Nat.add_assoc]
  failures := by
    rw [hlater.failures, h.failures, failing_append, List.length_append, Nat.add_assoc]
  copies t := by
    have hfirst := h.copies t
    have hsecond := hlater.copies t
    simp only [completions_append, List.count_append] at hfirst hsecond ⊢
    omega
  tries t := by
    have hfirst := h.tries t
    have hsecond := hlater.tries t
    simp only [List.map_append, List.count_append] at hfirst hsecond ⊢
    omega

theorem Settles.accounted {run : Ran} (h : Settles maxAttempts p run p') (hrun : ¬ Panics run) :
    Accounted maxAttempts (p.queue ++ [run.1]) p [run] p' := by
  cases h with
  | completed t o =>
      refine ⟨by simp, by simp, fun u => ?_, fun u => ?_⟩ <;> simp <;> omega
  | panicked t => exact absurd rfl hrun
  | failed t e date counted =>
      cases counted with
      | dropped =>
          refine ⟨rfl, by simp, fun u => ?_, fun u => ?_⟩ <;>
            simp [List.count_cons] <;> omega
      | back left =>
          refine ⟨rfl, by simp, fun u => ?_, fun u => ?_⟩
          · simp [Nat.add_comm]
          · by_cases hu : t = u
            · subst hu
              simp
              omega
            · simp [hu]

theorem SettlesAll.accounted {runs : List Ran} (h : SettlesAll maxAttempts p runs p')
    (hruns : ∀ run ∈ runs, ¬ Panics run) :
    Accounted maxAttempts (p.queue ++ runs.map (·.1)) p runs p' := by
  induction h with
  | nil p => simpa using Accounted.nil
  | cons first rest ih =>
      obtain ⟨hrun, hruns⟩ := List.forall_mem_cons.mp hruns
      simpa using (first.accounted hrun).append (ih hruns)

theorem Accounted.congr_held {held held' : List Task} {runs : List Ran}
    (h : Accounted maxAttempts held p runs p') (hperm : held.Perm held') :
    Accounted maxAttempts held' p runs p' :=
  ⟨h.completed, h.failures, fun t => hperm.count_eq t ▸ h.copies t,
    fun t => hperm.count_eq t ▸ h.tries t⟩

theorem Accounted.trans {p₁ : Progress} {held : List Task} {runs later : List Ran}
    (h : Accounted maxAttempts held p runs p₁)
    (hlater : Accounted maxAttempts p₁.queue p₁ later p') :
    Accounted maxAttempts held p (runs ++ later) p' := by
  rw [← List.append_nil p₁.queue] at hlater
  simpa using h.append hlater

/-- A batch that was taken out of the queue, run and settled. -/
theorem accounted_of_batch {results : List Ran} (hperm : (results.map (·.1)).Perm p.queue)
    (hsettled : settleAll pool maxAttempts { p with queue := [] } s results = (p', s'))
    (hresults : ∀ run ∈ results, ¬ Panics run) : Accounted maxAttempts p.queue p results p' :=
  let h := ((settlesAll_of_settleAll hsettled).accounted hresults).congr_held hperm
  ⟨h.completed, h.failures, h.copies, h.tries⟩

/-- From the states that are `alive`, the pool is never cancelled and no run panics. -/
structure Pool.Reliable (pool : Pool σ) (alive : σ → Prop) : Prop where
  looks : ∀ {s}, alive s → ∃ s', pool.isCancelled s = (false, s') ∧ alive s'
  starts : ∀ {s} t, alive s → alive (pool.start t s)
  finishes : ∀ {s} t ts, alive s → (pool.finish t ts s).result ≠ .error .dateOutOfRange ∧
    alive (pool.finish t ts s).state

variable {alive : σ → Prop}

namespace Pool.Reliable

theorem finishSome (hpool : pool.Reliable alive) (n : Nat) {r : Running} (hs : alive s)
    (hended : ∀ run ∈ r.ended, ¬ Panics run) :
    (∀ run ∈ (Worker.finishSome pool n r s).1.ended, ¬ Panics run) ∧
      alive (Worker.finishSome pool n r s).2 := by
  refine finishSome_induction (P := fun r s => (∀ run ∈ r.ended, ¬ Panics run) ∧ alive s) ?_ n
    ⟨hended, hs⟩
  rintro t ts ended s ⟨hended, hs⟩
  obtain ⟨hresult, hstate⟩ := hpool.finishes t ts hs
  refine ⟨fun run hrun => ?_, hstate⟩
  obtain rfl | hold := (List.mem_insertIdx (Nat.sub_le _ _)).1 hrun
  · exact hresult
  · exact hended run hold

theorem startAll (hpool : pool.Reliable alive) {waiting : List Task} {r : Running}
    {results : List Ran} (hs : alive s) (hended : ∀ run ∈ r.ended, ¬ Panics run)
    (h : Worker.startAll pool permits waiting r s = .ok (results, s')) :
    (∀ run ∈ results, ¬ Panics run) ∧ alive s' := by
  induction waiting generalizing r s with
  | nil =>
      cases h
      exact hpool.finishSome _ hs hended
  | cons t waiting ih =>
      rw [Worker.startAll] at h
      obtain ⟨hnext, hstate⟩ := hpool.finishSome
        (max (pool.pause t s) (r.tasks.length + 1 - permits)) hs hended
      generalize Worker.finishSome pool _ r s = next at h hnext hstate
      obtain ⟨r', s₁⟩ := next
      dsimp only at h hnext hstate
      split at h
      · refine ih (hpool.starts t hstate) ?_ h
        exact hnext
      · cases h

theorem runBatch (hpool : pool.Reliable alive) {batch : List Task} {results : List Ran}
    (hs : alive s) (h : pool.runBatch permits batch s = .ok (results, s')) :
    (∀ run ∈ results, ¬ Panics run) ∧ alive s' :=
  hpool.startAll hs (List.forall_mem_nil _) h

theorem alive_settle (hpool : pool.Reliable alive) (hs : alive s) {t : Task}
    {result : Except Fault Outcome} : alive (settle pool maxAttempts p s t result).2 := by
  obtain ⟨s₁, hlook, hs₁⟩ := hpool.looks hs
  fun_cases settle pool maxAttempts p s t result <;> simp_all

theorem alive_settleAll (hpool : pool.Reliable alive) (hs : alive s) {runs : List Ran} :
    alive (settleAll pool maxAttempts p s runs).2 := by
  induction runs generalizing p s with
  | nil => exact hs
  | cons run runs ih => exact ih (hpool.alive_settle hs)

end Pool.Reliable

/-- A loop that is never cancelled empties the queue. -/
theorem Loops.accounted (hpool : pool.Reliable alive) (hs : alive s) {runs : List Ran}
    (h : Loops pool options p s runs p' s') :
    p'.queue = [] ∧ Accounted options.maxAttempts p.queue p runs p' := by
  induction h with
  | idle done => exact ⟨done, .nil⟩
  | cancelled more look =>
      obtain ⟨_, hlook, _⟩ := hpool.looks hs
      simp [look] at hlook
  | @round p p₁ p' s s₁ s₂ s₃ s' results runs _ look batch settled rest ih =>
      obtain ⟨_, hlook, hs₁⟩ := hpool.looks hs
      obtain rfl : s₁ = _ := by simpa [look] using hlook
      obtain ⟨hresults, hs₂⟩ := hpool.runBatch hs₁ batch
      have hs₃ : alive (settleAll pool options.maxAttempts { p with queue := [] } s₂ results).2 :=
        hpool.alive_settleAll hs₂
      rw [settled] at hs₃
      obtain ⟨hqueue, hrest⟩ := ih hs₃
      have hround :=
        accounted_of_batch (perm_of_runBatch options.permits_pos batch) settled hresults
      exact ⟨hqueue, hround.trans hrest⟩

/-- The loop of a whole queue. -/
theorem loops_queue (pool : Pool σ) (options : Options) (queue : List Task) (s : σ) :
    ∃ runs p s', Loops pool options ⟨.empty, [], queue⟩ s runs p s' ∧
      drain pool options queue s =
        if maxPermits < options.workers then .error .tooManyPermits
        else .ok (p.summary, p.queue, s') := by
  have hstart : InRound options.maxAttempts 0 ⟨.empty, [], queue⟩ :=
    ⟨fun _ _ => Nat.zero_le _, fun _ => .inl rfl⟩
  obtain ⟨runs, p, s', hrounds, hloops⟩ :=
    exists_loops pool (s := s) hstart (Nat.le_refl _)
  refine ⟨runs, p, s', hloops, ?_⟩
  have hpermits : maxPermits < options.permits ↔ maxPermits < options.workers := by
    have hone : 1 ≤ maxPermits := by decide
    rw [Options.permits]
    omega
  rw [drain, hrounds]
  exact if_congr hpermits rfl rfl

theorem runBatch_append (c : Engine.Collaborators) (ts us : List Task) (s : Engine.State) :
    Engine.runBatch c (ts ++ us) s =
      ((Engine.runBatch c ts s).1 ++ (Engine.runBatch c us (Engine.runBatch c ts s).2).1,
        (Engine.runBatch c us (Engine.runBatch c ts s).2).2) := by
  induction ts generalizing s with
  | nil => rfl
  | cons t ts ih =>
      simp only [List.cons_append, Engine.runBatch, ih]

theorem finishSome_enginePool (c : Engine.Collaborators) (n : Nat) (ts : List Task)
    (ended : List Ran) (s : Engine.State) : finishSome (enginePool c) n ⟨ts, ended⟩ s =
      (⟨ts.drop n, ended ++ (Engine.runBatch c (ts.take n) s).1⟩,
        (Engine.runBatch c (ts.take n) s).2) := by
  induction n generalizing ts ended s with
  | zero => simp [finishSome, Engine.runBatch]
  | succ n ih =>
      cases ts with
      | nil => simp [finishSome, Engine.runBatch]
      | cons t ts =>
          have hone : finishOne (enginePool c) t ts ended s =
              (⟨ts, ended ++ [(t, (Engine.runInChild c t s).1)]⟩, (Engine.runInChild c t s).2) := by
            simp [finishOne, enginePool]
          simp only [finishSome, hone, ih, List.drop_succ_cons, List.take_succ_cons,
            Engine.runBatch, List.append_assoc, List.singleton_append]

theorem startAll_enginePool (c : Engine.Collaborators) (hpermits : 0 < permits)
    (waiting ts : List Task) (ended : List Ran) (s : Engine.State) :
    startAll (enginePool c) permits waiting ⟨ts, ended⟩ s =
      .ok (ended ++ (Engine.runBatch c (ts ++ waiting) s).1,
        (Engine.runBatch c (ts ++ waiting) s).2) := by
  induction waiting generalizing ts ended s with
  | nil => simp only [startAll, finishSome_enginePool, List.take_length, List.append_nil]
  | cons t waiting ih =>
      rw [startAll]
      simp only [finishSome_enginePool]
      generalize hn : max ((enginePool c).pause t s) (ts.length + 1 - permits) = n
      have hfree : (ts.drop n).length < permits := by
        rw [List.length_drop]
        omega
      have hwhole : ts ++ t :: waiting = ts.take n ++ (ts.drop n ++ [t] ++ waiting) := by
        rw [List.append_assoc, ← List.append_assoc, List.take_append_drop, List.singleton_append]
      rw [if_pos hfree, ih, hwhole, runBatch_append c (ts.take n), List.append_assoc]
      rfl

/-- The worker of an engine runs the tasks of a batch one after the other. -/
theorem runBatch_enginePool (c : Engine.Collaborators) (options : Options) (batch : List Task)
    (s : Engine.State) :
    (enginePool c).runBatch options.permits batch s = .ok (Engine.runBatch c batch s) :=
  startAll_enginePool c options.permits_pos batch [] [] s

end Worker

end SpendAlerts

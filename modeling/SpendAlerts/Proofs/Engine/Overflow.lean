import SpendAlerts.Proofs.Engine.History
import SpendAlerts.Proofs.Store.Readability

/-!
Totals of forecasts that are too large. Everything else that a refresh records is finite
if the cells of its result are, but the sum of finite forecasts need not be. Such a total
is stored in a document that does not decode, which nothing replaces or stamps. So the
queries over notifications succeed in exactly those histories that record no such total.
-/

namespace SpendAlerts

namespace NotificationStore

/-- Recording does not replace what cannot be read. -/
theorem Stuck.records {etag : String} {d d' : Documents} {ns : List Notification}
    {n : Notification} (h : Stuck d n) (hrecords : Records etag d ns d') : Stuck d' n := by
  induction hrecords with
  | nil => exact h
  | @cons d d' m ms allowed _ ih =>
      apply ih
      refine ⟨?_, h.unsent, h.infinite⟩
      rw [document?_write, if_neg, h.stored]
      intro hkey
      have hfinite := (allowed n (hkey ▸ h.stored)).1
      rw [h.infinite] at hfinite
      cases hfinite

end NotificationStore

namespace Engine

open NotificationStore

namespace Step

/-- Every number that the executor answers with is finite. -/
def FiniteAnswers (t : Step) : Prop :=
  ∀ request result, t.collaborators.executor.answer request = .ok result → result.Finite

/-- The step is a refresh that records the total of a forecast, and this is not finite. -/
structure Overflows (t : Step) (s : State) (n : Notification) : Prop where
  forecast : ∃ a request result, t.alert? s = some a ∧ a.config.condition = .forecast ∧
    t.collaborators.executor.answer request = .ok result ∧
    Evaluation.forecastTotal a.config.interval request t.collaborators.now 0.0
      result.forecastRows = .ok n.value
  recorded : Stuck (t.after s).notifications n

variable {t : Step} {s : State} {n : Notification}

theorem Records.overflows {a : Alert} {written : List Notification} {id : String}
    (h : t.Records s a written) (hfinite : t.FiniteAnswers) (hcall : t.call = .refresh id)
    (hread : AlertStore.read s.alerts id = .ok a) (hn : n ∈ written)
    (hrecorded : document? (t.after s).notifications n.key = some n.encode)
    (hinfinite : Decimal.isFinite n.value = false) : t.Overflows s n := by
  cases h with
  | intro request result ns _ answer evaluated part records =>
      obtain ⟨m, hm, rfl⟩ := List.mem_map.1 (part.subset hn)
      obtain ⟨hdetects, hvalue⟩ := mem_evaluate evaluated hm
      refine ⟨⟨a, request, result, ?_, ?_⟩, hrecorded, hdetects.unsent, hinfinite⟩
      · simp [alert?, hcall, hread, Except.toOption]
      · cases hvalue with
        | inl h =>
            have hcontra := h (hfinite request result answer)
            change Decimal.isFinite m.value = false at hinfinite
            rw [hinfinite] at hcontra
            cases hcontra
        | inr h => exact ⟨h.1, answer, h.2⟩

/-- A step leaves every document readable, or overflows. -/
theorem readable_after (hd : Keyed s.notifications) (hfinite : t.FiniteAnswers)
    (hr : Readable s.notifications) :
    Readable (t.after s).notifications ∨ ∃ n, t.Overflows s n := by
  by_cases hover : ∃ n, t.Overflows s n
  · exact .inr hover
  refine .inl ((readable_iff (keyed_after hd)).2 ?_)
  intro n hn
  have hold := (readable_iff hd).1 hr n
  cases hcall : t.call with
  | put a =>
      rw [(put_cases (s := s) hcall).1] at hn
      exact hold hn
  | digest customerId =>
      by_cases hk : n.key ∈ (t.stamped s).map (·.key)
      · obtain ⟨m, hm, hkey⟩ := List.mem_map.1 hk
        obtain ⟨-, -, hvalue, -, hdoc⟩ := of_mem_stamped hd hm
        rw [hkey, hn] at hdoc
        have hsent : m.sentAt (t.collaborators.stampTime n.key) = n :=
          eq_of_encode_eq hvalue (Option.some.inj hdoc).symm
        exact hsent ▸ hvalue
      · rw [document?_after hd (fun id h => by cases hcall.symm.trans h) hk] at hn
        exact hold hn
  | refresh id =>
      obtain ⟨-, ⟨hsame, -⟩ | ⟨a, written, hread, hrecords, -⟩⟩ := refresh_cases (s := s) hcall
      · rw [hsame] at hn
        exact hold hn
      obtain ⟨-, hsame⟩ | ⟨m, hm, hkey, hdoc, -⟩ := hrecords.stored.document?_cases n.key
      · rw [hsame] at hn
        exact hold hn
      -- Values that are not finite have one encoding, so `m` need not be `n` itself.
      · cases hvalue : Decimal.isFinite m.value with
        | true =>
            rw [hn] at hdoc
            exact eq_of_encode_eq hvalue (Option.some.inj hdoc).symm ▸ hvalue
        | false =>
            rw [← hkey] at hdoc
            exact absurd ⟨m, hrecords.overflows hfinite hcall hread hm hdoc hvalue⟩ hover

/-- What cannot be read stays as it is, whatever the step. -/
theorem stuck_after (hd : Keyed s.notifications) (h : Stuck s.notifications n) :
    Stuck (t.after s).notifications n := by
  cases hcall : t.call with
  | put a =>
      rw [(put_cases (s := s) hcall).1]
      exact h
  | digest customerId =>
      obtain ⟨groups, sections, hp, hstamped, hcompiles⟩ := digest_cases hcall hd
      refine h.stamps ?_ hcompiles.stamps
      intro m hm
      obtain ⟨-, -, hvalue, hdoc, -⟩ := of_mem_stamped hd (hstamped.symm ▸ hm)
      exact ⟨hvalue, hdoc⟩
  | refresh id =>
      obtain ⟨-, ⟨hsame, -⟩ | ⟨a, written, -, hrecords, -⟩⟩ := refresh_cases (s := s) hcall
      · exact hsame.symm ▸ h
      · exact h.records hrecords.stored

end Step

def Overflow (s : State) (ts : List Step) : Prop :=
  ∃ before t after n, ts = before ++ t :: after ∧ t.Overflows (runs s before) n

variable {s : State}

theorem stuck_runs {n : Notification} (hd : Keyed s.notifications)
    (h : Stuck s.notifications n) (ts : List Step) : Stuck (runs s ts).notifications n := by
  induction ts generalizing s with
  | nil => exact h
  | cons t ts ih => exact ih (Step.keyed_after hd) (Step.stuck_after hd h)

theorem Overflow.stuck {ts : List Step} (hd : Keyed s.notifications) (h : Overflow s ts) :
    ∃ n, Stuck (runs s ts).notifications n := by
  obtain ⟨before, t, after, n, rfl, hover⟩ := h
  refine ⟨n, ?_⟩
  rw [runs_append]
  exact stuck_runs (Step.keyed_after (keyed_runs hd before)) hover.recorded after

theorem Overflow.cons {t : Step} {ts : List Step} (h : Overflow (t.after s) ts) :
    Overflow s (t :: ts) := by
  obtain ⟨before, u, after, n, rfl, hover⟩ := h
  exact ⟨t :: before, u, after, n, rfl, hover⟩

theorem readable_runs {ts : List Step} (hd : Keyed s.notifications)
    (hfinite : ∀ t ∈ ts, t.FiniteAnswers) (hr : Readable s.notifications) :
    Readable (runs s ts).notifications ∨ Overflow s ts := by
  induction ts generalizing s with
  | nil => exact .inl hr
  | cons t ts ih =>
      rw [List.forall_mem_cons] at hfinite
      obtain hafter | ⟨n, hover⟩ := Step.readable_after hd hfinite.1 hr
      · exact (ih (Step.keyed_after hd) hfinite.2 hafter).imp_right Overflow.cons
      · exact .inr ⟨[], t, ts, n, rfl, hover⟩

/-- Histories that begin without notifications and query nothing but finite numbers leave
every document readable exactly if none of their forecasts overflows. All queries succeed
then, and after an overflow the customers with pending notifications cannot be listed. -/
theorem readable_iff_no_overflow {ts : List Step}
    (hempty : ∀ k, document? s.notifications k = none)
    (hfinite : ∀ t ∈ ts, t.FiniteAnswers) :
    (Readable (runs s ts).notifications ↔ ¬Overflow s ts) ∧
      ∀ context : Context, context.isCancelled = false →
        (Answers ⟨context, (runs s ts).notifications⟩ ↔ ¬Overflow s ts) ∧
        ((customersWithPending ⟨context, (runs s ts).notifications⟩).1.isOk = true ↔
          ¬Overflow s ts) := by
  have hd := keyed_of_empty hempty
  have hr : Readable s.notifications := by
    intro k doc hdoc
    rw [hempty k] at hdoc
    cases hdoc
  have hreadable : ¬Overflow s ts → Readable (runs s ts).notifications :=
    fun h => (readable_runs hd hfinite hr).resolve_right h
  have hblocked : ∀ context, Overflow s ts →
      (customersWithPending ⟨context, (runs s ts).notifications⟩).1.isOk = false := by
    intro context h
    obtain ⟨n, hn⟩ := h.stuck hd
    have hn' : Stuck (Session.mk context (runs s ts).notifications).documents n := hn
    exact hn'.customers
  refine ⟨⟨?_, hreadable⟩, ?_⟩
  · intro h hover
    obtain ⟨n, hn⟩ := hover.stuck hd
    exact hn.not_readable h
  intro context hc
  have hanswers : ¬Overflow s ts → Answers ⟨context, (runs s ts).notifications⟩ :=
    fun h => Readable.answers (s := ⟨context, _⟩) (hreadable h) hc
  refine ⟨⟨?_, hanswers⟩, ?_, fun h => (hanswers h).customers⟩
  · intro h hover
    exact absurd h.customers (by simp [hblocked context hover])
  · intro h hover
    rw [hblocked context hover] at h
    cases h

namespace Sample

def large : QueryResult :=
  ⟨[], [[.text "forecast", .int 2024, .int 5, .int 20, .float 1e308],
    [.text "forecast", .int 2024, .int 5, .int 21, .float 1e308]]⟩

def forecasting : List Step :=
  [step may large (.put (alert (.ofThreshold .forecast .greater 20.0 .cost .month))),
    step may large (.refresh "a1")]

theorem answer_step {now : Instant} {result r : QueryResult} {call : Call}
    {request : QueryRequest}
    (h : (step now result call).collaborators.executor.answer request = .ok r) : r = result := by
  simp only [step, Collaborators.quiet, cannedExecutor] at h
  split at h
  next x hx =>
    cases h
    have hmem : (request.alertId, r) ∈ [("a1", result)] := Entries.mem_of_find? hx
    exact congrArg Prod.snd (List.mem_singleton.1 hmem)
  next => cases h

theorem finiteAnswers_forecasting : ∀ t ∈ forecasting, t.FiniteAnswers := by
  have hfinite : large.Finite := by
    simp [QueryResult.Finite, large, Cell.Finite]
    decide +kernel
  intro t ht request result hanswer
  simp only [forecasting, List.mem_cons, List.not_mem_nil, or_false] at ht
  obtain rfl | rfl := ht
  · exact answer_step hanswer ▸ hfinite
  · exact answer_step hanswer ▸ hfinite

end Sample

open Sample in
/-- A forecast of a month overflows, and no customer can be listed afterwards. -/
theorem overflow_forecasting : Overflow .empty forecasting := by
  refine Classical.not_not.1 fun h => ?_
  have hok := ((readable_iff_no_overflow (s := .empty) (fun _ => rfl)
    finiteAnswers_forecasting).2 .fresh rfl).2.2 h
  exact absurd hok (by decide +kernel)

open Sample in
/-- It is not true that queries answered with finite numbers leave all documents readable. -/
theorem not_forall_readable :
    ¬∀ ts : List Step, (∀ t ∈ ts, t.FiniteAnswers) → Readable (runs .empty ts).notifications := by
  intro h
  have hreadable := h forecasting finiteAnswers_forecasting
  have hok := (Readable.answers (s := ⟨.fresh, _⟩) hreadable rfl).customers
  exact absurd hok (by decide +kernel)

end Engine

end SpendAlerts

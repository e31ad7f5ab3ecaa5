import SpendAlerts.Proofs.Engine.Refresh
import SpendAlerts.Proofs.Engine.Uncancelled

/-!
What a refresh finds out before it writes. In a context that nobody cancels the plan of a
breakdown, the request and the detections depend on the documents and the collaborators
alone, and the refresh fails, skips the alert or records the detections accordingly. The
documents of notifications matter for the filter of the request only, and no filter has a
part in how a result is evaluated.
-/

namespace SpendAlerts

namespace Engine

open Run NotificationStore

/-- What a refresh finds out. -/
inductive Verdict where
  | skipped (why : Skip)
  | detected (a : Alert) (ns : List Notification)

/-- What the refresh of an alert finds out over some documents. -/
def evaluated (c : Collaborators) (d : Documents) (a : Alert) : Except Fault Verdict := do
  a.validate
  if onlyNotifiesNobody c.settings a then .ok (.skipped .noReplyOnly)
  else match ← QueryRequest.ofDocuments c.settings.breakdownLimit a c.now d with
    | none => .ok (.skipped .quotaExhausted)
    | some request => do
        let result ← c.executor.answer request
        let ns ← evaluate c.settings.noiseThreshold a request result c.now
        .ok (.detected a ns)

def verdict (c : Collaborators) (alerts notifications : Documents) (id : String) :
    Except Fault Verdict := do
  let a ← AlertStore.read alerts id
  match ← c.access.answer a.customerId with
  | .denied reason => .ok (.skipped (.accessDenied reason))
  | .granted => evaluated c notifications a

variable {c : Collaborators} {s s' : State}

theorem detections_of_evaluated {a b : Alert} {id : String} {ns : List Notification}
    (hread : AlertStore.read s.alerts id = .ok a)
    (h : evaluated c s.notifications a = .ok (.detected b ns)) :
    b = a ∧ ∃ request result, Detections c id s a request result ns := by
  obtain ⟨_, -, h⟩ := bind_eq_ok.1 h
  split at h
  · cases h
  · obtain ⟨built, hbuilt, h⟩ := bind_eq_ok.1 h
    cases built with
    | none => cases h
    | some request =>
        obtain ⟨result, hanswer, h⟩ := bind_eq_ok.1 h
        obtain ⟨_, hns, h⟩ := bind_eq_ok.1 h
        cases h
        exact ⟨rfl, request, result, hread, hbuilt, hanswer, hns⟩

theorem detections_of_verdict {id : String} {a : Alert} {ns : List Notification}
    (h : verdict c s.alerts s.notifications id = .ok (.detected a ns)) :
    ∃ request result, Detections c id s a request result ns := by
  obtain ⟨b, hread, h⟩ := bind_eq_ok.1 h
  obtain ⟨access, -, h⟩ := bind_eq_ok.1 h
  cases access with
  | denied reason => cases h
  | granted =>
      obtain ⟨rfl, hdetections⟩ := detections_of_evaluated hread h
      exact hdetections

/-- What a refresh does with what it has found out. -/
def conclude (c : Collaborators) (id : String) : Except Fault Verdict → Run RefreshReport
  | .error e => throw e
  | .ok (.skipped why) => return .quiet id (some why)
  | .ok (.detected a ns) => record c a ns

/-- A refresh that records anything is not skipped. -/
theorem skipped_conclude {id : String} {v : Except Fault Verdict} {why : Skip} :
    (∃ report, (conclude c id v s).1 = .ok report ∧ report.skipped = some why) ↔
      v = .ok (.skipped why) := by
  cases v with
  | error e => exact iff_of_false (fun ⟨_, hreport, _⟩ => nomatch hreport) nofun
  | ok v =>
      cases v with
      | skipped other =>
          constructor
          · rintro ⟨_, ⟨⟩, ⟨⟩⟩
            rfl
          · rintro ⟨⟩
            exact ⟨_, rfl, rfl⟩
      | detected a ns =>
          refine iff_of_false ?_ nofun
          rintro ⟨report, hreport, hskipped⟩
          obtain ⟨e, -, hr⟩ | ⟨added, s₁, -, h⟩ := bind_cases (Prod.ext hreport rfl :
            record c a ns s = (.ok report, (record c a ns s).2))
          · cases hr
          obtain ⟨e, -, hr⟩ | ⟨taken, s₂, -, h⟩ := bind_cases h
          · cases hr
          cases h
          cases hskipped

theorem evaluated_eq_skipped {d : Documents} {a : Alert} {why : Skip}
    (hvalid : a.validate = .ok ()) (hreaches : onlyNotifiesNobody c.settings a = false) :
    evaluated c d a = .ok (.skipped why) ↔ why = .quotaExhausted ∧
      QueryRequest.ofDocuments c.settings.breakdownLimit a c.now d = .ok none := by
  rw [evaluated, hvalid]
  simp only [ok_bind, hreaches, Bool.false_eq_true, if_false]
  cases QueryRequest.ofDocuments c.settings.breakdownLimit a c.now d with
  | error e => simp
  | ok built =>
      cases built with
      | none => simp [eq_comm]
      | some request =>
          simp only [ok_bind]
          refine iff_of_false ?_ nofun
          intro h
          obtain ⟨_, -, h⟩ := bind_eq_ok.1 h
          obtain ⟨_, -, h⟩ := bind_eq_ok.1 h
          cases h

/-- What a refresh with some verdict has asked the executor. A refresh that fails may have asked
or not. -/
inductive Asks (c : Collaborators) (id : String) (s : State) :
    Except Fault Verdict → List QueryRequest → Prop where
  | failed (e : Fault) (requests : List QueryRequest) : Asks c id s (.error e) requests
  | skipped (why : Skip) : Asks c id s (.ok (.skipped why)) []
  | detected {a : Alert} {request : QueryRequest} {result : QueryResult}
      {ns : List Notification} (detections : Detections c id s a request result ns) :
      Asks c id s (.ok (.detected a ns)) [request]

theorem Asks.of_same {id : String} {v : Except Fault Verdict} {requests : List QueryRequest}
    (h : Asks c id s v requests) (halerts : s.alerts = s'.alerts)
    (hnotifications : s.notifications = s'.notifications) : Asks c id s' v requests := by
  cases h with
  | failed e => exact .failed e requests
  | skipped why => exact .skipped why
  | detected h =>
      exact .detected ⟨halerts ▸ h.alert, hnotifications ▸ h.planned, h.answer, h.evaluated⟩

namespace Undisturbed

theorem evaluateAlert (h : Undisturbed c s) {a : Alert} {id : String}
    (hread : AlertStore.read s.alerts id = .ok a) : ∃ requests,
      Asks c id s (evaluated c s.notifications a) requests ∧ Engine.evaluateAlert c a s =
        conclude c id (evaluated c s.notifications a)
          { s with requests := s.requests ++ requests } := by
  obtain rfl := (AlertStore.read_eq_ok hread).1
  -- Nothing is asked before the query.
  have hnothing : { s with requests := s.requests ++ [] } = s := by rw [List.append_nil]
  rw [Engine.evaluateAlert, evaluated]
  cases hvalid : a.validate with
  | error e =>
      refine ⟨[], .failed e [], ?_⟩
      rw [hnothing]
      rfl
  | ok _ =>
      rw [ofExcept_bind, ok_bind]
      cases hnobody : onlyNotifiesNobody c.settings a with
      | true =>
          refine ⟨[], .skipped .noReplyOnly, ?_⟩
          rw [hnothing]
          rfl
      | false =>
          simp only [Bool.false_eq_true, if_false]
          have hbuild := h.peek (QueryRequest.peeks_build c.settings.breakdownLimit a c.now)
          cases hrequest :
              QueryRequest.ofDocuments c.settings.breakdownLimit a c.now s.notifications with
          | error e =>
              rw [hrequest] at hbuild
              refine ⟨[], .failed e [], ?_⟩
              rw [hnothing]
              exact bind_of_error hbuild
          | ok built =>
              rw [hrequest] at hbuild
              rw [bind_of_ok hbuild]
              cases built with
              | none =>
                  refine ⟨[], .skipped .quotaExhausted, ?_⟩
                  rw [hnothing]
                  rfl
              | some request =>
                  have hexecute := h.execute request
                  refine ⟨[request], ?_⟩
                  simp only [ok_bind]
                  cases hanswer : c.executor.answer request with
                  | error e =>
                      rw [hanswer] at hexecute
                      exact ⟨.failed e _, bind_of_error hexecute⟩
                  | ok result =>
                      rw [hanswer] at hexecute
                      rw [bind_of_ok hexecute, ok_bind]
                      cases hns : evaluate c.settings.noiseThreshold a request result c.now with
                      | error e => exact ⟨.failed e _, rfl⟩
                      | ok ns => exact ⟨.detected ⟨hread, hrequest, hanswer, hns⟩, rfl⟩

/-- A refresh concludes from its verdict, and has asked the executor accordingly. -/
theorem refreshAlert_asks (h : Undisturbed c s) (id : String) : ∃ asked requests,
    Asks c id s (verdict c s.alerts s.notifications id) requests ∧ Engine.refreshAlert c id s =
      conclude c id (verdict c s.alerts s.notifications id)
        { s with asked, requests := s.requests ++ requests } := by
  have hnothing : s.requests ++ [] = s.requests := List.append_nil _
  rw [Engine.refreshAlert, verdict]
  have hget := h.get id
  cases hread : AlertStore.read s.alerts id with
  | error e =>
      rw [hread] at hget
      refine ⟨s.asked, [], .failed e [], ?_⟩
      rw [hnothing]
      exact bind_of_error hget
  | ok a =>
      rw [hread] at hget
      rw [bind_of_ok hget, ok_bind]
      have haccess := h.checkAccess a.customerId
      have hasked : Undisturbed c { s with asked := s.asked ++ [a.customerId] } :=
        h.of_context rfl
      cases hanswer : c.access.answer a.customerId with
      | error e =>
          rw [hanswer] at haccess
          refine ⟨s.asked ++ [a.customerId], [], .failed e [], ?_⟩
          rw [hnothing]
          exact bind_of_error haccess
      | ok answer =>
          rw [hanswer] at haccess
          rw [bind_of_ok haccess, ok_bind]
          cases answer with
          | denied reason =>
              refine ⟨s.asked ++ [a.customerId], [], .skipped (.accessDenied reason), ?_⟩
              rw [hnothing]
              rfl
          | granted =>
              obtain ⟨requests, hasks, hrun⟩ := hasked.evaluateAlert hread
              exact ⟨_, requests, hasks.of_same rfl rfl, hrun⟩

/-- A refresh concludes from its verdict, whatever it has asked for on the way. -/
theorem refreshAlert (h : Undisturbed c s) (id : String) :
    ∃ asked requests, Engine.refreshAlert c id s =
      conclude c id (verdict c s.alerts s.notifications id) { s with asked, requests } := by
  obtain ⟨asked, requests, -, hrun⟩ := h.refreshAlert_asks id
  exact ⟨asked, _, hrun⟩

end Undisturbed

end Engine

end SpendAlerts

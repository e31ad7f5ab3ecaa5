import SpendAlerts.Engine.Digest
import SpendAlerts.Proofs.Engine.Calls

/-!
Sending the messages of a digest. Whatever the transport does with any of them, all that go to
an address that mail may go to are handed over in their order, and each message is
counted as sent, failed or skipped.
-/

namespace SpendAlerts

namespace Engine

open Run

variable {c : Collaborators} {s s' : State} {customerId : String}

/-- The messages to the addresses that mail may go to. -/
def letters (settings : Settings) (customerId : String)
    (messages : List (String × List Digest.Body)) : List Digest.Email :=
  (messages.filter fun m => settings.allows m.1).map fun m => ⟨m.1, customerId, m.2⟩

/-- What sending some messages does: it hands over the letters and counts what becomes of each
message. -/
structure Posts (c : Collaborators) (customerId : String)
    (messages : List (String × List Digest.Body)) (report : DigestReport) (s : State)
    (posted : List (Delivery Digest.Email)) (sent : DigestReport) (s' : State) : Prop where
  same : State.Same s s'
  emails : s'.emails = s.emails ++ posted
  contents : posted.map (·.content) = letters c.settings customerId messages
  accepted : c.mail.heedsContext = false →
    ∀ p ∈ posted, p.accepted = (c.mail.answer p.content).isOk
  report : sent = { report with
    emailsSent := report.emailsSent + (posted.filter (·.accepted)).length
    emailsFailed := report.emailsFailed + (posted.filter (!·.accepted)).length
    recipientsSkipped := report.recipientsSkipped +
      (messages.filter fun m => !c.settings.allows m.1).length }

namespace Posts

variable {messages : List (String × List Digest.Body)} {report sent : DigestReport}
  {posted : List (Delivery Digest.Email)} {recipient : String} {bodies : List Digest.Body}

theorem nil : Posts c customerId [] report s [] report s where
  same := .refl s
  emails := (List.append_nil _).symm
  contents := rfl
  accepted _ := List.forall_mem_nil _
  report := rfl

theorem skip (hallows : c.settings.allows recipient = false)
    (h : Posts c customerId messages
      { report with recipientsSkipped := report.recipientsSkipped + 1 } s posted sent s') :
    Posts c customerId ((recipient, bodies) :: messages) report s posted sent s' where
  same := h.same
  emails := h.emails
  contents := by
    rw [h.contents, letters, letters, List.filter_cons_of_neg (by simp [hallows])]
  accepted := h.accepted
  report := by
    rw [h.report, List.filter_cons_of_pos (by simp [hallows]), List.length_cons]
    simp only [DigestReport.mk.injEq, true_and]
    omega

/-- The count of a letter that is handed over. -/
def counting (report : DigestReport) (taken : Bool) : DigestReport :=
  if taken then { report with emailsSent := report.emailsSent + 1 }
  else { report with emailsFailed := report.emailsFailed + 1 }

theorem hand {s₁ : State} {taken : Bool} (hallows : c.settings.allows recipient = true)
    (hsame : State.Same s s₁)
    (hemails : s₁.emails = s.emails ++ [⟨⟨recipient, customerId, bodies⟩, taken⟩])
    (htaken : c.mail.heedsContext = false →
      taken = (c.mail.answer ⟨recipient, customerId, bodies⟩).isOk)
    (h : Posts c customerId messages (counting report taken) s₁ posted sent s') :
    Posts c customerId ((recipient, bodies) :: messages) report s
      (⟨⟨recipient, customerId, bodies⟩, taken⟩ :: posted) sent s' where
  same := hsame.trans h.same
  emails := by
    rw [h.emails, hemails, List.append_assoc]
    rfl
  contents := by
    rw [List.map_cons, h.contents, letters, letters, List.filter_cons_of_pos (by simp [hallows])]
    rfl
  accepted hheeds := List.forall_mem_cons.2 ⟨htaken hheeds, h.accepted hheeds⟩
  report := by
    rw [h.report, List.filter_cons_of_neg (l := messages) (by simp [hallows])]
    cases taken with
    | true =>
        simp only [counting, List.filter_cons, if_true, List.length_cons, DigestReport.mk.injEq,
          true_and, Bool.not_true, Bool.false_eq_true, if_false, and_true]
        omega
    | false =>
        simp only [counting, List.filter_cons, if_true, List.length_cons, DigestReport.mk.injEq,
          true_and, Bool.not_false, Bool.false_eq_true, if_false, and_true]
        omega

end Posts

/-- Sending never fails, in any context and whatever the transport answers. -/
theorem sendAll_cases {messages : List (String × List Digest.Body)} {report : DigestReport}
    {r : Except Fault DigestReport} (h : sendAll c customerId report messages s = (r, s')) :
    ∃ posted sent, r = .ok sent ∧ Posts c customerId messages report s posted sent s' := by
  induction messages generalizing s s' r report with
  | nil =>
      cases h
      exact ⟨[], report, rfl, .nil⟩
  | cons message messages ih =>
      obtain ⟨recipient, bodies⟩ := message
      rw [sendAll] at h
      cases hallows : c.settings.allows recipient with
      | false =>
          rw [hallows] at h
          obtain ⟨posted, sent, hr, hposts⟩ := ih h
          exact ⟨posted, sent, hr, hposts.skip hallows⟩
      | true =>
          rw [hallows] at h
          obtain ⟨taken, s₁, ⟨hsame, hemails, htaken⟩, hrest⟩ :=
            bind_cases_of_ok Collaborators.send_cases h
          have hcounting : sendAll c customerId (Posts.counting report taken) messages s₁ =
              (r, s') := by
            cases taken with
            | true => exact hrest
            | false => exact hrest
          obtain ⟨posted, sent, hr, hposts⟩ := ih hcounting
          exact ⟨_, sent, hr, hposts.hand hallows hsame hemails htaken⟩

end Engine

end SpendAlerts

import SpendAlerts.Text.Blank

/-!
Texts with a separator. What stands in front of the first separator, and what follows it,
are determined by the whole, and so is what follows the last one. A text is cut into two pieces
when exactly one separator is in it, and the pieces are what stands around that one.
-/

namespace SpendAlerts.Text

theorem eq_of_append_cons_eq {α : Type} {c : α} {xs ys as bs : List α} (hx : c ∉ xs)
    (hy : c ∉ ys) (h : xs ++ c :: as = ys ++ c :: bs) : xs = ys ∧ as = bs := by
  induction xs generalizing ys with
  | nil =>
      cases ys with
      | nil =>
          cases h
          exact ⟨rfl, rfl⟩
      | cons y ys =>
          cases h
          exact absurd List.mem_cons_self hy
  | cons x xs ih =>
      cases ys with
      | nil =>
          cases h
          exact absurd List.mem_cons_self hx
      | cons y ys =>
          rw [List.cons_append, List.cons_append, List.cons.injEq] at h
          obtain ⟨rfl, h⟩ := h
          have hxs : c ∉ xs := fun hc => hx (List.mem_cons_of_mem _ hc)
          have hys : c ∉ ys := fun hc => hy (List.mem_cons_of_mem _ hc)
          obtain ⟨rfl, rfl⟩ := ih hxs hys h
          exact ⟨rfl, rfl⟩

theorem afterLast?_append {separator : Char} {init rest : List Char} (h : separator ∉ rest) :
    afterLast? separator (init ++ separator :: rest) = some rest := by
  have hall : ∀ c ∈ rest.reverse, decide (c ≠ separator) = true := by
    intro c hc
    rw [List.mem_reverse] at hc
    exact decide_eq_true fun heq => h (heq ▸ hc)
  rw [afterLast?, if_pos (by simp), List.reverse_append, List.reverse_cons, List.append_assoc,
    List.takeWhile_append_of_pos hall]
  simp

/-- What follows the last separator is the part that follows a separator and has none itself. -/
theorem afterLast?_eq_some {separator : Char} {s rest : List Char} :
    afterLast? separator s = some rest ↔
      ∃ init, s = init ++ separator :: rest ∧ separator ∉ rest := by
  constructor
  · intro h
    by_cases hmem : separator ∈ s
    · obtain ⟨before, after, hsplit, hfree⟩ :=
        List.eq_append_cons_of_mem (List.mem_reverse.2 hmem)
      have hs : s = after.reverse ++ separator :: before.reverse := by
        rw [← List.reverse_reverse s, hsplit]
        simp
      have hrest : separator ∉ before.reverse := by simpa using hfree
      rw [hs, afterLast?_append hrest] at h
      cases h
      exact ⟨after.reverse, hs, hrest⟩
    · rw [afterLast?, if_neg hmem] at h
      cases h
  · intro ⟨init, hs, hrest⟩
    rw [hs]
    exact afterLast?_append hrest

theorem pieces_eq_splitOn (separator : Char) (s : List Char) :
    pieces separator s = s.splitOn separator := by
  induction s with
  | nil => rfl
  | cons c rest ih =>
      rw [pieces, List.splitOn_cons_eq_if_modifyHead, ih]
      obtain ⟨piece, others, hrest⟩ :=
        List.exists_cons_of_ne_nil (List.splitOn_ne_nil separator rest)
      by_cases h : c = separator <;> simp [h, hrest]

theorem pieces_eq_singleton_iff {separator : Char} {s piece : List Char} :
    pieces separator s = [piece] ↔ s = piece ∧ separator ∉ piece := by
  rw [pieces_eq_splitOn]
  constructor
  · intro h
    have hfree : separator ∉ s := by
      intro hmem
      obtain ⟨before, after, rfl, hbefore⟩ := List.eq_append_cons_of_mem hmem
      rw [List.splitOn_append_cons_self_of_not_mem hbefore, List.cons.injEq] at h
      exact List.splitOn_ne_nil separator after h.2
    rw [List.splitOn_eq_singleton hfree, List.cons.injEq] at h
    exact ⟨h.1, h.1 ▸ hfree⟩
  · intro ⟨hs, hfree⟩
    rw [hs, List.splitOn_eq_singleton hfree]

/-- There are two pieces when there is one separator, and they stand around it. -/
theorem pieces_eq_pair_iff {separator : Char} {s front back : List Char} :
    pieces separator s = [front, back] ↔
      s = front ++ separator :: back ∧ separator ∉ front ∧ separator ∉ back := by
  have hcut {before after : List Char} (hbefore : separator ∉ before) :
      pieces separator (before ++ separator :: after) = before :: pieces separator after := by
    rw [pieces_eq_splitOn, pieces_eq_splitOn, List.splitOn_append_cons_self_of_not_mem hbefore]
  constructor
  · intro h
    have hmem : separator ∈ s := by
      refine Decidable.byContradiction fun hfree => ?_
      rw [pieces_eq_singleton_iff.2 ⟨rfl, hfree⟩] at h
      cases h
    obtain ⟨before, after, rfl, hbefore⟩ := List.eq_append_cons_of_mem hmem
    rw [hcut hbefore, List.cons.injEq] at h
    obtain ⟨rfl, hback⟩ := h
    obtain ⟨rfl, hafter⟩ := pieces_eq_singleton_iff.1 hback
    exact ⟨rfl, hbefore, hafter⟩
  · intro ⟨hs, hfront, hback⟩
    rw [hs, hcut hfront, pieces_eq_singleton_iff.2 ⟨rfl, hback⟩]

end SpendAlerts.Text

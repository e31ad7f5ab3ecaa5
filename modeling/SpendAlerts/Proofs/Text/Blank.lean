import SpendAlerts.Text.Blank
import Mathlib.Data.List.TakeWhile

/-!
Blanks around a text. Whatever is trimmed is the text with blanks cut off at both ends, and a
text without any blank in it is what is left of it in any number of blanks.
-/

namespace SpendAlerts.Text

def Blanks (s : List Char) : Prop := ∀ c ∈ s, isBlank c = true

theorem exists_blanks_trim (s : List Char) :
    ∃ before after, s = before ++ trim s ++ after ∧ Blanks before ∧ Blanks after := by
  refine ⟨s.takeWhile isBlank, ((trimStart s).reverse.takeWhile isBlank).reverse, ?_, ?_, ?_⟩
  · have hend : trim s ++ ((trimStart s).reverse.takeWhile isBlank).reverse = trimStart s := by
      rw [trim, trimEnd, ← List.reverse_append, List.takeWhile_append_dropWhile,
        List.reverse_reverse]
    rw [List.append_assoc, hend, trimStart, List.takeWhile_append_dropWhile]
  · exact fun c hc => List.mem_takeWhile_imp hc
  · exact fun c hc => List.mem_takeWhile_imp (List.mem_reverse.1 hc)

theorem dropWhile_isBlank {blanks core : List Char} (hblanks : Blanks blanks)
    (hcore : ∀ c ∈ core, isBlank c = false) (hne : core ≠ []) (rest : List Char) :
    (blanks ++ (core ++ rest)).dropWhile isBlank = core ++ rest := by
  rw [List.dropWhile_append_of_pos hblanks]
  cases core with
  | nil => exact absurd rfl hne
  | cons c cs =>
      rw [List.cons_append, List.dropWhile_cons_of_neg]
      simp [hcore c List.mem_cons_self]

theorem trim_append {before core after : List Char} (hbefore : Blanks before)
    (hcore : ∀ c ∈ core, isBlank c = false) (hne : core ≠ []) (hafter : Blanks after) :
    trim (before ++ core ++ after) = core := by
  have hstart : trimStart (before ++ core ++ after) = core ++ after := by
    rw [trimStart, List.append_assoc, dropWhile_isBlank hbefore hcore hne]
  have hblanks : Blanks after.reverse := fun c hc => hafter c (List.mem_reverse.1 hc)
  have hback : ∀ c ∈ core.reverse, isBlank c = false := fun c hc => hcore c (List.mem_reverse.1 hc)
  have hend := dropWhile_isBlank hblanks hback (mt List.reverse_eq_nil_iff.1 hne) []
  rw [List.append_nil] at hend
  rw [trim, hstart, trimEnd, List.reverse_append, hend, List.reverse_reverse]

end SpendAlerts.Text

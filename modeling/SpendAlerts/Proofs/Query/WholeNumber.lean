import SpendAlerts.Proofs.Calendar.Written
import SpendAlerts.Proofs.Text.Blank
import SpendAlerts.Query.Cell

/-!
Whole numbers in cells. A cell holds a whole number of 64 bits as it is, or as text with blanks
around it, and exactly these cells are read as whole numbers. A number that is written with any
number of zeros in front is among them.
-/

namespace SpendAlerts

theorem Decimal.Writes.isBlank_eq_false {cs : List Char} {n : Int} (h : Decimal.Writes cs n) :
    ∀ c ∈ cs, Text.isBlank c = false := by
  cases h with
  | plain numeral => exact fun c hc => Instant.Reader.isBlank_of_isDigit (numeral.2 c hc)
  | plus numeral | minus numeral =>
      exact List.forall_mem_cons.2
        ⟨by decide, fun c hc => Instant.Reader.isBlank_of_isDigit (numeral.2 c hc)⟩

theorem Decimal.Writes.ne_nil {cs : List Char} {n : Int} (h : Decimal.Writes cs n) : cs ≠ [] := by
  cases h with
  | plain numeral => exact numeral.1
  | plus _ | minus _ => exact List.cons_ne_nil _ _

namespace Cell

/-- The cell is a whole number, or a text that writes one of 64 bits between blanks. -/
inductive Holds : Cell → Int → Prop where
  | whole (w : Int64) : Holds (.int w) w.toInt
  | written {s : String} {before core after : List Char} {n : Int}
      (split : s.toList = before ++ core ++ after) (ahead : Text.Blanks before)
      (behind : Text.Blanks after) (writes : Decimal.Writes core n)
      (fits : -2 ^ 63 ≤ n ∧ n < 2 ^ 63) : Holds (.text s) n

theorem toInt_ofInt {n : Int} (h : -2 ^ 63 ≤ n ∧ n < 2 ^ 63) : (Int64.ofInt n).toInt = n :=
  Int64.toInt_ofInt_of_le h.1 h.2

/-- Exactly the cells that hold a whole number are read as one. -/
theorem int?_eq_some_iff {c : Cell} {w : Int64} : c.int? = some w ↔ c.Holds w.toInt := by
  constructor
  · intro h
    cases c with
    | int v =>
        cases h
        exact .whole _
    | text s =>
        obtain ⟨n, hn, h⟩ := Option.bind_eq_some_iff.1 h
        split at h
        · next hfits =>
          cases h
          obtain ⟨before, after, hsplit, hbefore, hafter⟩ := Text.exists_blanks_trim s.toList
          have hfits' : -2 ^ 63 ≤ n ∧ n < 2 ^ 63 := ⟨hfits.1, Int.lt_of_le_sub_one hfits.2⟩
          rw [toInt_ofInt hfits']
          exact .written hsplit hbefore hafter (Decimal.readInt?_eq_some_iff.1 hn) hfits'
        · cases h
    | null | float _ | comparison _ _ => cases h
  · intro h
    generalize hn : w.toInt = n at h
    cases h with
    | whole v => rw [int?, Int64.toInt_inj.1 hn]
    | @written s before core after _ split ahead behind writes fits =>
        have hread : Decimal.readInt? (Text.trim s.toList) = some n := by
          rw [split, Text.trim_append ahead writes.isBlank_eq_false writes.ne_nil behind]
          exact Decimal.readInt?_eq_some_iff.2 writes
        have hrange : Int64.minValue.toInt ≤ n ∧ n ≤ Int64.maxValue.toInt :=
          ⟨fits.1, Int.le_sub_one_of_lt fits.2⟩
        rw [int?, hread, Option.bind_some, if_pos hrange, ← hn, Int64.ofInt_toInt]

theorem Holds.exists_int? {c : Cell} {n : Int} (h : c.Holds n) :
    ∃ w, c.int? = some w ∧ w.toInt = n := by
  obtain ⟨w, rfl⟩ : ∃ w : Int64, w.toInt = n := by
    cases h with
    | whole w => exact ⟨w, rfl⟩
    | written _ _ _ _ fits => exact ⟨Int64.ofInt n, toInt_ofInt fits⟩
  exact ⟨w, int?_eq_some_iff.2 h, rfl⟩

/-- The cell gives a number as it is, or as text with zeros in front up to some width. -/
inductive Gives : Cell → Nat → Prop where
  | whole (n : Nat) : Gives (.int (Int64.ofNat n)) n
  | padded (width n : Nat) : Gives (.text (String.ofList (Decimal.padded width n))) n

theorem Gives.holds {c : Cell} {n : Nat} (h : c.Gives n) (hn : n < 2 ^ 63) : c.Holds n := by
  have hfits : -2 ^ 63 ≤ (n : Int) ∧ (n : Int) < 2 ^ 63 := by omega
  cases h with
  | whole =>
      have hwhole := Holds.whole (Int64.ofNat n)
      rwa [Int64.toInt_ofNat_of_lt hn] at hwhole
  | padded width =>
      have hsplit : (String.ofList (Decimal.padded width n)).toList =
          [] ++ Decimal.padded width n ++ [] := by
        simp
      exact .written hsplit (List.forall_mem_nil _) (List.forall_mem_nil _)
        (Decimal.writes_padded width n) hfits

end Cell

end SpendAlerts

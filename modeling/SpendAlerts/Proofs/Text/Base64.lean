import SpendAlerts.Text.Base64

/-!
Base64 is read back. The decoder undoes the encoder in every alphabet whose symbols can be told
from each other and from the padding, so a text is determined by its encoding, and in every alphabet
the encoder undoes the decoder: what is decoded is an encoding, down to its padding and its unused
bits. Symbols and padding are all that an encoding has in it, so there is no slash in one for a path
and no colon in one for a dimension id.
-/

namespace SpendAlerts.Text.Base64

variable {a : Alphabet}

/-- Every symbol is read as its value, and none is the padding. -/
def Alphabet.Readable (a : Alphabet) : Prop :=
  ∀ n < 64, a.value? (a.symbol n) = some n ∧ a.symbol n ≠ '='

theorem Alphabet.readable_urlSafe : Alphabet.urlSafe.Readable := by
  unfold Alphabet.Readable
  decide

theorem Alphabet.readable_standard : Alphabet.standard.Readable := by
  unfold Alphabet.Readable
  decide

theorem decode_encode (ha : a.Readable) (xs : List UInt8) : decode a (encode a xs) = some xs := by
  have hvalue (n : Nat) (hn : n < 64) : a.value? (a.symbol n) = some n := (ha n hn).1
  have hpad (n : Nat) (hn : n < 64) : a.symbol n ≠ '=' := (ha n hn).2
  fun_induction encode a xs with
  | case1 => rfl
  | case2 x n =>
      have hx := x.toNat_lt
      have hn : n / 64 * 64 + n % 64 = n := Nat.div_add_mod' n 64
      have hunused : n % 16 = 0 := Nat.mul_mod_left _ _
      have hbyte : n / 16 = x.toNat := Nat.mul_div_cancel _ (by decide)
      simp only [decode, hvalue (n / 64) (by omega), hvalue (n % 64) (by omega),
        Option.bind_eq_bind, Option.bind_some, and_self, if_true, hn, hunused, hbyte,
        UInt8.ofNat_toNat]
  | case3 x y n =>
      have hx := x.toNat_lt
      have hy := y.toNat_lt
      have hn : (n / 4096 * 64 + n / 64 % 64) * 64 + n % 64 = n := by omega
      have hunused : n % 4 = 0 := Nat.mul_mod_left _ _
      have hfirst : n / 1024 = x.toNat := by omega
      have hsecond : n / 4 % 256 = y.toNat := by omega
      simp only [decode, hpad (n % 64) (by omega), hvalue (n / 4096) (by omega),
        hvalue (n / 64 % 64) (by omega), hvalue (n % 64) (by omega), Option.bind_eq_bind,
        Option.bind_some, and_self, if_true, if_false, hn, hunused, hfirst, hsecond,
        UInt8.ofNat_toNat]
  | case4 x y z rest n ih =>
      have hx := x.toNat_lt
      have hy := y.toNat_lt
      have hz := z.toNat_lt
      have hn : ((n / 262144 * 64 + n / 4096 % 64) * 64 + n / 64 % 64) * 64 + n % 64 = n := by
        omega
      have hfirst : n / 65536 = x.toNat := by omega
      have hsecond : n / 256 % 256 = y.toNat := by omega
      have hthird : n % 256 = z.toNat := by omega
      simp only [decode, hpad (n % 64) (by omega), hvalue (n / 262144) (by omega),
        hvalue (n / 4096 % 64) (by omega), hvalue (n / 64 % 64) (by omega),
        hvalue (n % 64) (by omega), Option.bind_eq_bind, Option.bind_some, false_and, if_false,
        hn, hfirst, hsecond, hthird, ih, UInt8.ofNat_toNat]

/-- What has a value is the symbol of that value. -/
theorem Alphabet.symbol_of_value? {c : Char} {n : Nat} (h : a.value? c = some n) :
    n < 64 ∧ a.symbol n = c := by
  have hchar {m : Nat} (hm : m = c.toNat) : Char.ofNat m = c := hm ▸ Char.ofNat_toNat c
  rw [value?] at h
  split at h
  · next hrange =>
    cases h
    have hlow : 65 ≤ c.toNat := hrange.1
    have hhigh : c.toNat ≤ 90 := hrange.2
    refine ⟨by omega, ?_⟩
    rw [symbol, if_pos (by omega), hchar (by omega)]
  split at h
  · next hrange =>
    cases h
    have hlow : 97 ≤ c.toNat := hrange.1
    have hhigh : c.toNat ≤ 122 := hrange.2
    refine ⟨by omega, ?_⟩
    rw [symbol, if_neg (by omega), if_pos (by omega), hchar (by omega)]
  split at h
  · next hrange =>
    cases h
    have hlow : 48 ≤ c.toNat := hrange.1
    have hhigh : c.toNat ≤ 57 := hrange.2
    refine ⟨by omega, ?_⟩
    rw [symbol, if_neg (by omega), if_neg (by omega), if_pos (by omega), hchar (by omega)]
  split at h
  · next hlast =>
    cases h
    exact ⟨by decide, hlast.symm⟩
  split at h
  · next hlast =>
    cases h
    exact ⟨by decide, hlast.symm⟩
  · cases h

/-- Whatever is decoded is written again as it was. -/
theorem encode_of_decode {cs : List Char} {xs : List UInt8} (h : decode a cs = some xs) :
    encode a xs = cs := by
  have hbyte (n : Nat) (hn : n < 256) : (UInt8.ofNat n).toNat = n := UInt8.toNat_ofNat_of_lt' hn
  fun_induction decode a cs generalizing xs with
  | case1 =>
      cases h
      rfl
  | case2 c₁ c₂ c₄ rest hend =>
      obtain ⟨rfl, rfl⟩ := hend
      obtain ⟨n₁, h₁, h⟩ := Option.bind_eq_some_iff.1 h
      obtain ⟨n₂, h₂, h⟩ := Option.bind_eq_some_iff.1 h
      simp only at h
      split at h
      · next hunused =>
        cases h
        obtain ⟨hn₁, rfl⟩ := Alphabet.symbol_of_value? h₁
        obtain ⟨hn₂, rfl⟩ := Alphabet.symbol_of_value? h₂
        have hn : (UInt8.ofNat ((n₁ * 64 + n₂) / 16)).toNat * 16 = n₁ * 64 + n₂ := by
          rw [hbyte _ (by omega), Nat.div_mul_cancel (Nat.dvd_of_mod_eq_zero hunused)]
        have hfirst : (n₁ * 64 + n₂) / 64 = n₁ := by omega
        have hsecond : (n₁ * 64 + n₂) % 64 = n₂ := by omega
        simp only [encode, hn, hfirst, hsecond]
      · cases h
  | case3 c₁ c₂ c₃ c₄ rest hend hpad =>
      obtain ⟨rfl, rfl⟩ := hend
      obtain ⟨n₁, h₁, h⟩ := Option.bind_eq_some_iff.1 h
      obtain ⟨n₂, h₂, h⟩ := Option.bind_eq_some_iff.1 h
      obtain ⟨n₃, h₃, h⟩ := Option.bind_eq_some_iff.1 h
      simp only at h
      split at h
      · next hunused =>
        cases h
        obtain ⟨hn₁, rfl⟩ := Alphabet.symbol_of_value? h₁
        obtain ⟨hn₂, rfl⟩ := Alphabet.symbol_of_value? h₂
        obtain ⟨hn₃, rfl⟩ := Alphabet.symbol_of_value? h₃
        have hn : ((UInt8.ofNat (((n₁ * 64 + n₂) * 64 + n₃) / 1024)).toNat * 256 +
            (UInt8.ofNat (((n₁ * 64 + n₂) * 64 + n₃) / 4 % 256)).toNat) * 4 =
              (n₁ * 64 + n₂) * 64 + n₃ := by
          rw [hbyte _ (by omega), hbyte _ (by omega)]
          omega
        have hfirst : ((n₁ * 64 + n₂) * 64 + n₃) / 4096 = n₁ := by omega
        have hsecond : ((n₁ * 64 + n₂) * 64 + n₃) / 64 % 64 = n₂ := by omega
        have hthird : ((n₁ * 64 + n₂) * 64 + n₃) % 64 = n₃ := by omega
        simp only [encode, hn, hfirst, hsecond, hthird]
      · cases h
  | case4 c₁ c₂ c₃ c₄ rest hend ih =>
      obtain ⟨n₁, h₁, h⟩ := Option.bind_eq_some_iff.1 h
      obtain ⟨n₂, h₂, h⟩ := Option.bind_eq_some_iff.1 h
      obtain ⟨n₃, h₃, h⟩ := Option.bind_eq_some_iff.1 h
      obtain ⟨n₄, h₄, h⟩ := Option.bind_eq_some_iff.1 h
      obtain ⟨bytes, hbytes, h⟩ := Option.bind_eq_some_iff.1 h
      cases h
      obtain ⟨hn₁, rfl⟩ := Alphabet.symbol_of_value? h₁
      obtain ⟨hn₂, rfl⟩ := Alphabet.symbol_of_value? h₂
      obtain ⟨hn₃, rfl⟩ := Alphabet.symbol_of_value? h₃
      obtain ⟨hn₄, rfl⟩ := Alphabet.symbol_of_value? h₄
      generalize hn : ((n₁ * 64 + n₂) * 64 + n₃) * 64 + n₄ = n
      have hword : ((UInt8.ofNat (n / 65536)).toNat * 256 +
          (UInt8.ofNat (n / 256 % 256)).toNat) * 256 + (UInt8.ofNat (n % 256)).toNat = n := by
        rw [hbyte _ (by omega), hbyte _ (by omega), hbyte _ (by omega)]
        omega
      have hfirst : n / 262144 = n₁ := by omega
      have hsecond : n / 4096 % 64 = n₂ := by omega
      have hthird : n / 64 % 64 = n₃ := by omega
      have hfourth : n % 64 = n₄ := by omega
      simp only [encode, hword, hfirst, hsecond, hthird, hfourth, ih hbytes]
  | case5 => cases h

/-- Exactly the encodings are decoded. -/
theorem decode_eq_some_iff (ha : a.Readable) {cs : List Char} {xs : List UInt8} :
    decode a cs = some xs ↔ cs = encode a xs :=
  ⟨fun h => (encode_of_decode h).symm, fun h => h ▸ decode_encode ha xs⟩

/-- An encoded text consists of symbols and padding. -/
theorem symbol_of_mem_encode (xs : List UInt8) :
    ∀ c ∈ encode a xs, c = '=' ∨ ∃ n < 64, c = a.symbol n := by
  fun_induction encode a xs with
  | case1 => exact List.forall_mem_nil _
  | case2 x n =>
      have hx := x.toNat_lt
      simp only [List.forall_mem_cons]
      exact ⟨.inr ⟨_, by omega, rfl⟩, .inr ⟨_, by omega, rfl⟩, .inl trivial,
        .inl trivial, List.forall_mem_nil _⟩
  | case3 x y n =>
      have hx := x.toNat_lt
      have hy := y.toNat_lt
      simp only [List.forall_mem_cons]
      exact ⟨.inr ⟨_, by omega, rfl⟩, .inr ⟨_, by omega, rfl⟩, .inr ⟨_, by omega, rfl⟩,
        .inl trivial, List.forall_mem_nil _⟩
  | case4 x y z rest n ih =>
      have hx := x.toNat_lt
      have hy := y.toNat_lt
      have hz := z.toNat_lt
      simp only [List.forall_mem_cons]
      exact ⟨.inr ⟨_, by omega, rfl⟩, .inr ⟨_, by omega, rfl⟩, .inr ⟨_, by omega, rfl⟩,
        .inr ⟨_, by omega, rfl⟩, ih⟩

theorem encode_injective (ha : a.Readable) {xs ys : List UInt8} (h : encode a xs = encode a ys) :
    xs = ys := by
  have hdecode := congrArg (decode a) h
  rw [decode_encode ha, decode_encode ha] at hdecode
  exact Option.some.inj hdecode

theorem encodeString_injective (ha : a.Readable) {s t : String}
    (h : encodeString a s = encodeString a t) : s = t := by
  have hbytes := encode_injective ha (String.ofList_injective h)
  exact String.toByteArray_inj.1 (ByteArray.ext (Array.toList_inj.1 hbytes))

theorem slash_notMem_encodeString (s : String) :
    '/' ∉ (encodeString .urlSafe s).toList := by
  intro h
  rw [encodeString, String.toList_ofList] at h
  have hsymbols : ∀ n < 64, '/' ≠ Alphabet.urlSafe.symbol n := by decide
  rcases symbol_of_mem_encode _ _ h with hpad | ⟨n, hn, hsymbol⟩
  · exact absurd hpad (by decide)
  · exact hsymbols n hn hsymbol

theorem colon_notMem_encodeString (s : String) :
    ':' ∉ (encodeString .standard s).toList := by
  intro h
  rw [encodeString, String.toList_ofList] at h
  have hsymbols : ∀ n < 64, ':' ≠ Alphabet.standard.symbol n := by decide
  rcases symbol_of_mem_encode _ _ h with hpad | ⟨n, hn, hsymbol⟩
  · exact absurd hpad (by decide)
  · exact hsymbols n hn hsymbol

end SpendAlerts.Text.Base64

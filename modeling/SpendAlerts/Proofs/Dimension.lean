import SpendAlerts.Dimension
import SpendAlerts.Proofs.Document.Table
import SpendAlerts.Proofs.Text.Base64
import SpendAlerts.Proofs.Text.Separated

/-!
Dimension ids and their labels. An id is accepted when it is the name of a type and a key around
the only colon in it, so the type and the key are determined by the id. A key that users chose is
accepted when it is the encoding of a text, and that text is the label: labels and ids of such a
type determine each other. A field of the bill is accepted under any key.
-/

namespace SpendAlerts

open Text.Base64

namespace DimensionType

theorem colon_notMem_name (t : DimensionType) : ':' ∉ t.name.toList := by
  cases t <;> decide

theorem ofName?_name (t : DimensionType) : ofName? t.name = .ok t := by
  cases t <;> rfl

theorem ofName?_eq_ok_iff {s : String} {t : DimensionType} : ofName? s = .ok t ↔ s = t.name := by
  refine ⟨fun h => ?_, fun h => h ▸ ofName?_name t⟩
  rw [ofName?] at h
  split at h
  · next hfind =>
    cases h
    obtain ⟨t', -, he⟩ := List.mem_map.1 (Entries.mem_of_find? hfind)
    cases he
    rfl
  · cases h

theorem name_injective {t t' : DimensionType} (h : t.name = t'.name) : t = t' := by
  have hread := ofName?_name t
  rw [h, ofName?_name] at hread
  cases hread
  rfl

end DimensionType

namespace Dimension

/-- The id of the dimension with a type and a key. -/
def idOf (type : DimensionType) (key : String) : String :=
  type.name ++ ":" ++ key

theorem toList_idOf (type : DimensionType) (key : String) :
    (idOf type key).toList = type.name.toList ++ ':' :: key.toList := by
  simp [idOf]

/-- The first colon of an id ends the name of its type. -/
theorem idOf_injective {type type' : DimensionType} {key key' : String}
    (h : idOf type key = idOf type' key') : type = type' ∧ key = key' := by
  rw [← String.toList_inj, toList_idOf, toList_idOf] at h
  obtain ⟨hname, hkey⟩ :=
    Text.eq_of_append_cons_eq type.colon_notMem_name type'.colon_notMem_name h
  exact ⟨DimensionType.name_injective (String.toList_inj.1 hname), String.toList_inj.1 hkey⟩

theorem split?_eq_ok_iff {s key : String} {type : DimensionType} :
    split? s = .ok (type, key) ↔ s = idOf type key ∧ ':' ∉ key.toList := by
  rw [← String.toList_inj, toList_idOf]
  constructor
  · intro h
    rw [split?] at h
    split at h
    · next front back hpieces =>
      obtain ⟨hs, -, hback⟩ := Text.pieces_eq_pair_iff.1 hpieces
      split at h
      · next hname =>
        cases h
        rw [String.toList_ofList, ← DimensionType.ofName?_eq_ok_iff.1 hname, String.toList_ofList]
        exact ⟨hs, hback⟩
      · cases h
    · cases h
  · intro ⟨hs, hkey⟩
    have hpieces := Text.pieces_eq_pair_iff.2 ⟨hs, type.colon_notMem_name, hkey⟩
    simp only [split?, hpieces, String.ofList_toList, DimensionType.ofName?_name]

/-- A refusal names the id that was refused. -/
theorem split?_eq_error {s : String} {e : Fault} (h : split? s = .error e) :
    ∃ reason, e = .invalidLabelId s reason := by
  rw [split?] at h
  split at h
  · split at h <;> cases h
    exact ⟨_, rfl⟩
  · cases h
    exact ⟨_, rfl⟩

theorem textOfBytes?_eq_some_iff {bytes : List UInt8} {s : String} :
    textOfBytes? bytes = some s ↔ bytes = s.toUTF8.data.toList := by
  rw [textOfBytes?, String.fromUTF8?]
  constructor
  · intro h
    split at h
    · cases h
      rfl
    · cases h
  · intro h
    subst h
    exact dif_pos s.isValidUTF8

/-- The keys that are decoded to a text are the encodings of it. -/
theorem decode_text_eq_some_iff {key s : String} :
    (decode .standard key.toList).bind textOfBytes? = some s ↔
      key = encodeString .standard s := by
  rw [Option.bind_eq_some_iff, encodeString, ← String.toList_inj, String.toList_ofList]
  constructor
  · intro h
    obtain ⟨bytes, hkey, hbytes⟩ := h
    rw [decode_eq_some_iff Alphabet.readable_standard] at hkey
    rw [hkey, textOfBytes?_eq_some_iff.1 hbytes]
  · intro hkey
    exact ⟨_, (decode_eq_some_iff Alphabet.readable_standard).2 hkey,
      textOfBytes?_eq_some_iff.2 rfl⟩

theorem keyLabel?_eq_some_iff {key l : String} : keyLabel? key = some l ↔ (key, l) ∈ keyLabels :=
  Entries.find?_eq_some_iff (by decide)

/-- The label of a field is the one that the table has for it, or else the key. -/
def FieldLabel (key label : String) : Prop :=
  (key, label) ∈ keyLabels ∨ label = key ∧ ∀ l, (key, l) ∉ keyLabels

theorem fieldLabel_iff {key label : String} :
    FieldLabel key label ↔ (keyLabel? key).getD key = label := by
  simp only [FieldLabel, ← keyLabel?_eq_some_iff]
  cases keyLabel? key with
  | none => simp [eq_comm]
  | some l => simp

/-- What readers see for a key of a type. -/
def Labels (type : DimensionType) (key label : String) : Prop :=
  if type.hasEncodedKey then key = encodeString .standard label else FieldLabel key label

theorem label?_of_split? {s key l : String} {type : DimensionType}
    (hsplit : split? s = .ok (type, key)) : label? s = .ok l ↔ Labels type key l := by
  simp only [label?, hsplit, Labels]
  by_cases hencoded : type.hasEncodedKey = true
  · rw [if_pos hencoded, if_pos hencoded, ← decode_text_eq_some_iff]
    cases decode .standard key.toList with
    | none => simp
    | some bytes => cases h : textOfBytes? bytes <;> simp [h]
  · rw [if_neg hencoded, if_neg hencoded, Except.ok.injEq, fieldLabel_iff]

theorem label?_eq_ok_iff {s l : String} :
    label? s = .ok l ↔
      ∃ type key, s = idOf type key ∧ ':' ∉ key.toList ∧ Labels type key l := by
  constructor
  · intro h
    cases hsplit : split? s with
    | error e =>
        rw [label?, hsplit] at h
        cases h
    | ok parts =>
        obtain ⟨hs, hkey⟩ := split?_eq_ok_iff.1 hsplit
        exact ⟨_, _, hs, hkey, (label?_of_split? hsplit).1 h⟩
  · intro ⟨type, key, hs, hkey, hlabels⟩
    exact (label?_of_split? (split?_eq_ok_iff.2 ⟨hs, hkey⟩)).2 hlabels

theorem label?_eq_error {s : String} {e : Fault} (h : label? s = .error e) :
    ∃ reason, e = .invalidLabelId s reason := by
  rw [label?] at h
  split at h
  · next hsplit =>
    cases h
    exact split?_eq_error hsplit
  · split at h
    · split at h
      · cases h
        exact ⟨_, rfl⟩
      · split at h <;> cases h
        exact ⟨_, rfl⟩
    · cases h

theorem label?_idOf_encodeString {type : DimensionType} (htype : type.hasEncodedKey = true)
    (l : String) : label? (idOf type (encodeString .standard l)) = .ok l :=
  label?_eq_ok_iff.2 ⟨type, _, rfl, colon_notMem_encodeString l, by rw [Labels, if_pos htype]⟩

theorem eq_encodeString_of_label? {type : DimensionType} (htype : type.hasEncodedKey = true)
    {key l : String} (h : label? (idOf type key) = .ok l) : key = encodeString .standard l := by
  obtain ⟨type', key', hid, -, hlabels⟩ := label?_eq_ok_iff.1 h
  obtain ⟨rfl, rfl⟩ := idOf_injective hid
  rwa [Labels, if_pos htype] at hlabels

end Dimension

theorem DimensionFilter.ofDimension?_eq_ok_iff {s : String} {f : DimensionFilter} :
    DimensionFilter.ofDimension? s = .ok f ↔
      ∃ type key, s = Dimension.idOf type key ∧ ':' ∉ key.toList ∧
        f = ⟨s, key, type, [], false, none⟩ := by
  rw [DimensionFilter.ofDimension?]
  constructor
  · intro h
    split at h
    · next hsplit =>
      cases h
      obtain ⟨hs, hkey⟩ := Dimension.split?_eq_ok_iff.1 hsplit
      exact ⟨_, _, hs, hkey, rfl⟩
    · cases h
  · intro ⟨type, key, hs, hkey, hf⟩
    rw [Dimension.split?_eq_ok_iff.2 ⟨hs, hkey⟩, hf]

namespace Dimension

/-- An id has a label when it is the name of a type and a key around its only colon and the key,
where it is encoded, is the encoding of a text. That text is the label, so that every text is the
label of the id that encodes it, and the label of an id encodes to its key; the label of a field is
the one in the table or the key. A refusal names the id, and a filter needs the two parts only. -/
theorem label?_exact :
    (∀ s l, label? s = .ok l ↔
      ∃ type key, s = idOf type key ∧ ':' ∉ key.toList ∧
        (type.hasEncodedKey = true → key = encodeString .standard l) ∧
        (type.hasEncodedKey = false →
          (key, l) ∈ keyLabels ∨ l = key ∧ ∀ other, (key, other) ∉ keyLabels)) ∧
    (∀ s e, label? s = .error e → ∃ reason, e = .invalidLabelId s reason) ∧
    (∀ type text, type.hasEncodedKey = true →
      label? (idOf type (encodeString .standard text)) = .ok text) ∧
    (∀ type key l, type.hasEncodedKey = true → label? (idOf type key) = .ok l →
      idOf type (encodeString .standard l) = idOf type key) ∧
    (∀ s f, DimensionFilter.ofDimension? s = .ok f ↔
      ∃ type key, s = idOf type key ∧ ':' ∉ key.toList ∧
        f = ⟨s, key, type, [], false, none⟩) := by
  refine ⟨fun s l => ?_, fun s e => label?_eq_error,
    fun type text htype => label?_idOf_encodeString htype text, fun type key l htype h => ?_,
    fun s f => DimensionFilter.ofDimension?_eq_ok_iff⟩
  · have hlabels (type : DimensionType) (key : String) : Labels type key l ↔
        (type.hasEncodedKey = true → key = encodeString .standard l) ∧
        (type.hasEncodedKey = false →
          (key, l) ∈ keyLabels ∨ l = key ∧ ∀ other, (key, other) ∉ keyLabels) := by
      rw [Labels, FieldLabel]
      cases type.hasEncodedKey <;> simp
    simp only [label?_eq_ok_iff, hlabels]
  · rw [← eq_encodeString_of_label? htype h]

/-- A text that users chose, a field of the bill, and a key that the table does not have. -/
theorem label?_exact_hello :
    label? (idOf .label "aGVsbG8=") = .ok "hello" ∧
    idOf .label (encodeString .standard "hello") = idOf .label "aGVsbG8=" ∧
    label? "fixed:service_description" = .ok "Service" ∧
    label? "fixed:tier" = .ok "tier" := by
  obtain ⟨hlabel, -, hencoded, hback, -⟩ := label?_exact
  have hkey : encodeString .standard "hello" = "aGVsbG8=" := by decide +kernel
  have hhello : label? (idOf .label "aGVsbG8=") = .ok "hello" := hkey ▸ hencoded .label "hello" rfl
  have hservice : ("service_description", "Service") ∈ keyLabels := by decide
  have htier : ∀ l, ("tier", l) ∉ keyLabels := by
    intro l hmem
    have hkeys : "tier" ∉ keyLabels.map (·.1) := by decide
    exact hkeys (List.mem_map.2 ⟨_, hmem, rfl⟩)
  refine ⟨hhello, hback .label "aGVsbG8=" "hello" rfl hhello, ?_, ?_⟩
  · exact (hlabel _ _).2 ⟨.fixed, "service_description", rfl, by decide, nofun,
      fun _ => .inl hservice⟩
  · exact (hlabel _ _).2 ⟨.fixed, "tier", rfl, by decide, nofun, fun _ => .inr ⟨rfl, htier⟩⟩

-- the last symbol has a bit set that the padding leaves unused
example : (label? "label:aGVsbG9=").toOption = none := by decide +kernel

end Dimension

end SpendAlerts

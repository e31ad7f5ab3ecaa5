import SpendAlerts.Proofs.Store.Alerts

/-!
Which alerts can be read, and what a digest leaves in their documents. The names in a
configuration are checked before the rest, but a document that decodes has passed that
check, so an alert is read exactly if its document is there and decodes. Remembering a
digest sets the time and leaves everything else of the alert as it was.
-/

namespace SpendAlerts

/-- A field that is there decodes if the record does. -/
theorem Reading.exists_decode_field {α β : Type} {type name : String} {r : Reading α}
    {decode : Decoder β} {doc v : Value} {x : α} (h : r.decode type doc = .ok x)
    (hc : r.checks.find? (·.name = name) = some ⟨name, true, fun v => failure? (decode v)⟩)
    (hv : doc.field? name = some v) : ∃ y, decode v = .ok y := by
  cases doc with
  | null | bool _ | int _ | float _ | string _ | list _ => cases hv
  | record fields =>
      have hwrong := wrong?_of_ofFields (c := ⟨name, true, fun v => failure? (decode v)⟩) h hc
        (Entries.mem_of_find? hv)
      cases hd : decode v with
      | ok y => exact ⟨y, rfl⟩
      | error e => simp [hd, failure?] at hwrong

namespace AlertStore

theorem checkName_of_decode {α : Type} {read : String → Except Fault α} {name : String}
    {doc : Value} {a : Alert} (h : Alert.decode doc = .ok a)
    (hc : AlertConfig.reading.checks.find? (·.name = name) =
      some ⟨name, true, fun v => Reading.failure? (Decode.named read v)⟩) :
    checkName read (configText? doc name) = .ok () := by
  cases htext : configText? doc name with
  | none => rfl
  | some s =>
      obtain ⟨config, hconfig, hfield⟩ := Option.bind_eq_some_iff.1 htext
      obtain ⟨v, hv, hs⟩ := Option.bind_eq_some_iff.1 hfield
      obtain ⟨c, hdecode⟩ : ∃ c, AlertConfig.decode config = .ok c :=
        Reading.exists_decode_field h rfl hconfig
      obtain ⟨x, hx⟩ := Reading.exists_decode_field hdecode hc hv
      cases v with
      | null | bool _ | int _ | float _ | list _ | record _ => cases hs
      | string t =>
          obtain rfl : t = s := Option.some.inj hs
          cases hread : read t with
          | ok y => simp [checkName, hread]
          | error e => simp [Decode.named, hread] at hx

/-- The names in the configuration of a document that decodes are good. -/
theorem checkNames_of_decode {doc : Value} {a : Alert} (h : Alert.decode doc = .ok a) :
    checkNames doc = .ok () := by
  rw [checkNames, checkName_of_decode h rfl, checkName_of_decode h rfl,
    checkName_of_decode h rfl, checkName_of_decode h rfl]
  rfl

variable {d d' : Documents} {id : String} {a : Alert} {time : Instant}
  {times : String → Instant}

/-- A document gives an alert exactly if it decodes. -/
theorem ofDocument_eq_ok_iff {doc : Value} : ofDocument id doc = .ok a ↔
    ∃ b, Alert.decode doc = .ok b ∧ a = { b with id := id } := by
  rw [ofDocument]
  cases hdecode : Alert.decode doc with
  | ok b =>
      rw [checkNames_of_decode hdecode]
      simp [eq_comm]
  | error m =>
      cases checkNames doc with
      | ok _ => simp
      | error e => simp

/-- An alert is read under an id exactly if there is a document and it decodes. -/
theorem read_eq_ok_iff : read d id = .ok a ↔
    ∃ doc b, d.find? collectionName id = some doc ∧ Alert.decode doc = .ok b ∧
      a = { b with id := id } := by
  rw [read]
  cases hdoc : d.find? collectionName id with
  | none => simp
  | some doc =>
      simp only [ofDocument_eq_ok_iff, Option.some.injEq, exists_and_left, exists_eq_left']

/-- The documents after a digest at some time has included the alert with an id. -/
def remember (time : Instant) (d : Documents) (id : String) : Documents :=
  match (d.find? collectionName id).bind fun doc => (Alert.decode doc).toOption with
  | some a => d.insert collectionName id { a with lastAlerted := some time }.encode
  | none => d

theorem find?_remember_of_ne {other : String} (hne : id ≠ other) :
    (remember time d id).find? collectionName other = d.find? collectionName other := by
  rw [remember]
  split
  · simp [Documents.find?_insert, hne]
  · rfl

theorem find?_remember {doc : Value}
    (hdoc : d.find? collectionName id = some doc) (ha : Alert.decode doc = .ok a) :
    (remember time d id).find? collectionName id =
      some { a with lastAlerted := some time }.encode := by
  simp [remember, hdoc, ha, Except.toOption, Documents.find?_insert]

theorem read_remember_of_ne {other : String} (hne : id ≠ other) :
    read (remember time d id) other = read d other := by
  rw [read, read, find?_remember_of_ne hne]

/-- The documents after a digest has included some alerts, each at its time. -/
def rememberEach (times : String → Instant) (d : Documents) (ids : List String) : Documents :=
  ids.foldl (fun d id => remember (times id) d id) d

theorem find?_rememberEach_of_notMem {ids : List String} (h : id ∉ ids) :
    (rememberEach times d ids).find? collectionName id = d.find? collectionName id := by
  induction ids generalizing d with
  | nil => rfl
  | cons first ids ih =>
      rw [List.mem_cons, not_or] at h
      exact (ih h.2).trans (find?_remember_of_ne (Ne.symm h.1))

theorem find?_rememberEach {ids : List String} {doc : Value}
    (hids : ids.Nodup) (h : id ∈ ids) (hdoc : d.find? collectionName id = some doc)
    (ha : Alert.decode doc = .ok a) :
    (rememberEach times d ids).find? collectionName id =
      some { a with lastAlerted := some (times id) }.encode := by
  induction ids generalizing d with
  | nil => cases h
  | cons first ids ih =>
      rw [List.nodup_cons] at hids
      by_cases hfirst : first = id
      · subst hfirst
        exact (find?_rememberEach_of_notMem hids.1).trans (find?_remember hdoc ha)
      · have hmem : id ∈ ids := (List.mem_cons.1 h).resolve_left (Ne.symm hfirst)
        exact ih hids.2 hmem ((find?_remember_of_ne hfirst).trans hdoc)

/-- Whatever is read from the second documents is read from the first, but for the time of the
last digest. -/
def Retains (d d' : Documents) : Prop :=
  ∀ id b, read d' id = .ok b → ∃ a time, read d id = .ok a ∧ b = { a with lastAlerted := time }

theorem Retains.refl (d : Documents) : Retains d d :=
  fun _ b hb => ⟨b, b.lastAlerted, hb, rfl⟩

theorem Retains.trans {d'' : Documents} (h : Retains d d') (h' : Retains d' d'') :
    Retains d d'' := by
  intro id c hc
  obtain ⟨b, time, hb, rfl⟩ := h' id c hc
  obtain ⟨a, _, ha, rfl⟩ := h id b hb
  exact ⟨a, time, ha, rfl⟩

theorem retains_insert {doc : Value}
    (hdoc : d.find? collectionName id = some doc) (ha : Alert.decode doc = .ok a) :
    Retains d (d.insert collectionName id { a with lastAlerted := some time }.encode) := by
  intro other b hb
  obtain ⟨stored, c, hstored, hc, rfl⟩ := read_eq_ok_iff.1 hb
  rw [Documents.find?_insert] at hstored
  by_cases hid : id = other
  · subst hid
    simp only [and_self, if_true, Option.some.injEq] at hstored
    subst hstored
    obtain rfl := Alert.eq_of_decode_encode hc
    exact ⟨_, some time, read_eq_ok_iff.2 ⟨doc, a, hdoc, ha, rfl⟩, rfl⟩
  · simp only [hid, and_false, if_false] at hstored
    exact ⟨_, c.lastAlerted, read_eq_ok_iff.2 ⟨stored, c, hstored, hc, rfl⟩, rfl⟩

theorem retains_updateNotified {s s' : Session} {r : Except Fault Unit}
    (h : updateNotified id time s = (r, s')) : Retains s.documents s'.documents := by
  rw [updateNotified_eq_rewrite] at h
  obtain ⟨-, hsame⟩ | ⟨stored, a, -, -, hdoc, ha, -, hput⟩ := Documents.rewrite_cases h
  · exact hsame.symm ▸ .refl _
  · exact hput.symm ▸ retains_insert hdoc ha

end AlertStore

end SpendAlerts

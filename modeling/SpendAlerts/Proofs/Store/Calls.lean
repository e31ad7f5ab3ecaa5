import SpendAlerts.Store.Alerts
import SpendAlerts.Store.Notifications

/-!
Single calls on documents. A call looks at the context at fixed points and is one step
on the documents: readers leave them as they are, and a transaction either leaves them
as they are or writes under its key what its body has decided on the document there.
The two updates of stored records are one transaction with parameters. What the calls can do
is said here once, so that nothing later opens them.
-/

namespace SpendAlerts

section Sequence

variable {σ α β : Type}

theorem bind_apply (m : ExceptT Fault (StateM σ) α) (f : α → ExceptT Fault (StateM σ) β)
    (s : σ) : (m >>= f) s = match (m s).1 with
      | .ok x => f x (m s).2
      | .error e => (.error e, (m s).2) := by
  change ExceptT.bindCont f (m s).1 (m s).2 = _
  cases (m s).1 with
  | ok x => rfl
  | error e => rfl

theorem bind_of_ok {m : ExceptT Fault (StateM σ) α} {f : α → ExceptT Fault (StateM σ) β}
    {s s' : σ} {x : α} (h : m s = (.ok x, s')) : (m >>= f) s = f x s' := by
  rw [bind_apply, h]

theorem bind_of_error {m : ExceptT Fault (StateM σ) α} {f : α → ExceptT Fault (StateM σ) β}
    {s s' : σ} {e : Fault} (h : m s = (.error e, s')) : (m >>= f) s = (.error e, s') := by
  rw [bind_apply, h]

theorem bind_pure_apply (m : ExceptT Fault (StateM σ) α) (f : α → β) (s : σ) :
    (m >>= fun x => pure (f x)) s = ((m s).1.map f, (m s).2) := by
  rw [bind_apply]
  cases (m s).1 with
  | ok x => rfl
  | error e => rfl

/-- A sequence of two calls fails in the first, or runs both. -/
theorem bind_cases {m : ExceptT Fault (StateM σ) α} {f : α → ExceptT Fault (StateM σ) β}
    {s s' : σ} {r : Except Fault β} (h : (m >>= f) s = (r, s')) :
    (∃ e, m s = (.error e, s') ∧ r = .error e) ∨
      ∃ x s₁, m s = (.ok x, s₁) ∧ f x s₁ = (r, s') := by
  rw [bind_apply] at h
  cases hm : m s with
  | mk result s₁ =>
      rw [hm] at h
      cases result with
      | error e =>
          cases h
          exact .inl ⟨e, rfl, rfl⟩
      | ok x => exact .inr ⟨x, s₁, rfl, h⟩

/-- A sequence whose first call never fails runs both, and what the first is known to do holds
in between. -/
theorem bind_cases_of_ok {m : ExceptT Fault (StateM σ) α} {f : α → ExceptT Fault (StateM σ) β}
    {s s' : σ} {r : Except Fault β} {P : α → σ → Prop}
    (hm : ∀ {q s₁}, m s = (q, s₁) → ∃ x, q = .ok x ∧ P x s₁) (h : (m >>= f) s = (r, s')) :
    ∃ x s₁, P x s₁ ∧ f x s₁ = (r, s') := by
  obtain ⟨e, hfirst, -⟩ | ⟨x, s₁, hfirst, hrest⟩ := bind_cases h
  · obtain ⟨x, hx, -⟩ := hm hfirst
    cases hx
  · obtain ⟨y, hy, hP⟩ := hm hfirst
    cases hy
    exact ⟨x, s₁, hP, hrest⟩

theorem bind_eq_ok {ε α β : Type} {x : Except ε α} {f : α → Except ε β} {y : β} :
    x >>= f = .ok y ↔ ∃ a, x = .ok a ∧ f a = .ok y := by
  cases x with
  | ok a =>
      constructor
      · intro h
        exact ⟨a, rfl, h⟩
      · intro h
        obtain ⟨b, hb, h⟩ := h
        cases hb
        exact h
  | error e =>
      constructor
      · intro h
        cases h
      · intro h
        obtain ⟨_, h, _⟩ := h
        cases h

theorem map_eq_ok {ε α β : Type} {x : Except ε α} {f : α → β} {y : β} :
    x.map f = .ok y ↔ ∃ a, x = .ok a ∧ f a = y := by
  cases x with
  | ok a => simp [Except.map]
  | error e => simp [Except.map]

@[simp]
theorem ok_bind {ε α β : Type} (x : α) (f : α → Except ε β) : (Except.ok x >>= f) = f x := rfl

@[simp]
theorem error_bind {ε α β : Type} (e : ε) (f : α → Except ε β) :
    (Except.error e >>= f) = .error e := rfl

theorem toOption_eq_some {ε α : Type} {x : Except ε α} {y : α} :
    x.toOption = some y ↔ x = .ok y := by
  cases x with
  | ok a => simp [Except.toOption]
  | error e => simp [Except.toOption]

end Sequence

theorem Guarded.check_apply (c : Context) :
    check c = (if c.isCancelled then .error .cancelled else .ok (), c.looked) := by
  have hlift : (liftM isCancelled : Guarded Bool) c = (.ok c.isCancelled, c.looked) := rfl
  change ((liftM isCancelled : Guarded Bool) >>= fun b => if b then throw .cancelled else pure ()) c
    = _
  rw [bind_apply, hlift]
  cases c.isCancelled with
  | false => rfl
  | true => rfl

theorem Guarded.ofExcept_apply {α : Type} (x : Except Fault α) (c : Context) :
    ofExcept x c = (x, c) := by
  cases x with
  | ok x => rfl
  | error e => rfl

namespace StoreM

variable {α β : Type}

theorem check_apply (s : Session) : check s =
    (if s.context.isCancelled then .error .cancelled else .ok (),
      { s with context := s.context.looked }) := by
  simp only [check, guarded, Guarded.check_apply]

theorem ofExcept_apply (x : Except Fault α) (s : Session) : ofExcept x s = (x, s) := by
  simp only [ofExcept, guarded, Guarded.ofExcept_apply]

def Reads (m : StoreM α) : Prop := ∀ s, (m s).2.documents = s.documents

/-- The call looks at the context at most once, fails if it finds it cancelled, and otherwise
gives what is computed from the documents, which it leaves as they are. -/
def Peeks (m : StoreM α) (f : Documents → Except Fault α) : Prop :=
  ∀ s, m s = (f s.documents, s) ∨
    m s = (if s.context.isCancelled then .error .cancelled else f s.documents,
      { s with context := s.context.looked })

namespace Peeks

variable {m : StoreM α} {f : Documents → Except Fault α} {s s' : Session}

theorem of_eq (h : ∀ s, m s = (f s.documents, s)) : Peeks m f := fun s => .inl (h s)

theorem bind (h : Peeks m f) {g : α → StoreM β} {k : α → Except Fault β}
    (hg : ∀ x s, g x s = (k x, s)) : Peeks (m >>= g) fun d => f d >>= k := by
  intro s
  cases h s with
  | inl hm =>
      refine .inl ?_
      change _ = (f s.documents >>= k, s)
      cases hf : f s.documents with
      | error e => exact bind_of_error (hf ▸ hm)
      | ok x => exact (bind_of_ok (hf ▸ hm)).trans (hg x s)
  | inr hm =>
      refine .inr ?_
      change _ = (if s.context.isCancelled then .error .cancelled else f s.documents >>= k, _)
      cases hc : s.context.isCancelled with
      | true =>
          rw [hc] at hm
          exact bind_of_error hm
      | false =>
          rw [hc] at hm
          cases hf : f s.documents with
          | error e => exact bind_of_error (hf ▸ hm)
          | ok x => exact (bind_of_ok (hf ▸ hm)).trans (hg x _)

theorem documents (h : Peeks m f) {r : Except Fault α} (hr : m s = (r, s')) :
    s'.documents = s.documents := by
  cases h s with
  | inl hm =>
      cases hr.symm.trans hm
      rfl
  | inr hm =>
      cases hr.symm.trans hm
      rfl

/-- What the call gives is what is computed from the documents. -/
theorem eq_ok (h : Peeks m f) {x : α} (hr : m s = (.ok x, s')) : f s.documents = .ok x := by
  cases h s with
  | inl hm => exact (Prod.mk.inj (hm.symm.trans hr)).1
  | inr hm =>
      have hx := (Prod.mk.inj (hm.symm.trans hr)).1
      split at hx
      · cases hx
      · exact hx

end Peeks

end StoreM

namespace Documents

open StoreM

variable {name key : String} {s s' : Session}

theorem getDoc_apply (name key : String) (s : Session) : getDoc name key s =
    (if s.context.isCancelled then .error .cancelled else .ok (s.documents.find? name key),
      { s with context := s.context.looked }) := by
  rw [getDoc, bind_apply, check_apply]
  cases s.context.isCancelled with
  | false => rfl
  | true => rfl

theorem query_apply (name : String) (filters : List FieldFilter) (s : Session) :
    query name filters s =
      (if s.context.isCancelled then .error .cancelled
        else .ok (s.documents.matching name filters),
        { s with context := s.context.looked }) := by
  rw [query, bind_apply, check_apply]
  cases s.context.isCancelled with
  | false => rfl
  | true => rfl

theorem putDoc_apply (name key : String) (doc : Value) (s : Session) : putDoc name key doc s =
    if s.context.isCancelled then (.error .cancelled, { s with context := s.context.looked })
    else (.ok (), ⟨s.context.looked, s.documents.insert name key doc⟩) := by
  rw [putDoc, bind_apply, check_apply]
  cases s.context.isCancelled with
  | false => rfl
  | true => rfl

theorem deleteDoc_apply (name key : String) (s : Session) : deleteDoc name key s =
    if s.context.isCancelled then (.error .cancelled, { s with context := s.context.looked })
    else (.ok (s.documents.find? name key).isSome,
      ⟨s.context.looked, s.documents.erase name key⟩) := by
  rw [deleteDoc, bind_apply, check_apply]
  cases s.context.isCancelled with
  | false => rfl
  | true => rfl

/-- What the decision of a transaction answers, and the documents it leaves. -/
def settle (name key : String) (d : Documents) : Except Fault Write → Except Fault Bool × Documents
  | .error e => (.error e, d)
  | .ok .keep => (.ok false, d)
  | .ok (.put doc) => (.ok true, d.insert name key doc)

/-- A transaction looks at the context before its body, which gets the document under the key and
may do with the context what it likes, and, unless the body fails, after it. -/
theorem transaction_run (body : Option Value → Guarded Write) (s : Session) :
    transaction name key body s =
      if s.context.isCancelled then (.error .cancelled, { s with context := s.context.looked })
      else match body (s.documents.find? name key) s.context.looked with
        | (.error e, c) => (.error e, { s with context := c })
        | (.ok write, c) =>
            if c.isCancelled then (.error .cancelled, { s with context := c.looked })
            else ((settle name key s.documents (.ok write)).1,
              ⟨c.looked, (settle name key s.documents (.ok write)).2⟩) := by
  rw [transaction, bind_apply, check_apply]
  cases s.context.isCancelled with
  | true => rfl
  | false =>
      simp only [Bool.false_eq_true, if_false]
      have hread : StoreM.documents { s with context := s.context.looked } =
          (.ok s.documents, { s with context := s.context.looked }) := rfl
      rw [bind_of_ok hread, bind_apply, guarded]
      cases body (s.documents.find? name key) s.context.looked with
      | mk result c =>
          cases result with
          | error e => rfl
          | ok write =>
              simp only [bind_apply, check_apply]
              cases c.isCancelled with
              | true => rfl
              | false => cases write <;> rfl

/-- A body that does not look at the context leaves it as the first look has left it. -/
theorem transaction_apply (f : Option Value → Except Fault Write) (s : Session) :
    transaction name key (fun doc => Guarded.ofExcept (f doc)) s =
      if s.context.isCancelled then (.error .cancelled, { s with context := s.context.looked })
      else match f (s.documents.find? name key) with
        | .error e => (.error e, { s with context := s.context.looked })
        | .ok write =>
            if s.context.looked.isCancelled then
              (.error .cancelled, { s with context := s.context.looked.looked })
            else
              ((settle name key s.documents (.ok write)).1,
                ⟨s.context.looked.looked, (settle name key s.documents (.ok write)).2⟩) := by
  rw [transaction_run, Guarded.ofExcept_apply]
  cases f (s.documents.find? name key) with
  | error e => rfl
  | ok write => rfl

/-- A transaction writes what its body has decided, or leaves the documents as they are. -/
theorem transaction_cases {f : Option Value → Except Fault Write} {r : Except Fault Bool}
    (h : transaction name key (fun doc => Guarded.ofExcept (f doc)) s = (r, s')) :
    ((∃ e, r = .error e) ∧ s'.documents = s.documents) ∨
      (f (s.documents.find? name key) = .ok .keep ∧ r = .ok false ∧
        s'.documents = s.documents) ∨
      ∃ doc, f (s.documents.find? name key) = .ok (.put doc) ∧ r = .ok true ∧
        s'.documents = s.documents.insert name key doc := by
  rw [transaction_apply] at h
  split at h
  · cases h
    exact .inl ⟨⟨_, rfl⟩, rfl⟩
  split at h
  · cases h
    exact .inl ⟨⟨_, rfl⟩, rfl⟩
  next write hf =>
    split at h
    · cases h
      exact .inl ⟨⟨_, rfl⟩, rfl⟩
    · cases write with
      | keep =>
          cases h
          exact .inr (.inl ⟨hf, rfl, rfl⟩)
      | put doc =>
          cases h
          exact .inr (.inr ⟨doc, hf, rfl, rfl⟩)

section Rewrite

variable {α : Type} {decode : Decoder α} {encode : α → Value} {change : α → α}

/-- The body of a transaction that changes the record in a document. -/
def changed (name key : String) (decode : Decoder α) (encode : α → Value) (change : α → α) :
    Option Value → Except Fault Write
  | none => .error (.notFound name key)
  | some doc => match decode doc with
    | .ok x => .ok (.put (encode (change x)))
    | .error m => .error (.serialization m.message)

/-- Changes the record in the document under a key. -/
def rewrite (name key : String) (decode : Decoder α) (encode : α → Value) (change : α → α) :
    StoreM Unit := do
  let _ ← transaction name key fun doc =>
    Guarded.ofExcept (changed name key decode encode change doc)

theorem rewrite_apply (s : Session) : rewrite name key decode encode change s =
    if s.context.isCancelled then (.error .cancelled, { s with context := s.context.looked })
    else match s.documents.find? name key with
      | none => (.error (.notFound name key), { s with context := s.context.looked })
      | some doc => match decode doc with
        | .error m => (.error (.serialization m.message), { s with context := s.context.looked })
        | .ok x =>
            if s.context.looked.isCancelled then
              (.error .cancelled, { s with context := s.context.looked.looked })
            else
              (.ok (), ⟨s.context.looked.looked,
                s.documents.insert name key (encode (change x))⟩) := by
  rw [rewrite, bind_pure_apply, transaction_apply]
  split
  · rfl
  cases s.documents.find? name key with
  | none => rfl
  | some doc =>
      simp only [changed]
      cases decode doc with
      | error m => rfl
      | ok x =>
          simp only
          split
          · rfl
          · rfl

/-- A call that does not fail has decoded the document and written the changed record. -/
theorem rewrite_cases {s s' : Session} {r : Except Fault Unit}
    (h : rewrite name key decode encode change s = (r, s')) :
    ((∃ e, r = .error e) ∧ s'.documents = s.documents) ∨
      ∃ doc x, s.context.isCancelled = false ∧ s.context.looked.isCancelled = false ∧
        s.documents.find? name key = some doc ∧ decode doc = .ok x ∧ r = .ok () ∧
        s'.documents = s.documents.insert name key (encode (change x)) := by
  rw [rewrite_apply] at h
  split at h
  · cases h
    exact .inl ⟨⟨_, rfl⟩, rfl⟩
  next hlive =>
    split at h
    · cases h
      exact .inl ⟨⟨_, rfl⟩, rfl⟩
    next doc hdoc =>
      split at h
      · cases h
        exact .inl ⟨⟨_, rfl⟩, rfl⟩
      next x hx =>
        split at h
        · cases h
          exact .inl ⟨⟨_, rfl⟩, rfl⟩
        next hlater =>
          cases h
          exact .inr ⟨doc, x, Bool.eq_false_iff.2 hlive, Bool.eq_false_iff.2 hlater, hdoc, hx,
            rfl, rfl⟩

end Rewrite

end Documents

theorem AlertStore.updateNotified_eq_rewrite (id : String) (time : Instant) :
    updateNotified id time =
      Documents.rewrite collectionName id Alert.decode Alert.encode
        fun a => { a with lastAlerted := some time } := by
  have hbody : notifiedBody id time = Documents.changed collectionName id Alert.decode Alert.encode
      fun a => { a with lastAlerted := some time } := by
    funext doc
    cases doc with
    | none => rfl
    | some doc =>
        rw [notifiedBody, Documents.changed]
        cases Alert.decode doc <;> rfl
  rw [updateNotified, hbody, Documents.rewrite]

theorem NotificationStore.markSent_eq_rewrite (key : String) (time : Instant) :
    markSent key time =
      Documents.rewrite collectionName key Notification.decode Notification.encode
        fun n => { n with sent := some time } := by
  have hbody : sentBody key time = Documents.changed collectionName key Notification.decode
      Notification.encode fun n => { n with sent := some time } := by
    funext doc
    cases doc with
    | none => rfl
    | some doc =>
        rw [sentBody, Documents.changed, decode]
        cases Notification.decode doc <;> rfl
  rw [markSent, hbody, Documents.rewrite]

end SpendAlerts

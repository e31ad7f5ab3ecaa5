import SpendAlerts.Proofs.Digest.Body
import SpendAlerts.Proofs.Calendar.Months
import SpendAlerts.Proofs.Period
import Mathlib.Data.List.Induction

/-!
How a body with a breakdown is laid out. Its buckets partition the notifications by day, or are
one bucket if the alert is not daily. A bucket has an item for each of its notifications, the
most striking values first and equal ones in the order in which they came, and the buckets
themselves come in the order of their earliest detection. Days are told apart by their labels,
which are the names of the buckets.
-/

namespace SpendAlerts

namespace Instant

/-- Instants of different days are different, leap seconds or not. -/
theorem date_eq_of_ticks_eq {t t' : Instant} (h : t.ticks = t'.ticks) : t.date = t'.date :=
  Date.dayNumber_injective (Int.le_antisymm (dayNumber_le_of_le (Int.le_of_eq h))
    (dayNumber_le_of_le (Int.le_of_eq h.symm)))

theorem earlier_cases (t t' : Instant) : t.earlier t' = t ∨ t.earlier t' = t' := by
  rw [earlier]
  split <;> simp

theorem earlier_le (t t' : Instant) : (t.earlier t').ticks ≤ t.ticks ∧
    (t.earlier t').ticks ≤ t'.ticks := by
  rw [earlier]
  split
  · next h => exact ⟨Int.le_of_lt h, Int.le_refl _⟩
  · next h => exact ⟨Int.le_refl _, Int.not_lt.1 h⟩

end Instant

theorem dayLabel_eq_iff {t t' : Instant} : dayLabel t = dayLabel t' ↔ t.date = t'.date :=
  ⟨date_eq_of_dayLabel_eq, fun h => by rw [dayLabel, dayLabel, h]⟩

namespace Digest

variable {config : AlertConfig} {ns : List Notification} {n : Notification}

/-- The notifications that share a bucket with one: all of them, or those of the same day. -/
def bucketMates (i : Interval) (ns : List Notification) (n : Notification) : List Notification :=
  ns.filter fun m => i = .day → m.detected.date = n.detected.date

/-- An instant is that of the earliest of some detections. -/
structure Earliest (t : Instant) (ns : List Notification) : Prop where
  attained : ∃ n ∈ ns, n.detected = t
  least : ∀ n ∈ ns, t ≤ n.detected

/-- Notifications by their values, the most striking first, and equal ones as they came. -/
structure Ranked (c : Comparison) (ns ranked : List Notification) : Prop where
  perm : ranked.Perm ns
  sorted : ranked.Pairwise fun n m => match c with
    | .greater => Decimal.rank m.value ≤ Decimal.rank n.value
    | .less => Decimal.rank n.value ≤ Decimal.rank m.value
  stable : ∀ r, ranked.filter (Decimal.rank ·.value = r) = ns.filter (Decimal.rank ·.value = r)

/-- The bucket shows these notifications, each as one item. -/
structure Bucket.Gathers (config : AlertConfig) (ns : List Notification) (b : Bucket) : Prop where
  timestamp : ∀ n ∈ ns, b.timestamp = if config.interval = .day then dayLabel n.detected else ""
  items : ∃ ranked, Ranked config.comparison ns ranked ∧ b.items =
    ranked.map fun n => ⟨n.breakdown.getD "N/A", config.valueText n.value, n.value⟩
  value : b.value = none
  earliest : Earliest b.earliest ns

/-- The layout of the body of some notifications in a breakdown. -/
structure Body.LaysOut (config : AlertConfig) (ns : List Notification) (body : Body) : Prop where
  /-- Every notification has its bucket, and no other bucket has it. -/
  placed : ∀ n ∈ ns, ∃! b, b ∈ body.buckets ∧ b.Gathers config (bucketMates config.interval ns n)
  /-- There are no other buckets. -/
  filled : ∀ b ∈ body.buckets, ∃ n ∈ ns, b.Gathers config (bucketMates config.interval ns n)
  ordered : body.buckets.Pairwise fun b b' => b.earliest < b'.earliest
  value : body.value = none
  topHits : ∀ text, body.topHits = some text ↔ (∃ b ∈ body.buckets, 10 ≤ b.items.length) ∧
    text = match config.comparison with
      | .greater => "(below are the top 10 hits)"
      | .less => "(below are the bottom 10 hits)"

theorem mem_bucketMates_self {i : Interval} (hn : n ∈ ns) : n ∈ bucketMates i ns n :=
  List.mem_filter.2 ⟨hn, by simp⟩

namespace Draft

theorem bucketName_eq_iff {i : Interval} {n m : Notification} :
    bucketName i n = bucketName i m ↔ (i = .day → n.detected.date = m.detected.date) := by
  by_cases hday : i = .day
  · simp [bucketName, hday, dayLabel_eq_iff]
  · simp [bucketName, hday]

/-- The notifications under the name of a bucket are those that share it. -/
theorem filter_bucketName (i : Interval) (ns : List Notification) (n : Notification) :
    ns.filter (bucketName i · = bucketName i n) = bucketMates i ns n := by
  simp only [bucketName_eq_iff, bucketMates]

/-- The bucket of some notifications, filled in the order in which they come. -/
def filledWith (config : AlertConfig) (name : String) : List Notification → Option Bucket
  | [] => none
  | n :: ns => some
      { timestamp := name
        items := (n :: ns).map fun m => itemFor (config.valueText m.value) m
        value := none
        earliest := ns.foldl (fun t m => t.earlier m.detected) n.detected }

theorem filledWith_append_singleton {name : String} {d : Draft}
    (h : d.buckets.find? name = filledWith config name ns) :
    filledWith config name (ns ++ [n]) = some { d.bucketFor name n with
      items := (d.bucketFor name n).items ++ [itemFor (config.valueText n.value) n] } := by
  rw [bucketFor, h]
  cases ns with
  | nil => rfl
  | cons first others => simp [filledWith, List.foldl_append]

/-- A draft holds under each name the bucket of the notifications that belong there. -/
theorem find?_foldl_add (ns : List Notification) (name : String) :
    (ns.foldl (add config true) empty).buckets.find? name =
      filledWith config name (ns.filter (bucketName config.interval · = name)) := by
  induction ns using List.reverseRecOn generalizing name with
  | nil => rfl
  | append_singleton ns n ih =>
      rw [List.foldl_append, List.foldl_cons, List.foldl_nil, List.filter_append]
      by_cases hname : bucketName config.interval n = name
      · have hlast : [n].filter (bucketName config.interval · = name) = [n] := by simp [hname]
        rw [hlast, filledWith_append_singleton (ih name), ← hname]
        simp [add]
      · have hlast : [n].filter (bucketName config.interval · = name) = [] := by simp [hname]
        rw [hlast, List.append_nil, ← ih name]
        exact find?_buckets_add hname

theorem value_foldl_add (d : Draft) (ns : List Notification) :
    (ns.foldl (add config true) d).value = d.value := by
  induction ns generalizing d with
  | nil => rfl
  | cons n ns ih =>
      rw [List.foldl_cons, ih]
      simp [add]

end Draft

theorem earliest_foldl (n : Notification) (ns : List Notification) :
    Earliest (ns.foldl (fun t m => t.earlier m.detected) n.detected) (n :: ns) := by
  induction ns using List.reverseRecOn with
  | nil =>
      refine ⟨⟨n, by simp, rfl⟩, ?_⟩
      intro m hm
      exact List.mem_singleton.1 hm ▸ Int.le_refl _
  | append_singleton ns m ih =>
      rw [List.foldl_append, List.foldl_cons, List.foldl_nil]
      generalize ns.foldl (fun t m => t.earlier m.detected) n.detected = t at ih
      obtain ⟨k, hk, hattained⟩ := ih.attained
      obtain ⟨hfirst, hsecond⟩ := t.earlier_le m.detected
      constructor
      · cases t.earlier_cases m.detected with
        | inl h => exact ⟨k, List.mem_append_left [m] hk, hattained.trans h.symm⟩
        | inr h => exact ⟨m, by simp, h.symm⟩
      · intro l hl
        cases List.mem_append.1 (show l ∈ (n :: ns) ++ [m] from hl) with
        | inl hl => exact Int.le_trans hfirst (ih.least l hl)
        | inr hl => exact List.mem_singleton.1 hl ▸ hsecond

namespace Draft

variable {name : String} {b : Bucket}

theorem exists_filledWith (config : AlertConfig) (name : String) (hne : ns ≠ []) :
    ∃ b, filledWith config name ns = some b := by
  cases ns with
  | nil => exact absurd rfl hne
  | cons n ns => exact ⟨_, rfl⟩

/-- A bucket that is filled with notifications holds these and no others. -/
structure Holds (config : AlertConfig) (name : String) (ns : List Notification) (b : Bucket) :
    Prop where
  timestamp : b.timestamp = name
  items : b.items = ns.map fun n => itemFor (config.valueText n.value) n
  value : b.value = none
  earliest : Earliest b.earliest ns

theorem holds_of_filledWith (h : filledWith config name ns = some b) : Holds config name ns b := by
  cases ns with
  | nil => cases h
  | cons n ns =>
      cases h
      exact ⟨rfl, rfl, rfl, earliest_foldl n ns⟩

end Draft

/-- The first value is at least as striking as the second. -/
def leads (c : Comparison) (n m : Notification) : Bool :=
  match c with
  | .greater => Decimal.totalLE m.value n.value
  | .less => Decimal.totalLE n.value m.value

theorem leads_trans (c : Comparison) (n m k : Notification) (h : leads c n m = true)
    (h' : leads c m k = true) : leads c n k = true := by
  cases c <;> simp only [leads, Decimal.totalLE, decide_eq_true_eq] at * <;> omega

theorem leads_total (c : Comparison) (n m : Notification) :
    (leads c n m || leads c m n) = true := by
  cases c <;> simp only [leads, Decimal.totalLE, Bool.or_eq_true, decide_eq_true_eq] <;> omega

theorem leads_of_rank_eq (c : Comparison) {n m : Notification}
    (h : Decimal.rank n.value = Decimal.rank m.value) : leads c n m = true := by
  cases c <;> simp [leads, Decimal.totalLE, h]

/-- Sorting ranks: it is stable, so it keeps the notifications of one value in order. -/
theorem ranked_mergeSort (c : Comparison) (ns : List Notification) :
    Ranked c ns (ns.mergeSort (leads c)) where
  perm := List.mergeSort_perm _ _
  sorted := by
    refine (List.pairwise_mergeSort (leads_trans c) (leads_total c) ns).imp ?_
    intro n m h
    cases c <;> simpa [leads, Decimal.totalLE] using h
  stable r := by
    have htied : (ns.filter (Decimal.rank ·.value = r)).Pairwise (leads c · ·) := by
      refine List.pairwise_of_forall_mem_list ?_
      intro n hn m hm
      have hn := of_decide_eq_true (List.mem_filter.1 hn).2
      have hm := of_decide_eq_true (List.mem_filter.1 hm).2
      exact leads_of_rank_eq c (hn.trans hm.symm)
    have hsub : (ns.filter (Decimal.rank ·.value = r)).Sublist
        ((ns.mergeSort (leads c)).filter (Decimal.rank ·.value = r)) := by
      have hsorted := List.sublist_mergeSort (leads_trans c) (leads_total c) htied
        List.filter_sublist
      have hfilter := hsorted.filter (Decimal.rank ·.value = r)
      simpa only [List.filter_filter, Bool.and_self] using hfilter
    have hperm := (List.mergeSort_perm ns (leads c)).filter (Decimal.rank ·.value = r)
    exact (hsub.eq_of_length hperm.length_eq.symm).symm

/-- The items of a bucket are sorted as its notifications are. -/
theorem items_sortItems {c : Comparison} {b : Bucket} {value : Notification → String}
    (h : b.items = ns.map fun n => Draft.itemFor (value n) n) :
    (b.sortItems c).items =
      (ns.mergeSort (leads c)).map fun n => Draft.itemFor (value n) n := by
  have hsorted : (ns.mergeSort (leads c)).map (fun n => Draft.itemFor (value n) n) =
      (b.sortItems c).items := by
    rw [Bucket.sortItems, h]
    refine List.map_mergeSort ?_
    intro n _ m _
    cases c with
    | greater => rfl
    | less => rfl
  exact hsorted.symm

theorem Draft.Holds.gathers {name : String} {b : Bucket} (h : Draft.Holds config name ns b)
    (hname : ∀ n ∈ ns, Draft.bucketName config.interval n = name) :
    (b.sortItems config.comparison).Gathers config ns where
  timestamp n hn := h.timestamp.trans (hname n hn).symm
  items := ⟨_, ranked_mergeSort config.comparison ns, items_sortItems h.items⟩
  value := h.value
  earliest := h.earliest

namespace Body

variable {a : Alert} {label sentence : String}

open Draft

theorem mem_buckets {b : Bucket} :
    b ∈ (ofNotifications a (some label) sentence ns).buckets ↔ ∃ name filled,
      filledWith a.config name (ns.filter (bucketName a.config.interval · = name)) = some filled ∧
        b = filled.sortItems a.config.comparison := by
  simp only [ofNotifications, sortBuckets, List.mem_mergeSort, List.mem_map, Table.mem_values,
    Option.isSome_some, find?_foldl_add]
  constructor
  · rintro ⟨filled, ⟨name, h⟩, hb⟩
    exact ⟨name, filled, h, hb.symm⟩
  · rintro ⟨name, filled, h, hb⟩
    exact ⟨filled, ⟨name, h⟩, hb.symm⟩

theorem exists_mem_buckets (a : Alert) (label sentence : String) (hn : n ∈ ns) :
    ∃ b ∈ (ofNotifications a (some label) sentence ns).buckets,
      b.Gathers a.config (bucketMates a.config.interval ns n) := by
  have hgroup := filter_bucketName a.config.interval ns n
  obtain ⟨filled, hfilled⟩ := exists_filledWith a.config (bucketName a.config.interval n)
    (List.ne_nil_of_mem (mem_bucketMates_self (i := a.config.interval) hn))
  refine ⟨filled.sortItems a.config.comparison, ?_, ?_⟩
  · rw [← hgroup] at hfilled
    exact mem_buckets.2 ⟨bucketName a.config.interval n, filled, hfilled, rfl⟩
  · refine (holds_of_filledWith hfilled).gathers ?_
    intro m hm
    rw [← hgroup] at hm
    exact of_decide_eq_true (List.mem_filter.1 hm).2

/-- A bucket with the notification of some name is the one that is filled under that name. -/
theorem eq_of_gathers {b b' : Bucket} (hn : n ∈ ns)
    (hb : b ∈ (ofNotifications a (some label) sentence ns).buckets)
    (hgathers : b.Gathers a.config (bucketMates a.config.interval ns n))
    (hb' : b' ∈ (ofNotifications a (some label) sentence ns).buckets)
    (hgathers' : b'.Gathers a.config (bucketMates a.config.interval ns n)) : b = b' := by
  obtain ⟨name, filled, hfilled, rfl⟩ := mem_buckets.1 hb
  obtain ⟨name', filled', hfilled', rfl⟩ := mem_buckets.1 hb'
  have hself := mem_bucketMates_self (i := a.config.interval) hn
  have hname : name = name' := by
    rw [← (holds_of_filledWith hfilled).timestamp, ← (holds_of_filledWith hfilled').timestamp]
    exact (hgathers.timestamp n hself).trans (hgathers'.timestamp n hself).symm
  subst hname
  rw [hfilled] at hfilled'
  rw [Option.some.inj hfilled']

theorem exists_gathers {b : Bucket}
    (hb : b ∈ (ofNotifications a (some label) sentence ns).buckets) :
    ∃ n ∈ ns, b.Gathers a.config (bucketMates a.config.interval ns n) := by
  obtain ⟨name, filled, hfilled, rfl⟩ := mem_buckets.1 hb
  have hholds := holds_of_filledWith hfilled
  obtain ⟨n, hn, -⟩ := hholds.earliest.attained
  have hname : ∀ m ∈ ns.filter (bucketName a.config.interval · = name),
      bucketName a.config.interval m = name :=
    fun m hm => of_decide_eq_true (List.mem_filter.1 hm).2
  have hgathers := hholds.gathers hname
  rw [← hname n hn, filter_bucketName] at hgathers
  exact ⟨n, (List.mem_filter.1 hn).1, hgathers⟩

/-- Buckets of different names hold different days, so their earliest detections differ. -/
theorem pairwise_earliest_ne (config : AlertConfig) (ns : List Notification) :
    (ns.foldl (add config true) .empty).buckets.values.Pairwise
      fun b b' => b.earliest.ticks ≠ b'.earliest.ticks := by
  refine Table.pairwise_values ?_
  intro name name' b b' hne hb hb' hticks
  rw [find?_foldl_add] at hb hb'
  obtain ⟨n, hn, hearliest⟩ := (holds_of_filledWith hb).earliest.attained
  obtain ⟨m, hm, hearliest'⟩ := (holds_of_filledWith hb').earliest.attained
  have hdate := Instant.date_eq_of_ticks_eq hticks
  rw [← hearliest, ← hearliest'] at hdate
  apply hne
  rw [← of_decide_eq_true (List.mem_filter.1 hn).2, ← of_decide_eq_true (List.mem_filter.1 hm).2,
    bucketName_eq_iff]
  exact fun _ => hdate

theorem ordered_buckets : (ofNotifications a (some label) sentence ns).buckets.Pairwise
    fun b b' => b.earliest < b'.earliest := by
  simp only [ofNotifications, sortBuckets, Option.isSome_some]
  generalize hbs : ((ns.foldl (add a.config true) .empty).buckets.values.map
    (·.sortItems a.config.comparison)) = bs
  have hle : (bs.mergeSort fun x y => x.earliest ≤ y.earliest).Pairwise
      fun b b' => decide (b.earliest ≤ b'.earliest) = true := by
    apply List.pairwise_mergeSort
    · intro x y z h h'
      exact decide_eq_true (Int.le_trans (of_decide_eq_true h) (of_decide_eq_true h'))
    · intro x y
      simp only [Bool.or_eq_true, decide_eq_true_eq]
      exact Int.le_total x.earliest.ticks y.earliest.ticks
  have hne : bs.Pairwise fun b b' => b.earliest.ticks ≠ b'.earliest.ticks := by
    rw [← hbs]
    exact List.pairwise_map.2 (pairwise_earliest_ne a.config ns)
  have hsorted := ((List.mergeSort_perm bs fun x y => x.earliest ≤ y.earliest).pairwise_iff
    (fun h => h.symm)).2 hne
  refine (hle.and hsorted).imp ?_
  intro b b' h
  exact Int.lt_iff_le_and_ne.2 ⟨of_decide_eq_true h.1, h.2⟩

theorem topHits_ofNotifications (text : String) :
    (ofNotifications a (some label) sentence ns).topHits = some text ↔
      (∃ b ∈ (ofNotifications a (some label) sentence ns).buckets, 10 ≤ b.items.length) ∧
        text = topHitsText a.config.comparison := by
  have hlarge : (∃ b ∈ (ofNotifications a (some label) sentence ns).buckets, 10 ≤ b.items.length) ↔
      ((ns.foldl (add a.config true) .empty).buckets.values.any
        (topHitsSize ≤ ·.items.length)) = true := by
    simp only [List.any_eq_true, decide_eq_true_eq]
    simp [ofNotifications, sortBuckets, Bucket.sortItems, topHitsSize]
  rw [hlarge]
  simp only [ofNotifications, Option.isSome_some]
  split
  · next h => simp [h, eq_comm]
  · next h => simp [h]

/-- The body of an alert with a breakdown is laid out by days and values. -/
theorem laysOut_ofNotifications (a : Alert) (label sentence : String) (ns : List Notification) :
    (ofNotifications a (some label) sentence ns).LaysOut a.config ns where
  placed n hn := by
    obtain ⟨b, hb, hgathers⟩ := exists_mem_buckets a label sentence hn
    refine ⟨b, ⟨hb, hgathers⟩, ?_⟩
    intro b' h
    exact eq_of_gathers hn h.1 h.2 hb hgathers
  filled _ hb := exists_gathers hb
  ordered := ordered_buckets
  value := value_foldl_add .empty ns
  topHits text := by
    rw [topHits_ofNotifications]
    cases a.config.comparison <;> rfl

end Body

end Digest

end SpendAlerts

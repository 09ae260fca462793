import Tarpit.Proofs.Tally.Top
import Tarpit.Proofs.Time.Last

/-!
# Calls on a tally

What a tally holds after any calls on it.  It has the labels that came first of
those that were counted at all, as many as its ceiling admits, each with the sum
of its amounts while that is a word, the time at which it was first counted, and
the latest one.  A
call that counts nothing, or that finds no room, leaves no trace.
-/

namespace Tarpit.Traffic

open Tarpit.Time (Timestamp Spans IsLast extended orders_before)

namespace Tally

/-- A call that counts a label. -/
inductive Call where
  | add (label : String) (n : Nat) (time : Timestamp)
  | increment (label : String) (time : Timestamp)
  deriving DecidableEq, Repr

namespace Call

def label : Call → String
  | .add label _ _ => label
  | .increment label _ => label

def amount : Call → Nat
  | .add _ n _ => n
  | .increment _ _ => 1

def time : Call → Timestamp
  | .add _ _ time => time
  | .increment _ time => time

end Call

/-- What a call answers, and the tally after it. -/
def call (t : Tally) : Call → Bool × Tally
  | .add label n time => t.add label n time
  | .increment label time => t.increment label time

def afterCalls (t : Tally) (calls : List Call) : Tally :=
  calls.foldl (fun t c => (t.call c).2) t

/-- The labels that are held, in the order in which they were taken. -/
def labels (t : Tally) : List String :=
  t.entries.map Entry.label

theorem call_eq_add (t : Tally) (c : Call) : t.call c = t.add c.label c.amount c.time := by
  cases c with
  | add label n time => rfl
  | increment label time => rfl

theorem afterCalls_concat (t : Tally) (calls : List Call) (c : Call) :
    t.afterCalls (calls ++ [c]) = ((t.afterCalls calls).call c).2 := by
  rw [afterCalls, List.foldl_append]
  rfl

/-! ## What the calls counted -/

/-- The labels of the calls that count something, in the order of the calls. -/
def countedLabels (calls : List Call) : List String :=
  (calls.filter fun c => 0 < c.amount).map Call.label

/-- The sum of what the calls count of a label. -/
def amountOf (label : String) (calls : List Call) : Nat :=
  ((calls.filter fun c => c.label == label).map Call.amount).sum

/-- The times at which the calls count something of a label. -/
def countedTimes (label : String) (calls : List Call) : List Timestamp :=
  (calls.filter fun c => 0 < c.amount ∧ c.label = label).map Call.time

variable {calls : List Call} {c : Call} {label : String}

theorem countedLabels_concat (calls : List Call) (c : Call) :
    countedLabels (calls ++ [c]) =
      if 0 < c.amount then countedLabels calls ++ [c.label] else countedLabels calls := by
  unfold countedLabels
  by_cases h : 0 < c.amount
  · simp [h]
  · simp [h]

theorem amountOf_concat (label : String) (calls : List Call) (c : Call) :
    amountOf label (calls ++ [c]) =
      amountOf label calls + if c.label = label then c.amount else 0 := by
  unfold amountOf
  by_cases h : c.label = label
  · simp [h]
  · simp [h]

theorem countedTimes_concat (label : String) (calls : List Call) (c : Call) :
    countedTimes label (calls ++ [c]) =
      if 0 < c.amount ∧ c.label = label then countedTimes label calls ++ [c.time]
      else countedTimes label calls := by
  unfold countedTimes
  by_cases h : 0 < c.amount ∧ c.label = label
  · simp [h]
  · rw [if_neg h, List.filter_append, List.filter_cons_of_neg (by simpa using h)]
    simp

theorem amountOf_eq_zero_iff : amountOf label calls = 0 ↔ label ∉ countedLabels calls := by
  unfold amountOf countedLabels
  rw [List.sum_eq_zero_iff_forall_eq_nat]
  simp only [List.mem_map, List.mem_filter, beq_iff_eq, decide_eq_true_eq]
  constructor
  · rintro hzero ⟨c, ⟨hc, hpos⟩, hlabel⟩
    exact Nat.ne_of_gt hpos (hzero c.amount ⟨c, ⟨hc, hlabel⟩, rfl⟩)
  · rintro hnone n ⟨c, ⟨hc, hlabel⟩, rfl⟩
    by_contra hne
    exact hnone ⟨c, ⟨hc, Nat.pos_of_ne_zero hne⟩, hlabel⟩

theorem countedTimes_of_not_mem (h : label ∉ countedLabels calls) :
    countedTimes label calls = [] := by
  unfold countedTimes
  rw [List.map_eq_nil_iff, List.filter_eq_nil_iff]
  intro c hc hcounted
  obtain ⟨hpos, hlabel⟩ := of_decide_eq_true hcounted
  exact h (List.mem_map.2 ⟨c, List.mem_filter.2 ⟨hc, decide_eq_true hpos⟩, hlabel⟩)

/-! ## What a call can come to -/

/-- The answer to a call and the tally after it, by what the call finds. -/
inductive Added (t : Tally) (label : String) (n : Nat) (time : Timestamp) : Bool × Tally → Prop
  | nothing (hzero : n = 0) : Added t label n time (false, t)
  | known (hpos : 0 < n) (hknown : label ∈ t.labels) :
      Added t label n time (true, t.bump label n time)
  | turnedAway (hpos : 0 < n) (hnew : label ∉ t.labels) (hfull : t.limit ≤ t.size) :
      Added t label n time (false, t)
  | taken (hpos : 0 < n) (hnew : label ∉ t.labels) (hroom : t.size < t.limit) :
      Added t label n time (true, t.insert label n time)

theorem isSome_find?_iff_mem_labels (t : Tally) (label : String) :
    (t.find? label).isSome = true ↔ label ∈ t.labels := by
  simp [find?, labels]

theorem added_call (t : Tally) (c : Call) : Added t c.label c.amount c.time (t.call c) := by
  rw [call_eq_add]
  unfold add
  by_cases hzero : c.amount = 0
  · rw [if_pos hzero]
    exact .nothing hzero
  · have hpos : 0 < c.amount := Nat.pos_of_ne_zero hzero
    rw [if_neg hzero]
    by_cases hknown : c.label ∈ t.labels
    · rw [if_pos ((isSome_find?_iff_mem_labels t c.label).2 hknown)]
      exact .known hpos hknown
    · rw [if_neg fun h => hknown ((isSome_find?_iff_mem_labels t c.label).1 h)]
      by_cases hfull : t.limit ≤ t.size
      · rw [if_pos hfull]
        exact .turnedAway hpos hknown hfull
      · rw [if_neg hfull]
        exact .taken hpos hknown (Nat.lt_of_not_le hfull)

theorem labels_bump (t : Tally) (label : String) (n : Nat) (time : Timestamp) :
    (t.bump label n time).labels = t.labels := by
  unfold bump labels
  rw [List.map_map]
  apply List.map_congr_left
  intro e _
  simp only [Function.comp]
  split
  · rfl
  · rfl

theorem labels_insert (t : Tally) (label : String) (n : Nat) (time : Timestamp) :
    (t.insert label n time).labels = t.labels ++ [label] := by
  rw [labels, insert, List.map_append]
  rfl

theorem length_labels (t : Tally) : t.labels.length = t.size :=
  List.length_map _

theorem find?_of_mem_labels {t : Tally} (h : label ∈ t.labels) :
    ∃ e ∈ t.entries, e.label = label ∧ t.find? label = some e := by
  obtain ⟨e, hfind⟩ := Option.isSome_iff_exists.1 ((isSome_find?_iff_mem_labels t label).2 h)
  exact ⟨e, List.mem_of_find?_eq_some hfind, by simpa using List.find?_some hfind, hfind⟩

theorem find?_of_not_mem_labels {t : Tally} (h : label ∉ t.labels) : t.find? label = none := by
  rw [← Option.not_isSome_iff_eq_none, isSome_find?_iff_mem_labels]
  exact h

/-- A call is taken just if it counts something and its label is held afterwards. -/
theorem call_fst_eq_true_iff (t : Tally) (c : Call) :
    (t.call c).1 = true ↔ 0 < c.amount ∧ c.label ∈ (t.call c).2.labels := by
  have hadded := added_call t c
  generalize t.call c = outcome at hadded ⊢
  cases hadded with
  | nothing hzero => simp [hzero]
  | known hpos hknown => simp [hpos, labels_bump, hknown]
  | turnedAway hpos hnew hfull => simp [hnew]
  | taken hpos hnew hroom => simp [hpos, labels_insert]

theorem call_snd_of_fst_eq_false {t : Tally} (h : (t.call c).1 = false) : (t.call c).2 = t := by
  have hadded := added_call t c
  generalize t.call c = outcome at hadded h ⊢
  cases hadded with
  | nothing | turnedAway => rfl
  | known | taken => cases h

end Tally

/-! ## Sums -/

open Tally

/--
The entry has the sum of what the calls counted of its label, as long as the sum is a word, and the
span of the times.
-/
structure Entry.Sums (calls : List Call) (e : Entry) : Prop where
  count : amountOf e.label calls < Number.wordBound → e.count = amountOf e.label calls
  span : Spans Timestamp.before (countedTimes e.label calls) (some (e.firstSeen, e.lastSeen))

namespace Entry.Sums

variable {calls : List Call} {c : Call} {e : Entry}

theorem other (h : e.Sums calls) (hother : ¬ (0 < c.amount ∧ c.label = e.label)) :
    e.Sums (calls ++ [c]) := by
  constructor
  · have hsame : amountOf e.label (calls ++ [c]) = amountOf e.label calls := by
      rw [amountOf_concat]
      split
      · next hlabel =>
          have hzero : c.amount = 0 := by
            by_contra hne
            exact hother ⟨Nat.pos_of_ne_zero hne, hlabel⟩
          rw [hzero, Nat.add_zero]
      · rfl
    rw [hsame]
    exact h.count
  · rw [countedTimes_concat, if_neg hother]
    exact h.span

theorem add (h : e.Sums calls) (hpos : 0 < c.amount) (hlabel : c.label = e.label) :
    (e.add c.amount c.time).Sums (calls ++ [c]) := by
  constructor
  · show amountOf e.label (calls ++ [c]) < Number.wordBound →
      Number.wrapped (e.count + c.amount) = amountOf e.label (calls ++ [c])
    rw [amountOf_concat, if_pos hlabel]
    intro hword
    rw [h.count (by omega), Number.wrapped_of_lt hword]
  · show Spans _ (countedTimes e.label (calls ++ [c])) _
    rw [countedTimes_concat, if_pos ⟨hpos, hlabel⟩]
    exact h.span.append orders_before c.time

theorem first (hpos : 0 < c.amount) (hnew : c.label ∉ countedLabels calls) (sequence : Nat) :
    (Entry.mk c.label c.amount c.time c.time sequence).Sums (calls ++ [c]) := by
  constructor
  · intro _
    show c.amount = amountOf c.label (calls ++ [c])
    rw [amountOf_concat, if_pos rfl, amountOf_eq_zero_iff.2 hnew, Nat.zero_add]
  · show Spans _ (countedTimes c.label (calls ++ [c])) _
    rw [countedTimes_concat, if_pos ⟨hpos, rfl⟩, countedTimes_of_not_mem hnew]
    exact Spans.nothing.append orders_before c.time

end Entry.Sums

namespace Tally

variable {t : Tally} {limit : Nat} {calls : List Call}

/-- The tally is what is left of some calls on an empty one. -/
structure Totals (t : Tally) (limit : Nat) (calls : List Call) : Prop where
  limit_eq : t.limit = limit
  labels_eq : t.labels = firstLabels limit (countedLabels calls)
  numbered : t.Numbered
  sums : ∀ e ∈ t.entries, e.Sums calls

theorem totals_empty (limit : Nat) : (empty limit).Totals limit [] := by
  refine ⟨rfl, ?_, ⟨rfl, rfl⟩, fun e he => absurd he List.not_mem_nil⟩
  rw [countedLabels, List.filter_nil, List.map_nil, firstLabels, List.eraseDups_nil, List.take_nil]
  rfl

namespace Totals

theorem call (h : t.Totals limit calls) (c : Call) :
    (t.call c).2.Totals limit (calls ++ [c]) := by
  have hlimit : (t.call c).2.limit = limit := by
    rw [call_eq_add, limit_add, h.limit_eq]
  have hnumbered : (t.call c).2.Numbered := by
    rw [call_eq_add]
    exact h.numbered.add c.label c.amount c.time
  have hlength : (firstLabels limit (countedLabels calls)).length = t.size := by
    rw [← h.labels_eq, length_labels]
  have hadded := added_call t c
  generalize t.call c = outcome at hadded hlimit hnumbered ⊢
  refine ⟨hlimit, ?labels, hnumbered, ?sums⟩
  case labels =>
    rw [countedLabels_concat]
    cases hadded with
    | nothing hzero => rw [if_neg (by omega), h.labels_eq]
    | known hpos hknown =>
        have hmem := mem_of_mem_firstLabels (h.labels_eq ▸ hknown)
        rw [if_pos hpos, firstLabels_concat, if_pos (.inl hmem), labels_bump, h.labels_eq]
    | turnedAway hpos hnew hfull =>
        have hnoRoom : limit ≤ (firstLabels limit (countedLabels calls)).length := by
          rw [hlength, ← h.limit_eq]
          exact hfull
        rw [if_pos hpos, firstLabels_concat, if_pos (.inr hnoRoom), h.labels_eq]
    | taken hpos hnew hroom =>
        have hroom' : ¬ limit ≤ (firstLabels limit (countedLabels calls)).length := by
          rw [hlength, ← h.limit_eq]
          exact Nat.not_le_of_lt hroom
        have hfirst : c.label ∉ countedLabels calls := fun hmem =>
          hroom' (Nat.le_of_eq (length_firstLabels_of_not_mem hmem (h.labels_eq ▸ hnew)).symm)
        rw [if_pos hpos, firstLabels_concat, if_neg (not_or.2 ⟨hfirst, hroom'⟩), labels_insert,
          h.labels_eq]
  case sums =>
    have hother : ∀ e ∈ t.entries, c.label ∉ t.labels ∨ c.amount = 0 → e.Sums (calls ++ [c]) := by
      intro e he hnone
      apply (h.sums e he).other
      rintro ⟨hpos, hlabel⟩
      rcases hnone with hnew | hzero
      · exact hnew (List.mem_map.2 ⟨e, he, hlabel.symm⟩)
      · omega
    cases hadded with
    | nothing hzero => exact fun e he => hother e he (.inr hzero)
    | turnedAway hpos hnew hfull => exact fun e he => hother e he (.inl hnew)
    | known hpos hknown =>
        intro f hf
        obtain ⟨e, he, rfl⟩ := List.mem_map.1 hf
        by_cases hlabel : e.label = c.label
        · rw [if_pos (by simpa using hlabel)]
          exact (h.sums e he).add hpos hlabel.symm
        · rw [if_neg (by simpa using hlabel)]
          exact (h.sums e he).other fun hcounted => hlabel hcounted.2.symm
    | taken hpos hnew hroom =>
        have hroom' : (firstLabels limit (countedLabels calls)).length ≠ limit := by
          rw [hlength, ← h.limit_eq]
          exact Nat.ne_of_lt hroom
        have hfirst : c.label ∉ countedLabels calls := fun hmem =>
          hroom' (length_firstLabels_of_not_mem hmem (h.labels_eq ▸ hnew))
        intro e he
        rcases List.mem_append.1 he with hold | hlast
        · exact hother e hold (.inl hnew)
        · rw [List.mem_singleton.1 hlast]
          exact .first hpos hfirst t.nextSequence

theorem afterCalls (limit : Nat) (calls : List Call) :
    ((empty limit).afterCalls calls).Totals limit calls := by
  induction calls using List.reverseRecOn with
  | nil => exact totals_empty limit
  | append_singleton rest c ih =>
      rw [afterCalls_concat]
      exact ih.call c

end Totals

/-! ## The order in which labels were taken -/

/-- The labels of the calls that were taken, in the order of the calls. -/
def takenLabels (t : Tally) : List Call → List String
  | [] => []
  | c :: rest =>
      if (t.call c).1 then c.label :: takenLabels (t.call c).2 rest
      else takenLabels (t.call c).2 rest

theorem takenLabels_concat (t : Tally) (calls : List Call) (c : Call) :
    t.takenLabels (calls ++ [c]) =
      if ((t.afterCalls calls).call c).1 then t.takenLabels calls ++ [c.label]
      else t.takenLabels calls := by
  induction calls generalizing t with
  | nil => rfl
  | cons d rest ih =>
      have hafter : t.afterCalls (d :: rest) = (t.call d).2.afterCalls rest := rfl
      rw [List.cons_append, takenLabels, takenLabels, ih, hafter]
      split
      · split
        · rfl
        · rfl
      · rfl

/-- A label stands where it was taken for the first time. -/
theorem labels_afterCalls (limit : Nat) (calls : List Call) :
    ((empty limit).afterCalls calls).labels = ((empty limit).takenLabels calls).eraseDups := by
  induction calls using List.reverseRecOn with
  | nil =>
      rw [takenLabels, List.eraseDups_nil]
      rfl
  | append_singleton rest c ih =>
      have hmem : ∀ label, label ∈ ((empty limit).afterCalls rest).labels ↔
          label ∈ (empty limit).takenLabels rest := by
        intro label
        rw [ih, List.mem_eraseDups]
      rw [afterCalls_concat, takenLabels_concat]
      have hadded := added_call ((empty limit).afterCalls rest) c
      generalize ((empty limit).afterCalls rest).call c = outcome at hadded ⊢
      cases hadded with
      | nothing | turnedAway => exact ih
      | known hpos hknown =>
          rw [if_pos rfl, eraseDups_concat, if_pos ((hmem c.label).1 hknown), labels_bump, ih]
      | taken hpos hnew hroom =>
          rw [if_pos rfl, eraseDups_concat, if_neg fun h => hnew ((hmem c.label).2 h),
            labels_insert, ih]

theorem idxOf_labels_afterCalls (limit : Nat) (calls : List Call) :
    ((empty limit).afterCalls calls).labels.Pairwise fun a b =>
      ((empty limit).takenLabels calls).idxOf a < ((empty limit).takenLabels calls).idxOf b := by
  rw [labels_afterCalls]
  exact idxOf_eraseDups _

/-! ## What a tally shows -/

/--
What a tally shows of some calls on an empty one: the labels that came first of those that were
counted, with the times, the sums that are words, and numbers that tell which of them was taken
first.  Nothing that a call refuses leaves a trace.
-/
structure Tells (t : Tally) (limit : Nat) (calls : List Call) : Prop where
  labels_eq : t.labels = firstLabels limit (countedLabels calls)
  size_le : t.size ≤ limit
  count?_eq : ∀ label, amountOf label calls < Number.wordBound → t.count? label =
    if label ∈ firstLabels limit (countedLabels calls) then some (amountOf label calls) else none
  count_pos : ∀ label n, amountOf label calls < Number.wordBound → t.count? label = some n → 1 ≤ n
  seen?_eq : ∀ label ∈ firstLabels limit (countedLabels calls), ∃ first last,
    t.seen? label = some (first, last) ∧ (countedTimes label calls).head? = some first ∧
      IsLast Timestamp.before (countedTimes label calls) last
  seen?_none : ∀ label ∉ firstLabels limit (countedLabels calls), t.seen? label = none
  numbers : ∀ e ∈ t.entries, ∀ f ∈ t.entries, e.label ≠ f.label →
    e.sequence ≠ f.sequence ∧ (e.sequence < f.sequence ↔
      ((empty limit).takenLabels calls).idxOf e.label <
        ((empty limit).takenLabels calls).idxOf f.label)
  taken_iff : ∀ c, (t.call c).1 = true ↔ 0 < c.amount ∧ c.label ∈ (t.call c).2.labels
  refused : ∀ c, (t.call c).1 = false → (t.call c).2 = t

namespace Totals

theorem count?_eq (h : t.Totals limit calls) {label : String}
    (hword : amountOf label calls < Number.wordBound) :
    t.count? label =
      if label ∈ firstLabels limit (countedLabels calls) then some (amountOf label calls)
      else none := by
  rw [← h.labels_eq, count?]
  by_cases hmem : label ∈ t.labels
  · obtain ⟨e, he, rfl, hfind⟩ := find?_of_mem_labels hmem
    rw [if_pos hmem, hfind, Option.map_some, (h.sums e he).count hword]
  · rw [if_neg hmem, find?_of_not_mem_labels hmem, Option.map_none]

theorem seen?_eq (h : t.Totals limit calls) {label : String}
    (hmem : label ∈ firstLabels limit (countedLabels calls)) :
    ∃ first last, t.seen? label = some (first, last) ∧
      (countedTimes label calls).head? = some first ∧
      IsLast Timestamp.before (countedTimes label calls) last := by
  obtain ⟨e, he, rfl, hfind⟩ := find?_of_mem_labels (h.labels_eq ▸ hmem)
  have hspan := (h.sums e he).span
  refine ⟨e.firstSeen, e.lastSeen, ?_, hspan.head?_eq, hspan.isLast⟩
  rw [seen?, hfind, Option.map_some]

theorem seen?_none (h : t.Totals limit calls) {label : String}
    (hmem : label ∉ firstLabels limit (countedLabels calls)) : t.seen? label = none := by
  rw [seen?, find?_of_not_mem_labels (h.labels_eq ▸ hmem), Option.map_none]

end Totals

theorem tells_afterCalls (limit : Nat) (calls : List Call) :
    ((empty limit).afterCalls calls).Tells limit calls := by
  have htotals := Totals.afterCalls limit calls
  have hordered := idxOf_labels_afterCalls limit calls
  constructor
  case labels_eq => exact htotals.labels_eq
  case size_le =>
    rw [← length_labels, htotals.labels_eq, length_firstLabels]
    exact Nat.min_le_left _ _
  case count?_eq => exact fun label hword => htotals.count?_eq hword
  case count_pos =>
    intro label n hword hcount
    rw [htotals.count?_eq hword] at hcount
    split at hcount
    · next hmem =>
        cases hcount
        exact Nat.pos_of_ne_zero fun hzero =>
          amountOf_eq_zero_iff.1 hzero (mem_of_mem_firstLabels hmem)
    · cases hcount
  case seen?_eq => exact fun label hmem => htotals.seen?_eq hmem
  case seen?_none => exact fun label hmem => htotals.seen?_none hmem
  case numbers =>
    intro e he f hf hlabel
    have hne : e ≠ f := fun heq => hlabel (congrArg Entry.label heq)
    exact htotals.numbered.sequence_lt_iff hordered he hf hne
  case taken_iff => exact call_fst_eq_true_iff _
  case refused => exact fun c => call_snd_of_fst_eq_false

end Tally

end Tarpit.Traffic

import Mathlib.Order.Monotone.Basic
import Tarpit.Proofs.Number.Order
import Tarpit.Proofs.Time.Rfc3339

/-!
# The order of stored times

The tables compare times by their texts.  Inside a year that is the order of the
instants: fields of a fixed width compare as numbers, the fraction as its digits,
and the offset at the end comes before a point and every digit.  Years compare by
their own texts, which for years of four digits is their order as well.
-/

namespace Tarpit.Time

open Tarpit.Number (padded)

/-! ## Dates -/

theorem dayNumber_eq (d : Date) :
    d.dayNumber =
      let year := if d.month ≤ 2 then d.year - 1 else d.year
      365 * year + (year / 4 - year / 100 + year / 400) +
        daysBeforeMonth (if d.month ≤ 2 then (d.month : Int) + 9 else (d.month : Int) - 3) +
        d.day - 719469 := by
  unfold Date.dayNumber daysBeforeYear
  simp only
  generalize (if d.month ≤ 2 then d.year - 1 else d.year) = year
  omega

/-- The leap days up to a year are one more than up to the year before just if it is a leap year. -/
theorem daysInMonth_february (year : Int) :
    (daysInMonth year 2 : Int) =
      28 + (year / 4 - year / 100 + year / 400) -
        ((year - 1) / 4 - (year - 1) / 100 + (year - 1) / 400) := by
  by_cases hleap : isLeap year = true
  · have hyear := hleap
    simp only [isLeap, Bool.and_eq_true, Bool.or_eq_true, bne_iff_ne, ne_eq, beq_iff_eq] at hyear
    simp only [daysInMonth, hleap, if_true]
    omega
  · have hyear := hleap
    simp only [isLeap, Bool.and_eq_true, Bool.or_eq_true, bne_iff_ne, ne_eq, beq_iff_eq] at hyear
    simp only [daysInMonth, hleap, if_true, Bool.false_eq_true, if_false]
    omega

/-- The first day of a month, the months being counted on from the January of year 0. -/
def monthStart (month : Int) : Int :=
  (Date.mk (month / 12) ((month % 12).toNat + 1) 1).dayNumber

theorem monthStart_succ (month : Int) :
    monthStart (month + 1) =
      monthStart month + daysInMonth (month / 12) ((month % 12).toNat + 1) := by
  obtain ⟨year, k, hk, rfl⟩ : ∃ year k : Int, (0 ≤ k ∧ k < 12) ∧ month = 12 * year + k :=
    ⟨month / 12, month % 12, by omega, by omega⟩
  have hyear : (12 * year + k) / 12 = year := by omega
  have hmonth : (12 * year + k) % 12 = k := by omega
  have hfebruary := daysInMonth_february year
  unfold monthStart
  rw [hyear, hmonth]
  by_cases hlast : k = 11
  · subst hlast
    have hyear' : (12 * year + 11 + 1) / 12 = year + 1 := by omega
    have hmonth' : (12 * year + 11 + 1) % 12 = 0 := by omega
    rw [hyear', hmonth', dayNumber_eq, dayNumber_eq]
    simp [daysInMonth, daysBeforeMonth]
    omega
  · have hyear' : (12 * year + k + 1) / 12 = year := by omega
    have hmonth' : (12 * year + k + 1) % 12 = k + 1 := by omega
    have hcases : k = 1 ∨ k = 0 ∨ k = 2 ∨ k = 3 ∨ k = 4 ∨ k = 5 ∨ k = 6 ∨ k = 7 ∨ k = 8 ∨ k = 9 ∨
        k = 10 := by
      omega
    rw [hyear', hmonth', dayNumber_eq, dayNumber_eq]
    -- February stands first: of these months only its length depends on the year.
    rcases hcases with rfl | rfl | rfl | rfl | rfl | rfl | rfl | rfl | rfl | rfl | rfl
    · simp [daysBeforeMonth]
      omega
    all_goals simp [daysInMonth, daysBeforeMonth]
    all_goals omega

theorem monthStart_le {month later : Int} (h : month ≤ later) :
    monthStart month ≤ monthStart later := by
  refine monotone_int_of_le_succ (fun n => ?_) h
  rw [monthStart_succ]
  omega

theorem dayNumber_eq_monthStart {d : Date} (h : d.isValid = true) :
    d.dayNumber = monthStart (12 * d.year + d.month - 1) + d.day - 1 := by
  simp only [Date.isValid, Bool.and_eq_true, decide_eq_true_eq] at h
  have hyear : (12 * d.year + d.month - 1) / 12 = d.year := by omega
  have hmonth : ((12 * d.year + d.month - 1) % 12).toNat + 1 = d.month := by omega
  rw [monthStart, hyear, hmonth, dayNumber_eq, dayNumber_eq]
  simp only
  omega

theorem date_lt_of_dayNumber_lt {d e : Date} (hd : d.isValid = true) (he : e.isValid = true)
    (h : d.dayNumber < e.dayNumber) :
    d.year < e.year ∨ d.year = e.year ∧
      (d.month < e.month ∨ d.month = e.month ∧ d.day < e.day) := by
  rw [dayNumber_eq_monthStart hd, dayNumber_eq_monthStart he] at h
  simp only [Date.isValid, Bool.and_eq_true, decide_eq_true_eq] at hd he
  have hyear : (12 * e.year + e.month - 1) / 12 = e.year := by omega
  have hmonth : ((12 * e.year + e.month - 1) % 12).toNat + 1 = e.month := by omega
  have hnext := monthStart_succ (12 * e.year + e.month - 1)
  rw [hyear, hmonth] at hnext
  rcases lt_trichotomy (12 * d.year + d.month) (12 * e.year + (e.month : Int)) with hlt | heq | hgt
  · omega
  · rw [heq] at h
    omega
  · -- The earlier month ends before the later one starts.
    have hlater : 12 * e.year + e.month - 1 + 1 ≤ 12 * d.year + d.month - 1 := by omega
    have hle := monthStart_le hlater
    omega

/-- Two digits and a mark compare by the digits, and where they are the same by what follows. -/
theorem pair_append_lt {m n : Nat} {c : Char} {r s : List Char} (hm : m < 100) (hn : n < 100)
    (h : m < n ∨ m = n ∧ r < s) : padded 2 m ++ c :: r < padded 2 n ++ c :: s :=
  Number.padded_append_lt (by decide) hm hn
    (h.imp_right (And.imp_right fun hrest => List.cons_lt_cons_iff.2 (.inr ⟨rfl, hrest⟩)))

/-! ## Years -/

theorem yearText_ne_nil (year : Int) : yearText year ≠ [] := by
  unfold yearText
  split
  · exact Number.padded_ne_nil 4 _
  · exact List.cons_ne_nil _ _

/-- Only at the front of a year may there be something else than a digit. -/
theorem isDigit_of_mem_tail_yearText {year : Int} {c : Char} (h : c ∈ (yearText year).tail) :
    Number.isDigit c = true := by
  unfold yearText at h
  split at h
  · exact Number.isDigit_of_mem_padded (List.mem_of_mem_tail h)
  · exact Number.isDigit_of_mem_padded h

theorem yearText_injective {year other : Int} (h : yearText year = yearText other) :
    year = other := by
  have hread := year?_yearText year (noDigitFirst_cons (c := '-') (by decide) [])
  rw [h, year?_yearText other (noDigitFirst_cons (by decide) [])] at hread
  simpa using hread.symm

/-- A mark comes before every digit, so a text that ends first stays the first one with it. -/
theorem append_mark_lt {xs ys : List Char} (h : xs < ys)
    (hys : ∀ c ∈ ys, Number.isDigit c = true) (r s : List Char) : xs ++ '-' :: r < ys ++ s := by
  induction xs generalizing ys with
  | nil =>
      cases ys with
      | nil => exact absurd h (List.lt_irrefl _)
      | cons y ys =>
          have hy := Number.toNat_of_isDigit (hys y List.mem_cons_self)
          exact List.cons_lt_cons_iff.2 (.inl (Nat.lt_of_lt_of_le (by decide) hy.1))
  | cons x xs ih =>
      cases ys with
      | nil => exact absurd h (List.not_lt_nil _)
      | cons y ys =>
          refine List.cons_lt_cons_iff.2 ((List.cons_lt_cons_iff.1 h).imp_right ?_)
          rintro ⟨rfl, hrest⟩
          exact ⟨rfl, ih hrest fun c hc => hys c (List.mem_cons_of_mem _ hc)⟩

theorem yearText_append_lt {year other : Int} (h : yearText year < yearText other)
    (r s : List Char) : yearText year ++ '-' :: r < yearText other ++ s := by
  have htail : ∀ c ∈ (yearText other).tail, Number.isDigit c = true :=
    fun _ => isDigit_of_mem_tail_yearText
  obtain ⟨x, xs, hx⟩ := List.exists_cons_of_ne_nil (yearText_ne_nil year)
  obtain ⟨y, ys, hy⟩ := List.exists_cons_of_ne_nil (yearText_ne_nil other)
  rw [hy, List.tail_cons] at htail
  rw [hx, hy] at h ⊢
  refine List.cons_lt_cons_iff.2 ((List.cons_lt_cons_iff.1 h).imp_right ?_)
  rintro ⟨rfl, hrest⟩
  exact ⟨rfl, append_mark_lt hrest htail r s⟩

/-- Years of four digits have their texts in order. -/
theorem yearText_lt_of_plain {year other : Int} (hyear : 0 ≤ year ∧ year ≤ 9999)
    (hother : 0 ≤ other ∧ other ≤ 9999) (h : year < other) : yearText year < yearText other := by
  have hplain : ∀ y : Int, 0 ≤ y ∧ y ≤ 9999 → y.toNat < Nat.pow 10 4 := by
    intro y hy
    have hlt : y.toNat < 10000 := by omega
    exact hlt
  unfold yearText
  rw [if_pos hyear, if_pos hother]
  have hpadded := Number.padded_append_lt (r := []) (s := []) (by decide) (hplain _ hyear)
    (hplain _ hother) (.inl (by omega))
  rwa [List.append_nil, List.append_nil] at hpadded

/-- Dates compare by the texts of their years, and inside a year as days. -/
theorem dateText_append_lt {d e : Date} (hd : d.isValid = true) (he : e.isValid = true)
    (h : yearText d.year < yearText e.year ∨ d.year = e.year ∧ d.dayNumber < e.dayNumber)
    (r s : List Char) : dateText d ++ r < dateText e ++ s := by
  unfold dateText
  simp only [List.append_assoc, List.cons_append]
  rcases h with hyear | ⟨hyear, hday⟩
  · exact yearText_append_lt hyear _ _
  · have hddays := daysInMonth_le d.year d.month
    have hedays := daysInMonth_le e.year e.month
    have hlex := date_lt_of_dayNumber_lt hd he hday
    simp only [Date.isValid, Bool.and_eq_true, decide_eq_true_eq] at hd he
    have hmonth : d.month < e.month ∨ d.month = e.month ∧ d.day < e.day := by omega
    rw [hyear]
    refine List.append_left_lt (List.cons_lt_cons_iff.2 (.inr ⟨rfl, ?_⟩))
    refine pair_append_lt (by omega) (by omega) (hmonth.imp_right (And.imp_right fun hday => ?_))
    exact Number.padded_append_lt (by decide) (show d.day < 100 by omega)
      (show e.day < 100 by omega) (.inl hday)

/-! ## Times of day -/

theorem fractionText_append_lt {m n : Nat} (hm : m < 1000000000) (hn : n < 1000000000)
    (h : m < n) (rest more : List Char) :
    fractionText m ++ '+' :: rest < fractionText n ++ more := by
  rcases fractionText_cases hn with ⟨rfl, _⟩ | ⟨wide, b, hwide, hnine, hb, hnb, hntext⟩
  · exact absurd h (Nat.not_lt_zero m)
  rw [hntext, List.cons_append]
  rcases fractionText_cases hm with ⟨_, hmtext⟩ | ⟨width, a, hwidth, hnine', ha, hma, hmtext⟩
  · -- Without a fraction the sign of the offset stands where the other text has a point.
    rw [hmtext, List.nil_append]
    exact List.cons_lt_cons_iff.2 (.inl (by decide))
  · rw [hmtext, List.cons_append]
    refine List.cons_lt_cons_iff.2 (.inr ⟨rfl, ?_⟩)
    apply Number.append_lt_append_of_scaled_lt 9
      (fun _ => Number.isDigit_of_mem_padded) (fun _ => Number.isDigit_of_mem_padded)
    · rw [Number.length_padded hwidth ha]
      exact hnine'
    · rw [Number.length_padded hwide hb]
      exact hnine
    · exact fun _ => ⟨'+', rest, rfl, by decide⟩
    · rw [Number.scaled_padded hwidth ha, Number.scaled_padded hwide hb]
      exact hma ▸ hnb ▸ h

/-- A leap second is the last one of its minute, so it comes after the others of the minute. -/
theorem timeText_append_lt {s t m n : Nat} (hs : s < 86400) (ht : t < 86400)
    (hm : m < 1000000000 ∨ m < 2000000000 ∧ s % 60 = 59) (hn : n < 2000000000)
    (h : s < t ∨ s = t ∧ m < n) (rest more : List Char) :
    timeText s m ++ '+' :: rest < timeText t n ++ more := by
  have hlex : s / 3600 < t / 3600 ∨ s / 3600 = t / 3600 ∧
      (s / 60 % 60 < t / 60 % 60 ∨ s / 60 % 60 = t / 60 % 60 ∧
        (s % 60 + m / 1000000000 < t % 60 + n / 1000000000 ∨
          s % 60 + m / 1000000000 = t % 60 + n / 1000000000 ∧
            m % 1000000000 < n % 1000000000)) := by
    omega
  have hssecond : s % 60 + m / 1000000000 < 100 := by omega
  have htsecond : t % 60 + n / 1000000000 < 100 := by omega
  unfold timeText Timestamp.nanosPerSecond
  simp only [List.append_assoc, List.cons_append]
  refine pair_append_lt (by omega) (by omega) (hlex.imp_right (And.imp_right fun hminute => ?_))
  refine pair_append_lt (by omega) (by omega) (hminute.imp_right (And.imp_right fun hsecond => ?_))
  refine Number.padded_append_lt (by decide) hssecond htsecond
    (hsecond.imp_right (And.imp_right fun hfraction => ?_))
  exact fractionText_append_lt (Nat.mod_lt _ (by decide)) (Nat.mod_lt _ (by decide)) hfraction _ _

/-! ## Instants -/

namespace Timestamp

/-- The year of the instant is written with four digits and no sign. -/
def HasPlainYear (t : Timestamp) : Prop :=
  0 ≤ (dateOfDay t.day).year ∧ (dateOfDay t.day).year ≤ 9999

instance (t : Timestamp) : Decidable t.HasPlainYear := by
  unfold HasPlainYear
  infer_instance

variable {t u : Timestamp}

theorem day_lt_of_before (h : t.before u = true) :
    t.day < u.day ∨ t.day = u.day ∧
      (t.secondOfDay < u.secondOfDay ∨ t.secondOfDay = u.secondOfDay ∧ t.nanos < u.nanos) := by
  simp only [before, Bool.or_eq_true, decide_eq_true_eq, Bool.and_eq_true, beq_iff_eq] at h
  unfold day secondOfDay secondsPerDay
  omega

theorem Representable.nanos_lt (h : t.Representable) :
    t.nanos < 1000000000 ∨ t.nanos < 2000000000 ∧ t.secondOfDay % 60 = 59 := by
  have hnanos := h.2
  unfold secondOfDay secondsPerDay
  unfold nanosPerSecond at hnanos
  omega

theorem before_trichotomy (t u : Timestamp) : t.before u = true ∨ t = u ∨ u.before t = true := by
  simp only [before, Bool.or_eq_true, decide_eq_true_eq, Bool.and_eq_true, beq_iff_eq]
  rcases Int.lt_trichotomy t.seconds u.seconds with h | h | h
  · exact .inl (.inl h)
  · rcases Nat.lt_trichotomy t.nanos u.nanos with h' | h' | h'
    · exact .inl (.inr ⟨h, h'⟩)
    · obtain ⟨seconds, nanos⟩ := t
      obtain ⟨seconds', nanos'⟩ := u
      simp only at h h'
      subst h h'
      exact .inr (.inl rfl)
    · exact .inr (.inr (.inr ⟨h.symm, h'⟩))
  · exact .inr (.inr (.inl h))

/-! ## Stored times -/

def year (t : Timestamp) : Int :=
  (dateOfDay t.day).year

theorem year_le_of_before (h : t.before u = true) : t.year ≤ u.year := by
  rcases day_lt_of_before h with hday | ⟨hday, -⟩
  · rw [← dayNumber_dateOfDay t.day, ← dayNumber_dateOfDay u.day] at hday
    have hdate := date_lt_of_dayNumber_lt (isValid_dateOfDay t.day) (isValid_dateOfDay u.day) hday
    unfold year
    omega
  · exact Int.le_of_eq (congrArg (fun day => (dateOfDay day).year) hday)

/-- The order of the written times: that of the texts of the years, and inside a year that of time. -/
def writtenBefore (t u : Timestamp) : Bool :=
  decide (yearText t.year < yearText u.year) || (t.year == u.year && t.before u)

theorem writtenBefore_iff :
    t.writtenBefore u = true ↔
      yearText t.year < yearText u.year ∨ t.year = u.year ∧ t.before u = true := by
  simp [writtenBefore]

theorem writtenBefore_trichotomy (t u : Timestamp) :
    t.writtenBefore u = true ∨ t = u ∨ u.writtenBefore t = true := by
  rw [writtenBefore_iff, writtenBefore_iff]
  rcases Std.lt_trichotomy (yearText t.year) (yearText u.year) with h | h | h
  · exact .inl (.inl h)
  · have hyear := yearText_injective h
    rcases before_trichotomy t u with h' | h' | h'
    · exact .inl (.inr ⟨hyear, h'⟩)
    · exact .inr (.inl h')
    · exact .inr (.inr (.inr ⟨hyear.symm, h'⟩))
  · exact .inr (.inr (.inl h))

theorem writtenBefore_irrefl (t : Timestamp) : t.writtenBefore t = false := by
  rw [Bool.eq_false_iff, ne_eq, writtenBefore_iff]
  rintro (hyear | ⟨-, hbefore⟩)
  · exact List.lt_irrefl _ hyear
  · rw [before_irrefl] at hbefore
    cases hbefore

theorem writtenBefore_trans {s t u : Timestamp} (hst : s.writtenBefore t = true)
    (htu : t.writtenBefore u = true) : s.writtenBefore u = true := by
  rw [writtenBefore_iff] at *
  rcases hst with hst | ⟨hyear, hst⟩
  · rcases htu with htu | ⟨hyear', -⟩
    · exact .inl (List.lt_trans hst htu)
    · exact .inl (hyear' ▸ hst)
  · rcases htu with htu | ⟨hyear', htu⟩
    · exact .inl (hyear ▸ htu)
    · exact .inr ⟨hyear.trans hyear', before_trans hst htu⟩

theorem stored_lt (ht : t.Representable) (hu : u.Representable) (h : t.writtenBefore u = true) :
    t.stored < u.stored := by
  have hunanos := hu.nanos_lt
  have hdate := dateText_append_lt (isValid_dateOfDay t.day) (isValid_dateOfDay u.day)
  unfold stored
  simp only [List.append_assoc]
  rcases writtenBefore_iff.1 h with hyear | ⟨hyear, hbefore⟩
  · exact hdate (.inl hyear) _ _
  · rcases day_lt_of_before hbefore with hday | ⟨hday, htime⟩
    · rw [← dayNumber_dateOfDay t.day, ← dayNumber_dateOfDay u.day] at hday
      exact hdate (.inr ⟨hyear, hday⟩) _ _
    · rw [hday]
      refine List.append_left_lt (List.cons_lt_cons_iff.2 (.inr ⟨rfl, ?_⟩))
      exact timeText_append_lt (secondOfDay_lt t) (secondOfDay_lt u) ht.nanos_lt (by omega) htime
        _ _

theorem stored_lt_iff_writtenBefore (ht : t.Representable) (hu : u.Representable) :
    t.stored < u.stored ↔ t.writtenBefore u = true := by
  refine ⟨fun hlt => ?_, stored_lt ht hu⟩
  rcases writtenBefore_trichotomy t u with h | rfl | h
  · exact h
  · exact absurd hlt (List.lt_irrefl _)
  · exact absurd (List.lt_trans hlt (stored_lt hu ht h)) (List.lt_irrefl _)

/-- In years of four digits the written times are in the order of time. -/
theorem writtenBefore_eq_before (ht : t.HasPlainYear) (hu : u.HasPlainYear) :
    t.writtenBefore u = t.before u := by
  have hwritten : ∀ {t u : Timestamp}, t.HasPlainYear → u.HasPlainYear → t.before u = true →
      t.writtenBefore u = true := by
    intro t u ht hu hbefore
    rw [writtenBefore_iff]
    rcases Int.lt_or_eq_of_le (year_le_of_before hbefore) with hlt | heq
    · exact .inl (yearText_lt_of_plain ht hu hlt)
    · exact .inr ⟨heq, hbefore⟩
  rw [Bool.eq_iff_iff]
  refine ⟨fun h => ?_, hwritten ht hu⟩
  rcases before_trichotomy t u with hbefore | rfl | hbefore
  · exact hbefore
  · exact absurd h (by rw [writtenBefore_irrefl]; exact Bool.false_ne_true)
  · have hself := writtenBefore_trans h (hwritten hu ht hbefore)
    rw [writtenBefore_irrefl] at hself
    cases hself

/-- The stored texts compare as the instants do. -/
theorem stored_lt_iff (ht : t.Representable) (hu : u.Representable) (htyear : t.HasPlainYear)
    (huyear : u.HasPlainYear) : t.stored < u.stored ↔ t.before u = true := by
  rw [stored_lt_iff_writtenBefore ht hu, writtenBefore_eq_before htyear huyear]

end Timestamp

end Tarpit.Time

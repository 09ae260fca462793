import Tarpit.Proofs.Number.Padded
import Tarpit.Proofs.Time.Calendar
import Tarpit.Time.Rfc3339

/-!
# Reading the texts of timestamps

The text of every timestamp is read back as the timestamp, as is the text that
the tables keep.
-/

namespace Tarpit.Time

open Tarpit.Number (padded isDigit value isBlank_of_isDigit)
open Tarpit.Text (trimStart isBlank)

/-! ## Digits -/

def NoDigitFirst (s : List Char) : Prop :=
  ∀ c rest, s = c :: rest → isDigit c = false

theorem noDigitFirst_cons {c : Char} (h : isDigit c = false) (rest : List Char) :
    NoDigitFirst (c :: rest) := by
  intro d more heq
  cases heq
  exact h

theorem trimStart_cons {c : Char} (h : isBlank c = false) (rest : List Char) :
    trimStart (c :: rest) = c :: rest := by
  rw [trimStart, List.dropWhile_cons, h]
  rfl

theorem takeWhile_digits {ds rest : List Char} (hds : ∀ c ∈ ds, isDigit c = true)
    (hrest : NoDigitFirst rest) : (ds ++ rest).takeWhile isDigit = ds := by
  rw [List.takeWhile_append_of_pos hds]
  cases rest with
  | nil => rw [List.takeWhile_nil, List.append_nil]
  | cons c more => rw [List.takeWhile_cons, hrest c more rfl, if_neg Bool.false_ne_true,
      List.append_nil]

theorem dropWhile_digits {ds rest : List Char} (hds : ∀ c ∈ ds, isDigit c = true)
    (hrest : NoDigitFirst rest) : (ds ++ rest).dropWhile isDigit = rest := by
  rw [List.dropWhile_append_of_pos hds]
  cases rest with
  | nil => rfl
  | cons c more => rw [List.dropWhile_cons, hrest c more rfl, if_neg Bool.false_ne_true]

/-- Digits are read as their number if there are not too many and no digit follows. -/
theorem number?_append {most : Nat} {ds rest : List Char} (hne : ds ≠ [])
    (hds : ∀ c ∈ ds, isDigit c = true) (hlength : ds.length ≤ most) (hrest : NoDigitFirst rest) :
    number? most (ds ++ rest) = some (value ds, rest) := by
  have htake : ((ds ++ rest).take most).takeWhile isDigit = ds := by
    rw [List.take_append, List.take_of_length_le hlength]
    apply takeWhile_digits hds
    intro c more heq
    cases rest with
    | nil => simp at heq
    | cons d others =>
        cases hleft : most - ds.length with
        | zero => simp [hleft] at heq
        | succ n =>
            rw [hleft, List.take_succ_cons] at heq
            cases heq
            exact hrest c others rfl
  have hempty : ds.isEmpty = false := by simpa using hne
  unfold number?
  simp only [htake, hempty, Bool.false_eq_true, if_false, List.drop_left]

theorem number?_padded {most width n : Nat} (hwidth : 0 < width) (hn : n < Nat.pow 10 width)
    (hmost : width ≤ most) {rest : List Char} (hrest : NoDigitFirst rest) :
    number? most (padded width n ++ rest) = some (n, rest) := by
  have hlength := Number.length_padded hwidth hn
  rw [number?_append (Number.padded_ne_nil width n) (fun _ => Number.isDigit_of_mem_padded)
    (by omega) hrest, Number.value_padded]

theorem trimStart_padded (width n : Nat) (rest : List Char) :
    trimStart (padded width n ++ rest) = padded width n ++ rest := by
  obtain ⟨c, more, hpadded⟩ := List.exists_cons_of_ne_nil (Number.padded_ne_nil width n)
  have hdigit : isDigit c = true :=
    Number.isDigit_of_mem_padded (by rw [hpadded]; exact List.mem_cons_self)
  rw [hpadded, List.cons_append]
  exact trimStart_cons (isBlank_of_isDigit hdigit) _

/-! ## Fields -/

theorem field?_padded {n : Nat} (hn : n < 100) {rest : List Char} (hrest : NoDigitFirst rest) :
    field? (padded 2 n ++ rest) = some (n, rest) := by
  rw [field?, trimStart_padded]
  exact number?_padded (by omega) hn (Nat.le_refl 2) hrest

theorem mark?_cons {c : Char} (h : isBlank c = false) (rest : List Char) :
    mark? c (c :: rest) = some rest := by
  unfold mark?
  rw [trimStart_cons h]
  exact if_pos rfl

theorem year?_yearText (year : Int) {rest : List Char} (hrest : NoDigitFirst rest) :
    year? (yearText year ++ rest) = some (year, rest) := by
  unfold yearText
  by_cases hplain : 0 ≤ year ∧ year ≤ 9999
  · rw [if_pos hplain]
    obtain ⟨c, more, hpadded⟩ := List.exists_cons_of_ne_nil (Number.padded_ne_nil 4 year.toNat)
    have hdigit : isDigit c = true :=
      Number.isDigit_of_mem_padded (by rw [hpadded]; exact List.mem_cons_self)
    have hlt : year.toNat < 10000 := by omega
    have hnumber : number? 4 (padded 4 year.toNat ++ rest) = some (year.toNat, rest) :=
      number?_padded (by omega) hlt (Nat.le_refl 4) hrest
    have hcast : ((year.toNat : Nat) : Int) = year := by omega
    have hminus : c ≠ '-' := by
      rintro rfl
      cases hdigit
    have hplus : c ≠ '+' := by
      rintro rfl
      cases hdigit
    unfold year?
    rw [trimStart_padded]
    rw [hpadded, List.cons_append] at hnumber ⊢
    split
    · next heq => exact absurd (List.cons.inj heq).1 hminus
    · next heq => exact absurd (List.cons.inj heq).1 hplus
    · simp only [hnumber, Option.map_some, hcast]
  · rw [if_neg hplain, List.cons_append]
    have hnumber : number? (padded 4 year.natAbs ++ rest).length (padded 4 year.natAbs ++ rest) =
        some (value (padded 4 year.natAbs), rest) :=
      number?_append (Number.padded_ne_nil _ _) (fun _ => Number.isDigit_of_mem_padded)
        (by simp) hrest
    rw [Number.value_padded] at hnumber
    unfold year?
    by_cases hnegative : year < 0
    · rw [if_pos hnegative, trimStart_cons (by decide)]
      simp only [hnumber, Option.map_some]
      congr 2
      omega
    · rw [if_neg hnegative, trimStart_cons (by decide)]
      simp only [hnumber, Option.map_some]
      congr 2
      omega

/-! ## The fraction of a second -/

theorem fraction?_digits {ds rest : List Char} (hne : ds ≠ [])
    (hds : ∀ c ∈ ds, isDigit c = true) (hrest : NoDigitFirst rest) :
    fraction? ('.' :: ds ++ rest) = some (fractionNanos ds, rest) := by
  have hempty : ds.isEmpty = false := by simpa using hne
  simp only [fraction?, List.cons_append, takeWhile_digits hds hrest, hempty, Bool.false_eq_true,
    if_false, dropWhile_digits hds hrest]

theorem fractionNanos_padded {width n : Nat} (hwidth : 0 < width) (hnine : width ≤ 9)
    (hn : n < Nat.pow 10 width) : fractionNanos (padded width n) = n * Nat.pow 10 (9 - width) := by
  have hlength := Number.length_padded hwidth hn
  unfold fractionNanos
  simp only
  rw [List.take_of_length_le (by omega), Number.value_padded, hlength]

/-- A fraction is left out where it is zero, and else stands in a width that is exact. -/
theorem fractionText_cases {nanos : Nat} (h : nanos < 1000000000) :
    (nanos = 0 ∧ fractionText nanos = []) ∨
      ∃ width n, 0 < width ∧ width ≤ 9 ∧ n < Nat.pow 10 width ∧
        nanos = n * Nat.pow 10 (9 - width) ∧ fractionText nanos = '.' :: padded width n := by
  unfold fractionText
  by_cases hnone : nanos = 0
  · exact .inl ⟨hnone, if_pos hnone⟩
  · rw [if_neg hnone]
    right
    by_cases hmilli : nanos % 1000000 = 0
    · have hlt : nanos / 1000000 < 1000 := by omega
      have hnanos : nanos = nanos / 1000000 * 1000000 := by omega
      exact ⟨3, nanos / 1000000, by decide, by decide, hlt, hnanos, if_pos hmilli⟩
    · rw [if_neg hmilli]
      by_cases hmicro : nanos % 1000 = 0
      · have hlt : nanos / 1000 < 1000000 := by omega
        have hnanos : nanos = nanos / 1000 * 1000 := by omega
        exact ⟨6, nanos / 1000, by decide, by decide, hlt, hnanos, if_pos hmicro⟩
      · exact ⟨9, nanos, by decide, by decide, h, (Nat.mul_one nanos).symm, if_neg hmicro⟩

theorem fraction?_fractionText {nanos : Nat} (h : nanos < 1000000000) {rest : List Char}
    (hrest : NoDigitFirst rest) (hpoint : ∀ more, rest ≠ '.' :: more) :
    fraction? (fractionText nanos ++ rest) = some (nanos, rest) := by
  rcases fractionText_cases h with ⟨rfl, htext⟩ | ⟨width, n, hwidth, hnine, hn, hnanos, htext⟩
  · rw [htext, List.nil_append]
    unfold fraction?
    split
    · next more => exact absurd rfl (hpoint more)
    · rfl
  · rw [htext, fraction?_digits (Number.padded_ne_nil width n)
      (fun _ => Number.isDigit_of_mem_padded) hrest, fractionNanos_padded hwidth hnine hn, ← hnanos]

/-! ## Timestamps -/

theorem secondOfDay_lt (t : Timestamp) : t.secondOfDay < 86400 := by
  have hmod : t.seconds % 86400 < 86400 := Int.emod_lt_of_pos _ (by decide)
  unfold Timestamp.secondOfDay Timestamp.secondsPerDay
  omega

/-- The fields that the text of a timestamp spells. -/
def Timestamp.fields (t : Timestamp) : Reading :=
  ⟨dateOfDay t.day, t.secondOfDay / 3600, t.secondOfDay / 60 % 60,
    t.secondOfDay % 60 + t.nanos / Timestamp.nanosPerSecond,
    t.nanos % Timestamp.nanosPerSecond, 0⟩

/-- The numbers of a time of day fit their two digits. -/
theorem Timestamp.Representable.second_le {t : Timestamp} (h : t.Representable) :
    t.secondOfDay % 60 + t.nanos / Timestamp.nanosPerSecond ≤ 60 := by
  have hnanos := h.2
  unfold Timestamp.secondOfDay Timestamp.secondsPerDay Timestamp.nanosPerSecond at *
  omega

theorem noDigitFirst_fractionText (nanos : Nat) {zone : List Char} (hzone : NoDigitFirst zone) :
    NoDigitFirst (fractionText nanos ++ zone) := by
  have hpoint : ∀ rest, NoDigitFirst ('.' :: rest) := noDigitFirst_cons (by decide)
  unfold fractionText
  split
  · exact hzone
  · split
    · exact hpoint _
    · split
      · exact hpoint _
      · exact hpoint _

theorem daysInMonth_le (year : Int) (month : Nat) : daysInMonth year month ≤ 31 := by
  unfold daysInMonth
  split
  · split
    · omega
    · omega
  · split
    · omega
    · omega

/-- The text of a timestamp with some mark before the time of day and some zone at the end. -/
def Timestamp.written (t : Timestamp) (mark : Char) (zone : List Char) : List Char :=
  yearText (dateOfDay t.day).year ++ ('-' ::
    (padded 2 (dateOfDay t.day).month ++ ('-' :: (padded 2 (dateOfDay t.day).day ++ (mark ::
      (padded 2 (t.secondOfDay / 3600) ++ (':' :: (padded 2 (t.secondOfDay / 60 % 60) ++ (':' ::
        (padded 2 (t.secondOfDay % 60 + t.nanos / Timestamp.nanosPerSecond) ++
          (fractionText (t.nanos % Timestamp.nanosPerSecond) ++ zone)))))))))))

theorem Timestamp.text_eq (t : Timestamp) : t.text = t.written 'T' ['Z'] := by
  simp [Timestamp.text, dateText, timeText, Timestamp.written]

theorem Timestamp.stored_eq (t : Timestamp) : t.stored = t.written ' ' "+00:00".toList := by
  simp [Timestamp.stored, dateText, timeText, Timestamp.written]

theorem of?_written {t : Timestamp} (h : t.Representable) {mark : Char} {zone : List Char}
    (hmark : ∀ rest, dateEnd? (mark :: rest) = some rest) (hdigit : isDigit mark = false)
    (hzone : NoDigitFirst zone) (hpoint : ∀ more, zone ≠ '.' :: more)
    (hoffset : offset? (trimStart zone) = some (0, [])) :
    Reading.of? (t.written mark zone) = some t.fields := by
  have hvalid := isValid_dateOfDay t.day
  simp only [Date.isValid, Bool.and_eq_true, decide_eq_true_eq] at hvalid
  have hdays := daysInMonth_le (dateOfDay t.day).year (dateOfDay t.day).month
  have hsecond := h.second_le
  have hday := secondOfDay_lt t
  have hnanos : t.nanos % Timestamp.nanosPerSecond < 1000000000 := Nat.mod_lt _ (by decide)
  have hyear : ∀ rest, year? (yearText (dateOfDay t.day).year ++ '-' :: rest) =
      some ((dateOfDay t.day).year, '-' :: rest) :=
    fun rest => year?_yearText _ (noDigitFirst_cons (by decide) rest)
  have hmonth : ∀ rest, field? (padded 2 (dateOfDay t.day).month ++ '-' :: rest) =
      some ((dateOfDay t.day).month, '-' :: rest) :=
    fun rest => field?_padded (by omega) (noDigitFirst_cons (by decide) rest)
  have hdate : ∀ rest, field? (padded 2 (dateOfDay t.day).day ++ mark :: rest) =
      some ((dateOfDay t.day).day, mark :: rest) :=
    fun rest => field?_padded (by omega) (noDigitFirst_cons hdigit rest)
  have hhour : ∀ rest, field? (padded 2 (t.secondOfDay / 3600) ++ ':' :: rest) =
      some (t.secondOfDay / 3600, ':' :: rest) :=
    fun rest => field?_padded (by omega) (noDigitFirst_cons (by decide) rest)
  have hminute : ∀ rest, field? (padded 2 (t.secondOfDay / 60 % 60) ++ ':' :: rest) =
      some (t.secondOfDay / 60 % 60, ':' :: rest) :=
    fun rest => field?_padded (by omega) (noDigitFirst_cons (by decide) rest)
  have hsecondlt : t.secondOfDay % 60 + t.nanos / Timestamp.nanosPerSecond < 100 := by omega
  have hseconds := field?_padded hsecondlt
    (noDigitFirst_fractionText (t.nanos % Timestamp.nanosPerSecond) hzone)
  have hfraction := fraction?_fractionText hnanos hzone hpoint
  have hdash : ∀ rest, mark? '-' ('-' :: rest) = some rest := mark?_cons (by decide)
  have hcolon : ∀ rest, mark? ':' (':' :: rest) = some rest := mark?_cons (by decide)
  unfold Timestamp.written Reading.of?
  refine Option.bind_eq_some_iff.2 ⟨_, hyear _, ?_⟩
  refine Option.bind_eq_some_iff.2 ⟨_, hdash _, ?_⟩
  refine Option.bind_eq_some_iff.2 ⟨_, hmonth _, ?_⟩
  refine Option.bind_eq_some_iff.2 ⟨_, hdash _, ?_⟩
  refine Option.bind_eq_some_iff.2 ⟨_, hdate _, ?_⟩
  refine Option.bind_eq_some_iff.2 ⟨_, hmark _, ?_⟩
  refine Option.bind_eq_some_iff.2 ⟨_, hhour _, ?_⟩
  refine Option.bind_eq_some_iff.2 ⟨_, hcolon _, ?_⟩
  refine Option.bind_eq_some_iff.2 ⟨_, hminute _, ?_⟩
  refine Option.bind_eq_some_iff.2 ⟨_, hcolon _, ?_⟩
  refine Option.bind_eq_some_iff.2 ⟨_, hseconds, ?_⟩
  refine Option.bind_eq_some_iff.2 ⟨_, hfraction, ?_⟩
  exact Option.bind_eq_some_iff.2 ⟨_, hoffset, rfl⟩

theorem isValid_fields {t : Timestamp} (h : t.Representable) : t.fields.isValid = true := by
  have hsecond := h.second_le
  have hday := secondOfDay_lt t
  have hhour : t.secondOfDay / 3600 < 24 := by omega
  have hminute : t.secondOfDay / 60 % 60 < 60 := by omega
  simp [Reading.isValid, Timestamp.fields, isValid_dateOfDay, h.1, hhour, hminute, hsecond]

/-- The fields of a timestamp stand for the timestamp. -/
theorem instant_fields {t : Timestamp} (h : t.Representable) : t.fields.instant = t := by
  have hnanos := h.2
  have hsplit : t.day * 86400 + (t.secondOfDay : Int) = t.seconds := by
    unfold Timestamp.day Timestamp.secondOfDay Timestamp.secondsPerDay
    omega
  have hminute : (t.secondOfDay : Int) % 60 = t.seconds % 60 := by omega
  have heq : ∀ u : Timestamp, u.seconds = t.seconds → u.nanos = t.nanos → u = t := by
    rintro ⟨seconds, nanos⟩ rfl rfl
    rfl
  unfold Timestamp.nanosPerSecond at hnanos
  unfold Reading.instant Timestamp.fields Timestamp.nanosPerSecond
  simp only [dayNumber_dateOfDay]
  apply heq
  · simp only
    split
    · omega
    · omega
  · simp only
    split
    · omega
    · omega

theorem read?_of_fields {t : Timestamp} (h : t.Representable) {s : List Char}
    (hs : Reading.of? s = some t.fields) : Timestamp.read? s = some t := by
  unfold Timestamp.read?
  simp only [hs, Option.bind_eq_bind, Option.bind_some, instant_fields h, isValid_fields h,
    h.1, Bool.true_and, if_true]

theorem read?_text {t : Timestamp} (h : t.Representable) : Timestamp.read? t.text = some t := by
  rw [t.text_eq]
  exact read?_of_fields h (of?_written h (fun _ => rfl) (by decide)
    (noDigitFirst_cons (by decide) []) (by simp) (by decide))

theorem read?_stored {t : Timestamp} (h : t.Representable) : Timestamp.read? t.stored = some t := by
  rw [t.stored_eq]
  exact read?_of_fields h (of?_written h (fun _ => rfl) (by decide)
    (noDigitFirst_cons (by decide) _) (by simp) (by decide))

end Tarpit.Time

import Tarpit.Traffic.Chart

/-!
# Labels that fit

A label that has no room is cut to the room that there is, and its last
characters there are dots.  Cutting a cut label once more gives what cutting the
label at once gives, so the order in which limits are applied is of no account.
-/

namespace Tarpit.Traffic

/-! ## Characters -/

theorem take_ellipsis (max : Nat) : ellipsis.take max = List.replicate (min 3 max) '.' := by
  rw [show ellipsis = List.replicate 3 '.' from rfl, List.take_replicate, Nat.min_comm]

/-- A label without room ends in dots, three of them if there is room for three. -/
theorem truncateLabel_of_lt {label : List Char} {max : Nat} (h : max < label.length) :
    truncateLabel label max = label.take (max - 3) ++ List.replicate (min 3 max) '.' := by
  have hdots : ellipsis.length = 3 := rfl
  rw [truncateLabel, if_neg (Nat.not_le.2 h), hdots, ← take_ellipsis]
  split
  · next hfew =>
    rw [Nat.sub_eq_zero_of_le hfew, List.take_zero, List.nil_append]
  · next hmany =>
    rw [List.take_of_length_le (l := ellipsis) (Nat.le_of_lt (Nat.not_le.1 hmany))]

/-- Of two limits the lower one decides. -/
theorem truncateLabel_truncateLabel (label : List Char) (m n : Nat) :
    truncateLabel (truncateLabel label m) n = truncateLabel label (min m n) := by
  by_cases hroom : label.length ≤ m
  · -- The first limit leaves the label as it is, so only the second can cut.
    rw [truncateLabel_eq_self hroom]
    by_cases hn : label.length ≤ n
    · rw [truncateLabel_eq_self hn, truncateLabel_eq_self (Nat.le_min.2 ⟨hroom, hn⟩)]
    · rw [Nat.min_eq_right (by omega)]
  · have hm : m < label.length := Nat.not_le.1 hroom
    have hlength : (truncateLabel label m).length = m := by
      rw [length_truncateLabel, Nat.min_eq_right (Nat.le_of_lt hm)]
    by_cases hn : m ≤ n
    · rw [truncateLabel_eq_self (by omega), Nat.min_eq_left hn]
    · -- Both limits cut, and the second keeps none of the dots that the first has put.
      have hless : n < m := Nat.not_le.1 hn
      have hkept : (truncateLabel label m).take (n - 3) = label.take (n - 3) := by
        have hshort : n - 3 ≤ (label.take (m - 3)).length := by
          rw [List.length_take]
          omega
        rw [truncateLabel_of_lt hm, List.take_append_of_le_length hshort, List.take_take,
          Nat.min_eq_left (by omega)]
      have hmin : min m n = n := Nat.min_eq_right (Nat.le_of_lt hless)
      rw [truncateLabel_of_lt (by omega), hkept, hmin, truncateLabel_of_lt (by omega)]

/-! ## Labels -/

@[simp] theorem toList_truncatedLabel (label : String) (max : Nat) :
    (truncatedLabel label max).toList = truncateLabel label.toList max := by
  rw [truncatedLabel, String.toList_ofList]

theorem truncatedLabel_truncatedLabel (label : String) (m n : Nat) :
    truncatedLabel (truncatedLabel label m) n = truncatedLabel label (min m n) := by
  apply String.toList_inj.1
  rw [toList_truncatedLabel, toList_truncatedLabel, toList_truncatedLabel,
    truncateLabel_truncateLabel]

/-- What is shown of a label where there is room for so many characters. -/
structure FitsInto (label shown : String) (room : Nat) : Prop where
  length : shown.length = min label.length room
  whole : label.length ≤ room → shown = label
  dotted : room < label.length →
    shown.toList = label.toList.take (room - 3) ++ List.replicate (min 3 room) '.'

/--
Every label is made to fit, whatever the room, and cutting it to some room first makes no
difference to what fits into less.
-/
theorem truncatedLabel_fitsInto (label : String) (room : Nat) :
    FitsInto label (truncatedLabel label room) room ∧
      ∀ less ≤ room,
        truncatedLabel (truncatedLabel label room) less = truncatedLabel label less := by
  constructor
  · exact
      { length := by
          rw [← String.length_toList, toList_truncatedLabel, length_truncateLabel,
            String.length_toList]
        whole := fun h => by
          apply String.toList_inj.1
          rw [toList_truncatedLabel, truncateLabel_eq_self (by rwa [String.length_toList])]
        dotted := fun h => by
          rw [toList_truncatedLabel, truncateLabel_of_lt (by rwa [String.length_toList])] }
  · intro less hless
    rw [truncatedLabel_truncatedLabel, Nat.min_eq_right hless]

/-- A label of wide characters, cut behind the fourth, and cut again behind the first. -/
theorem truncatedLabel_fitsInto_wide :
    7 < "żółw…bot".length ∧ 4 ≤ 7 ∧
      (truncatedLabel "żółw…bot" 7).toList = "żółw".toList ++ List.replicate 3 '.' ∧
      truncatedLabel (truncatedLabel "żółw…bot" 7) 4 = truncatedLabel "żółw…bot" 4 := by
  have hlong : 7 < "żółw…bot".length := by decide
  obtain ⟨hfits, hagain⟩ := truncatedLabel_fitsInto "żółw…bot" 7
  exact ⟨hlong, by decide, hfits.dotted hlong, hagain 4 (by decide)⟩

end Tarpit.Traffic

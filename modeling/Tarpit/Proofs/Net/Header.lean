import Tarpit.Net.Header
import Tarpit.Proofs.Text.Utf8

/-!
# Fields that are read as texts

A field whose value holds a printable text is read as that text.
-/

namespace Tarpit.Net

/-- A character that may stand in a value that is read as a text. -/
def IsPrintable (c : Char) : Prop :=
  (0x20 ≤ c.toNat ∧ c.toNat ≤ 0x7E) ∨ c = '\t'

instance : DecidablePred IsPrintable := fun _ =>
  inferInstanceAs (Decidable (_ ∨ _))

theorem IsPrintable.ascii {c : Char} (h : IsPrintable c) : c.toNat < 0x80 := by
  rcases h with ⟨-, hhigh⟩ | rfl
  · omega
  · decide

/-- The byte of a printable character is visible. -/
theorem IsPrintable.isVisible {c : Char} (h : IsPrintable c) :
    isVisible c.toNat.toUInt8 = true := by
  have hbyte : c.toNat.toUInt8.toNat = c.toNat :=
    Text.Utf8.toNat_toUInt8 (Nat.lt_trans h.ascii (by decide))
  rcases h with hrange | rfl
  · simp only [Net.isVisible, Bool.or_eq_true, Bool.and_eq_true, decide_eq_true_eq,
      UInt8.le_iff_toNat_le, hbyte]
    exact .inl hrange
  · rfl

theorem text?_of_isPrintable {field : Header} {s : List Char} (h : ∀ c ∈ s, IsPrintable c)
    (hfield : field.value = Text.Utf8.encode s) : field.text? = some (String.ofList s) := by
  have hascii : ∀ c ∈ s, c.toNat < 0x80 := fun c hc => (h c hc).ascii
  have hvisible : ∀ x ∈ Text.Utf8.encode s, isVisible x = true := by
    intro x hx
    obtain ⟨c, hc, hxc⟩ := List.mem_flatMap.1 hx
    rw [Text.Utf8.encodeChar_of_ascii (hascii c hc), List.mem_singleton] at hxc
    rw [hxc]
    exact (h c hc).isVisible
  rw [Header.text?, hfield, if_pos (List.all_eq_true.2 hvisible),
    Text.Utf8.asciiChars_encode hascii]

end Tarpit.Net

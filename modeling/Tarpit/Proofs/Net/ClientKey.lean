import Tarpit.Net.ClientKey
import Tarpit.Traffic.Ledger

/-!
# Widths of client keys

A client key is never longer than the column that the tables have for it.
-/

namespace Tarpit.Net

open Tarpit.Number (digits hexDigits)

theorem length_digits_byte_le (b : UInt8) : (digits b.toNat).length ≤ 3 := by
  have hbyte : b.toNat < 256 := b.toNat_lt
  exact (Nat.length_toDigits_le_iff (by decide) (by decide)).2 (by omega)

theorem length_hexDigits_group_le (g : UInt16) : (hexDigits g.toNat).length ≤ 4 := by
  have hgroup : g.toNat < 65536 := g.toNat_lt
  exact (Nat.length_toDigits_le_iff (by decide) (by decide)).2 (by omega)

theorem Quad.length_chars_le (q : Quad) : q.chars.length ≤ 15 := by
  have hfirst := length_digits_byte_le q.first
  have hsecond := length_digits_byte_le q.second
  have hthird := length_digits_byte_le q.third
  have hfourth := length_digits_byte_le q.fourth
  simp only [Quad.chars, List.length_append, List.length_cons]
  omega

theorem length_joined_le (gs : List UInt16) : (joined gs).length ≤ 5 * gs.length := by
  unfold joined
  induction gs with
  | nil => simp
  | cons g rest ih =>
      have hfirst := length_hexDigits_group_le g
      cases rest with
      | nil =>
          rw [List.map_singleton, List.intercalate_singleton, List.length_singleton]
          omega
      | cons next rest =>
          rw [List.map_cons, List.map_cons] at *
          rw [List.intercalate_cons_cons]
          simp only [List.length_append, List.length_cons, List.length_nil] at *
          omega

theorem Groups.length_chars_le (g : Groups) : g.chars.length ≤ 40 := by
  have hlength := g.length_toList
  unfold Groups.chars
  split
  · next high low _ =>
      have hquad := (Quad.ofGroups high low).length_chars_le
      have hprefix : "::ffff:".toList.length = 7 := by decide
      rw [List.length_append]
      omega
  · simp only
    split
    · have hrun := longestZeros_le g.toList
      have hleft := length_joined_le (g.toList.take (longestZeros g.toList).1)
      have hright := length_joined_le
        (g.toList.drop ((longestZeros g.toList).1 + (longestZeros g.toList).2))
      rw [List.length_take] at hleft
      rw [List.length_drop] at hright
      simp only [List.length_append, List.length_cons]
      omega
    · have hjoined := length_joined_le g.toList
      omega

theorem Address.length_chars_le (a : Address) : a.chars.length ≤ 40 := by
  cases a with
  | v4 q => exact Nat.le_trans q.length_chars_le (by decide)
  | v6 g => exact g.length_chars_le

theorem clamp_clientKey (trusted : Bool) (headers : Headers) (peer : Endpoint) :
    Traffic.clamp Traffic.maxKeyLength (clientKey trusted headers peer) =
      clientKey trusted headers peer := by
  have hlength := (clientAddress trusted headers peer).length_chars_le
  apply Traffic.clamp_eq_self
  rw [clientKey, Address.text, String.toList_ofList]
  exact Nat.le_trans hlength (by decide)

end Tarpit.Net

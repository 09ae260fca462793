import Mathlib.Data.List.Perm.Basic
import Tarpit.Json.Member
import Tarpit.Proofs.Json.Grammar

/-!
# Members in any order

Reading members by name gives the same whatever the order of the members is and
whatever other members there are, since it looks at the values of a name alone.
-/

namespace Tarpit.Json

variable {α : Type} {names : List String} {members others : List (String × Value)} {name : String}

/-- The text spells an object whose members, with the texts of their names, are these. -/
def IsObjectText (s : Bytes) (members : List (String × Value)) : Prop :=
  ∃ content, Spells (Value.object content).tokens s ∧ namedMembers? content = some members

/-- The members of these names are the same in both, in whatever order they stand. -/
def SameMembers (names : List String) (members others : List (String × Value)) : Prop :=
  (members.filter fun m => m.1 ∈ names).Perm (others.filter fun m => m.1 ∈ names)

theorem sameMembers_of_perm (h : members.Perm others) : SameMembers names members others :=
  h.filter _

/-- Members of other names make no difference. -/
theorem sameMembers_append {rest : List (String × Value)} (h : ∀ m ∈ rest, m.1 ∉ names) :
    SameMembers names (members ++ rest) members := by
  have hnone : rest.filter (fun m => m.1 ∈ names) = [] := by
    simpa [List.filter_eq_nil_iff] using h
  rw [SameMembers, List.filter_append, hnone, List.append_nil]

theorem SameMembers.trans {more : List (String × Value)} (h : SameMembers names members others)
    (h' : SameMembers names others more) : SameMembers names members more :=
  List.Perm.trans h h'

/-! ## Values of a name -/

theorem SameMembers.valuesOf (h : SameMembers names members others) (hname : name ∈ names) :
    (valuesOf members name).Perm (valuesOf others name) := by
  have hvalues : ∀ ms : List (String × Value),
      Json.valuesOf ms name = Json.valuesOf (ms.filter fun m => m.1 ∈ names) name := by
    intro ms
    have hboth : ∀ m : String × Value,
        (m.1 == name && decide (m.1 ∈ names)) = (m.1 == name) := by
      intro m
      by_cases hm : m.1 = name
      · simp [hm, hname]
      · simp [hm]
    simp only [Json.valuesOf, List.filter_filter, hboth]
  rw [hvalues members, hvalues others]
  exact (h.filter _).map _

theorem length_valuesOf (members : List (String × Value)) (name : String) :
    (valuesOf members name).length = (members.map Prod.fst).count name := by
  rw [valuesOf, List.length_map, List.count_eq_countP, List.countP_map, List.countP_eq_length_filter]
  rfl

theorem valuesOf_eq_nil (h : name ∉ members.map Prod.fst) : valuesOf members name = [] := by
  rw [← List.length_eq_zero_iff, length_valuesOf]
  exact List.count_eq_zero.2 h

/-- A list in another order is the same list, if it has one element at most. -/
theorem eq_or_two_of_perm {xs ys : List α} (h : xs.Perm ys) :
    xs = ys ∨ (2 ≤ xs.length ∧ 2 ≤ ys.length) := by
  have hlength := h.length_eq
  rcases xs with _ | ⟨x, _ | ⟨x', rest⟩⟩
  · exact .inl (List.nil_perm.1 h).symm
  · exact .inl (List.singleton_perm.1 h)
  · refine .inr ⟨?_, ?_⟩
    · simp
    · simp [← hlength]

/-! ## Reading by name -/

theorem required?_of_length {read : Value → Option α} (h : (valuesOf members name).length ≠ 1) :
    required? members name read = none := by
  unfold required?
  split
  · next hone => exact absurd (congrArg List.length hone) h
  · rfl

theorem optional?_of_two {default : α} {read : Value → Option α}
    (h : 2 ≤ (valuesOf members name).length) : optional? members name default read = none := by
  unfold optional?
  split
  · next hnil => simp [hnil] at h
  · next hone => simp [hone] at h
  · rfl

/-- A member that is read as required stands once. -/
theorem count_of_required? {read : Value → Option α} {a : α}
    (h : required? members name read = some a) : (members.map Prod.fst).count name = 1 := by
  by_contra hcount
  rw [required?_of_length (by rwa [length_valuesOf])] at h
  cases h

theorem count_of_optional? {default a : α} {read : Value → Option α}
    (h : optional? members name default read = some a) :
    (members.map Prod.fst).count name ≤ 1 := by
  by_contra hcount
  rw [optional?_of_two (by rw [length_valuesOf]; omega)] at h
  cases h

/-- A member that is there is what is read. -/
theorem read_of_optional? {default a : α} {read : Value → Option α} {v : Value}
    (h : optional? members name default read = some a) (hv : (name, v) ∈ members) :
    read v = some a := by
  have hmem : v ∈ valuesOf members name :=
    List.mem_map.2 ⟨(name, v), List.mem_filter.2 ⟨hv, beq_self_eq_true name⟩, rfl⟩
  unfold optional? at h
  split at h
  · next hnil =>
    rw [hnil] at hmem
    cases hmem
  · next hone =>
    rw [hone, List.mem_singleton] at hmem
    rwa [hmem]
  · cases h

theorem SameMembers.required? (h : SameMembers names members others) (hname : name ∈ names)
    (read : Value → Option α) : required? members name read = Json.required? others name read := by
  rcases eq_or_two_of_perm (h.valuesOf hname) with heq | ⟨htwo, htwo'⟩
  · rw [Json.required?, Json.required?, heq]
  · rw [required?_of_length (by omega), required?_of_length (by omega)]

theorem SameMembers.optional? (h : SameMembers names members others) (hname : name ∈ names)
    (default : α) (read : Value → Option α) :
    optional? members name default read = Json.optional? others name default read := by
  rcases eq_or_two_of_perm (h.valuesOf hname) with heq | ⟨htwo, htwo'⟩
  · rw [Json.optional?, Json.optional?, heq]
  · rw [optional?_of_two htwo, optional?_of_two htwo']

theorem optional?_of_absent (h : name ∉ members.map Prod.fst) (default : α)
    (read : Value → Option α) : optional? members name default read = some default := by
  rw [Json.optional?, valuesOf_eq_nil h]

theorem optional?_cons_self (h : name ∉ members.map Prod.fst) (v : Value) (default : α)
    (read : Value → Option α) :
    optional? ((name, v) :: members) name default read = read v := by
  rw [Json.optional?, valuesOf_cons_self, valuesOf_eq_nil h]

theorem optional?_cons_of_ne {other : String} (h : other ≠ name) (v : Value) (default : α)
    (read : Value → Option α) :
    optional? ((other, v) :: members) name default read =
      optional? members name default read := by
  rw [Json.optional?, Json.optional?, valuesOf_cons_of_ne h]

theorem required?_cons_of_ne {other : String} (h : other ≠ name) (v : Value)
    (read : Value → Option α) :
    required? ((other, v) :: members) name read = required? members name read := by
  rw [Json.required?, Json.required?, valuesOf_cons_of_ne h]

end Tarpit.Json

import Tarpit.Proofs.Json.Member
import Tarpit.Proofs.Visit.Codec

/-!
# Visits in any presentation

A visit is read from the four members that describe it, in whatever order they
stand, however they are spelt and whatever other members there are.
-/

namespace Tarpit.Traffic.Visit

open Tarpit.Json

variable {s : Bytes} {members others : List (String × Value)} {v : Visit}

def fieldNames : List String :=
  ["IP", "UserAgent", "Path", "Timestamp"]

/-- The members are the four of the visit, with values of their kinds, and some of other names. -/
inductive Describes : List (String × Value) → Visit → Prop
  | intro {members others : List (String × Value)} {v : Visit} {key agent path time : Value}
      (order : members.Perm
        ([("IP", key), ("UserAgent", agent), ("Path", path), ("Timestamp", time)] ++ others))
      (other : ∀ m ∈ others, m.1 ∉ fieldNames)
      (key_text : key.text? = some v.clientKey)
      (agent_text : agent.text? = some v.userAgent)
      (path_text : path.text? = some v.path)
      (time_text : time? time = some v.timestamp) :
      Describes members v

/-- What is read of a text that spells an object with the members. -/
structure Presented (s : Bytes) (members : List (String × Value)) : Prop where
  read : ∀ v, Describes members v → decode? s = some v
  /-- Another text with the same members of a visit is read as the same. -/
  same : ∀ s' others, IsObjectText s' others → SameMembers fieldNames members others →
    decode? s' = decode? s
  /-- Each of the four has to be there, and only once. -/
  once : ∀ name ∈ fieldNames, (members.map Prod.fst).count name ≠ 1 → decode? s = none

/-! ## Members -/

theorem ofMembers?_congr (h : SameMembers fieldNames members others) :
    ofMembers? members = ofMembers? others := by
  have hmember : ∀ {α : Type} (read : Value → Option α), ∀ name ∈ fieldNames,
      required? members name read = required? others name read :=
    fun read _ hname => h.required? hname read
  simp only [fieldNames, List.forall_mem_cons] at hmember
  simp only [ofMembers?, hmember]

/-- The four by their names are read as the four in order are. -/
theorem ofMembers?_fields (key agent path time : Value) :
    ofMembers? [("IP", key), ("UserAgent", agent), ("Path", path), ("Timestamp", time)] =
      ofJson? (.array [key, agent, path, time]) := rfl

theorem ofMembers?_of_describes (h : Describes members v) : ofMembers? members = some v := by
  cases h with
  | intro order other key_text agent_text path_text time_text =>
      rw [ofMembers?_congr ((sameMembers_of_perm order).trans (sameMembers_append other)),
        ofMembers?_fields]
      simp only [ofJson?, key_text, agent_text, path_text, time_text, Option.bind_eq_bind,
        Option.bind_some]

theorem count_of_ofMembers? (h : ofMembers? members = some v) :
    ∀ name ∈ fieldNames, (members.map Prod.fst).count name = 1 := by
  simp only [ofMembers?, Option.bind_eq_bind, Option.bind_eq_some_iff] at h
  obtain ⟨key, hkey, agent, hagent, path, hpath, time, htime, -⟩ := h
  simp only [fieldNames, List.forall_mem_cons]
  exact ⟨count_of_required? hkey, count_of_required? hagent, count_of_required? hpath,
    count_of_required? htime, fun _ hnil => absurd hnil List.not_mem_nil⟩

/-! ## Texts -/

theorem decode?_of_isObjectText (h : IsObjectText s members) : decode? s = ofMembers? members := by
  obtain ⟨content, hspells, hnames⟩ := h
  rw [decode?, parse?_of_spells hspells, Option.bind_some, ofJson?, hnames, Option.bind_some]

theorem presented (h : IsObjectText s members) : Presented s members where
  read v hdescribes := by
    rw [decode?_of_isObjectText h, ofMembers?_of_describes hdescribes]
  same s' others hothers hsame := by
    rw [decode?_of_isObjectText h, decode?_of_isObjectText hothers, ofMembers?_congr hsame]
  once name hname hcount := by
    rw [decode?_of_isObjectText h]
    cases hread : ofMembers? members with
    | none => rfl
    | some v => exact absurd (count_of_ofMembers? hread name hname) hcount

end Tarpit.Traffic.Visit

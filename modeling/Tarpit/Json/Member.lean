import Tarpit.Json.Value

/-!
# Members of objects

Reading the members of an object by name.  The order of the members and members
with other names do not matter; a name that occurs twice is refused.
-/

namespace Tarpit.Json

/-- The values of all members with a name. -/
def valuesOf (members : List (String × Value)) (name : String) : List Value :=
  (members.filter fun m => m.1 == name).map Prod.snd

def required? {α : Type} (members : List (String × Value)) (name : String)
    (read : Value → Option α) : Option α :=
  match valuesOf members name with
  | [v] => read v
  | _ => none

/-- Reads the member with a name, with a default where there is none. -/
def optional? {α : Type} (members : List (String × Value)) (name : String) (default : α)
    (read : Value → Option α) : Option α :=
  match valuesOf members name with
  | [] => some default
  | [v] => read v
  | _ => none

/-- Reads a value, with a default for null. -/
def orNull? {α : Type} (default : α) (read : Value → Option α) : Value → Option α
  | .null => some default
  | v => read v

theorem valuesOf_cons_of_ne {members : List (String × Value)} {name other : String} {v : Value}
    (h : other ≠ name) : valuesOf ((other, v) :: members) name = valuesOf members name := by
  simp [valuesOf, h]

theorem valuesOf_cons_self (members : List (String × Value)) (name : String) (v : Value) :
    valuesOf ((name, v) :: members) name = v :: valuesOf members name := by
  simp [valuesOf]

end Tarpit.Json

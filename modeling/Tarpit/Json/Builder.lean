import Tarpit.Json.Token

/-!
# Values from tokens

The containers that are still open are a stack, so the depth of a text is
bounded by nothing but its length.
-/

namespace Tarpit.Json

/-- A container that is still open.  Its entries so far stand in reverse. -/
inductive Frame where
  | array (items : List Value)
  | object (members : List (List Piece × Value)) (name : List Piece)

/-- What may come next. -/
inductive Expectation where
  | value
  | valueOrClose
  | nameOrClose (members : List (List Piece × Value))
  | name (members : List (List Piece × Value))
  | colon
  | commaOrClose
  | nothing (result : Value)

/-- The builder: the open containers, the innermost first, and what may come next. -/
structure Builder where
  frames : List Frame
  expects : Expectation

def complete (frames : List Frame) (v : Value) : Builder :=
  match frames with
  | [] => ⟨[], .nothing v⟩
  | .array items :: outer => ⟨.array (v :: items) :: outer, .commaOrClose⟩
  | .object members name :: outer => ⟨.object ((name, v) :: members) [] :: outer, .commaOrClose⟩

def stepValue (frames : List Frame) : Token → Option Builder
  | .null => some (complete frames .null)
  | .bool b => some (complete frames (.bool b))
  | .number lexeme => some (complete frames (.number lexeme))
  | .string content => some (complete frames (.string content))
  | .openArray => some ⟨.array [] :: frames, .valueOrClose⟩
  | .openObject => some ⟨frames, .nameOrClose []⟩
  | _ => none

def Builder.step (b : Builder) (t : Token) : Option Builder :=
  match b.expects with
  | .value => stepValue b.frames t
  | .valueOrClose =>
      match t, b.frames with
      | .closeArray, .array items :: outer => some (complete outer (.array items.reverse))
      | _, frames => stepValue frames t
  | .nameOrClose members =>
      match t with
      | .closeObject => some (complete b.frames (.object members.reverse))
      | .string name => some ⟨.object members name :: b.frames, .colon⟩
      | _ => none
  | .name members =>
      match t with
      | .string name => some ⟨.object members name :: b.frames, .colon⟩
      | _ => none
  | .colon =>
      match t with
      | .colon => some ⟨b.frames, .value⟩
      | _ => none
  | .commaOrClose =>
      match t, b.frames with
      | .comma, .array items :: outer => some ⟨.array items :: outer, .value⟩
      | .closeArray, .array items :: outer => some (complete outer (.array items.reverse))
      | .comma, .object members _ :: outer => some ⟨outer, .name members⟩
      | .closeObject, .object members _ :: outer => some (complete outer (.object members.reverse))
      | _, _ => none
  | .nothing _ => none

def Builder.run (b : Builder) : List Token → Option Builder
  | [] => some b
  | t :: rest =>
      match b.step t with
      | some b => b.run rest
      | none => none

def Value.ofTokens? (tokens : List Token) : Option Value :=
  match Builder.run ⟨[], .value⟩ tokens with
  | some ⟨_, .nothing v⟩ => some v
  | _ => none

/-- The value that the bytes of a text spell. -/
def Value.parse? (s : Bytes) : Option Value :=
  (scan s).bind Value.ofTokens?

theorem builder_run_append (b : Builder) (s t : List Token) :
    b.run (s ++ t) = (b.run s).bind fun b' => b'.run t := by
  induction s generalizing b with
  | nil => rfl
  | cons tok rest ih =>
      simp only [List.cons_append, Builder.run]
      cases b.step tok with
      | none => rfl
      | some b' => exact ih b'

end Tarpit.Json

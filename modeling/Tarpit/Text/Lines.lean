/-!
# Lines

Splitting a text, or the bytes of a file, at line feeds.  A carriage return
directly before a line feed belongs to the ending; a last line without a line
feed keeps all that it holds.
-/

namespace Tarpit.Text

variable {α : Type} [DecidableEq α]

/-- A terminated line without the carriage return of its ending. -/
def dropReturn (cr : α) (line : List α) : List α :=
  if line.getLast? = some cr then line.dropLast else line

/-- The lines of a text, for given characters of the line ending. -/
def lines (lf cr : α) (s : List α) : List (List α) :=
  let pieces := s.splitOn lf
  pieces.dropLast.map (dropReturn cr) ++ pieces.getLast?.toList.filter (fun line => !line.isEmpty)

def textLines (s : List Char) : List (List Char) :=
  lines '\n' '\r' s

/-- The lines of the bytes of a file. -/
def byteLines (s : List UInt8) : List (List UInt8) :=
  lines 10 13 s

theorem lines_nil (lf cr : α) : lines lf cr [] = [] := by
  simp [lines]

theorem dropReturn_eq_self {cr : α} {line : List α} (h : cr ∉ line) :
    dropReturn cr line = line := by
  unfold dropReturn
  split
  · next hlast => exact absurd (List.mem_of_getLast? hlast) h
  · rfl

end Tarpit.Text

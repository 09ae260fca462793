/-!
# Blank characters

The Unicode property White_Space, trimming by it, and the ASCII folding of case
that the recognised words of the configuration need.
-/

namespace Tarpit.Text

/-- A character is blank when it has the Unicode property White_Space. -/
def isBlank (c : Char) : Bool :=
  let n := c.toNat
  (9 ≤ n && n ≤ 13) || n == 0x20 || n == 0x85 || n == 0xA0 || n == 0x1680 ||
    (0x2000 ≤ n && n ≤ 0x200A) || n == 0x2028 || n == 0x2029 || n == 0x202F ||
    n == 0x205F || n == 0x3000

def trimStart (s : List Char) : List Char :=
  s.dropWhile isBlank

/-- The characters without the blanks at both ends. -/
def trim (s : List Char) : List Char :=
  ((s.dropWhile isBlank).reverse.dropWhile isBlank).reverse

/-- A text that starts and ends with characters that are not blank stays as it is. -/
theorem trim_eq_self {s : List Char}
    (hhead : ∀ c, s.head? = some c → isBlank c = false)
    (hlast : ∀ c, s.getLast? = some c → isBlank c = false) :
    trim s = s := by
  have keep : ∀ l : List Char, (∀ c, l.head? = some c → isBlank c = false) →
      l.dropWhile isBlank = l := by
    intro l hl
    cases l with
    | nil => rfl
    | cons c rest => simp [hl c rfl]
  unfold trim
  rw [keep s hhead, keep s.reverse (by simpa [List.head?_reverse] using hlast),
    List.reverse_reverse]

/-- The text without the blanks at both ends. -/
def trimmed (s : String) : String :=
  String.ofList (trim s.toList)

@[simp] theorem toList_trimmed (s : String) : (trimmed s).toList = trim s.toList := by
  simp [trimmed]

/--
The text with its ASCII capitals in lower case.  The words compared with it are
spelt with letters that no other character folds to, so ASCII decides.
-/
def lowered (s : String) : String :=
  String.ofList (s.toList.map Char.toLower)

/-- The rest of a text after a given beginning, if the text begins so. -/
def after? {α : Type} [DecidableEq α] : List α → List α → Option (List α)
  | [], s => some s
  | _ :: _, [] => none
  | p :: ps, c :: cs => if p = c then after? ps cs else none

@[simp] theorem after?_append {α : Type} [DecidableEq α] (p s : List α) :
    after? p (p ++ s) = some s := by
  induction p with
  | nil => rfl
  | cons c rest ih => simp [after?, ih]

theorem eq_append_of_after? {α : Type} [DecidableEq α] {p s rest : List α}
    (h : after? p s = some rest) : s = p ++ rest := by
  induction p generalizing s with
  | nil => simpa [after?] using h
  | cons c ps ih =>
      cases s with
      | nil => simp [after?] at h
      | cons d ds =>
          by_cases hcd : c = d
          · subst hcd
            simp only [after?, if_true] at h
            rw [ih h, List.cons_append]
          · simp [after?, hcd] at h

end Tarpit.Text

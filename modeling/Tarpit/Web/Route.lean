/-!
# Routes

The operator's pages lie under a path of their own; every other path is a trap.
Paths are compared as they are written, save that a colon in the operator's path
and the name behind it stand for whatever a request has there, up to the next
slash.
-/

namespace Tarpit.Web

/-! ## Patterns of paths -/

/-- One piece of a pattern. -/
inductive Piece where
  /-- The character itself. -/
  | exactly (c : Char)
  /-- All up to the next slash.  Only before a slash this may be nothing. -/
  | segment
  deriving DecidableEq, Repr

namespace Piece

/-- The pieces of a path, where a name that a colon began may be going on. -/
def ofPath (named : Bool) : List Char → List Piece
  | [] => []
  | c :: rest =>
      if c = '/' then .exactly '/' :: ofPath false rest
      else if named then ofPath true rest
      else if c = ':' then .segment :: ofPath true rest
      else .exactly c :: ofPath false rest

/-- What a path has behind a pattern, if it begins with it. -/
def behind? : List Piece → List Char → Option (List Char)
  | [], path => some path
  | .exactly c :: rest, d :: path => if c = d then behind? rest path else none
  | .exactly _ :: _, [] => none
  | .segment :: _, [] => none
  | .segment :: rest, d :: path => behind? rest ((d :: path).dropWhile (· != '/'))

/-- A path that goes on begins with its own pattern, which leaves what it goes on with. -/
theorem behind?_ofPath_append (path : List Char) {rest : List Char}
    (h : rest.dropWhile (· != '/') = rest) :
    behind? (ofPath false path) (path ++ rest) = some rest ∧
      behind? (ofPath true path) ((path ++ rest).dropWhile (· != '/')) = some rest := by
  induction path with
  | nil => exact ⟨rfl, congrArg some h⟩
  | cons c more ih =>
      by_cases hslash : c = '/'
      · subst hslash
        simp [ofPath, behind?, ih.1]
      · by_cases hcolon : c = ':'
        · subst hcolon
          simp [ofPath, behind?, ih.2]
        · simp [ofPath, behind?, hslash, hcolon, ih.1, ih.2]

theorem ofPath_append_slash (named : Bool) (front more : List Char) :
    ofPath named (front ++ '/' :: more) = ofPath named front ++ .exactly '/' :: ofPath false more := by
  induction front generalizing named with
  | nil => rfl
  | cons c rest ih =>
      simp only [List.cons_append, ofPath, ih]
      split
      · rfl
      · split
        · rfl
        · split
          · rfl
          · rfl

theorem behind?_append (xs ys : List Piece) (path : List Char) :
    behind? (xs ++ ys) path = (behind? xs path).bind (behind? ys) := by
  induction xs generalizing path with
  | nil => rfl
  | cons piece rest ih =>
      cases piece with
      | exactly c =>
          cases path with
          | nil => rfl
          | cons d path =>
              simp only [List.cons_append, behind?, ih]
              split
              · rfl
              · rfl
      | segment =>
          cases path with
          | nil => rfl
          | cons d path => simp only [List.cons_append, behind?, ih]

/-- The pattern of a path up to a slash leaves all that is behind the slash. -/
theorem behind?_slash (front rest : List Char) :
    behind? (ofPath false (front ++ ['/'])) (front ++ '/' :: rest) = some rest := by
  have hslash : ('/' :: rest).dropWhile (· != '/') = '/' :: rest := rfl
  rw [ofPath_append_slash, behind?_append, (behind?_ofPath_append front hslash).1]
  rfl

end Piece

/-! ## Where paths lead -/

/-- Where a path leads. -/
inductive Route where
  | overview
  | charts
  | metrics
  | login
  /-- A path below the operator's path that leads nowhere. -/
  | unknown
  | trap
  deriving DecidableEq, Repr

namespace Route

/-- Where the rest of a path behind the operator's path and a slash leads. -/
def below (rest : List Char) : Route :=
  if rest = [] then .trap
  else if rest = "data".toList then .charts
  else if rest = "metrics".toList then .metrics
  else if rest = "login".toList then .login
  else .unknown

/-- The operator's path with a slash at its end. -/
def mount (base : List Char) : List Char :=
  if base.getLast? = some '/' then base else base ++ ['/']

/-- Where a path leads, for a given operator's path. -/
def of (base path : String) : Route :=
  if Piece.behind? (Piece.ofPath false base.toList) path.toList = some [] then .overview
  else
    match Piece.behind? (Piece.ofPath false (mount base.toList)) path.toList with
    | some rest => below rest
    | none => .trap

/-- A route with a page behind it that only reads serve. -/
def isPage : Route → Bool
  | .overview | .charts | .metrics | .login => true
  | .unknown | .trap => false

theorem of_base (base : String) : of base base = .overview := by
  have hbehind := (Piece.behind?_ofPath_append base.toList (List.dropWhile_nil)).1
  rw [List.append_nil] at hbehind
  rw [of, if_pos hbehind]

/-- Behind the operator's path and a slash the rest of a path decides where it leads. -/
theorem of_mount_append (base : String) {rest : List Char} (hne : rest ≠ []) :
    of base (String.ofList (mount base.toList ++ rest)) = below rest := by
  obtain ⟨front, hmount, hnot⟩ : ∃ front, mount base.toList = front ++ ['/'] ∧
      Piece.behind? (Piece.ofPath false base.toList) (front ++ '/' :: rest) ≠ some [] := by
    unfold mount
    by_cases hslash : base.toList.getLast? = some '/'
    · obtain ⟨front, hfront⟩ := List.getLast?_eq_some_iff.1 hslash
      refine ⟨front, by rw [if_pos hslash, hfront], ?_⟩
      rw [hfront, Piece.behind?_slash]
      simpa using hne
    · refine ⟨base.toList, by rw [if_neg hslash], ?_⟩
      rw [(Piece.behind?_ofPath_append base.toList rfl).1]
      simp
  have hpath : front ++ ['/'] ++ rest = front ++ '/' :: rest := by
    rw [List.append_assoc, List.singleton_append]
  rw [of, String.toList_ofList, hmount, hpath, if_neg hnot, Piece.behind?_slash]

end Route

end Tarpit.Web

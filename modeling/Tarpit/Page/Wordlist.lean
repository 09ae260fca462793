import Tarpit.Number.Decimal
import Tarpit.Text.Blank
import Tarpit.Text.Lines
import Tarpit.Text.Utf8

/-!
# Wordlists

A wordlist has one entry per line.  Blanks around an entry and blank lines do
not count.  Neither the file nor the list may be too large.
-/

namespace Tarpit.Page

def maxWordlistBytes : Nat := 52428800

def maxWordlistEntries : Nat := 100000

/-- What stands at the path of a wordlist.  A content is looked at only when its size is right. -/
inductive WordlistPlace where
  | nothing
  | directory
  | file (size : Nat) (content : Unit → Bytes)

def WordlistPlace.ofBytes (data : Bytes) : WordlistPlace :=
  .file data.length fun _ => data

/-- Why there is no wordlist. -/
inductive WordlistFault where
  | missing
  | isDirectory
  | tooLarge (size : Nat)
  | notText
  | tooManyEntries
  deriving DecidableEq, Repr

namespace WordlistFault

def reason : WordlistFault → List Char
  | .missing => "No such file or directory (os error 2)".toList
  | .isDirectory => "Is a directory (os error 21)".toList
  | .tooLarge size =>
      "file too large (".toList ++ Number.digits size ++ " bytes, max ".toList ++
        Number.digits maxWordlistBytes ++ [')']
  | .notText => "stream did not contain valid UTF-8".toList
  | .tooManyEntries => "too many entries (max ".toList ++ Number.digits maxWordlistEntries ++ [')']

/-- The complaint about the wordlist at a path. -/
def message (fault : WordlistFault) (path : String) : String :=
  String.ofList ("wordlist ".toList ++ path.toList ++ ": ".toList ++ fault.reason)

end WordlistFault

/--
The entries of lines behind those read so far, which stand in reverse, as long as there is room
for them.  The first entry without room ends the reading.
-/
def gather (room : Nat) (done : List String) : List (List Char) → Except WordlistFault (List String)
  | [] => .ok done.reverse
  | line :: rest =>
      let entry := Text.trim line
      if entry.isEmpty then gather room done rest
      else
        match room with
        | 0 => .error .tooManyEntries
        | room + 1 => gather room (String.ofList entry :: done) rest

/-- The entries of the bytes of a file. -/
def readWordlist (data : Bytes) : Except WordlistFault (List String) :=
  match Text.Utf8.decode data with
  | none => .error .notText
  | some text => gather maxWordlistEntries [] (Text.textLines text)

def loadWordlist : WordlistPlace → Except WordlistFault (List String)
  | .nothing => .error .missing
  | .directory => .error .isDirectory
  | .file size content =>
      if maxWordlistBytes < size then .error (.tooLarge size) else readWordlist (content ())

theorem gather_blank {line : List Char} (h : Text.trim line = []) (room : Nat) (done : List String)
    (rest : List (List Char)) : gather room done (line :: rest) = gather room done rest := by
  simp [gather, h]

theorem gather_entry {line : List Char} (h : Text.trim line ≠ []) (room : Nat) (done : List String)
    (rest : List (List Char)) :
    gather (room + 1) done (line :: rest) =
      gather room (String.ofList (Text.trim line) :: done) rest := by
  simp [gather, h]

theorem gather_full {line : List Char} (h : Text.trim line ≠ []) (done : List String)
    (rest : List (List Char)) : gather 0 done (line :: rest) = .error .tooManyEntries := by
  simp [gather, h]

end Tarpit.Page

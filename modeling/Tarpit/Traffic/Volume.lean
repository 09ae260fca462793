import Tarpit.Traffic.Ledger

/-!
# Volumes

The files and directories in which statistics outlive a process.  A file is
known by a number of its own, so a file that is held open can be renamed or
removed and still be appended to.
-/

namespace Tarpit.Traffic

/-- The names on the way from the root of a volume to a file or directory. -/
abbrev Path := List String

/-- What stands at a path. -/
inductive Node where
  | directory
  | file (id : Nat)
  deriving DecidableEq, Repr

/-- What a file holds. -/
inductive Content where
  | bytes (data : Bytes)
  /-- The tables of a database. -/
  | ledger (tables : Ledger)
  /-- Parts of a database among other bytes: neither a text nor a database. -/
  | damaged
  deriving DecidableEq, Repr

/-- Files and directories.  The root is a directory without an entry of its own. -/
structure Volume where
  nodes : List (Path × Node)
  contents : List (Nat × Content)
  nextId : Nat
  deriving DecidableEq, Repr

namespace Volume

def empty : Volume :=
  ⟨[], [], 0⟩

def node? (v : Volume) (path : Path) : Option Node :=
  if path = [] then some .directory else v.nodes.lookup path

def held? (v : Volume) (id : Nat) : Option Content :=
  v.contents.lookup id

def isFile (v : Volume) (path : Path) : Bool :=
  match v.node? path with
  | some (.file _) => true
  | _ => false

def content? (v : Volume) (path : Path) : Option Content :=
  match v.node? path with
  | some (.file id) => v.held? id
  | _ => none

def isDatabase (v : Volume) (id : Nat) : Bool :=
  match v.held? id with
  | some (.ledger _) => true
  | _ => false

/-- The bytes of the file at a path. -/
def read? (v : Volume) (path : Path) : Option Bytes :=
  match v.content? path with
  | some (.bytes data) => some data
  | _ => none

/-- The volume with the content of a file replaced. -/
def setContent (v : Volume) (id : Nat) (c : Content) : Volume :=
  { v with contents := v.contents.map fun e => if e.1 == id then (id, c) else e }

/-- The volume with something new at a path. -/
def setNode (v : Volume) (path : Path) (n : Node) : Volume :=
  { v with nodes := v.nodes.filter (fun e => e.1 != path) ++ [(path, n)] }

def clearNode (v : Volume) (path : Path) : Volume :=
  { v with nodes := v.nodes.filter fun e => e.1 != path }

/-- Something new may stand at the path: its parent is a directory. -/
def hasParent (v : Volume) (path : Path) : Bool :=
  v.node? path.dropLast == some .directory

def create? (v : Volume) (path : Path) (c : Content) : Option (Nat × Volume) :=
  if v.hasParent path then
    some (v.nextId, { v.setNode path (.file v.nextId) with
      contents := v.contents ++ [(v.nextId, c)]
      nextId := v.nextId + 1 })
  else none

/-- The file at a path, made if there is none; no file can be where a directory is. -/
def openFile? (v : Volume) (path : Path) : Option (Nat × Volume) :=
  match v.node? path with
  | some (.file id) => some (id, v)
  | some .directory => none
  | none => v.create? path (.bytes [])

/-- The volume with the bytes of the file at a path replaced. -/
def write? (v : Volume) (path : Path) (data : Bytes) : Option Volume :=
  (v.openFile? path).map fun (id, v) => v.setContent id (.bytes data)

/-- The volume with bytes added to the end of a file. -/
def append (v : Volume) (id : Nat) (data : Bytes) : Volume :=
  match v.held? id with
  | some (.bytes before) => v.setContent id (.bytes (before ++ data))
  | _ => v

/-- The volume with a directory at every one of some paths. -/
def makeEach? (v : Volume) : List Path → Option Volume
  | [] => some v
  | path :: rest =>
      match v.node? path with
      | some .directory => v.makeEach? rest
      | some (.file _) => none
      | none => (v.setNode path .directory).makeEach? rest

/-- The volume with a directory at a path and at all paths on the way to it. -/
def makeDirectories? (v : Volume) (path : Path) : Option Volume :=
  v.makeEach? ((List.range (path.length + 1)).map path.take)

/-- Removes a file or an empty directory; tells whether it did. -/
def remove (v : Volume) (path : Path) : Bool × Volume :=
  match v.node? path with
  | some (.file _) => (true, v.clearNode path)
  | some .directory =>
      if path = [] ∨ v.nodes.any (fun e => e.1.dropLast == path) then (false, v)
      else (true, v.clearNode path)
  | none => (false, v)

/-- Moves a file to another path in place of a file that is there; a directory is not replaced. -/
def rename? (v : Volume) (source target : Path) : Option Volume :=
  match v.node? source, v.node? target with
  | some (.file _), some .directory => none
  | some (.file id), _ =>
      if v.hasParent target then some ((v.clearNode source).setNode target (.file id)) else none
  | _, _ => none

def names (v : Volume) (path : Path) : List String :=
  v.nodes.filterMap fun e => if e.1.dropLast == path then e.1.getLast? else none

theorem node?_empty_of_ne_nil {path : Path} (h : path ≠ []) : empty.node? path = none := by
  simp [node?, empty, h]

@[simp] theorem node?_setContent (v : Volume) (id : Nat) (c : Content) (path : Path) :
    (v.setContent id c).node? path = v.node? path := rfl

theorem lookup_replace (contents : List (Nat × Content)) (id : Nat) (c : Content) :
    (contents.map fun e => if e.1 == id then (id, c) else e).lookup id =
      if (contents.lookup id).isSome then some c else none := by
  induction contents with
  | nil => rfl
  | cons e rest ih =>
      obtain ⟨k, d⟩ := e
      by_cases h : k = id
      · subst h
        simp
      · have hne : (id == k) = false := by simpa using fun hk : id = k => h hk.symm
        simp only [List.map_cons, beq_iff_eq, h, if_false, List.lookup_cons, hne]
        simpa using ih

/-- A file that exists holds what was last written to it. -/
theorem held?_setContent {v : Volume} {id : Nat} (h : (v.held? id).isSome) (c : Content) :
    (v.setContent id c).held? id = some c := by
  unfold held? setContent at *
  rw [lookup_replace, if_pos h]

end Volume

end Tarpit.Traffic

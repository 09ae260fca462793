import Tarpit.Proofs.Lookup
import Tarpit.Traffic.Volume

/-!
# Files of a volume

What the operations on a volume do to the file at a path, and what they leave
alone.
-/

namespace Tarpit.Traffic.Volume

/-! ## Looking up -/

theorem node?_clearNode_self (v : Volume) {path : Path} (h : path ≠ []) :
    (v.clearNode path).node? path = none := by
  simp [node?, clearNode, h, lookup_filter_self]

theorem node?_clearNode_of_ne (v : Volume) {path other : Path} (h : other ≠ path) :
    (v.clearNode path).node? other = v.node? other := by
  simp [node?, clearNode, lookup_filter_of_ne _ h]

theorem node?_setNode_self (v : Volume) {path : Path} (h : path ≠ []) (n : Node) :
    (v.setNode path n).node? path = some n := by
  simp [node?, setNode, h, List.lookup_append, lookup_filter_self]

theorem node?_setNode_of_ne (v : Volume) {path other : Path} (h : other ≠ path) (n : Node) :
    (v.setNode path n).node? other = v.node? other := by
  have hne : (other == path) = false := by simpa using h
  have hlast : List.lookup other [(path, n)] = none := by
    simp only [List.lookup_cons, hne, List.lookup_nil]
  simp only [node?, setNode, List.lookup_append, lookup_filter_of_ne _ h, hlast, Option.or_none]

theorem held?_setContent_of_ne (v : Volume) {id other : Nat} (h : other ≠ id) (c : Content) :
    (v.setContent id c).held? other = v.held? other :=
  lookup_replace_of_ne v.contents h c

/-! ## The file at a path -/

/-- At the path stands the file with the number, which holds the content. -/
structure FileAt (v : Volume) (path : Path) (id : Nat) (c : Content) : Prop where
  node : v.node? path = some (.file id)
  held : v.held? id = some c

/-- Both volumes have the same at the path. -/
structure SameAt (v v' : Volume) (path : Path) : Prop where
  node : v'.node? path = v.node? path
  held : ∀ id, v.node? path = some (.file id) → v'.held? id = v.held? id

theorem SameAt.refl (v : Volume) (path : Path) : SameAt v v path :=
  ⟨rfl, fun _ _ => rfl⟩

theorem SameAt.trans {v v' v'' : Volume} {path : Path} (h : SameAt v v' path)
    (h' : SameAt v' v'' path) : SameAt v v'' path := by
  constructor
  · rw [h'.node, h.node]
  · intro id hid
    rw [h'.held id (by rw [h.node, hid]), h.held id hid]

theorem FileAt.of_sameAt {v v' : Volume} {path : Path} {id : Nat} {c : Content}
    (h : FileAt v path id c) (hsame : SameAt v v' path) : FileAt v' path id c :=
  ⟨by rw [hsame.node, h.node], by rw [hsame.held id h.node, h.held]⟩

theorem SameAt.content? {v v' : Volume} {path : Path} (h : SameAt v v' path) :
    v'.content? path = v.content? path := by
  unfold Volume.content?
  rw [h.node]
  cases hnode : v.node? path with
  | none => rfl
  | some n =>
      cases n with
      | directory => rfl
      | file id => exact h.held id hnode

theorem SameAt.read? {v v' : Volume} {path : Path} (h : SameAt v v' path) :
    v'.read? path = v.read? path := by
  rw [Volume.read?, Volume.read?, h.content?]

theorem read?_of_not_file {v : Volume} {path : Path}
    (h : ∀ id, v.node? path ≠ some (.file id)) : v.read? path = none := by
  unfold read? content?
  cases hnode : v.node? path with
  | none => rfl
  | some node =>
      cases node with
      | directory => rfl
      | file id => exact absurd hnode (h id)

theorem FileAt.read? {v : Volume} {path : Path} {id : Nat} {data : Bytes}
    (h : FileAt v path id (.bytes data)) : v.read? path = some data := by
  simp [Volume.read?, content?, h.node, h.held]

theorem fileAt_of_read? {v : Volume} {path : Path} {id : Nat} {data : Bytes}
    (hnode : v.node? path = some (.file id)) (hread : v.read? path = some data) :
    FileAt v path id (.bytes data) := by
  refine ⟨hnode, ?_⟩
  unfold Volume.read? content? at hread
  rw [hnode] at hread
  simp only at hread
  split at hread
  · next hheld =>
      cases hread
      exact hheld
  · cases hread

/-- What can be read is the content of a file. -/
theorem exists_fileAt_of_read? {v : Volume} {path : Path} {data : Bytes}
    (h : v.read? path = some data) : ∃ id, FileAt v path id (.bytes data) := by
  by_contra hnone
  have hnode : ∀ id, v.node? path ≠ some (.file id) :=
    fun id hid => hnone ⟨id, fileAt_of_read? hid h⟩
  rw [read?_of_not_file hnode] at h
  cases h

theorem FileAt.isFile {v : Volume} {path : Path} {id : Nat} {c : Content}
    (h : FileAt v path id c) : v.isFile path = true := by
  simp [Volume.isFile, h.node]

theorem FileAt.isDatabase {v : Volume} {path : Path} {id : Nat} {tables : Ledger}
    (h : FileAt v path id (.ledger tables)) : v.isDatabase id = true := by
  simp [Volume.isDatabase, h.held]

/-! ## Writing into a file -/

theorem FileAt.setContent {v : Volume} {path : Path} {id : Nat} {c : Content}
    (h : FileAt v path id c) (c' : Content) : FileAt (v.setContent id c') path id c' :=
  ⟨h.node, held?_setContent (by simp [h.held]) c'⟩

theorem sameAt_setContent (v : Volume) {path : Path} {id : Nat} (h : v.node? path ≠ some (.file id))
    (c : Content) : SameAt v (v.setContent id c) path := by
  constructor
  · rfl
  · intro other hother
    apply held?_setContent_of_ne
    rintro rfl
    exact h hother

theorem FileAt.append {v : Volume} {path : Path} {id : Nat} {before : Bytes}
    (h : FileAt v path id (.bytes before)) (data : Bytes) :
    FileAt (v.append id data) path id (.bytes (before ++ data)) := by
  simp only [Volume.append, h.held]
  exact h.setContent _

/-! ## Names -/

theorem sameAt_setNode (v : Volume) {path other : Path} (h : other ≠ path) (n : Node) :
    SameAt v (v.setNode path n) other :=
  ⟨node?_setNode_of_ne v h n, fun _ _ => rfl⟩

theorem sameAt_clearNode (v : Volume) {path other : Path} (h : other ≠ path) :
    SameAt v (v.clearNode path) other :=
  ⟨node?_clearNode_of_ne v h, fun _ _ => rfl⟩

/-! ## Moving a file -/

theorem rename?_eq_some {v v' : Volume} {source target : Path}
    (h : v.rename? source target = some v') :
    ∃ id, v.node? source = some (.file id) ∧ v.node? target ≠ some .directory ∧
      v' = (v.clearNode source).setNode target (.file id) := by
  unfold rename? at h
  split at h
  · cases h
  · next id hsource htarget =>
      split at h
      · exact ⟨id, hsource, htarget, (Option.some.inj h).symm⟩
      · cases h
  · cases h

theorem isSome_rename? (v : Volume) (source target : Path) :
    (v.rename? source target).isSome =
      (v.isFile source && v.node? target != some .directory && v.hasParent target) := by
  unfold rename? Volume.isFile
  split
  · next hsource htarget =>
      rw [hsource, htarget]
      rfl
  · next hsource htarget =>
      have hne : (v.node? target != some .directory) = true := by simpa using htarget
      rw [hsource, hne]
      cases v.hasParent target with
      | true => rfl
      | false => rfl
  · next hsource _ =>
      cases hnode : v.node? source with
      | none => rfl
      | some n =>
          cases n with
          | directory => rfl
          | file id => exact absurd hnode (hsource id)

theorem sameAt_rename {v v' : Volume} {source target path : Path}
    (h : v.rename? source target = some v') (hsource : path ≠ source) (htarget : path ≠ target) :
    SameAt v v' path := by
  obtain ⟨id, -, -, rfl⟩ := rename?_eq_some h
  exact (sameAt_clearNode v hsource).trans (sameAt_setNode _ htarget _)

theorem node?_rename_target {v v' : Volume} {source target : Path}
    (h : v.rename? source target = some v') : ∃ id, v'.node? target = some (.file id) := by
  obtain ⟨id, -, htarget, rfl⟩ := rename?_eq_some h
  have hnil : target ≠ [] := by
    rintro rfl
    exact htarget rfl
  exact ⟨id, node?_setNode_self _ hnil _⟩

/-- A file keeps its number and its content when it is renamed. -/
theorem fileAt_rename_target {v v' : Volume} {source target : Path} {id : Nat} {c : Content}
    (h : v.rename? source target = some v') (hfile : FileAt v source id c) :
    FileAt v' target id c := by
  obtain ⟨other, hsource, htarget, rfl⟩ := rename?_eq_some h
  have hnil : target ≠ [] := by
    rintro rfl
    exact htarget rfl
  rw [hfile.node] at hsource
  cases hsource
  exact ⟨node?_setNode_self _ hnil _, hfile.held⟩

theorem node?_rename_source {v v' : Volume} {source target : Path}
    (h : v.rename? source target = some v') (hne : source ≠ target) : v'.node? source = none := by
  obtain ⟨id, hsource, -, rfl⟩ := rename?_eq_some h
  have hnil : source ≠ [] := by
    rintro rfl
    cases hsource
  rw [node?_setNode_of_ne _ hne, node?_clearNode_self v hnil]

/-! ## New files -/

/-- The next number is new: no path leads to it, and nothing is held under it. -/
structure Sound (v : Volume) : Prop where
  below : ∀ path id, v.node? path = some (.file id) → id < v.nextId
  held_below : ∀ id, (v.held? id).isSome → id < v.nextId

theorem sound_empty : Sound empty := by
  constructor
  · intro path id h
    by_cases hpath : path = []
    · subst hpath
      cases h
    · rw [node?_empty_of_ne_nil hpath] at h
      cases h
  · intro id h
    cases h

theorem Sound.setContent {v : Volume} (h : Sound v) (id : Nat) (c : Content) :
    Sound (v.setContent id c) := by
  constructor
  · exact h.below
  · intro other hother
    by_cases hid : other = id
    · subst hid
      apply h.held_below
      unfold held? at *
      simp only [Volume.setContent, lookup_replace] at hother
      split at hother
      · assumption
      · cases hother
    · rw [held?_setContent_of_ne v hid] at hother
      exact h.held_below other hother

theorem Sound.append {v : Volume} (h : Sound v) (id : Nat) (data : Bytes) :
    Sound (v.append id data) := by
  unfold Volume.append
  split
  · exact h.setContent id _
  · exact h

theorem Sound.clearNode {v : Volume} (h : Sound v) (path : Path) : Sound (v.clearNode path) := by
  constructor
  · intro other id hid
    by_cases hother : other = path
    · subst hother
      by_cases hnil : other = []
      · subst hnil
        cases hid
      · rw [node?_clearNode_self v hnil] at hid
        cases hid
    · rw [node?_clearNode_of_ne v hother] at hid
      exact h.below other id hid
  · exact h.held_below

theorem Sound.setNode {v : Volume} (h : Sound v) (path : Path) {n : Node}
    (hn : ∀ id, n = .file id → id < v.nextId) : Sound (v.setNode path n) := by
  constructor
  · intro other id hid
    by_cases hother : other = path
    · subst hother
      by_cases hnil : other = []
      · subst hnil
        cases hid
      · rw [node?_setNode_self v hnil] at hid
        exact hn id (Option.some.inj hid)
    · rw [node?_setNode_of_ne v hother] at hid
      exact h.below other id hid
  · exact h.held_below

theorem Sound.rename {v v' : Volume} {source target : Path} (h : Sound v)
    (hrename : v.rename? source target = some v') : Sound v' := by
  obtain ⟨id, hsource, -, rfl⟩ := rename?_eq_some hrename
  apply (h.clearNode source).setNode target
  intro other hother
  cases hother
  exact h.below source id hsource

/-- What has come about when a new file was made at a path. -/
structure Created (v : Volume) (path : Path) (c : Content) (v' : Volume) : Prop where
  sound : Sound v'
  file : FileAt v' path v.nextId c
  same : ∀ other, other ≠ path → SameAt v v' other

theorem Sound.create {v : Volume} (h : Sound v) {path : Path} (hpath : path ≠ [])
    (hparent : v.hasParent path = true) (c : Content) :
    ∃ v', v.create? path c = some (v.nextId, v') ∧ Created v path c v' := by
  let v' : Volume := { v.setNode path (.file v.nextId) with
    contents := v.contents ++ [(v.nextId, c)]
    nextId := v.nextId + 1 }
  have hnew : v.held? v.nextId = none := by
    cases hheld : v.held? v.nextId with
    | none => rfl
    | some c' =>
        have hlt := h.held_below v.nextId (by rw [hheld]; rfl)
        omega
  have hnode : ∀ other, v'.node? other = (v.setNode path (.file v.nextId)).node? other :=
    fun _ => rfl
  have hself : v'.held? v.nextId = some c := by
    show (v.contents ++ [(v.nextId, c)]).lookup v.nextId = some c
    rw [List.lookup_append, show v.contents.lookup v.nextId = none from hnew]
    simp
  have hother : ∀ id, id ≠ v.nextId → v'.held? id = v.held? id := by
    intro id hid
    show (v.contents ++ [(v.nextId, c)]).lookup id = v.contents.lookup id
    have hne : (id == v.nextId) = false := by simpa using hid
    rw [List.lookup_append, List.lookup_cons, hne, List.lookup_nil, Option.or_none]
  refine ⟨v', by rw [create?, if_pos hparent], ⟨?_, ?_⟩, ⟨?_, hself⟩, ?_⟩
  · intro other id hid
    rw [hnode] at hid
    show id < v.nextId + 1
    by_cases hpo : other = path
    · subst hpo
      rw [node?_setNode_self v hpath] at hid
      cases hid
      omega
    · rw [node?_setNode_of_ne v hpo] at hid
      have hlt := h.below other id hid
      omega
  · intro id hid
    show id < v.nextId + 1
    by_cases hnext : id = v.nextId
    · omega
    · rw [hother id hnext] at hid
      have hlt := h.held_below id hid
      omega
  · rw [hnode, node?_setNode_self v hpath]
  · intro other hne
    constructor
    · rw [hnode, node?_setNode_of_ne v hne]
    · intro id hid
      have hlt := h.below other id hid
      exact hother id (by omega)

theorem FileAt.openFile? {v : Volume} {path : Path} {id : Nat} {c : Content}
    (h : FileAt v path id c) : v.openFile? path = some (id, v) := by
  simp [Volume.openFile?, h.node]

theorem Sound.openFile_new {v : Volume} (h : Sound v) {path : Path} (hnone : v.node? path = none)
    (hparent : v.hasParent path = true) :
    ∃ v', v.openFile? path = some (v.nextId, v') ∧ Created v path (.bytes []) v' := by
  have hpath : path ≠ [] := by
    rintro rfl
    cases hnone
  obtain ⟨v', hcreate, hcreated⟩ := h.create hpath hparent (.bytes [])
  refine ⟨v', ?_, hcreated⟩
  rw [Volume.openFile?, hnone]
  exact hcreate

/-- The content of a new file can be replaced as if it had been made so. -/
theorem Created.setContent {v v' : Volume} {path : Path} {c : Content} (h : Created v path c v')
    (hsound : Sound v) (c' : Content) : Created v path c' (v'.setContent v.nextId c') := by
  refine ⟨h.sound.setContent _ _, h.file.setContent _, ?_⟩
  intro other hother
  refine (h.same other hother).trans (sameAt_setContent _ ?_ _)
  rw [(h.same other hother).node]
  intro hnode
  have hlt := hsound.below other _ hnode
  omega

theorem Sound.write?_new {v : Volume} (h : Sound v) {path : Path} (hnone : v.node? path = none)
    (hparent : v.hasParent path = true) (data : Bytes) :
    ∃ v', v.write? path data = some v' ∧ Created v path (.bytes data) v' := by
  obtain ⟨made, hmade, hcreated⟩ := h.openFile_new hnone hparent
  refine ⟨made.setContent v.nextId (.bytes data), ?_, hcreated.setContent h _⟩
  rw [write?, hmade]
  rfl

end Tarpit.Traffic.Volume

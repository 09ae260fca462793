import Mathlib.Logic.Relation
import Tarpit.Proofs.Volume.Coherent

/-!
# Changes of a volume

All that is done to files and directories is made of five changes.  None of them
lets two paths lead to one file, so what is written to a file is found at its
path and nowhere else.
-/

namespace Tarpit.Traffic.Volume

/-- One change. -/
inductive Change : Volume → Volume → Prop
  | content (v : Volume) (id : Nat) (c : Content) : Change v (v.setContent id c)
  | directory {v : Volume} {path : Path} (vacant : v.node? path = none) :
      Change v (v.setNode path .directory)
  | file {v v' : Volume} {path : Path} {c : Content} {id : Nat} (vacant : v.node? path = none)
      (created : v.create? path c = some (id, v')) : Change v v'
  | cleared (v : Volume) (path : Path) : Change v (v.clearNode path)
  | renamed {v v' : Volume} {source target : Path} (h : v.rename? source target = some v') :
      Change v v'

/-- What changes can make of a volume. -/
def Becomes : Volume → Volume → Prop :=
  Relation.ReflTransGen Change

variable {v v' v'' : Volume} {path source target : Path}

theorem Becomes.refl (v : Volume) : v.Becomes v :=
  Relation.ReflTransGen.refl

theorem Becomes.trans (h : v.Becomes v') (h' : v'.Becomes v'') : v.Becomes v'' :=
  Relation.ReflTransGen.trans h h'

theorem Change.becomes (h : v.Change v') : v.Becomes v' :=
  Relation.ReflTransGen.single h

/-! ## Operations -/

theorem becomes_setContent (v : Volume) (id : Nat) (c : Content) : v.Becomes (v.setContent id c) :=
  (Change.content v id c).becomes

theorem becomes_append (v : Volume) (id : Nat) (data : Bytes) : v.Becomes (v.append id data) := by
  unfold append
  split
  · exact becomes_setContent v id _
  · exact .refl v

theorem becomes_openFile? {id : Nat} (h : v.openFile? path = some (id, v')) : v.Becomes v' := by
  unfold openFile? at h
  split at h
  · cases h
    exact .refl _
  · cases h
  · next vacant => exact (Change.file vacant h).becomes

theorem becomes_write? {data : Bytes} (h : v.write? path data = some v') : v.Becomes v' := by
  obtain ⟨⟨id, opened⟩, hopened, rfl⟩ := Option.map_eq_some_iff.1 h
  exact (becomes_openFile? hopened).trans (becomes_setContent opened id _)

theorem becomes_makeEach? {paths : List Path} (h : v.makeEach? paths = some v') :
    v.Becomes v' := by
  induction paths generalizing v with
  | nil =>
      cases h
      exact .refl _
  | cons path rest ih =>
      rw [makeEach?] at h
      split at h
      · exact ih h
      · cases h
      · next vacant => exact (Change.directory vacant).becomes.trans (ih h)

theorem becomes_makeDirectories? (h : v.makeDirectories? path = some v') : v.Becomes v' :=
  becomes_makeEach? h

theorem becomes_remove (v : Volume) (path : Path) : v.Becomes (v.remove path).2 := by
  unfold remove
  split
  · exact (Change.cleared v path).becomes
  · split
    · exact .refl v
    · exact (Change.cleared v path).becomes
  · exact .refl v

theorem becomes_rename? (h : v.rename? source target = some v') : v.Becomes v' :=
  (Change.renamed h).becomes

/-! ## One path for each file -/

/-- No two paths lead to one file, and the next number is new. -/
structure Apart (v : Volume) : Prop extends Sound v where
  apart : ∀ {path other id}, v.node? path = some (.file id) → v.node? other = some (.file id) →
    path = other

theorem apart_empty : Apart empty := by
  refine ⟨sound_empty, ?_⟩
  intro path other id h
  exact absurd (sound_empty.below path id h) (Nat.not_lt_zero id)

theorem create?_eq_some {c : Content} {id : Nat} (vacant : v.node? path = none) (hsound : v.Sound)
    (h : v.create? path c = some (id, v')) : id = v.nextId ∧ Created v path c v' := by
  have hparent : v.hasParent path = true := by
    unfold create? at h
    split at h
    · assumption
    · cases h
  have hpath : path ≠ [] := by
    rintro rfl
    cases vacant
  obtain ⟨made, hmade, hcreated⟩ := hsound.create hpath hparent c
  rw [h] at hmade
  cases hmade
  exact ⟨rfl, hcreated⟩

/-- A volume whose files were all there before keeps them apart. -/
theorem Apart.of_kept (h : v.Apart) (hsound : v'.Sound)
    (hkept : ∀ path id, v'.node? path = some (.file id) → v.node? path = some (.file id)) :
    v'.Apart :=
  ⟨hsound, fun hpath hother => h.apart (hkept _ _ hpath) (hkept _ _ hother)⟩

/-- So does a volume with one more file, which was at no other path before. -/
theorem Apart.of_added (h : v.Apart) (hsound : v'.Sound) {added : Nat}
    (hadded : v'.node? path = some (.file added))
    (hkept : ∀ other id, other ≠ path → v'.node? other = some (.file id) →
      v.node? other = some (.file id) ∧ id ≠ added) : v'.Apart := by
  refine ⟨hsound, ?_⟩
  intro first second id hfirst hsecond
  by_cases heq : first = path
  · by_contra hne
    rw [heq, hadded] at hfirst
    have hother : second ≠ path := fun hsecond => hne (heq.trans hsecond.symm)
    exact (hkept second id hother hsecond).2 (Node.file.inj (Option.some.inj hfirst)).symm
  · by_cases heq' : second = path
    · rw [heq', hadded] at hsecond
      exact absurd (Node.file.inj (Option.some.inj hsecond)).symm (hkept first id heq hfirst).2
    · exact h.apart (hkept first id heq hfirst).1 (hkept second id heq' hsecond).1

theorem Apart.directory (h : v.Apart) (vacant : v.node? path = none) :
    (v.setNode path .directory).Apart := by
  have hnil : path ≠ [] := by
    rintro rfl
    cases vacant
  apply h.of_kept (h.toSound.setNode path (by simp))
  intro other id hother
  by_cases heq : other = path
  · subst heq
    rw [node?_setNode_self v hnil] at hother
    cases hother
  · rwa [node?_setNode_of_ne v heq] at hother

theorem Apart.cleared (h : v.Apart) (path : Path) : (v.clearNode path).Apart := by
  apply h.of_kept (h.toSound.clearNode path)
  intro other id hother
  by_cases heq : other = path
  · subst heq
    by_cases hnil : other = []
    · subst hnil
      cases hother
    · rw [node?_clearNode_self v hnil] at hother
      cases hother
  · rwa [node?_clearNode_of_ne v heq] at hother

/-- The number of a new file is above those of all others. -/
theorem Apart.created (h : v.Apart) {c : Content} (hcreated : Created v path c v') : v'.Apart := by
  apply h.of_added hcreated.sound hcreated.file.node
  intro other id hne hother
  rw [(hcreated.same other hne).node] at hother
  exact ⟨hother, Nat.ne_of_lt (h.below other id hother)⟩

/-- A file that has moved is no longer where it was, and was nowhere else. -/
theorem Apart.renamed (h : v.Apart) (hrename : v.rename? source target = some v') : v'.Apart := by
  obtain ⟨moved, hsource, htarget, hv'⟩ := rename?_eq_some hrename
  have hnil : target ≠ [] := by
    rintro rfl
    exact htarget rfl
  have hmoved : v'.node? target = some (.file moved) := by
    rw [hv', node?_setNode_self _ hnil]
  apply h.of_added (h.toSound.rename hrename) hmoved
  intro other id hne hother
  have hleft : other ≠ source := by
    rintro rfl
    rw [node?_rename_source hrename hne] at hother
    cases hother
  rw [(sameAt_rename hrename hleft hne).node] at hother
  refine ⟨hother, ?_⟩
  rintro rfl
  exact hleft (h.apart hother hsource)

theorem Change.apart (h : v.Change v') (hapart : v.Apart) : v'.Apart := by
  cases h with
  | content id c => exact hapart.of_kept (hapart.toSound.setContent id c) fun _ _ hnode => hnode
  | directory vacant => exact hapart.directory vacant
  | file vacant created => exact hapart.created (create?_eq_some vacant hapart.toSound created).2
  | cleared path => exact hapart.cleared path
  | renamed h => exact hapart.renamed h

theorem Becomes.apart (h : v.Becomes v') (hapart : v.Apart) : v'.Apart := by
  induction h with
  | refl => exact hapart
  | tail _ hchange ih => exact hchange.apart ih

/-- What is written to a file leaves everything else as it is. -/
theorem Apart.sameAt_write? (h : v.Apart) {data : Bytes} (hwrite : v.write? path data = some v')
    {other : Path} (hother : other ≠ path) : SameAt v v' other := by
  obtain ⟨⟨id, opened⟩, hopened, rfl⟩ := Option.map_eq_some_iff.1 hwrite
  unfold openFile? at hopened
  split at hopened
  · next hnode =>
      cases hopened
      exact sameAt_setContent v (fun hfile => hother (h.apart hfile hnode)) _
  · cases hopened
  · next vacant =>
      obtain ⟨rfl, hcreated⟩ := create?_eq_some vacant h.toSound hopened
      exact (hcreated.setContent h.toSound _).same other hother

end Tarpit.Traffic.Volume

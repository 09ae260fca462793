import Tarpit.Proofs.Volume.Files
import Tarpit.Traffic.Store

/-!
# Data directories

What the stores of either backend need of their directory, and what keeps it so:
files come, go and are renamed, but no directory is made in it.
-/

namespace Tarpit.Traffic

namespace Volume

/-! ## Making directories -/

theorem makeEach?_of_directories {v : Volume} {paths : List Path}
    (h : ∀ path ∈ paths, v.node? path = some .directory) : v.makeEach? paths = some v := by
  induction paths with
  | nil => rfl
  | cons path rest ih =>
      rw [makeEach?, h path List.mem_cons_self]
      exact ih fun other hother => h other (List.mem_cons_of_mem path hother)

/-- What has come about when a directory was made at some paths. -/
structure Made (v : Volume) (paths : List Path) (v' : Volume) : Prop where
  sound : v.Sound → v'.Sound
  kept : ∀ path, v.node? path = some .directory → v'.node? path = some .directory
  made : ∀ path ∈ paths, v'.node? path = some .directory
  same : ∀ path ∉ paths, v'.node? path = v.node? path

theorem made_makeEach {v v' : Volume} {paths : List Path} (h : v.makeEach? paths = some v') :
    Made v paths v' := by
  induction paths generalizing v with
  | nil =>
      cases h
      exact ⟨id, fun _ hpath => hpath, by simp, fun _ _ => rfl⟩
  | cons path rest ih =>
      rw [makeEach?] at h
      cases hnode : v.node? path with
      | none =>
          rw [hnode] at h
          have hrest := ih h
          have hnil : path ≠ [] := by
            rintro rfl
            cases hnode
          have hself : (v.setNode path .directory).node? path = some .directory :=
            node?_setNode_self v hnil _
          refine ⟨?_, ?_, ?_, ?_⟩
          · intro hsound
            exact hrest.sound (hsound.setNode path (by simp))
          · intro other hother
            apply hrest.kept
            by_cases hsame : other = path
            · rw [hsame]
              exact hself
            · rw [node?_setNode_of_ne v hsame]
              exact hother
          · intro other hother
            rcases List.mem_cons.1 hother with rfl | hother
            · exact hrest.kept _ hself
            · exact hrest.made other hother
          · intro other hother
            rw [List.mem_cons, not_or] at hother
            rw [hrest.same other hother.2, node?_setNode_of_ne v hother.1]
      | some n =>
          cases n with
          | file id =>
              rw [hnode] at h
              cases h
          | directory =>
              rw [hnode] at h
              have hrest := ih h
              refine ⟨hrest.sound, hrest.kept, ?_, ?_⟩
              · intro other hother
                rcases List.mem_cons.1 hother with rfl | hother
                · exact hrest.kept _ hnode
                · exact hrest.made other hother
              · intro other hother
                exact hrest.same other fun hmem => hother (List.mem_cons_of_mem path hmem)

/-- At the path and at all paths on the way to it stands a directory. -/
def Rooted (v : Volume) (directory : Path) : Prop :=
  ∀ n, v.node? (directory.take n) = some .directory

theorem Rooted.node {v : Volume} {directory : Path} (h : v.Rooted directory) :
    v.node? directory = some .directory := by
  have hlast := h directory.length
  rwa [List.take_length] at hlast

theorem Rooted.hasParent {v : Volume} {directory : Path} (h : v.Rooted directory) (name : String) :
    v.hasParent (directory ++ [name]) = true := by
  rw [Volume.hasParent, List.dropLast_concat, h.node]
  rfl

theorem mem_ways {directory path : Path} :
    path ∈ (List.range (directory.length + 1)).map directory.take ↔
      ∃ n, path = directory.take n := by
  constructor
  · intro h
    obtain ⟨n, -, rfl⟩ := List.mem_map.1 h
    exact ⟨n, rfl⟩
  · rintro ⟨n, rfl⟩
    by_cases hn : n < directory.length + 1
    · exact List.mem_map.2 ⟨n, List.mem_range.2 hn, rfl⟩
    · refine List.mem_map.2 ⟨directory.length, List.mem_range.2 (Nat.lt_succ_self _), ?_⟩
      rw [List.take_length, List.take_of_length_le (by omega)]

theorem Rooted.makeDirectories? {v : Volume} {directory : Path} (h : v.Rooted directory) :
    v.makeDirectories? directory = some v := by
  apply makeEach?_of_directories
  intro path hpath
  obtain ⟨n, rfl⟩ := mem_ways.1 hpath
  exact h n

theorem made_makeDirectories {v v' : Volume} {directory : Path}
    (h : v.makeDirectories? directory = some v') :
    (v.Sound → v'.Sound) ∧ v'.Rooted directory ∧
      ∀ name, v'.node? (directory ++ [name]) = v.node? (directory ++ [name]) := by
  have hmade := made_makeEach h
  refine ⟨hmade.sound, fun n => hmade.made _ (mem_ways.2 ⟨n, rfl⟩), ?_⟩
  intro name
  apply hmade.same
  intro hmem
  obtain ⟨n, hn⟩ := mem_ways.1 hmem
  have hlength := congrArg List.length hn
  rw [List.length_append, List.length_singleton, List.length_take] at hlength
  omega

end Volume

/-! ## What stands in a data directory -/

/-- The name under which a snapshot is written before it takes the place of the old one. -/
def draftName : String := snapshotName ++ ".tmp"

theorem draftOf_snapshot (directory : Path) :
    MemoryStore.draftOf (directory ++ [snapshotName]) = directory ++ [draftName] := by
  rw [MemoryStore.draftOf, List.dropLast_concat, List.getLast?_concat]
  rfl

theorem append_name_ne {directory : Path} {name other : String} (h : name ≠ other) :
    directory ++ [name] ≠ directory ++ [other] := by
  intro heq
  exact h (List.cons.inj (List.append_cancel_left heq)).1

/-- The directory is there, no draft is left in it, and no name in it is taken by a directory. -/
structure Ready (v : Volume) (directory : Path) : Prop where
  sound : v.Sound
  rooted : v.Rooted directory
  draft : v.node? (directory ++ [draftName]) = none
  plain : ∀ name, v.node? (directory ++ [name]) ≠ some .directory

/-- Of the names in a directory some may have come, gone or changed, but none is a directory. -/
def Edits (v v' : Volume) (directory : Path) : Prop :=
  ∀ path, v'.node? path = v.node? path ∨
    (∃ name, path = directory ++ [name]) ∧ v'.node? path ≠ some .directory

theorem Ready.of_edits {v v' : Volume} {directory : Path} (h : Ready v directory)
    (hsound : v'.Sound) (hedits : Edits v v' directory)
    (hdraft : v'.node? (directory ++ [draftName]) = none) : Ready v' directory := by
  refine ⟨hsound, ?_, hdraft, ?_⟩
  · intro n
    rcases hedits (directory.take n) with hsame | ⟨⟨name, hname⟩, -⟩
    · rw [hsame]
      exact h.rooted n
    · have hlength := congrArg List.length hname
      rw [List.length_append, List.length_singleton, List.length_take] at hlength
      omega
  · intro name
    rcases hedits (directory ++ [name]) with hsame | ⟨-, hplain⟩
    · rw [hsame]
      exact h.plain name
    · exact hplain

theorem Edits.trans {v v' v'' : Volume} {directory : Path} (h : Edits v v' directory)
    (h' : Edits v' v'' directory) : Edits v v'' directory := by
  intro path
  rcases h' path with hsame | hedited
  · rw [hsame]
    exact h path
  · exact .inr hedited

theorem edits_of_created {v v' : Volume} {directory : Path} {name : String} {c : Content}
    (h : v.Created (directory ++ [name]) c v') : Edits v v' directory := by
  intro path
  by_cases hpath : path = directory ++ [name]
  · right
    refine ⟨⟨name, hpath⟩, ?_⟩
    rw [hpath, h.file.node]
    simp
  · left
    exact (h.same path hpath).node

theorem Ready.setContent {v : Volume} {directory : Path} (h : Ready v directory) (id : Nat)
    (c : Content) : Ready (v.setContent id c) directory :=
  ⟨h.sound.setContent id c, h.rooted, h.draft, h.plain⟩

theorem Ready.append {v : Volume} {directory : Path} (h : Ready v directory) (id : Nat)
    (data : Bytes) : Ready (v.append id data) directory := by
  unfold Volume.append
  split
  · exact h.setContent id _
  · exact h

theorem Ready.created {v v' : Volume} {directory : Path} {name : String} {c : Content}
    (h : Ready v directory) (hcreated : v.Created (directory ++ [name]) c v')
    (hname : name ≠ draftName) : Ready v' directory := by
  apply h.of_edits hcreated.sound (edits_of_created hcreated)
  rw [(hcreated.same _ (append_name_ne hname.symm)).node]
  exact h.draft

/-! ## Renaming in a data directory -/

theorem edits_of_rename {v v' : Volume} {directory : Path} {name target : String}
    (h : v.rename? (directory ++ [name]) (directory ++ [target]) = some v') :
    Edits v v' directory := by
  intro path
  by_cases htarget : path = directory ++ [target]
  · right
    obtain ⟨id, hid⟩ := Volume.node?_rename_target h
    rw [htarget, hid]
    exact ⟨⟨target, rfl⟩, by simp⟩
  · by_cases hsource : path = directory ++ [name]
    · right
      rw [hsource] at htarget ⊢
      rw [Volume.node?_rename_source h htarget]
      exact ⟨⟨name, rfl⟩, by simp⟩
    · left
      exact (Volume.sameAt_rename h hsource htarget).node

/-- A file of the directory can have any other name in it. -/
theorem Ready.rename? {v : Volume} {directory : Path} (h : Ready v directory) {name : String}
    (hfile : v.isFile (directory ++ [name]) = true) (target : String) :
    ∃ v', v.rename? (directory ++ [name]) (directory ++ [target]) = some v' := by
  apply Option.isSome_iff_exists.1
  have hplain : (v.node? (directory ++ [target]) != some .directory) = true := by
    simpa using h.plain target
  rw [Volume.isSome_rename?, hfile, hplain, h.rooted.hasParent target]
  rfl

theorem Ready.renamed {v v' : Volume} {directory : Path} (h : Ready v directory)
    {name target : String}
    (hrename : v.rename? (directory ++ [name]) (directory ++ [target]) = some v')
    (hname : name ≠ draftName) (htarget : target ≠ draftName) : Ready v' directory := by
  apply h.of_edits (h.sound.rename hrename) (edits_of_rename hrename)
  rw [(Volume.sameAt_rename hrename (append_name_ne hname.symm) (append_name_ne htarget.symm)).node]
  exact h.draft

/-- A draft can be written and take the place of another file. -/
theorem Ready.replaced {v : Volume} {directory : Path} (h : Ready v directory) {name : String}
    (hname : name ≠ draftName) (data : Bytes) :
    ∃ drafted v', v.write? (directory ++ [draftName]) data = some drafted ∧
      drafted.rename? (directory ++ [draftName]) (directory ++ [name]) = some v' ∧
      Ready v' directory ∧
      ∀ other, other ≠ draftName → other ≠ name → v.SameAt v' (directory ++ [other]) := by
  obtain ⟨drafted, hdrafted, hcreated⟩ :=
    h.sound.write?_new h.draft (h.rooted.hasParent draftName) data
  have hplain : (drafted.node? (directory ++ [name]) != some .directory) = true := by
    rw [(hcreated.same _ (append_name_ne hname)).node]
    simpa using h.plain name
  have hparent : drafted.hasParent (directory ++ [name]) = true := by
    have hne : directory ≠ directory ++ [draftName] := by simp
    rw [Volume.hasParent, List.dropLast_concat, (hcreated.same _ hne).node, h.rooted.node]
    rfl
  obtain ⟨v', hrename⟩ : ∃ v', drafted.rename? (directory ++ [draftName]) (directory ++ [name]) =
      some v' := by
    apply Option.isSome_iff_exists.1
    rw [Volume.isSome_rename?, hcreated.file.isFile, hplain, hparent]
    rfl
  refine ⟨drafted, v', hdrafted, hrename, ?_, ?_⟩
  · apply h.of_edits (hcreated.sound.rename hrename)
      ((edits_of_created hcreated).trans (edits_of_rename hrename))
    exact Volume.node?_rename_source hrename (append_name_ne hname.symm)
  · intro other hdraft hother
    exact (hcreated.same _ (append_name_ne hdraft)).trans
      (Volume.sameAt_rename hrename (append_name_ne hdraft) (append_name_ne hother))

/-- What was written as a draft stands in a new file at the name that the draft took. -/
theorem Ready.fileAt_replaced {v drafted v' : Volume} {directory : Path} (h : Ready v directory)
    {name : String} {data : Bytes}
    (hdrafted : v.write? (directory ++ [draftName]) data = some drafted)
    (hrename : drafted.rename? (directory ++ [draftName]) (directory ++ [name]) = some v') :
    v'.FileAt (directory ++ [name]) v.nextId (.bytes data) := by
  obtain ⟨made, hmade, hcreated⟩ :=
    h.sound.write?_new h.draft (h.rooted.hasParent draftName) data
  rw [hdrafted] at hmade
  cases hmade
  exact Volume.fileAt_rename_target hrename hcreated.file

end Tarpit.Traffic

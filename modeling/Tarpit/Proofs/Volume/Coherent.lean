import Tarpit.Proofs.Volume.Files
import Tarpit.Traffic.MemoryStore

/-!
# Coherent volumes

Behind every file that a path leads to there is a content.  On such a volume a
file can be replaced by another one that was written beside it.
-/

namespace Tarpit.Traffic.Volume

/-- Every file has a content, and the next number is new. -/
structure Coherent (v : Volume) : Prop extends Sound v where
  filled : ∀ path id, v.node? path = some (.file id) → (v.held? id).isSome

variable {v v' : Volume} {path source target : Path}

theorem Coherent.fileAt (h : v.Coherent) {id : Nat} (hnode : v.node? path = some (.file id)) :
    ∃ c, v.FileAt path id c := by
  obtain ⟨c, hheld⟩ := Option.isSome_iff_exists.1 (h.filled path id hnode)
  exact ⟨c, hnode, hheld⟩

theorem Coherent.setContent (h : v.Coherent) (id : Nat) (c : Content) :
    (v.setContent id c).Coherent := by
  refine ⟨h.toSound.setContent id c, ?_⟩
  intro path other hnode
  have hheld := h.filled path other hnode
  by_cases hother : other = id
  · subst hother
    rw [held?_setContent hheld]
    rfl
  · rw [held?_setContent_of_ne v hother]
    exact hheld

/-- What has come about when a new file was made is coherent if the volume was. -/
theorem Coherent.created (h : v.Coherent) {c : Content} (hcreated : Created v path c v') :
    v'.Coherent := by
  refine ⟨hcreated.sound, ?_⟩
  intro other id hnode
  by_cases hother : other = path
  · subst hother
    rw [hcreated.file.node] at hnode
    cases hnode
    rw [hcreated.file.held]
    rfl
  · have hsame := hcreated.same other hother
    rw [hsame.node] at hnode
    rw [hsame.held id hnode]
    exact h.filled other id hnode

theorem Coherent.rename (h : v.Coherent) (hrename : v.rename? source target = some v') :
    v'.Coherent := by
  refine ⟨h.toSound.rename hrename, ?_⟩
  obtain ⟨id, hsource, htarget, hv'⟩ := rename?_eq_some hrename
  have hheld : ∀ other, v'.held? other = v.held? other := fun other => by rw [hv']; rfl
  intro path other hnode
  rw [hheld]
  by_cases hpath : path = target
  · subst hpath
    obtain ⟨c, hfile⟩ := h.fileAt hsource
    rw [(fileAt_rename_target hrename hfile).node] at hnode
    cases hnode
    exact h.filled source id hsource
  · by_cases hmoved : path = source
    · subst hmoved
      rw [node?_rename_source hrename hpath] at hnode
      cases hnode
    · rw [(sameAt_rename hrename hmoved hpath).node] at hnode
      exact h.filled path other hnode

/-- A file can be written where it is, or where its directory is and no other directory. -/
theorem Coherent.write? (h : v.Coherent) (hplain : v.node? path ≠ some .directory)
    (hparent : v.node? path = none → v.hasParent path = true) (data : Bytes) :
    ∃ v', v.write? path data = some v' ∧ v'.Coherent ∧
      (∃ id, v'.FileAt path id (.bytes data)) ∧
      ∀ other, other ≠ path → v'.node? other = v.node? other := by
  cases hnode : v.node? path with
  | none =>
      obtain ⟨v', hwrite, hcreated⟩ := h.toSound.write?_new hnode (hparent hnode) data
      exact ⟨v', hwrite, h.created hcreated, ⟨_, hcreated.file⟩,
        fun other hother => (hcreated.same other hother).node⟩
  | some node =>
      cases node with
      | directory => exact absurd hnode hplain
      | file id =>
          obtain ⟨c, hfile⟩ := h.fileAt hnode
          refine ⟨v.setContent id (.bytes data), ?_, h.setContent id _,
            ⟨id, hfile.setContent _⟩, fun other _ => rfl⟩
          rw [Volume.write?, hfile.openFile?]
          rfl

/-- Behind the last dot of a name there is no dot, and behind the stem of a draft there are two. -/
theorem stem_append_ne (name : List Char) :
    MemoryStore.stem name ++ ".json.tmp".toList ≠ name := by
  unfold MemoryStore.stem
  simp only
  cases hrest : name.reverse.dropWhile (· != '.') with
  | nil => simp
  | cons c rest =>
      have hc : c = '.' := by
        have hstop := List.head?_dropWhile_not (· != '.') name.reverse
        rw [hrest] at hstop
        simpa using hstop
      obtain ⟨ext, hext, hname⟩ : ∃ ext, '.' ∉ ext ∧ name = rest.reverse ++ '.' :: ext := by
        refine ⟨(name.reverse.takeWhile (· != '.')).reverse, ?_, ?_⟩
        · intro hdot
          exact absurd (List.all_eq_true.1 List.all_takeWhile '.' (List.mem_reverse.1 hdot))
            (by decide)
        · have hsplit := List.takeWhile_append_dropWhile (p := (· != '.')) (l := name.reverse)
          rw [hrest, hc] at hsplit
          have hreverse := congrArg List.reverse hsplit
          rw [List.reverse_reverse, List.reverse_append, List.reverse_cons, List.append_assoc,
            List.singleton_append] at hreverse
          exact hreverse.symm
      rw [List.drop_one, List.tail_cons]
      split
      · simp
      · intro heq
        rw [hname] at heq
        have hsame : ext = "json.tmp".toList := (List.cons.inj (List.append_cancel_left heq)).2.symm
        rw [hsame] at hext
        exact hext (by decide)

theorem draftOf_ne (h : path ≠ []) : MemoryStore.draftOf path ≠ path := by
  intro heq
  rw [MemoryStore.draftOf, List.getLast?_eq_some_getLast h] at heq
  have hlast := congrArg List.getLast? heq
  rw [Option.toList_some, List.map_singleton, List.getLast?_concat,
    List.getLast?_eq_some_getLast h] at hlast
  have hname := congrArg String.toList (Option.some.inj hlast)
  rw [String.toList_ofList] at hname
  exact stem_append_ne _ hname

end Tarpit.Traffic.Volume

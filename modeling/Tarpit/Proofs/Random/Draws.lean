import Tarpit.Random.Uniform

/-!
# Draws that end

What a draw yields, said without a bound on refusals, and things that are drawn
one after the other from the same source.
-/

namespace Tarpit.Random

variable {S : Type} [Source S]

/-- A draw that ends: how many numbers are refused, and what the first accepted one gives. -/
inductive Draws (w : Width) (range : Nat) : S → Nat → Nat × S → Prop
  | accepted {s : S} (h : accepts w range ((w.next s).1 * range) = true) :
      Draws w range s 0 (highPart w ((w.next s).1 * range), (w.next s).2)
  | refused {s : S} {refusals : Nat} {drawn : Nat × S}
      (h : accepts w range ((w.next s).1 * range) = false)
      (later : Draws w range (w.next s).2 refusals drawn) :
      Draws w range s (refusals + 1) drawn

/-- A draw that is given the tries that it needs yields what the first accepted number gives. -/
theorem Draws.drawWithin_eq {w : Width} {range refusals : Nat} {s : S} {drawn : Nat × S}
    (h : Draws w range s refusals drawn) {tries : Nat} (htries : refusals ≤ tries) :
    drawWithin w range tries s = drawn := by
  induction h generalizing tries with
  | accepted haccepts =>
      cases tries with
      | zero => rfl
      | succ tries =>
          rw [drawWithin]
          simp only [haccepts, if_true]
  | refused hrefused _ ih =>
      cases tries with
      | zero => cases htries
      | succ tries =>
          rw [drawWithin]
          simp only [hrefused, Bool.false_eq_true, if_false]
          exact ih (Nat.le_of_succ_le_succ htries)

omit [Source S]

variable {α : Type} {f : S → α × S}

/-- Things drawn one after the other, each from where the one before it left the source. -/
inductive InTurn (f : S → α × S) : S → List α → S → Prop
  | nil (s : S) : InTurn f s [] s
  | cons {s t : S} {later : List α} (h : InTurn f (f s).2 later t) :
      InTurn f s ((f s).1 :: later) t

theorem inTurn_drawMore (f : S → α × S) (done : List α) (n : Nat) (s : S) :
    ∃ more t, drawMore f done n s = (done.reverse ++ more, t) ∧ InTurn f s more t := by
  induction n generalizing done s with
  | zero => exact ⟨[], s, by rw [drawMore, List.append_nil], .nil s⟩
  | succ n ih =>
      obtain ⟨more, t, hdraw, hturn⟩ := ih ((f s).1 :: done) (f s).2
      refine ⟨(f s).1 :: more, t, ?_, .cons hturn⟩
      show drawMore f ((f s).1 :: done) n (f s).2 = _
      rw [hdraw, List.reverse_cons, List.append_assoc, List.singleton_append]

theorem inTurn_drawEach (f : S → α × S) (n : Nat) (s : S) :
    InTurn f s (drawEach f n s).1 (drawEach f n s).2 := by
  obtain ⟨more, t, hdraw, hturn⟩ := inTurn_drawMore f [] n s
  rw [drawEach, hdraw]
  exact hturn

/-- What holds of everything that can be drawn holds of all that was drawn. -/
theorem InTurn.forall_mem {p : α → Prop} {s t : S} {drawn : List α} (h : InTurn f s drawn t)
    (hf : ∀ s, p (f s).1) : ∀ a ∈ drawn, p a := by
  induction h with
  | nil s => exact List.forall_mem_nil p
  | cons _ ih => exact List.forall_mem_cons.2 ⟨hf _, ih⟩

end Tarpit.Random

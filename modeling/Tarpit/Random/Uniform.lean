import Tarpit.Random.Source

/-!
# Uniform numbers

Uniform numbers below a bound, drawn from a source of words.  A word or half of
one is stretched over the range by a multiplication; those for which that would
not be even are refused, and the next one is tried.
-/

namespace Tarpit.Random

/-- What numbers are drawn from. -/
inductive Width where
  /-- Halves of words. -/
  | half
  /-- Words. -/
  | whole
  deriving DecidableEq, Repr

def Width.bits : Width → Nat
  | .half => 32
  | .whole => 64

/-- What an index below a bound is drawn from: halves of words are enough for most. -/
def Width.ofIndex (bound : Nat) : Width :=
  if bound < 1 <<< Width.half.bits then .half else .whole

/-- The last low part of a stretched number that is accepted for a range. -/
def zone (w : Width) (range : Nat) : Nat :=
  (range <<< (w.bits - (Nat.log2 range + 1))) - 1

variable {S : Type} [Source S]

/-- The next number of a width. -/
def Width.next (w : Width) (s : S) : Nat × S :=
  match w with
  | .half =>
      let (v, s) := Source.half s
      (v.toNat, s)
  | .whole =>
      let (v, s) := Source.word s
      (v.toNat, s)

/-- The number below a range that a stretched number gives. -/
def highPart (w : Width) (stretched : Nat) : Nat :=
  stretched >>> w.bits

/-- A stretched number is accepted for a range. -/
def accepts (w : Width) (range stretched : Nat) : Bool :=
  stretched % (1 <<< w.bits) ≤ zone w range

/-- A uniform number below a range, with a bound on refusals. -/
def drawWithin (w : Width) (range : Nat) : Nat → S → Nat × S
  | 0, s =>
      let (v, s) := w.next s
      (highPart w (v * range), s)
  | tries + 1, s =>
      let (v, s) := w.next s
      if accepts w range (v * range) then (highPart w (v * range), s)
      else drawWithin w range tries s

def draw (w : Width) (range : Nat) (s : S) : Nat × S :=
  drawWithin w range (Source.tries s) s

def between (low high : Nat) (s : S) : Nat × S :=
  let (n, s) := draw .whole (high - low + 1) s
  (low + n, s)

/-- Several things drawn one after the other, behind those drawn so far in reverse. -/
def drawMore {α : Type} (f : S → α × S) (done : List α) : Nat → S → List α × S
  | 0, s => (done.reverse, s)
  | n + 1, s =>
      let (a, s) := f s
      drawMore f (a :: done) n s

def drawEach {α : Type} (f : S → α × S) (n : Nat) (s : S) : List α × S :=
  drawMore f [] n s

theorem next_lt (w : Width) (s : S) : (w.next s).1 < 1 <<< w.bits := by
  cases w with
  | half => exact (Source.half s).1.toNat_lt
  | whole => exact (Source.word s).1.toNat_lt

theorem highPart_lt {w : Width} {range v : Nat} (h : 0 < range) (hv : v < 1 <<< w.bits) :
    highPart w (v * range) < range := by
  rw [Nat.one_shiftLeft] at hv
  rw [highPart, Nat.shiftRight_eq_div_pow, Nat.div_lt_iff_lt_mul (Nat.two_pow_pos w.bits),
    Nat.mul_comm range]
  exact Nat.mul_lt_mul_of_pos_right hv h

/-- A draw stays below its range, whatever the source yields. -/
theorem drawWithin_lt {w : Width} {range : Nat} (h : 0 < range) (tries : Nat) (s : S) :
    (drawWithin w range tries s).1 < range := by
  induction tries generalizing s with
  | zero => exact highPart_lt h (next_lt w s)
  | succ n ih =>
      unfold drawWithin
      simp only
      split
      · exact highPart_lt h (next_lt w s)
      · exact ih _

theorem draw_lt {w : Width} {range : Nat} (h : 0 < range) (s : S) : (draw w range s).1 < range :=
  drawWithin_lt h _ s

theorem between_bounds {low high : Nat} (h : low ≤ high) (s : S) :
    low ≤ (between low high s).1 ∧ (between low high s).1 ≤ high := by
  have hlt : (draw .whole (high - low + 1) s).1 < high - low + 1 := draw_lt (by omega) s
  unfold between
  simp only
  omega

omit [Source S] in
theorem length_drawMore {α : Type} (f : S → α × S) (done : List α) (n : Nat) (s : S) :
    (drawMore f done n s).1.length = done.length + n := by
  induction n generalizing done s with
  | zero => simp [drawMore]
  | succ n ih =>
      unfold drawMore
      simp only
      rw [ih, List.length_cons]
      omega

omit [Source S] in
theorem length_drawEach {α : Type} (f : S → α × S) (n : Nat) (s : S) :
    (drawEach f n s).1.length = n := by
  rw [drawEach, length_drawMore, List.length_nil, Nat.zero_add]

end Tarpit.Random

import Tarpit.Rate.Level

/-!
# The rate limiter

A bucket of tokens for every client.  Tokens come back at a steady rate up to
the size of a burst, and a request costs one.  The number of clients is capped:
at the cap, clients without a bucket are turned away.
-/

namespace Tarpit.Rate

variable {R : Type} [Level R]

/-- How fast tokens come back, how many fit into a bucket, and how many buckets there are at most. -/
structure Policy (R : Type) where
  rate : R
  burst : Nat
  limit : Nat

def Policy.capacity (p : Policy R) : R :=
  Level.ofTokens p.burst

/-- A bucket with the level that it had at an instant. -/
structure Bucket (R : Type) where
  tokens : R
  updated : Instant

namespace Bucket

def full (p : Policy R) (now : Instant) : Bucket R :=
  ⟨p.capacity, now⟩

def tokensAt (p : Policy R) (b : Bucket R) (now : Instant) : R :=
  Level.smaller (Level.plus b.tokens (Level.times (elapsed b.updated now) p.rate)) p.capacity

/-- The bucket with the level of an instant.  Its own instant never goes back. -/
def refill (p : Policy R) (b : Bucket R) (now : Instant) : Bucket R :=
  ⟨b.tokensAt p now, max b.updated now⟩

/-- The level reaches a bound, or misses it by a hair. -/
def reaches (level bound : R) : Bool :=
  Level.atLeast (Level.plus level Level.slack) bound

/-- Takes a token, if there is one; tells whether there was. -/
def consume (p : Policy R) (b : Bucket R) (now : Instant) : Bool × Bucket R :=
  let b := b.refill p now
  if reaches b.tokens (Level.ofTokens 1) then
    (true, { b with
      tokens := Level.larger (Level.minus b.tokens (Level.ofTokens 1)) (Level.ofTokens 0) })
  else (false, b)

/-- The bucket is full, so that a new one would do as well. -/
def isFull (p : Policy R) (b : Bucket R) (now : Instant) : Bool :=
  reaches (b.tokensAt p now) p.capacity

end Bucket

/-- The buckets by client key.  Each key stands in the list once. -/
structure Limiter (R : Type) where
  policy : Policy R
  buckets : List (String × Bucket R)

namespace Limiter

def new (policy : Policy R) : Limiter R :=
  ⟨policy, []⟩

def bucket? (l : Limiter R) (key : String) : Option (Bucket R) :=
  l.buckets.lookup key

/-- The number of keys that have a bucket. -/
def tracked (l : Limiter R) : Nat :=
  l.buckets.length

/-- The limiter with another bucket for a key that has one. -/
def setBucket (l : Limiter R) (key : String) (b : Bucket R) : Limiter R :=
  { l with buckets := l.buckets.map fun e => if e.1 == key then (key, b) else e }

/-- The limiter with a bucket for a key that has none. -/
def addBucket (l : Limiter R) (key : String) (b : Bucket R) : Limiter R :=
  { l with buckets := l.buckets ++ [(key, b)] }

/-- Lets a request of a client through, or turns it away. -/
def allow (l : Limiter R) (key : String) (now : Instant) : Bool × Limiter R :=
  match l.bucket? key with
  | some b =>
      let (allowed, b) := b.consume l.policy now
      (allowed, l.setBucket key b)
  | none =>
      if l.policy.limit ≤ l.tracked then (false, l)
      else
        let (allowed, b) := (Bucket.full l.policy now).consume l.policy now
        (allowed, l.addBucket key b)

/-- More requests of a client at one instant, behind the answers so far in reverse. -/
def allowMore (l : Limiter R) (key : String) (now : Instant) (done : List Bool) :
    Nat → List Bool × Limiter R
  | 0 => (done.reverse, l)
  | n + 1 =>
      let (allowed, l) := l.allow key now
      l.allowMore key now (allowed :: done) n

/-- Several requests of a client at one instant, with the answers in order. -/
def allowTimes (l : Limiter R) (key : String) (now : Instant) (n : Nat) :
    List Bool × Limiter R :=
  l.allowMore key now [] n

/-- The limiter without the buckets that are full. -/
def swept (l : Limiter R) (now : Instant) : Limiter R :=
  { l with buckets := l.buckets.filter fun e => !e.2.isFull l.policy now }

/-- Removes the buckets that are full; tells how many. -/
def sweep (l : Limiter R) (now : Instant) : Nat × Limiter R :=
  (l.tracked - (l.swept now).tracked, l.swept now)

omit [Level R] in
@[simp] theorem tracked_setBucket (l : Limiter R) (key : String) (b : Bucket R) :
    (l.setBucket key b).tracked = l.tracked := by
  simp [setBucket, tracked]

omit [Level R] in
@[simp] theorem tracked_addBucket (l : Limiter R) (key : String) (b : Bucket R) :
    (l.addBucket key b).tracked = l.tracked + 1 := by
  simp [addBucket, tracked]

theorem tracked_swept_le (l : Limiter R) (now : Instant) : (l.swept now).tracked ≤ l.tracked :=
  List.length_filter_le _ _

theorem tracked_allow_le {l : Limiter R} (h : l.tracked ≤ l.policy.limit) (key : String)
    (now : Instant) : (l.allow key now).2.tracked ≤ l.policy.limit := by
  unfold allow
  split
  · simpa using h
  · split
    · exact h
    · next hroom =>
        simp only [tracked_addBucket]
        omega

/-- After a sweep there is nothing left to sweep at the same instant. -/
theorem swept_swept (l : Limiter R) (now : Instant) : (l.swept now).swept now = l.swept now := by
  simp [swept]

theorem allow_at_limit {l : Limiter R} {key : String} (hnew : l.bucket? key = none)
    (hlimit : l.policy.limit ≤ l.tracked) (now : Instant) : l.allow key now = (false, l) := by
  simp [allow, hnew, hlimit]

end Limiter

end Tarpit.Rate

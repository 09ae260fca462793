import Tarpit.Config
import Tarpit.Proofs.Number.Spelling
import Tarpit.Proofs.Rate.Opening
import Tarpit.Proofs.Text.Blank
import Tarpit.Proofs.Text.Strict

/-!
# What the settings depend on

Each setting comes from a variable of its own and from nothing else.  A whole
number is taken from the bytes that spell one, and left at the default by all
other bytes.  Settings without a fault let the first client in.
-/

namespace Tarpit

open Tarpit.Number (count? SpellsCount)

/-- The bytes of a variable, as it was set last. -/
def Environment.value? (env : Environment) (name : String) : Option Bytes :=
  env.reverse.lookup name

namespace Config

/-! ## Settings and their variables -/

/-- The settings that are whole numbers. -/
inductive Quantity where
  | burst
  | maxKeys
  | maxAgents
  | maxRecent
  | sweepSeconds
  | flushSeconds
  | delayMillis
  | topItems
  | maxLabelLength
  | recentDisplay
  | maxBodyBytes
  deriving DecidableEq, Repr

namespace Quantity

def variableName : Quantity → String
  | burst => "TRAP_RATE_BURST"
  | maxKeys => "TRAP_MAX_TRACKED_KEYS"
  | maxAgents => "TRAP_MAX_TRACKED_USER_AGENTS"
  | maxRecent => "TRAP_MAX_RECENT_REQUESTS"
  | sweepSeconds => "TRAP_SWEEP_INTERVAL"
  | flushSeconds => "TRAP_FLUSH_INTERVAL"
  | delayMillis => "TRAP_RESPONSE_DELAY_MS"
  | topItems => "TRAP_TOP_ITEMS"
  | maxLabelLength => "TRAP_MAX_LABEL_LENGTH"
  | recentDisplay => "TRAP_RECENT_DISPLAY"
  | maxBodyBytes => "TRAP_MAX_BODY_BYTES"

/-- The value of the setting. -/
def of (c : Config) : Quantity → Nat
  | burst => c.burst
  | maxKeys => c.maxKeys
  | maxAgents => c.maxAgents
  | maxRecent => c.maxRecent
  | sweepSeconds => c.sweepSeconds
  | flushSeconds => c.flushSeconds
  | delayMillis => c.delayMillis
  | topItems => c.topItems
  | maxLabelLength => c.maxLabelLength
  | recentDisplay => c.recentDisplay
  | maxBodyBytes => c.maxBodyBytes

/-- The bits that the setting has room for. -/
def width : Quantity → Nat
  | burst => 32
  | _ => 64

end Quantity

inductive Setting where
  | listen
  | rate
  | quantity (q : Quantity)
  | trustProxy
  | backend
  | dataDirectory
  | wordlist
  | form
  | secureCookie
  deriving DecidableEq, Repr

namespace Setting

def variableName : Setting → String
  | listen => "TRAP_LISTEN_ADDR"
  | rate => "TRAP_RATE_LIMIT"
  | quantity q => q.variableName
  | trustProxy => "TRAP_TRUST_PROXY"
  | backend => "TRAP_STORAGE_BACKEND"
  | dataDirectory => "TRAP_DATA_DIR"
  | wordlist => "TRAP_WORDLIST"
  | form => "TRAP_FORM_ENDPOINT"
  | secureCookie => "TRAP_SECURE_COOKIE"

/-- Two configurations have the same value of the setting. -/
def Same (c d : Config) : Setting → Prop
  | listen => c.listen = d.listen
  | rate => c.rate = d.rate
  | quantity q => q.of c = q.of d
  | trustProxy => c.trustProxy = d.trustProxy
  | backend => c.backend = d.backend
  | dataDirectory => c.dataDirectory = d.dataDirectory
  | wordlist => c.wordlist? = d.wordlist?
  | form => c.form? = d.form?
  | secureCookie => c.secureCookie = d.secureCookie

def quantities : List Quantity :=
  [.burst, .maxKeys, .maxAgents, .maxRecent, .sweepSeconds, .flushSeconds, .delayMillis, .topItems,
    .maxLabelLength, .recentDisplay, .maxBodyBytes]

def all : List Setting :=
  [listen, rate, trustProxy, backend, dataDirectory, wordlist, form, secureCookie] ++
    quantities.map quantity

theorem find?_variableName (s : Setting) :
    all.find? (fun t => t.variableName == s.variableName) = some s := by
  cases s with
  | quantity q => cases q <;> rfl
  | _ => rfl

/-- No variable belongs to two settings. -/
theorem variableName_injective {s t : Setting} (h : s.variableName = t.variableName) : s = t := by
  have hfound := find?_variableName s
  rw [h, find?_variableName t] at hfound
  exact (Option.some.inj hfound).symm

/-- There are no other settings. -/
theorem eq_of_forall_same {c d : Config} (h : ∀ s : Setting, s.Same c d) : c = d := by
  cases c
  cases d
  congr
  · exact h .listen
  · exact h .rate
  · exact h (.quantity .burst)
  · exact h (.quantity .maxKeys)
  · exact h (.quantity .maxAgents)
  · exact h (.quantity .maxRecent)
  · exact h .trustProxy
  · exact h .backend
  · exact h .dataDirectory
  · exact h (.quantity .sweepSeconds)
  · exact h (.quantity .flushSeconds)
  · exact h (.quantity .delayMillis)
  · exact h (.quantity .topItems)
  · exact h (.quantity .maxLabelLength)
  · exact h (.quantity .recentDisplay)
  · exact h .wordlist
  · exact h .form
  · exact h (.quantity .maxBodyBytes)
  · exact h .secureCookie

end Setting

/-! ## One variable for each setting -/

section

variable {env env' : Environment} {name : String}

theorem text?_congr (h : env.value? name = env'.value? name) : env.text? name = env'.text? name :=
  congrArg (Option.bind · Text.Utf8.text?) h

theorem parsed_congr {α : Type} (h : env.value? name = env'.value? name)
    (read : List Char → Option α) (default : α) :
    parsed env name read default = parsed env' name read default := by
  rw [parsed, parsed, text?_congr h]

theorem switch_congr (h : env.value? name = env'.value? name) (default : Bool) :
    switch env name default = switch env' name default := by
  rw [switch, switch, text?_congr h]

theorem textOrNone_congr (h : env.value? name = env'.value? name) :
    textOrNone env name = textOrNone env' name := by
  rw [textOrNone, textOrNone, text?_congr h]

theorem load_quantity (env : Environment) (q : Quantity) :
    q.of (load env) = parsed env q.variableName (count? (2 ^ q.width)) (q.of default) := by
  cases q <;> rfl

theorem same_load {s : Setting} (h : env.value? s.variableName = env'.value? s.variableName) :
    s.Same (load env) (load env') := by
  cases s with
  | listen => exact parsed_congr h _ _
  | rate => exact parsed_congr h _ _
  | quantity q =>
      show q.of (load env) = q.of (load env')
      rw [load_quantity, load_quantity]
      exact parsed_congr h _ _
  | trustProxy => exact switch_congr h _
  | backend =>
      exact parsed_congr h (fun cs => Traffic.Backend.parse? (String.ofList cs)) default.backend
  | dataDirectory => exact congrArg (Option.getD · default.dataDirectory) (text?_congr h)
  | wordlist => exact textOrNone_congr h
  | form => exact textOrNone_congr h
  | secureCookie => exact switch_congr h _

/-- A variable that is no setting's changes nothing, and that of a setting nothing else. -/
theorem load_of_others (h : ∀ other, other ≠ name → env.value? other = env'.value? other) :
    load env = load env' ∨
      ∃ s : Setting, s.variableName = name ∧ ∀ t, t ≠ s → t.Same (load env) (load env') := by
  by_cases hname : ∃ s : Setting, s.variableName = name
  · obtain ⟨s, rfl⟩ := hname
    refine .inr ⟨s, rfl, fun t hne => same_load (h t.variableName fun heq => hne ?_)⟩
    exact Setting.variableName_injective heq
  · refine .inl (Setting.eq_of_forall_same fun s => same_load (h s.variableName fun heq => ?_))
    exact hname ⟨s, heq⟩

end

/-! ## Whole numbers -/

/-- The bytes of a text that is a number in digits, with an optional plus sign, between blanks. -/
def Spells (data : Bytes) (n : Nat) : Prop :=
  ∃ left s right, (∀ c ∈ left, Text.isBlank c = true) ∧ (∀ c ∈ right, Text.isBlank c = true) ∧
    SpellsCount s n ∧ data = Text.Utf8.encode (left ++ (s ++ right))

theorem bare_of_spellsCount {s : List Char} {n : Nat} (h : SpellsCount s n) : Text.Bare s := by
  obtain ⟨sign, ds, hsign, -, hdigits, rfl, -⟩ := h
  apply Text.bare_of_forall
  intro c hc
  rcases List.mem_append.1 hc with hc | hc
  · rcases hsign with rfl | rfl
    · cases hc
    · rw [List.mem_singleton.1 hc]
      rfl
  · exact Number.isBlank_of_isDigit (hdigits c hc)

/-- What a whole number is read from. -/
theorem count?_trim_iff {bound n : Nat} {data : Bytes} :
    ((Text.Utf8.text? data).bind fun s => count? bound (Text.trim s.toList)) = some n ↔
      Spells data n ∧ n < bound := by
  constructor
  · intro h
    obtain ⟨s, hs, hcount⟩ := Option.bind_eq_some_iff.1 h
    obtain ⟨cs, hcs, rfl⟩ := Option.map_eq_some_iff.1 hs
    rw [String.toList_ofList] at hcount
    obtain ⟨hspells, hlt⟩ := Number.count?_eq_some_iff.1 hcount
    obtain ⟨left, right, hleft, hright, hcs'⟩ := Text.exists_around_trim cs
    refine ⟨⟨left, Text.trim cs, right, hleft, hright, hspells, ?_⟩, hlt⟩
    rw [← hcs', Text.Utf8.decode_eq_some_iff.1 hcs]
  · rintro ⟨⟨left, s, right, hleft, hright, hspells, rfl⟩, hlt⟩
    rw [Text.Utf8.text?, Text.Utf8.decode_encode, Option.map_some, Option.bind_some,
      String.toList_ofList, Text.trim_of_blank_around hleft hright,
      Text.trim_of_bare (bare_of_spellsCount hspells)]
    exact Number.count?_eq_some_iff.2 ⟨hspells, hlt⟩

theorem load_of_set {env : Environment} {q : Quantity} {data : Bytes}
    (h : env.value? q.variableName = some data) :
    q.of (load env) =
      ((Text.Utf8.text? data).bind fun s => count? (2 ^ q.width) (Text.trim s.toList)).getD
        (q.of default) := by
  have htext : env.text? q.variableName = Text.Utf8.text? data := by
    rw [Environment.text?, ← Environment.value?, h, Option.bind_some]
  rw [load_quantity, parsed, htext]

theorem load_of_spells {env : Environment} {q : Quantity} {data : Bytes} {n : Nat}
    (h : env.value? q.variableName = some data) (hspells : Spells data n)
    (hfits : n < 2 ^ q.width) : q.of (load env) = n := by
  rw [load_of_set h, count?_trim_iff.2 ⟨hspells, hfits⟩, Option.getD_some]

theorem load_of_not_spells {env : Environment} {q : Quantity} {data : Bytes}
    (h : env.value? q.variableName = some data) (hnot : ∀ n < 2 ^ q.width, ¬ Spells data n) :
    q.of (load env) = q.of default := by
  rw [load_of_set h]
  cases hread : (Text.Utf8.text? data).bind fun s =>
      count? (2 ^ q.width) (Text.trim s.toList) with
  | none => rfl
  | some n =>
      obtain ⟨hspells, hlt⟩ := count?_trim_iff.1 hread
      exact absurd hspells (hnot n hlt)

/-- A whole number has no more bits than its setting has room for. -/
theorem load_quantity_lt (env : Environment) (q : Quantity) : q.of (load env) < 2 ^ q.width := by
  rw [load_quantity, parsed]
  cases hread : (env.text? q.variableName).bind fun s =>
      count? (2 ^ q.width) (Text.trim s.toList) with
  | none => cases q <;> decide
  | some n =>
      obtain ⟨s, -, hcount⟩ := Option.bind_eq_some_iff.1 hread
      exact (Number.count?_eq_some_iff.1 hcount).2

/-! ## Settings without a fault -/

/-- What the checks ask of settings. -/
structure Usable (c : Config) : Prop where
  rate_finite : c.rate.isFinite = true
  rate_pos : 0 < c.rate
  burst_pos : 0 < c.burst
  ceiling_pos : ∀ which, 0 < c.ceiling which
  label_fits : 4 ≤ c.maxLabelLength
  port_ne : c.listen.port ≠ 0

theorem zeroCeiling?_eq_none_iff {c : Config} :
    c.zeroCeiling? = none ↔ ∀ which, 0 < c.ceiling which := by
  rw [zeroCeiling?, List.find?_eq_none]
  constructor
  · intro h which
    have hnot := h which (by cases which <;> simp)
    exact Nat.pos_of_ne_zero (by simpa using hnot)
  · intro h which _
    simpa using Nat.ne_of_gt (h which)

/-- The checks find nothing just in settings that meet all of them. -/
theorem fault?_eq_none_iff {c : Config} : c.fault? = none ↔ c.Usable := by
  constructor
  · intro h
    unfold fault? at h
    split at h
    · cases h
    next hrate =>
    split at h
    · cases h
    next hburst =>
    split at h
    · cases h
    next hzero =>
    split at h
    · cases h
    next hlabel =>
    split at h
    · cases h
    next hport =>
    have hpositive : c.rate.isFinite = true ∧ 0 < c.rate := by simpa using hrate
    exact ⟨hpositive.1, hpositive.2, Nat.pos_of_ne_zero hburst, zeroCeiling?_eq_none_iff.1 hzero,
      Nat.not_lt.1 hlabel, hport⟩
  · intro h
    have hrate : ¬ (!(c.rate.isFinite && 0 < c.rate)) = true := by
      simp [h.rate_finite, h.rate_pos]
    rw [fault?, if_neg hrate, if_neg (Nat.ne_of_gt h.burst_pos),
      zeroCeiling?_eq_none_iff.2 h.ceiling_pos]
    simp only
    rw [if_neg (Nat.not_lt.2 h.label_fits), if_neg h.port_ne]

/-- A limiter of settings without a fault lets a client in when it tracks nobody. -/
theorem allow_of_no_fault {env : Environment} (h : (load env).fault? = none)
    {l : Rate.Limiter Float} (hpolicy : l.policy = (load env).policy) (huntracked : l.tracked = 0)
    (key : String) (now : Rate.Instant) : (l.allow key now).1 = true := by
  have husable := fault?_eq_none_iff.1 h
  have hfits : (load env).burst < 2 ^ 53 :=
    Nat.lt_trans (load_quantity_lt env .burst) (by decide)
  exact Rate.Limiter.allow_of_untracked (hpolicy ▸ husable.rate_finite) (hpolicy ▸ husable.rate_pos)
    (hpolicy ▸ husable.burst_pos) (hpolicy ▸ hfits) (hpolicy ▸ husable.ceiling_pos .keys) huntracked
    key now

/--
A variable changes no setting but its own.  Bytes that spell a number with room for it set a whole
number to it, and all others leave it at its default.  Settings without a fault have a finite rate
above zero, and a limiter of theirs lets a client in when it tracks nobody.
-/
theorem load_by_variable (env : Environment) :
    (∀ name env', (∀ other, other ≠ name → env.value? other = env'.value? other) →
      load env = load env' ∨
        ∃ s : Setting, s.variableName = name ∧ ∀ t, t ≠ s → t.Same (load env) (load env')) ∧
    (∀ (q : Quantity) (data : Bytes), env.value? q.variableName = some data →
      (∀ n < 2 ^ q.width, Spells data n → q.of (load env) = n) ∧
        ((∀ n < 2 ^ q.width, ¬ Spells data n) → q.of (load env) = q.of default)) ∧
    ((load env).fault? = none →
      (load env).rate.isFinite = true ∧ 0 < (load env).rate ∧
        ∀ (l : Rate.Limiter Float) (key : String) (now : Rate.Instant),
          l.policy = (load env).policy → l.tracked = 0 → (l.allow key now).1 = true) := by
  refine ⟨fun name env' => load_of_others, ?_, ?_⟩
  · intro q data hset
    exact ⟨fun n hfits hspells => load_of_spells hset hspells hfits, load_of_not_spells hset⟩
  · intro hfault
    have husable := fault?_eq_none_iff.1 hfault
    refine ⟨husable.rate_finite, husable.rate_pos, ?_⟩
    intro l key now hpolicy huntracked
    exact allow_of_no_fault hfault hpolicy huntracked key now

/-- A burst with leading zeros, a plus sign and wide blanks around it. -/
def spelledBurst : Environment :=
  [("TRAP_RATE_LIMIT", Text.Utf8.bytes "2.5"),
    ("TRAP_RATE_BURST", Text.Utf8.bytes "\u2003+007\n")]

/-- The same with bytes for the burst that are no text. -/
def brokenBurst : Environment :=
  [("TRAP_RATE_LIMIT", Text.Utf8.bytes "2.5"), ("TRAP_RATE_BURST", [0xFF])]

theorem load_by_variable_burst :
    (∀ other, other ≠ "TRAP_RATE_BURST" → spelledBurst.value? other = brokenBurst.value? other) ∧
    (load spelledBurst).burst = 7 ∧ (load brokenBurst).burst = 20 ∧
    (∀ t, t ≠ Setting.quantity .burst → t.Same (load spelledBurst) (load brokenBurst)) ∧
    (load spelledBurst).fault? = none ∧
    ((Rate.Limiter.new (load spelledBurst).policy).allow "192.0.2.9" 0).1 = true := by
  have hothers : ∀ other, other ≠ "TRAP_RATE_BURST" →
      spelledBurst.value? other = brokenBurst.value? other := by
    intro other hne
    simp [Environment.value?, spelledBurst, brokenBurst, List.lookup_cons,
      beq_eq_false_iff_ne.2 hne]
  have hspells : Spells (Text.Utf8.bytes "\u2003+007\n") 7 :=
    ⟨['\u2003'], "+007".toList, ['\n'], List.forall_mem_singleton.2 rfl,
      List.forall_mem_singleton.2 rfl,
      ⟨['+'], "007".toList, .inr rfl, by decide, List.all_eq_true.1 (by decide), by decide,
        by decide⟩, rfl⟩
  have hbroken : ∀ n < 2 ^ Quantity.burst.width, ¬ Spells [0xFF] n := by
    rintro n - ⟨left, s, right, -, -, -, hbytes⟩
    have hread := Text.Utf8.decode_eq_some_iff.2 hbytes.symm
    cases hread
  have hvalid : (load spelledBurst).fault? = none :=
    Option.isNone_iff_eq_none.1 (by decide +kernel)
  obtain ⟨hvariables, hnumbers, hadmits⟩ := load_by_variable spelledBurst
  have hseven : (load spelledBurst).burst = 7 :=
    (hnumbers .burst _ (by decide +kernel)).1 7 (by decide) hspells
  have htwenty : (load brokenBurst).burst = 20 :=
    ((load_by_variable brokenBurst).2.1 .burst _ (by decide +kernel)).2 hbroken
  refine ⟨hothers, hseven, htwenty, ?_, hvalid, (hadmits hvalid).2.2 _ _ _ rfl rfl⟩
  rcases hvariables _ _ hothers with hsame | ⟨s, hname, hrest⟩
  · rw [hsame, htwenty] at hseven
    cases hseven
  · obtain rfl : s = .quantity .burst := Setting.variableName_injective hname
    exact hrest

end Config

end Tarpit

import Tarpit.Proofs.Lookup
import Tarpit.Proofs.Snapshot.Reload
import Tarpit.Proofs.Visit.Presentation

/-!
# Snapshots in any presentation

A snapshot is read from the five members that describe it.  Only the start time
has to be there; the collections may be missing or null, and in a table of counts
the last of several counts of a label holds.
-/

namespace Tarpit.Traffic

open Tarpit.Json

/-! ## Tables of counts -/

/-- The last count that the entries have for a label. -/
def lastCount? (entries : List (String × Value)) (label : String) : Option Nat :=
  (valuesOf entries label).getLast?.bind Value.count?

/-- The entries are counts, and the table has the last one of each label. -/
structure Counts.Tabulates (counts : Counts) (entries : List (String × Value)) : Prop where
  areCounts : ∀ e ∈ entries, (e.2.count?).isSome = true
  labels : (counts.map Prod.fst).Nodup
  last : ∀ label, counts.lookup label = lastCount? entries label

theorem Counts.lookup_set (counts : Counts) (label : String) (n : Nat) (other : String) :
    (counts.set label n).lookup other = if other = label then some n else counts.lookup other := by
  unfold Counts.set
  split
  · next hany =>
    split
    · next hself =>
      subst hself
      obtain ⟨c, hc, hlabel⟩ := List.any_eq_true.1 hany
      cases hfound : counts.lookup other with
      | none =>
          exact absurd (List.mem_map.2 ⟨c, hc, eq_of_beq hlabel⟩)
            (not_mem_map_fst_of_lookup hfound)
      | some m => rw [lookup_replace_self, hfound, Option.map_some]
    · next hother => exact lookup_replace_of_ne counts hother n
  · next hnew =>
    rw [List.lookup_append]
    split
    · next hself =>
      have hnone : counts.lookup other = none := by
        rw [List.lookup_eq_none_iff]
        intro c hc
        have hne : ¬ c.1 = label := fun hlabel =>
          hnew (List.any_eq_true.2 ⟨c, hc, beq_iff_eq.2 hlabel⟩)
        simpa [hself] using Ne.symm hne
      rw [hnone, hself, Option.none_or, List.lookup_cons_self]
    · next hother =>
      have hne : (other == label) = false := beq_eq_false_iff_ne.2 hother
      rw [List.lookup_cons, hne]
      exact Option.or_none

section

variable {entries : List (String × Value)}

/-- An entry before the others counts for its label where they have none. -/
theorem lastCount?_cons {e : String × Value} (h : ∀ e ∈ entries, (e.2.count?).isSome = true)
    (label : String) : lastCount? (e :: entries) label =
      (lastCount? entries label).or (if label = e.1 then e.2.count? else none) := by
  obtain ⟨name, value⟩ := e
  by_cases hlabel : label = name
  · subst hlabel
    rw [lastCount?, lastCount?, valuesOf_cons_self, List.getLast?_cons, if_pos rfl]
    cases hlast : (valuesOf entries label).getLast? with
    | none => rfl
    | some v =>
        obtain ⟨e, he, rfl⟩ := List.mem_map.1 (List.mem_of_getLast? hlast)
        obtain ⟨n, hn⟩ := Option.isSome_iff_exists.1 (h e (List.mem_of_mem_filter he))
        simp only [Option.getD_some, Option.bind_some, hn, Option.some_or]
  · rw [lastCount?, lastCount?, valuesOf_cons_of_ne (Ne.symm hlabel), if_neg hlabel,
      Option.or_none]

theorem exists_countsFrom? (h : ∀ e ∈ entries, (e.2.count?).isSome = true) (done : Counts) :
    ∃ counts, Snapshot.countsFrom? done entries = some counts ∧
      ∀ label, counts.lookup label = (lastCount? entries label).or (done.lookup label) := by
  induction entries generalizing done with
  | nil => exact ⟨done, rfl, fun _ => rfl⟩
  | cons e rest ih =>
      have hrest : ∀ e ∈ rest, (e.2.count?).isSome = true :=
        fun d hd => h d (List.mem_cons_of_mem e hd)
      obtain ⟨n, hn⟩ := Option.isSome_iff_exists.1 (h e List.mem_cons_self)
      obtain ⟨counts, hcounts, hlookup⟩ := ih hrest (done.set e.1 n)
      refine ⟨counts, ?_, ?_⟩
      · simp only [Snapshot.countsFrom?, hn, hcounts]
      · intro label
        rw [hlookup, lastCount?_cons hrest, Counts.lookup_set, hn, Option.or_assoc]
        split
        · rfl
        · rfl

/-- What is read of the entries is any table of them, up to the order of its labels. -/
theorem exists_counts? {content : List (List Piece × Value)} {counts : Counts}
    (hnames : namedMembers? content = some entries) (h : counts.Tabulates entries) :
    ∃ table, orNull? [] Snapshot.counts? (.object content) = some table ∧
      table.Perm counts := by
  obtain ⟨table, hread, hlookup⟩ := exists_countsFrom? h.areCounts []
  have hcounts : Snapshot.counts? (.object content) = some table := by
    rw [Snapshot.counts?, hnames, Option.bind_some, hread]
  refine ⟨table, hcounts, perm_of_lookup (yields_counts _ _ hcounts).labels h.labels ?_⟩
  intro label
  rw [hlookup, h.last, List.lookup_nil, Option.or_none]

end

/-! ## Members -/

namespace Snapshot

variable {s : Bytes} {members others : List (String × Value)} {p : Snapshot}

def fieldNames : List String :=
  ["startTime", "totalRequests", "ipCounts", "userAgents", "recentRequests"]

/-- The value is read as if the member of the name were missing. -/
inductive IsDefault : String → Value → Prop
  | total {v : Value} (zero : v.count? = some 0) : IsDefault "totalRequests" v
  | nullKeys : IsDefault "ipCounts" .null
  | emptyKeys : IsDefault "ipCounts" (.object [])
  | nullAgents : IsDefault "userAgents" .null
  | emptyAgents : IsDefault "userAgents" (.object [])
  | nullRecent : IsDefault "recentRequests" .null
  | emptyRecent : IsDefault "recentRequests" (.array [])

/-- The value is an object that describes the visit. -/
def IsVisit (item : Value) (v : Visit) : Prop :=
  ∃ content members, item = .object content ∧ namedMembers? content = some members ∧
    Visit.Describes members v

/-- The members are the five of the snapshot, with values of their kinds, and some of other names. -/
inductive Describes : List (String × Value) → Snapshot → Prop
  | intro {members others keys agents : List (String × Value)} {p : Snapshot}
      {start total : Value} {keyContent agentContent : List (List Piece × Value)}
      {items : List Value}
      (order : members.Perm
        ([("startTime", start), ("totalRequests", total), ("ipCounts", .object keyContent),
          ("userAgents", .object agentContent), ("recentRequests", .array items)] ++ others))
      (other : ∀ m ∈ others, m.1 ∉ fieldNames)
      (start_read : Visit.time? start = some p.startTime)
      (total_read : total.count? = some p.totalRequests)
      (key_names : namedMembers? keyContent = some keys)
      (keys_read : p.keyCounts.Tabulates keys)
      (agent_names : namedMembers? agentContent = some agents)
      (agents_read : p.agentCounts.Tabulates agents)
      (recent_read : List.Forall₂ IsVisit items p.recent) :
      Describes members p

/-- What is read of a text that spells an object with the members. -/
structure Presented (s : Bytes) (members : List (String × Value)) : Prop where
  read : ∀ p, Describes members p → ∃ q, decode? s = some q ∧ q.Alike p
  /-- Another text with the same members of a snapshot is read as the same. -/
  same : ∀ s' others, IsObjectText s' others → SameMembers fieldNames members others →
    decode? s' = decode? s
  started : "startTime" ∉ members.map Prod.fst → decode? s = none
  /-- A member that is missing might be there with its default. -/
  missing : ∀ name v, IsDefault name v → name ∉ members.map Prod.fst →
    ∀ s' others, IsObjectText s' others → SameMembers fieldNames ((name, v) :: members) others →
      decode? s' = decode? s
  total : "totalRequests" ∉ members.map Prod.fst →
    ∀ p, decode? s = some p → p.totalRequests = 0
  totalNull : ("totalRequests", .null) ∈ members → decode? s = none
  once : ∀ name ∈ fieldNames, 2 ≤ (members.map Prod.fst).count name → decode? s = none

/-! ### Reading the members -/

theorem ofMembers?_congr (h : SameMembers fieldNames members others) :
    ofMembers? members = ofMembers? others := by
  have hrequired : required? members "startTime" Visit.time? =
      required? others "startTime" Visit.time? := h.required? (by decide) _
  have hoptional : ∀ {α : Type} (default : α) (read : Value → Option α), ∀ name ∈ fieldNames,
      optional? members name default read = optional? others name default read :=
    fun default read _ hname => h.optional? hname default read
  simp only [fieldNames, List.forall_mem_cons] at hoptional
  simp only [ofMembers?, hrequired, hoptional]

theorem IsVisit.ofJson? {item : Value} {v : Visit} (h : IsVisit item v) :
    Visit.ofJson? item = some v := by
  obtain ⟨content, members, rfl, hnames, hdescribes⟩ := h
  rw [Visit.ofJson?, hnames, Option.bind_some, Visit.ofMembers?_of_describes hdescribes]

theorem visits?_of_forall₂ {items : List Value} {visits : List Visit}
    (h : List.Forall₂ IsVisit items visits) :
    orNull? [] visits? (.array items) = some visits := by
  show items.mapM Visit.ofJson? = some visits
  rw [mapM_eq_some_iff, ← List.forall₂_eq_eq_eq, List.forall₂_map_left_iff,
    List.forall₂_map_right_iff]
  exact h.imp fun _ _ => IsVisit.ofJson?

/-- The five by their names are read as the five in order are. -/
theorem ofMembers?_fields (start total keys agents recent : Value) :
    ofMembers? [("startTime", start), ("totalRequests", total), ("ipCounts", keys),
        ("userAgents", agents), ("recentRequests", recent)] =
      ofItems? [start, total, keys, agents, recent] := rfl

theorem exists_ofMembers? (h : Describes members p) :
    ∃ q, ofMembers? members = some q ∧ q.Alike p := by
  cases h with
  | @intro _ keys agents _ start total keyContent agentContent items order other start_read
      total_read key_names keys_read agent_names agents_read recent_read =>
    obtain ⟨keyTable, hkeys, hkeyPerm⟩ := exists_counts? key_names keys_read
    obtain ⟨agentTable, hagents, hagentPerm⟩ := exists_counts? agent_names agents_read
    have hrecent := visits?_of_forall₂ recent_read
    refine ⟨⟨p.startTime, p.totalRequests, keyTable, agentTable, p.recent⟩, ?_,
      ⟨rfl, rfl, hkeyPerm, hagentPerm, rfl⟩⟩
    rw [ofMembers?_congr ((sameMembers_of_perm order).trans (sameMembers_append other)),
      ofMembers?_fields]
    simp [ofItems?, item?, start_read, total_read, hkeys, hagents, hrecent]

theorem ofMembers?_cons_of_isDefault {name : String} {v : Value} (h : IsDefault name v)
    (habsent : name ∉ members.map Prod.fst) :
    ofMembers? ((name, v) :: members) = ofMembers? members := by
  have hnoCounts : orNull? [] counts? .null = some [] := rfl
  have hemptyCounts : orNull? [] counts? (.object []) = some [] := rfl
  have hnoVisits : orNull? [] visits? .null = some [] := rfl
  have hemptyVisits : orNull? [] visits? (.array []) = some [] := rfl
  cases h with
  | total zero =>
      simp [ofMembers?, required?_cons_of_ne, optional?_cons_of_ne, optional?_cons_self habsent,
        optional?_of_absent habsent, zero]
  | nullKeys | emptyKeys | nullAgents | emptyAgents | nullRecent | emptyRecent =>
      simp [ofMembers?, required?_cons_of_ne, optional?_cons_of_ne, optional?_cons_self habsent,
        optional?_of_absent habsent, hnoCounts, hemptyCounts, hnoVisits, hemptyVisits]

theorem count_of_ofMembers? (h : ofMembers? members = some p) :
    (members.map Prod.fst).count "startTime" = 1 ∧
      ∀ name ∈ fieldNames, (members.map Prod.fst).count name ≤ 1 := by
  simp only [ofMembers?, Option.bind_eq_bind, Option.bind_eq_some_iff] at h
  obtain ⟨start, hstart, total, htotal, keys, hkeys, agents, hagents, recent, hrecent, -⟩ := h
  have hone := count_of_required? hstart
  simp only [fieldNames, List.forall_mem_cons]
  exact ⟨hone, hone.le, count_of_optional? htotal, count_of_optional? hkeys,
    count_of_optional? hagents, count_of_optional? hrecent,
    fun _ hnil => absurd hnil List.not_mem_nil⟩

theorem total_of_ofMembers? (h : ofMembers? members = some p) :
    optional? members "totalRequests" 0 Value.count? = some p.totalRequests := by
  simp only [ofMembers?, Option.bind_eq_bind, Option.bind_eq_some_iff] at h
  obtain ⟨start, -, total, htotal, keys, -, agents, -, recent, -, hp⟩ := h
  cases hp
  exact htotal

/-! ### Texts -/

theorem decode?_of_isObjectText (h : IsObjectText s members) : decode? s = ofMembers? members := by
  obtain ⟨content, hspells, hnames⟩ := h
  rw [decode?, parse?_of_spells hspells, Option.bind_some, ofJson?, hnames, Option.bind_some]

theorem presented (h : IsObjectText s members) : Presented s members := by
  have hdecode := decode?_of_isObjectText h
  have hrefused : (∀ p, ofMembers? members ≠ some p) → decode? s = none := by
    intro hnone
    rw [hdecode, Option.eq_none_iff_forall_ne_some]
    exact hnone
  refine ⟨?read, ?same, ?started, ?missing, ?total, ?totalNull, ?once⟩
  case read =>
    intro p hp
    rw [hdecode]
    exact exists_ofMembers? hp
  case same =>
    intro s' others hothers hsame
    rw [hdecode, decode?_of_isObjectText hothers, ofMembers?_congr hsame]
  case started =>
    intro habsent
    apply hrefused
    intro p hp
    have hcount := (count_of_ofMembers? hp).1
    rw [List.count_eq_zero.2 habsent] at hcount
    cases hcount
  case missing =>
    intro name v hdefault habsent s' others hothers hsame
    rw [hdecode, decode?_of_isObjectText hothers, ← ofMembers?_congr hsame,
      ofMembers?_cons_of_isDefault hdefault habsent]
  case total =>
    intro habsent p hp
    rw [hdecode] at hp
    have htotal := total_of_ofMembers? hp
    rw [optional?_of_absent habsent] at htotal
    exact (Option.some.inj htotal).symm
  case totalNull =>
    intro hnull
    apply hrefused
    intro p hp
    cases read_of_optional? (total_of_ofMembers? hp) hnull
  case once =>
    intro name hname htwo
    apply hrefused
    intro p hp
    have hcount := (count_of_ofMembers? hp).2 name hname
    omega

end Snapshot

/-! ## All texts of objects -/

/--
The text of an object is read by its members: with the members of a visit once each as that visit,
and with those of a snapshot as that snapshot, in any order, with any white space and beside any
members of other names.  A member whose name is no text makes the whole unreadable.
-/
theorem presented_of_spells {content : List (List Piece × Value)} {s : Bytes}
    (h : Spells (Value.object content).tokens s) :
    (namedMembers? content = none → Visit.decode? s = none ∧ Snapshot.decode? s = none) ∧
    ∀ members, namedMembers? content = some members →
      Visit.Presented s members ∧ Snapshot.Presented s members := by
  constructor
  · intro hnames
    rw [Visit.decode?, Snapshot.decode?, parse?_of_spells h]
    simp only [Option.bind_some, Visit.ofJson?, Snapshot.ofJson?, hnames, Option.bind_none,
      and_self]
  · intro members hnames
    exact ⟨Visit.presented ⟨content, h, hnames⟩, Snapshot.presented ⟨content, h, hnames⟩⟩

/-- The members of a visit the other way round, and one of another name. -/
def markedMembers : List (String × Value) :=
  [("marks", .array [.null, .bool true]), ("Timestamp", .text "2023-11-14T22:13:20Z"),
    ("Path", .text "/a"), ("UserAgent", .text "bot"), ("IP", .text "10.0.0.1")]

def markedText : Bytes :=
  Text.Utf8.bytes ("\x7b \"marks\" : [ null , true ] , " ++
    "\"Timestamp\" : \"2023-11-14T22:13:20Z\" , \"Path\" : \"/a\" , " ++
    "\"UserAgent\" : \"bot\" , \"IP\" : \"10.0.0.1\" \x7d ")

def markedVisit : Visit :=
  ⟨"10.0.0.1", "bot", "/a", ⟨1700000000, 0⟩⟩

theorem spells_markedText : Spells (Value.ofMembers markedMembers).tokens markedText := by
  have htext : markedText = spaced (Value.ofMembers markedMembers).tokens := by decide +kernel
  rw [htext]
  apply spells_spaced
  simp only [Value.ofMembers, markedMembers, List.map_cons, List.map_nil, Value.tokens,
    membersTokens, itemsTokens, Value.text, List.cons_append, List.nil_append,
    List.forall_mem_cons, Token.hasForm_text]
  simp [Token.HasForm]

theorem describes_markedVisit : Visit.Describes markedMembers markedVisit := by
  have horder : markedMembers.Perm ([("IP", .text "10.0.0.1"), ("UserAgent", .text "bot"),
      ("Path", .text "/a"), ("Timestamp", .text "2023-11-14T22:13:20Z")] ++
        [("marks", .array [.null, .bool true])]) := (List.reverse_perm markedMembers).symm
  have htime : Visit.time? (.text "2023-11-14T22:13:20Z") = some ⟨1700000000, 0⟩ := by
    decide +kernel
  exact .intro horder (by simp [Visit.fieldNames]) (text?_text _) (text?_text _) (text?_text _)
    htime

/-- The members of a snapshot the other way round, with two counts of one label. -/
def talliedMembers : List (String × Value) :=
  [("recentRequests", .array []), ("userAgents", .ofMembers []),
    ("ipCounts", .ofMembers [("a", .count 1), ("a", .count 2)]), ("totalRequests", .count 3),
    ("startTime", .text "2023-11-14T22:13:20Z")]

def talliedText : Bytes :=
  Text.Utf8.bytes ("\x7b \"recentRequests\" : [ ] , \"userAgents\" : \x7b \x7d , " ++
    "\"ipCounts\" : \x7b \"a\" : 1 , \"a\" : 2 \x7d , \"totalRequests\" : 3 , " ++
    "\"startTime\" : \"2023-11-14T22:13:20Z\" \x7d ")

def talliedSnapshot : Snapshot :=
  ⟨⟨1700000000, 0⟩, 3, [("a", 2)], [], []⟩

theorem spells_talliedText : Spells (Value.ofMembers talliedMembers).tokens talliedText := by
  have htext : talliedText = spaced (Value.ofMembers talliedMembers).tokens := by decide +kernel
  rw [htext]
  apply spells_spaced
  simp only [Value.ofMembers, talliedMembers, List.map_cons, List.map_nil, Value.tokens,
    membersTokens, Value.text, Value.count, List.cons_append, List.nil_append,
    List.forall_mem_cons, Token.hasForm_text]
  simp [Token.HasForm, isNumeral_digits]

theorem describes_talliedSnapshot : Snapshot.Describes talliedMembers talliedSnapshot := by
  have htime : Visit.time? (.text "2023-11-14T22:13:20Z") = some ⟨1700000000, 0⟩ := by
    decide +kernel
  have hone : (Value.count 1).count? = some 1 := count?_count (by decide)
  have htwo : (Value.count 2).count? = some 2 := count?_count (by decide)
  have hthree : (Value.count 3).count? = some 3 := count?_count (by decide)
  have htable : Counts.Tabulates [("a", 2)] [("a", .count 1), ("a", .count 2)] := by
    refine ⟨by simp [hone, htwo], by simp, ?_⟩
    intro label
    by_cases hlabel : label = "a"
    · subst hlabel
      exact htwo.symm
    · have hne : (label == "a") = false := beq_eq_false_iff_ne.2 hlabel
      rw [List.lookup_cons, hne, lastCount?, valuesOf_cons_of_ne (Ne.symm hlabel),
        valuesOf_cons_of_ne (Ne.symm hlabel)]
      rfl
  have hempty : Counts.Tabulates [] [] := ⟨by simp, by simp, fun _ => rfl⟩
  have horder : talliedMembers.Perm ([("startTime", .text "2023-11-14T22:13:20Z"),
      ("totalRequests", .count 3), ("ipCounts", .ofMembers [("a", .count 1), ("a", .count 2)]),
      ("userAgents", .ofMembers []), ("recentRequests", .array [])] ++ []) :=
    (List.reverse_perm talliedMembers).symm
  exact .intro horder (by simp) htime hthree (namedMembers?_map _) htable (namedMembers?_map [])
    hempty .nil

theorem presented_texts : Visit.decode? markedText = some markedVisit ∧
    Snapshot.decode? talliedText = some talliedSnapshot := by
  have hmarked := (presented_of_spells spells_markedText).2 markedMembers (namedMembers?_map _)
  have htallied := (presented_of_spells spells_talliedText).2 talliedMembers (namedMembers?_map _)
  refine ⟨hmarked.1.read markedVisit describes_markedVisit, ?_⟩
  obtain ⟨⟨start, total, keys, agents, recent⟩, hread, halike⟩ :=
    htallied.2.read talliedSnapshot describes_talliedSnapshot
  obtain ⟨rfl, rfl, hkeys, hagents, rfl⟩ := halike
  have hkeys : keys = [("a", 2)] := List.perm_singleton.1 hkeys
  have hagents : agents = [] := List.perm_nil.1 hagents
  rw [hread, hkeys, hagents]
  rfl

/-! ## Names that are no texts -/

/-- The members of the visit and one of another name, which is half of a character. -/
def halfContent : List (List Piece × Value) :=
  markedMembers.map (fun m => (textPieces m.1, m.2)) ++ [([.unit 0xD800], .null)]

def halfText : Bytes :=
  Text.Utf8.bytes ("\x7b \"marks\" : [ null , true ] , " ++
    "\"Timestamp\" : \"2023-11-14T22:13:20Z\" , \"Path\" : \"/a\" , " ++
    "\"UserAgent\" : \"bot\" , \"IP\" : \"10.0.0.1\" , \"\\ud800\" : null \x7d ")

/-- Of two texts that differ by a member of another name one is read and the other is not. -/
theorem decode?_halfText :
    Spells (Value.ofMembers markedMembers).tokens markedText ∧
    Visit.decode? markedText = some markedVisit ∧
    Spells (Value.object halfContent).tokens halfText ∧ Visit.decode? halfText = none := by
  have hhalf : Spells (Value.object halfContent).tokens halfText := by
    have htext : halfText = spaced (Value.object halfContent).tokens := by decide +kernel
    rw [htext]
    apply spells_spaced
    simp only [halfContent, markedMembers, List.map_cons, List.map_nil, Value.tokens,
      membersTokens, itemsTokens, Value.text, List.cons_append, List.nil_append,
      List.forall_mem_cons, Token.hasForm_text]
    simp [Token.HasForm, Piece.IsRead]
  have hnames : namedMembers? halfContent = none := by decide +kernel
  refine ⟨spells_markedText, ?_, hhalf, ?_⟩
  · have hmarked : IsObjectText markedText markedMembers :=
      ⟨_, spells_markedText, namedMembers?_map _⟩
    exact (Visit.presented hmarked).read markedVisit describes_markedVisit
  · rw [Visit.decode?, parse?_of_spells hhalf, Option.bind_some, Visit.ofJson?, hnames,
      Option.bind_none]

end Tarpit.Traffic

import Mathlib.Data.List.TakeWhile
import Tarpit.Proofs.Net.Canonical
import Tarpit.Proofs.Net.Header

/-!
# The address that a client is known by

Which address the headers and the peer of a request name, by the spellings of
addresses alone, and the key as the canonical text of that address.
-/

namespace Tarpit.Net

/-! ## Entries of headers -/

/-- The first entry of the first list of forwarded addresses, without the blanks around it. -/
def forwardedText? (headers : Headers) : Option (List Char) :=
  (headers.text? "x-forwarded-for").map fun s => Text.trim (s.toList.takeWhile (· != ','))

/-- The first field with a real address, without the blanks around it. -/
def realText? (headers : Headers) : Option (List Char) :=
  (headers.text? "x-real-ip").map fun s => Text.trim s.toList

/-- There is an entry, and it spells the address. -/
def Names (text? : Option (List Char)) (a : Address) : Prop :=
  ∃ s, text? = some s ∧ Spells s a

/--
The address of a client: that of the peer where the headers do not count, else the forwarded one,
else the real one, else that of the peer.
-/
inductive KnownAs (headers : Headers) (peer : Endpoint) : Bool → Address → Prop where
  | untrusted : KnownAs headers peer false peer.address
  | forwarded {a : Address} (h : Names (forwardedText? headers) a) : KnownAs headers peer true a
  | real {a : Address} (hforwarded : ∀ b, ¬ Names (forwardedText? headers) b)
      (h : Names (realText? headers) a) : KnownAs headers peer true a
  | direct (hforwarded : ∀ b, ¬ Names (forwardedText? headers) b)
      (hreal : ∀ b, ¬ Names (realText? headers) b) : KnownAs headers peer true peer.address

variable {trusted : Bool} {headers : Headers} {peer : Endpoint} {a : Address}

theorem forwardedFor?_eq_some_iff :
    forwardedFor? headers = some a ↔ Names (forwardedText? headers) a := by
  unfold forwardedFor? forwardedText? Names addressIn?
  cases headers.text? "x-forwarded-for" with
  | none => simp
  | some s => simp [Address.of?_eq_some_iff]

theorem realAddress?_eq_some_iff :
    realAddress? headers = some a ↔ Names (realText? headers) a := by
  unfold realAddress? realText? Names addressIn?
  cases headers.text? "x-real-ip" with
  | none => simp
  | some s => simp [Address.of?_eq_some_iff]

theorem forwardedFor?_eq_none_iff :
    forwardedFor? headers = none ↔ ∀ b, ¬ Names (forwardedText? headers) b := by
  simp only [Option.eq_none_iff_forall_ne_some, ne_eq, forwardedFor?_eq_some_iff]

theorem realAddress?_eq_none_iff :
    realAddress? headers = none ↔ ∀ b, ¬ Names (realText? headers) b := by
  simp only [Option.eq_none_iff_forall_ne_some, ne_eq, realAddress?_eq_some_iff]

theorem knownAs_clientAddress (trusted : Bool) (headers : Headers) (peer : Endpoint) :
    KnownAs headers peer trusted (clientAddress trusted headers peer) := by
  cases trusted with
  | false => exact .untrusted
  | true =>
      rw [clientAddress, if_pos rfl]
      cases hforwarded : forwardedFor? headers with
      | some a => exact .forwarded (forwardedFor?_eq_some_iff.1 hforwarded)
      | none =>
          have hnone := forwardedFor?_eq_none_iff.1 hforwarded
          cases hreal : realAddress? headers with
          | some a => exact .real hnone (realAddress?_eq_some_iff.1 hreal)
          | none => exact .direct hnone (realAddress?_eq_none_iff.1 hreal)

/-- A client is known by one address only. -/
theorem KnownAs.eq_clientAddress (h : KnownAs headers peer trusted a) :
    a = clientAddress trusted headers peer := by
  cases h with
  | untrusted => rfl
  | forwarded h => rw [clientAddress, if_pos rfl, forwardedFor?_eq_some_iff.2 h]
  | real hforwarded h =>
      rw [clientAddress, if_pos rfl, forwardedFor?_eq_none_iff.2 hforwarded,
        realAddress?_eq_some_iff.2 h]
      rfl
  | direct hforwarded hreal =>
      rw [clientAddress, if_pos rfl, forwardedFor?_eq_none_iff.2 hforwarded,
        realAddress?_eq_none_iff.2 hreal]
      rfl

theorem KnownAs.clientKey_eq (h : KnownAs headers peer trusted a) :
    clientKey trusted headers peer = a.text := by
  rw [h.eq_clientAddress, clientKey]

/-! ## Keys in headers -/

theorem isBlank_of_isSpelling {c : Char} (h : IsSpelling c) : Text.isBlank c = false := by
  obtain ⟨hlow, hhigh⟩ := h
  simp only [Text.isBlank, Bool.or_eq_false_iff, Bool.and_eq_false_iff, decide_eq_false_iff_not,
    beq_eq_false_iff_ne]
  omega

theorem trim_of_isSpelling {s : List Char} (h : ∀ c ∈ s, IsSpelling c) : Text.trim s = s :=
  Text.trim_eq_self (fun c hc => isBlank_of_isSpelling (h c (List.mem_of_mem_head? hc)))
    fun c hc => isBlank_of_isSpelling (h c (List.mem_of_getLast? hc))

theorem takeWhile_of_isSpelling {s : List Char} (h : ∀ c ∈ s, IsSpelling c) :
    s.takeWhile (· != ',') = s := by
  rw [List.takeWhile_eq_self_iff]
  intro c hc
  have hlow := (h c hc).1
  rw [bne_iff_ne]
  rintro rfl
  exact absurd hlow (by decide)

theorem IsSpelling.isPrintable {c : Char} (h : IsSpelling c) : IsPrintable c := by
  obtain ⟨hlow, hhigh⟩ := h
  left
  omega

/-- A field that holds such characters is read as their text. -/
theorem text?_of_isSpelling {field : Header} {s : List Char} (h : ∀ c ∈ s, IsSpelling c)
    (hfield : field.value = Text.Utf8.encode s) : field.text? = some (String.ofList s) :=
  text?_of_isPrintable (fun c hc => (h c hc).isPrintable) hfield

/-- A trusted proxy that forwards for the text of an address names the address. -/
theorem knownAs_of_text {field : Header} (hfirst : headers.first? "x-forwarded-for" = some field)
    (hfield : field.value = Text.Utf8.encode a.text.toList) : KnownAs headers peer true a := by
  have hspells := spells_chars a
  have hchars : a.text.toList = a.chars := String.toList_ofList
  rw [hchars] at hfield
  refine .forwarded ⟨a.chars, ?_, hspells⟩
  rw [forwardedText?, Headers.text?, hfirst, Option.bind_some,
    text?_of_isSpelling hspells.isSpelling hfield, Option.map_some, String.toList_ofList,
    takeWhile_of_isSpelling hspells.isSpelling, trim_of_isSpelling hspells.isSpelling]

/--
The key of a client is the canonical text of the address that it is known by.  Clients have the
same key just if they are known by the same address, however it was spelt.  A key that comes back
as a forwarded address stays the same, and without trust no header counts.
-/
theorem clientKey_canonical (trusted : Bool) (headers : Headers) (peer : Endpoint) :
    (∃ a, KnownAs headers peer trusted a ∧ clientKey trusted headers peer = a.text ∧
      Spells a.text.toList a) ∧
    (∀ trusted' headers' peer' a b, KnownAs headers peer trusted a →
      KnownAs headers' peer' trusted' b →
      (clientKey trusted headers peer = clientKey trusted' headers' peer' ↔ a = b)) ∧
    (∀ headers' peer' field, Headers.first? headers' "x-forwarded-for" = some field →
      field.value = Text.Utf8.encode (clientKey trusted headers peer).toList →
      clientKey true headers' peer' = clientKey trusted headers peer) ∧
    ∀ headers', clientKey false headers' peer = clientKey false headers peer := by
  refine ⟨⟨clientAddress trusted headers peer, knownAs_clientAddress _ _ _, rfl, ?_⟩, ?_, ?_,
    fun _ => rfl⟩
  · rw [Address.text, String.toList_ofList]
    exact spells_chars _
  · intro trusted' headers' peer' a b ha hb
    rw [ha.clientKey_eq, hb.clientKey_eq]
    exact ⟨fun h => Address.text_injective h, fun h => congrArg Address.text h⟩
  · intro headers' peer' field hfirst hfield
    exact (knownAs_of_text hfirst hfield).clientKey_eq

def crawlerPeer : Endpoint :=
  ⟨.v4 ⟨192, 0, 2, 9⟩, 0, 5555⟩

def crawlerAddress : Address :=
  .v6 ⟨[0x2001, 0xDB8, 0, 0, 0, 0, 0, 1], rfl⟩

/-- The address in capitals with a double colon, as the first of two entries. -/
def gapHeaders : Headers :=
  [⟨"X-Forwarded-For", Text.Utf8.encode " 2001:DB8::1 , 10.0.0.1".toList⟩]

/-- The address with zeros in front of a group and four bytes at the end, behind a forged entry. -/
def dottedHeaders : Headers :=
  [⟨"x-forwarded-for", Text.Utf8.encode "unknown, 10.0.0.1".toList⟩,
    ⟨"X-Real-IP", Text.Utf8.encode "2001:0db8:0:0:0:0:0.0.0.1".toList⟩]

/-- The key as the only forwarded address. -/
def keyHeaders : Headers :=
  [⟨"X-FORWARDED-FOR", Text.Utf8.encode "2001:db8::1".toList⟩]

theorem clientKey_canonical_crawler :
    clientKey true gapHeaders crawlerPeer = "2001:db8::1" ∧
    clientKey true gapHeaders crawlerPeer = clientKey true dottedHeaders crawlerPeer ∧
    clientKey true keyHeaders crawlerPeer = clientKey true gapHeaders crawlerPeer ∧
    clientKey false gapHeaders crawlerPeer = clientKey false keyHeaders crawlerPeer := by
  have haddress : clientAddress true gapHeaders crawlerPeer = crawlerAddress := by decide +kernel
  have haddress' : clientAddress true dottedHeaders crawlerPeer = crawlerAddress := by
    decide +kernel
  have hkey : clientKey true gapHeaders crawlerPeer = "2001:db8::1" := by decide +kernel
  obtain ⟨-, hsame, hback, huntrusted⟩ := clientKey_canonical true gapHeaders crawlerPeer
  have hgap := haddress ▸ knownAs_clientAddress true gapHeaders crawlerPeer
  have hdotted := haddress' ▸ knownAs_clientAddress true dottedHeaders crawlerPeer
  refine ⟨hkey, (hsame _ _ _ _ _ hgap hdotted).2 rfl, hback _ _ _ rfl (by rw [hkey]), ?_⟩
  exact (huntrusted keyHeaders).symm

end Tarpit.Net

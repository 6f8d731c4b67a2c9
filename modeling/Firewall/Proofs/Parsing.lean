import Firewall.Proofs.Lettering

/-!
Tokens as the words of a grammar. A token is a name, rates in braces, markers for the hosts, and
colons before a network; it declares the interface that these parts spell, and every other token is
refused.
-/

namespace Firewall
namespace Interface

open Text (trim isBlank cut_iff cut_append_cons)

/-! ### The grammar -/

/-- What stands in braces behind a name. -/
inductive SpellsRates : List Char → Option Rates → Prop
  | none : SpellsRates [] none
  | some {inText outText : List Char} : Rate.Accepts inText → Rate.Accepts outText →
      SpellsRates ('\x7b' :: (inText ++ ',' :: (outText ++ ['\x7d'])))
        (some { inbound := String.ofList (trim inText), outbound := String.ofList (trim outText) })

/-- Markers, in any number and order. -/
inductive SpellsHosts : List Char → HostKinds → Prop
  | none : SpellsHosts [] {}
  | mac {cs : List Char} {hosts : HostKinds} : SpellsHosts cs hosts →
      SpellsHosts ("+mac".toList ++ cs) { hosts with mac := true }
  | windows {cs : List Char} {hosts : HostKinds} : SpellsHosts cs hosts →
      SpellsHosts ("+win".toList ++ cs) { hosts with windows := true }

/-- A colon, perhaps more of them, and a network. -/
inductive SpellsNetwork : List Char → Bool → Network → Prop
  | none : SpellsNetwork [] false .any
  | some {cs : List Char} {n : Network} (more : Nat) : Network.parse (String.ofList cs) = .ok n →
      SpellsNetwork (':' :: (List.replicate more ':' ++ cs)) (0 < more) n

/-- The text spells an interface that is in no registry. -/
inductive Spells : List Char → Interface → Prop
  | mk {name rated marked networked : List Char} {rates : Option Rates} {hosts : HostKinds}
      {trusted : Bool} {network : Network} :
      name ≠ [] → (∀ c ∈ name, isNameChar c = true) → SpellsRates rated rates →
      SpellsHosts marked hosts → SpellsNetwork networked trusted network →
      Spells (name ++ rated ++ marked ++ networked)
        { name := String.ofList name, network, trusted, hosts, rates }

/-! ### The name and the rates -/

/-- The characters by which the parts of a token are told apart. -/
def delimiters : List Char := ['\x7b', '\x7d', ',', '+', ':']

variable {token : String} {cs name rated marked networked inText outText : List Char} {c : Char}
  {i : Interface} {rates : Option Rates} {hosts : HostKinds} {trusted : Bool} {network : Network}

theorem delimiter_not_mem_of_accepts (accepts : Rate.Accepts cs) (hc : c ∈ delimiters) :
    c ∉ cs := by
  have apart : (delimiters.all fun c =>
      !Text.isDigit c && !isBlank c && !Rate.letters.contains c) = true := rfl
  have none_ := List.all_eq_true.mp apart c hc
  simp only [Bool.and_eq_true, Bool.not_eq_true', List.contains_eq_mem, decide_eq_false_iff_not]
    at none_
  exact accepts.not_mem none_.1.1 none_.1.2 none_.2

theorem delimiter_not_mem_of_name (named : ∀ c ∈ name, isNameChar c = true)
    (hc : c ∈ delimiters) : c ∉ name := by
  have apart : (delimiters.all (!isNameChar ·)) = true := rfl
  intro inside
  simpa [named c inside] using List.all_eq_true.mp apart c hc

theorem isBrace_of_not_mem (opening : '\x7b' ∉ cs) (closing : '\x7d' ∉ cs) :
    ∀ c ∈ cs, isBrace c = false := by
  intro c hc
  have other : c ≠ '\x7b' ∧ c ≠ '\x7d' :=
    ⟨fun same => opening (same ▸ hc), fun same => closing (same ▸ hc)⟩
  simp [isBrace, other]

section

variable {ε α β : Type} {x : Except ε α} {cause : ε}

theorem bind_eq_error_iff {f : α → Except ε β} :
    x >>= f = .error cause ↔ x = .error cause ∨ ∃ a, x = .ok a ∧ f a = .error cause := by
  cases x <;> simp [bind, Except.bind]

theorem map_eq_ok_iff {f : α → β} {b : β} : x.map f = .ok b ↔ ∃ a, x = .ok a ∧ f a = b := by
  cases x <;> simp [Except.map]

theorem map_eq_error_iff {f : α → β} : x.map f = .error cause ↔ x = .error cause := by
  cases x <;> simp [Except.map]

end

theorem isInner_iff :
    (!isBrace c && decide (c ≠ ',')) = true ↔ isBrace c = false ∧ c ≠ ',' := by simp

/-- A text with rates ends in the closing brace, or in a line feed behind it. -/
theorem exists_of_splitRates? (split_ : splitRates? cs = some (name, inText, outText)) :
    ∃ trail, (trail = [] ∨ trail = ['\n']) ∧
      cs = name ++ '\x7b' :: (inText ++ ',' :: (outText ++ '\x7d' :: trail)) ∧
        (∀ c ∈ name, isBrace c = false) ∧ (∀ c ∈ inText, isBrace c = false ∧ c ≠ ',') ∧
        ∀ c ∈ outText, isBrace c = false ∧ c ≠ ',' := by
  simp only [splitRates?] at split_
  split at split_
  case h_2 => cases split_
  rename_i rest brace
  split at split_
  case h_2 => cases split_
  rename_i more comma
  split at split_
  case isFalse => cases split_
  rename_i closing
  cases split_
  obtain ⟨trail, ends, closed⟩ : ∃ trail, (trail = [] ∨ trail = ['\n']) ∧
      more.dropWhile (fun c => !isBrace c && decide (c ≠ ',')) = '\x7d' :: trail :=
    closing.elim (⟨[], .inl rfl, ·⟩) (⟨['\n'], .inr rfl, ·⟩)
  obtain ⟨cs_eq, named, -⟩ := cut_iff.mp ⟨rfl, brace⟩
  obtain ⟨rest_eq, inside, -⟩ := cut_iff.mp ⟨rfl, comma⟩
  obtain ⟨more_eq, outside, -⟩ := cut_iff.mp ⟨rfl, closed⟩
  -- The three cuts put together are the text.
  refine ⟨trail, ends, ?_, by simpa using named, fun c hc => isInner_iff.mp (inside c hc),
    fun c hc => isInner_iff.mp (outside c hc)⟩
  rw [← more_eq, ← rest_eq]
  exact cs_eq

theorem splitRates?_eq_some_iff (plain : '\n' ∉ cs) :
    splitRates? cs = some (name, inText, outText) ↔
      cs = name ++ '\x7b' :: (inText ++ ',' :: (outText ++ ['\x7d'])) ∧
        (∀ c ∈ name, isBrace c = false) ∧ (∀ c ∈ inText, isBrace c = false ∧ c ≠ ',') ∧
        ∀ c ∈ outText, isBrace c = false ∧ c ≠ ',' := by
  constructor
  · intro split_
    obtain ⟨trail, rfl | rfl, cs_eq, parts⟩ := exists_of_splitRates? split_
    · exact ⟨cs_eq, parts⟩
    · exact absurd (by simp [cs_eq]) plain
  · rintro ⟨rfl, named, inside, outside⟩
    have named : ∀ c ∈ name, (!isBrace c) = true := by simpa using named
    obtain ⟨name_eq, brace⟩ := cut_append_cons '\x7b' (inText ++ ',' :: (outText ++ ['\x7d']))
      named rfl
    obtain ⟨in_eq, comma⟩ := cut_append_cons ',' (outText ++ ['\x7d'])
      (fun c hc => isInner_iff.mpr (inside c hc)) rfl
    obtain ⟨out_eq, closing⟩ := cut_append_cons '\x7d' []
      (fun c hc => isInner_iff.mpr (outside c hc)) rfl
    simp only [splitRates?, name_eq, brace, in_eq, comma, out_eq, closing, true_or, if_true]

/-- The text before the markers and the network is a name, or a name and rates. -/
theorem parseName_eq_ok_iff (plain : '\n' ∉ cs) :
    parseName token cs = .ok (name, rates) ↔
      ∃ rated, cs = name ++ rated ∧ (∀ c ∈ name, isBrace c = false) ∧
        SpellsRates rated rates := by
  unfold parseName
  constructor
  · intro parsed
    split at parsed
    · split at parsed
      · cases parsed
      · rename_i parts
        obtain ⟨inbound, inRead, parsed⟩ := bind_eq_ok_iff.mp parsed
        obtain ⟨outbound, outRead, parsed⟩ := bind_eq_ok_iff.mp parsed
        cases parsed
        obtain ⟨cs_eq, named, -, -⟩ := (splitRates?_eq_some_iff plain).mp parts
        rw [(Rate.parse_eq_ok_iff.mp inRead).2, (Rate.parse_eq_ok_iff.mp outRead).2]
        exact ⟨_, cs_eq, named, .some ⟨_, inRead⟩ ⟨_, outRead⟩⟩
    · rename_i free
      cases parsed
      exact ⟨[], (List.append_nil _).symm, by simpa using free, .none⟩
  · rintro ⟨rated, rfl, named, spelled⟩
    cases spelled with
    | none =>
        rw [List.append_nil, if_neg (by simpa using named)]
    | @some inText outText inAccepts outAccepts =>
        have free {text : List Char} (accepts : Rate.Accepts text) :
            ∀ c ∈ text, isBrace c = false ∧ c ≠ ',' := by
          refine fun c hc => ⟨isBrace_of_not_mem (delimiter_not_mem_of_accepts accepts (by decide))
            (delimiter_not_mem_of_accepts accepts (by decide)) c hc, ?_⟩
          rintro rfl
          exact delimiter_not_mem_of_accepts accepts (by decide) hc
        rw [if_pos (by simp [isBrace]), (splitRates?_eq_some_iff plain).mpr
          ⟨rfl, named, free inAccepts, free outAccepts⟩]
        obtain ⟨inbound, inRead⟩ := inAccepts
        obtain ⟨outbound, outRead⟩ := outAccepts
        rw [← (Rate.parse_eq_ok_iff.mp inRead).2, ← (Rate.parse_eq_ok_iff.mp outRead).2]
        exact bind_eq_ok_iff.mpr ⟨_, inRead, bind_eq_ok_iff.mpr ⟨_, outRead, rfl⟩⟩

theorem isBandwidth_of_parseName {cause : Malformed}
    (failed : parseName token cs = .error cause) : cause.isBandwidth = true := by
  have rate {text : String} (failed : Rate.parse text = .error cause) :
      cause.isBandwidth = true := by
    simp only [Rate.parse] at failed
    split at failed
    · cases failed
    · cases failed
      rfl
  unfold parseName at failed
  split at failed
  · split at failed
    · cases failed
      rfl
    · rcases bind_eq_error_iff.mp failed with inbound | ⟨_, -, failed⟩
      · exact rate inbound
      · rcases bind_eq_error_iff.mp failed with outbound | ⟨_, -, failed⟩
        · exact rate outbound
        · cases failed
  · cases failed

/-! ### The markers -/

theorem spellsHosts_of_parseMarkers {parts : List (List Char)}
    (parsed : parseMarkers token parts = .ok hosts) :
    SpellsHosts (parts.flatMap ('+' :: ·)) hosts := by
  induction parts generalizing hosts with
  | nil =>
      cases parsed
      exact .none
  | cons marker rest ih =>
      rw [parseMarkers] at parsed
      rw [List.flatMap_cons]
      split at parsed
      · rename_i mac
        obtain ⟨more, later, rfl⟩ := map_eq_ok_iff.mp parsed
        rw [mac]
        exact (ih later).mac
      · split at parsed
        · rename_i win
          obtain ⟨more, later, rfl⟩ := map_eq_ok_iff.mp parsed
          rw [win]
          exact (ih later).windows
        · cases parsed

/-- Markers are told apart by the plus sign before each. -/
theorem SpellsHosts.exists_parts (h : SpellsHosts marked hosts) (token : String) :
    ∃ parts, marked = parts.flatMap ('+' :: ·) ∧ (∀ part ∈ parts, '+' ∉ part) ∧
      parseMarkers token parts = .ok hosts := by
  induction h with
  | none => exact ⟨[], rfl, by simp, rfl⟩
  | mac _ ih =>
      obtain ⟨parts, rfl, free, parsed⟩ := ih
      refine ⟨"mac".toList :: parts, rfl, List.forall_mem_cons.mpr ⟨by simp, free⟩, ?_⟩
      rw [parseMarkers, if_pos rfl, parsed]
      rfl
  | windows _ ih =>
      obtain ⟨parts, rfl, free, parsed⟩ := ih
      refine ⟨"win".toList :: parts, rfl, List.forall_mem_cons.mpr ⟨by simp, free⟩, ?_⟩
      rw [parseMarkers, if_neg (by simp), if_pos rfl, parsed]
      rfl

theorem SpellsHosts.colon_not_mem (h : SpellsHosts marked hosts) : ':' ∉ marked := by
  induction h with
  | none => simp
  | mac _ ih => simp [ih]
  | windows _ ih => simp [ih]

/-! ### The network -/

theorem exists_colons (cs : List Char) :
    ∃ more rest, cs = List.replicate more ':' ++ rest ∧ rest.head? ≠ some ':' := by
  induction cs with
  | nil => exact ⟨0, [], rfl, nofun⟩
  | cons c cs ih =>
      by_cases colon : c = ':'
      · obtain ⟨more, rest, cs_eq, first⟩ := ih
        exact ⟨more + 1, rest, by rw [colon, cs_eq]; rfl, first⟩
      · exact ⟨0, c :: cs, rfl, by simpa using colon⟩

/-- All colons before a network are passed over, and more than one of them mean trust. -/
theorem parseNetwork_colons (more : Nat) (first : cs.head? ≠ some ':') :
    parseNetwork (':' :: (List.replicate more ':' ++ cs)) =
      (Network.parse (String.ofList cs)).map fun n => (decide (0 < more), n) := by
  obtain ⟨-, text⟩ : (List.replicate more ':' ++ cs).takeWhile (· = ':') = List.replicate more ':' ∧
      (List.replicate more ':' ++ cs).dropWhile (· = ':') = cs :=
    cut_iff.mpr
      ⟨rfl, by simp, fun c hc => by simpa using fun colon : c = ':' => first (colon ▸ hc)⟩
  have trusted : (List.replicate more ':' ++ cs).head? = some ':' ↔ 0 < more := by
    cases more with
    | zero => simpa using first
    | succ more => simp [List.replicate_succ]
  simp only [parseNetwork, text, trusted]

theorem parseNetwork_eq_ok_iff (colon : ∀ c ∈ networked.head?, c = ':') :
    parseNetwork networked = .ok (trusted, network) ↔ SpellsNetwork networked trusted network := by
  constructor
  · intro parsed
    cases networked with
    | nil =>
        cases parsed
        exact .none
    | cons c tail =>
        cases colon c rfl
        obtain ⟨more, cs, rfl, first⟩ := exists_colons tail
        rw [parseNetwork_colons more first] at parsed
        obtain ⟨n, read, said⟩ := map_eq_ok_iff.mp parsed
        cases said
        exact .some more read
  · rintro (_ | ⟨more, read⟩)
    · rfl
    · rw [parseNetwork_colons more (Network.colon_of_parse read).1, read]
      rfl

theorem SpellsNetwork.colon_of_mem_head? (h : SpellsNetwork networked trusted network) :
    ∀ c ∈ networked.head?, c = ':' := by
  cases h with
  | none => simp
  | some more read => simp

/-- Two colons in a row stand before a trusted network, and nowhere else. -/
theorem SpellsNetwork.trusted_iff (h : SpellsNetwork networked trusted network) :
    trusted = true ↔ [':', ':'] <:+: networked := by
  cases h with
  | none => simp
  | @some cs _ more read =>
      obtain ⟨first, single⟩ := Network.colon_of_parse read
      cases more with
      | zero =>
          have behind : ¬ [':'] <+: cs := fun ⟨rest, cs_eq⟩ => first (cs_eq ▸ rfl)
          simp [List.infix_cons_iff, single, behind]
      | succ more =>
          have pair : [':', ':'] <+: ':' :: (List.replicate (more + 1) ':' ++ cs) :=
            ⟨List.replicate more ':' ++ cs, rfl⟩
          simp [pair.isInfix]

/-! ### Tokens -/

/-- The text before the markers and the network, in a token without the blanks around it. -/
def front (token : String) : List Char :=
  (trim token.toList).takeWhile fun c => c ≠ '+' ∧ c ≠ ':'

theorem headD_before (token : String) :
    (Address.splitAll '+' (before token)).headD [] = front token := by
  rw [Address.headD_splitAll, before, front, List.takeWhile_takeWhile]
  simp

/-- A name, and the line feed that its test lets pass. -/
theorem isName_eq_true_iff : isName name = true ↔
    ∃ letters, letters ≠ [] ∧ (∀ c ∈ letters, isNameChar c = true) ∧
      (name = letters ∨ name = letters ++ ['\n']) := by
  simp only [isName, Bool.and_eq_true, Bool.not_eq_true', List.isEmpty_eq_false_iff,
    List.all_eq_true, withoutLineFeed]
  constructor
  · intro proper
    split at proper
    · rename_i feed
      obtain ⟨front, rfl⟩ := List.getLast?_eq_some_iff.mp feed
      rw [List.dropLast_concat] at proper
      exact ⟨front, proper.1, proper.2, .inr rfl⟩
    · exact ⟨name, proper.1, proper.2, .inl rfl⟩
  · rintro ⟨letters, some_, proper, rfl | rfl⟩
    · have last : name.getLast? ≠ some '\n' := fun last =>
        absurd (proper _ (List.mem_of_getLast? last)) (by decide)
      simpa [last] using ⟨some_, proper⟩
    · simpa using ⟨some_, proper⟩

theorem isName_iff (plain : '\n' ∉ name) :
    isName name = true ↔ name ≠ [] ∧ ∀ c ∈ name, isNameChar c = true := by
  have last : name.getLast? ≠ some '\n' := fun last => plain (List.mem_of_getLast? last)
  simp [isName, withoutLineFeed, last]

theorem SpellsRates.not_mem (h : SpellsRates rated rates) (hc : c = '+' ∨ c = ':') : c ∉ rated := by
  cases h with
  | none => simp
  | some inAccepts outAccepts =>
      have listed : c ∈ delimiters := by
        rcases hc with rfl | rfl <;> decide
      have inFree := delimiter_not_mem_of_accepts inAccepts listed
      have outFree := delimiter_not_mem_of_accepts outAccepts listed
      rcases hc with rfl | rfl <;> simp [inFree, outFree]

theorem declares_iff_spells (plain : '\n' ∉ token.toList) :
    Declares (before token) (after token) i ↔ Spells (trim token.toList) i := by
  have plain_before : '\n' ∉ before token := fun hc => plain (before_subset token hc)
  constructor
  · rintro ⟨token', name, named, proper, markers, networked, name_eq, index_eq⟩
    obtain ⟨first, more, split⟩ :=
      List.exists_cons_of_ne_nil (Address.splitAll_ne_nil '+' (before token))
    obtain ⟨before_eq, -⟩ := Address.splitAll_eq_cons_iff.mp split
    rw [split] at named markers
    rw [before_eq] at plain_before
    obtain ⟨rated, rfl, -, spelledRates⟩ :=
      (parseName_eq_ok_iff fun hc => plain_before (List.mem_append_left _ hc)).mp named
    obtain ⟨some_, letters⟩ := (isName_iff fun hc =>
      plain_before (List.mem_append_left _ (List.mem_append_left _ hc))).mp proper
    have spelled := Spells.mk some_ letters spelledRates (spellsHosts_of_parseMarkers markers)
      ((parseNetwork_eq_ok_iff colon_of_mem_head?_after).mp networked)
    rw [← before_append_after, before_eq]
    cases i
    cases name_eq
    cases index_eq
    exact spelled
  · intro spelled
    generalize trimmed : trim token.toList = cs at spelled
    cases spelled with
    | mk some_ letters spelledRates spelledHosts spelledNetwork =>
        rename_i name rated marked networked rates hosts trusted network
        have named := delimiter_not_mem_of_name letters (c := ':') (by decide)
        -- No part before the network holds a colon, so the token is cut where the network begins.
        have free : ':' ∉ name ++ rated ++ marked := by
          simp [named, spelledRates.not_mem (.inr rfl), spelledHosts.colon_not_mem]
        obtain ⟨before_eq, after_eq⟩ := cut_eq trimmed (fun c hc colon => free (colon ▸ hc))
          spelledNetwork.colon_of_mem_head?
        obtain ⟨parts, marked_eq, apart, markers⟩ := spelledHosts.exists_parts token
        have split : Address.splitAll '+' (before token) = (name ++ rated) :: parts := by
          refine Address.splitAll_eq_cons_iff.mpr ⟨by rw [before_eq, marked_eq], ?_⟩
          refine List.forall_mem_cons.mpr ⟨?_, apart⟩
          simp [delimiter_not_mem_of_name letters (c := '+') (by decide),
            spelledRates.not_mem (.inl rfl)]
        rw [before_eq] at plain_before
        refine ⟨token, name, ?_, (isName_iff ?_).mpr ⟨some_, letters⟩, ?_, ?_, rfl, rfl⟩
        · rw [split]
          refine (parseName_eq_ok_iff ?_).mpr ⟨rated, rfl, fun c hc => ?_, spelledRates⟩
          · exact fun hc => plain_before (List.mem_append_left _ hc)
          · exact isBrace_of_not_mem (delimiter_not_mem_of_name letters (by decide))
              (delimiter_not_mem_of_name letters (by decide)) c hc
        · exact fun hc => plain_before (List.mem_append_left _ (List.mem_append_left _ hc))
        · rwa [split]
        · rw [after_eq]
          exact (parseNetwork_eq_ok_iff spelledNetwork.colon_of_mem_head?).mpr spelledNetwork

/-! ### Tokens that are refused -/

/-- The text has a brace that belongs to no rates behind a text without braces. -/
def Misrated (cs : List Char) : Prop :=
  (∃ c ∈ cs, isBrace c = true) ∧ ∀ plain rated said, cs = plain ++ rated →
    (∀ c ∈ plain, isBrace c = false) → ¬ SpellsRates rated (some said)

theorem exists_error_parseName_iff (token : String) (plain : '\n' ∉ cs) :
    (∃ cause, parseName token cs = .error cause) ↔ Misrated cs := by
  constructor
  · rintro ⟨cause, failed⟩
    refine ⟨?_, fun name rated said cs_eq free spelled => ?_⟩
    · by_contra none_
      have free : ¬ cs.any isBrace = true := by simpa using none_
      simp [parseName, free] at failed
    · have parsed : parseName token cs = .ok (name, some said) :=
        (parseName_eq_ok_iff plain).mpr ⟨rated, cs_eq, free, spelled⟩
      rw [failed] at parsed
      cases parsed
  · rintro ⟨⟨c, hc, brace⟩, none_⟩
    rcases parsed : parseName token cs with cause | ⟨name, _ | said⟩
    · exact ⟨cause, rfl⟩
    · obtain ⟨rated, rfl, free, spelled⟩ := (parseName_eq_ok_iff plain).mp parsed
      cases spelled
      rw [List.append_nil] at hc
      simp [free c hc] at brace
    · obtain ⟨rated, cs_eq, free, spelled⟩ := (parseName_eq_ok_iff plain).mp parsed
      exact absurd spelled (none_ name rated said cs_eq free)

theorem fault_of_parseMarkers {parts : List (List Char)} {cause : Malformed}
    (failed : parseMarkers token parts = .error cause) :
    cause.isBandwidth = false ∧ cause.isTooMany = false := by
  induction parts with
  | nil => cases failed
  | cons marker rest ih =>
      rw [parseMarkers] at failed
      split at failed
      · exact ih (map_eq_error_iff.mp failed)
      · split at failed
        · exact ih (map_eq_error_iff.mp failed)
        · cases failed
          exact ⟨rfl, rfl⟩

theorem fault_of_parseNetwork {cause : Malformed} (failed : parseNetwork networked = .error cause) :
    cause.isBandwidth = false ∧ cause.isTooMany = false := by
  cases networked with
  | nil => cases failed
  | cons _ tail =>
      have failed := map_eq_error_iff.mp failed
      unfold Network.parse at failed
      split at failed
      · cases failed
      · split at failed
        · cases failed
        · cases failed
          exact ⟨rfl, rfl⟩

/-- What is read behind the name and the rates is never refused for a rate. -/
theorem exists_parse_eq_bind (token : String) :
    ∃ rest, parse token = parseName (Text.strip token) (front token) >>= rest ∧
      ∀ said cause, rest said = .error cause →
        cause.isBandwidth = false ∧ cause.isTooMany = false := by
  have text : (Text.strip token).toList = trim token.toList := String.toList_ofList
  unfold parse
  simp only [text]
  rw [← before, headD_before]
  refine ⟨_, rfl, ?_⟩
  rintro ⟨name, rates⟩ cause failed
  split at failed
  · cases failed
    exact ⟨rfl, rfl⟩
  · split at failed
    · cases failed
      exact ⟨rfl, rfl⟩
    · rcases bind_eq_error_iff.mp failed with markers | ⟨hosts, -, failed⟩
      · exact fault_of_parseMarkers markers
      · rcases bind_eq_error_iff.mp failed with networked | ⟨said, -, failed⟩
        · exact fault_of_parseNetwork networked
        · cases failed

theorem isTooMany_of_parse {cause : Malformed} (failed : parse token = .error cause) :
    cause.isTooMany = false := by
  obtain ⟨rest, parse_eq, later⟩ := exists_parse_eq_bind token
  rw [parse_eq] at failed
  rcases bind_eq_error_iff.mp failed with first | ⟨said, -, failed⟩
  · have bandwidth := isBandwidth_of_parseName first
    cases cause <;> first | rfl | cases bandwidth
  · exact (later said cause failed).2

/-- A token is refused for its rates if they are not what stands before the markers. -/
theorem misrated_iff (plain : '\n' ∉ token.toList) :
    (∃ cause, parse token = .error cause ∧ cause.isBandwidth = true) ↔ Misrated (front token) := by
  have plain : '\n' ∉ front token := fun hc =>
    plain (Text.trimBy_subset _ _ ((List.takeWhile_sublist _).subset hc))
  obtain ⟨rest, parse_eq, later⟩ := exists_parse_eq_bind token
  rw [← exists_error_parseName_iff (Text.strip token) plain, parse_eq]
  constructor
  · rintro ⟨cause, failed, bandwidth⟩
    rcases bind_eq_error_iff.mp failed with first | ⟨said, -, failed⟩
    · exact ⟨cause, first⟩
    · rw [(later said cause failed).1] at bandwidth
      cases bandwidth
  · rintro ⟨cause, failed⟩
    exact ⟨cause, bind_eq_error_iff.mpr (.inl failed), isBandwidth_of_parseName failed⟩

/-! ### The words of the grammar -/

theorem Spells.trusted_iff {cs : List Char} (h : Spells cs i) :
    i.trusted = true ↔ [':', ':'] <:+: cs := by
  cases h with
  | mk some_ letters spelledRates spelledHosts spelledNetwork =>
      have named := delimiter_not_mem_of_name letters (c := ':') (by decide)
      rw [Text.pair_infix_append (by
        simp [named, spelledRates.not_mem (.inr rfl), spelledHosts.colon_not_mem])]
      exact spelledNetwork.trusted_iff

/-- A token declares the interface that it spells without the blanks around it, which is trusted if
two colons stand in a row. Every other token is refused, for its rates if these are misplaced or
cannot be read. -/
theorem parse_iff_spells (plain : '\n' ∉ token.toList) :
    (∀ i, parse token = .ok i ↔ Spells (trim token.toList) i) ∧
      (∀ i, parse token = .ok i → (i.trusted = true ↔ [':', ':'] <:+: token.toList)) ∧
      (∀ cause, parse token = .error cause → cause.isTooMany = false) ∧
      ((∃ cause, parse token = .error cause ∧ cause.isBandwidth = true) ↔
        Misrated (front token)) := by
  have spells (i : Interface) : parse token = .ok i ↔ Spells (trim token.toList) i :=
    parse_eq_ok_iff.trans (declares_iff_spells plain)
  refine ⟨spells, fun i parsed => ?_, fun _ => isTooMany_of_parse, misrated_iff plain⟩
  rw [((spells i).mp parsed).trusted_iff]
  exact Text.pair_infix_trimBy rfl

theorem parse_iff_spells_shaped :
    '\n' ∉ "en0\x7b504, 9\x7d+win::10.0.0.0/8 ".toList ∧
      Spells "en0\x7b504, 9\x7d+win::10.0.0.0/8".toList
        { name := "en0"
          network := .block { address := 167772160, length := 8 }
          trusted := true
          hosts := { windows := true }
          rates := some { inbound := "504", outbound := "9" } } ∧
      Misrated (front "en0\x7b504\x7d+mac") := by
  have plain : '\n' ∉ "en0\x7b504, 9\x7d+win::10.0.0.0/8 ".toList := by simp
  exact ⟨plain, ((parse_iff_spells plain).1 _).mp rfl,
    (parse_iff_spells (by simp)).2.2.2.mp ⟨_, rfl, rfl⟩⟩

end Interface
end Firewall

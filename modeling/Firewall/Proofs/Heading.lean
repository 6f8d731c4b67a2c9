import Firewall.Proofs.Parsing
import Firewall.Proofs.Scripting

/-!
The head of a script. Above its first command stands what the script was made from: comments, among
them one with the words that the firewall was asked for with. These words keep their line feeds, so
that the lines of the head are comments as long as no word has one, and no longer.
-/

namespace Firewall

/-! ### The characters of a token -/

namespace Interface

def isTokenChar (c : Char) : Bool :=
  Text.isBlank c || Text.isDigit c || isNameChar c || c ∈ '/' :: delimiters

variable {token : String} {cs name : List Char} {rates : Option Rates} {i : Interface}

theorem isTokenChar_of_isNameChar {c : Char} (h : isNameChar c = true) : isTokenChar c = true := by
  simp [isTokenChar, h]

theorem isTokenChar_of_isName (proper : isName name = true) :
    ∀ c ∈ name, isTokenChar c = true := by
  intro c hc
  obtain ⟨letters, -, all, rfl | rfl⟩ := isName_eq_true_iff.mp proper
  · exact isTokenChar_of_isNameChar (all c hc)
  · rcases List.mem_append.mp hc with inside | feed
    · exact isTokenChar_of_isNameChar (all c inside)
    · rw [List.mem_singleton.mp feed]
      rfl

theorem isTokenChar_of_accepts (accepts : Rate.Accepts cs) : ∀ c ∈ cs, isTokenChar c = true := by
  intro c hc
  by_contra other
  have known : Rate.letters.all isTokenChar = true := rfl
  have letter : c ∉ Rate.letters := fun listed => other (List.all_eq_true.mp known c listed)
  simp only [isTokenChar, Bool.or_eq_true, not_or, Bool.not_eq_true] at other
  exact accepts.not_mem other.1.1.2 other.1.1.1 letter hc

theorem mem_of_parseName (parsed : parseName token cs = .ok (name, rates)) :
    ∀ c ∈ cs, c ∈ name ∨ isTokenChar c = true := by
  intro c hc
  unfold parseName at parsed
  split at parsed
  · split at parsed
    · cases parsed
    · rename_i parts
      obtain ⟨_, inRead, parsed⟩ := bind_eq_ok_iff.mp parsed
      obtain ⟨_, outRead, parsed⟩ := bind_eq_ok_iff.mp parsed
      cases parsed
      obtain ⟨trail, ends, rfl, -⟩ := exists_of_splitRates? parts
      have trailed : trail.all isTokenChar = true := by
        rcases ends with rfl | rfl <;> rfl
      simp only [List.mem_append, List.mem_cons] at hc
      rcases hc with hc | rfl | hc | rfl | hc | rfl | hc
      · exact .inl hc
      · exact .inr (by decide)
      · exact .inr (isTokenChar_of_accepts ⟨_, inRead⟩ c hc)
      · exact .inr (by decide)
      · exact .inr (isTokenChar_of_accepts ⟨_, outRead⟩ c hc)
      · exact .inr (by decide)
      · exact .inr (List.all_eq_true.mp trailed c hc)
  · cases parsed
    exact .inl hc

theorem isTokenChar_of_parseNetwork {tail : List Char} {said : Bool × Network}
    (colon : ∀ c ∈ tail.head?, c = ':') (parsed : parseNetwork tail = .ok said) :
    ∀ c ∈ tail, isTokenChar c = true := by
  intro c hc
  cases tail with
  | nil => cases hc
  | cons first rest =>
      cases colon first rfl
      obtain ⟨n, read, -⟩ := map_eq_ok_iff.mp parsed
      rcases List.mem_cons.mp hc with rfl | hc
      · decide
      · rcases Text.mem_cut hc (· = ':') with again | hc
        · rw [of_decide_eq_true again]
          decide
        · rcases Network.letter_of_parse read c hc with plain | listed
          · exact isTokenChar_of_isNameChar (by simp [isNameChar, plain])
          · have known : ['.', '/', ':'].all isTokenChar = true := rfl
            exact List.all_eq_true.mp known c listed

/-- A token that declares an interface has no other characters. -/
theorem isTokenChar_of_parse (parsed : parse token = .ok i) :
    ∀ c ∈ token.toList, isTokenChar c = true := by
  obtain ⟨token', name, named, proper, markers, networked, -⟩ := parse_eq_ok_iff.mp parsed
  intro c hc
  rcases Text.mem_trimBy hc Text.isBlank with blank | hc
  · simp [isTokenChar, blank]
  · change c ∈ Text.trim token.toList at hc
    rw [← before_append_after, List.mem_append] at hc
    rcases hc with hc | hc
    · obtain ⟨first, more, split⟩ :=
        List.exists_cons_of_ne_nil (Address.splitAll_ne_nil '+' (before token))
      rw [split] at named markers
      rw [(Address.splitAll_eq_cons_iff.mp split).1, List.mem_append, List.mem_flatMap] at hc
      rcases hc with hc | ⟨marker, listed, hc⟩
      · exact (mem_of_parseName named c hc).elim (isTokenChar_of_isName proper c) id
      · have known : ('+' :: marker).all isTokenChar = true := by
          rcases (parseMarkers_eq_ok_iff.mp markers).1 marker listed with rfl | rfl <;> rfl
        exact List.all_eq_true.mp known c hc
    · exact isTokenChar_of_parseNetwork colon_of_mem_head?_after networked c hc

end Interface

/-! ### The lines of a script -/

namespace Text

/-- The lines of a text as a shell takes them. -/
def shellLines (text : String) : List (List Char) := Address.splitAll '\n' text.toList

theorem shellLines_of_not_mem {l : String} (free : '\n' ∉ l.toList) : shellLines l = [l.toList] :=
  Address.splitAll_of_not_mem free

theorem shellLines_unlines (ls : List String) :
    shellLines (unlines ls) = ls.flatMap shellLines ++ [[]] := by
  induction ls with
  | nil => rfl
  | cons l rest ih =>
      have first : (unlines (l :: rest)).toList = l.toList ++ '\n' :: (unlines rest).toList := by
        simp [unlines, String.toList_join]
      rw [shellLines, first, Address.splitAll_append, List.flatMap_cons, List.append_assoc, ← ih]
      rfl

/-- What stands behind the last line feed of a text is its last line. -/
theorem exists_last_line {cs : List Char} (feed : '\n' ∈ cs) :
    ∃ front line, cs = front ++ '\n' :: line ∧ '\n' ∉ line := by
  obtain ⟨line, front, turned, free⟩ := List.eq_append_cons_of_mem (List.mem_reverse.mpr feed)
  refine ⟨front.reverse, line.reverse, ?_, by simpa using free⟩
  rw [← List.reverse_reverse cs, turned]
  simp

namespace ShellWord

theorem getLast?_quote_ne (word : String) : (quote word).toList.getLast? ≠ some '\n' := by
  unfold quote
  split
  · decide
  · split
    · rename_i bare
      intro last
      exact absurd (List.all_eq_true.mp bare _ (List.mem_of_getLast? last)) (by decide)
    · rw [String.toList_ofList, List.getLast?_concat]
      decide

/-- A command line does not end in a line feed: a word that does is put between quotes. -/
theorem getLast?_join_ne (words : List String) : (join words).toList.getLast? ≠ some '\n' := by
  unfold join
  induction words with
  | nil => decide
  | cons word rest ih =>
      cases rest with
      | nil => simpa using getLast?_quote_ne word
      | cons next rest =>
          rw [List.map_cons, List.map_cons, String.intercalate_cons_cons, String.toList_append,
            String.toList_append, List.getLast?_append, ← List.map_cons]
          cases last : (" ".intercalate ((next :: rest).map quote)).toList.getLast? with
          | none => simp
          | some c =>
              rw [last] at ih
              simpa using ih

end ShellWord
end Text

namespace Script

open Text (shellLines)

/-- The first command of a script. -/
def setting : String := "IPFW=\"$\x7bIPFW:-/sbin/ipfw\x7d\""

/-- The lines of a script before its first command. -/
def heading (text : String) : List (List Char) :=
  (shellLines text).takeWhile (· ≠ setting.toList)

/-- A line that a shell passes over. -/
def Remark (l : List Char) : Prop := l = [] ∨ l.head? = some '#'

instance (l : List Char) : Decidable (Remark l) := inferInstanceAs (Decidable (_ ∨ _))

variable {s : Script} {l : String} {part : List Char}

theorem heading_render (others : ∀ part ∈ s.headLines.flatMap shellLines, part ≠ setting.toList) :
    setting.toList ∈ shellLines s.render ∧
      heading s.render = s.headLines.flatMap shellLines ++ [[]] := by
  obtain ⟨rest, body⟩ : ∃ rest, s.bodyLines = "" :: setting :: rest := ⟨_, rfl⟩
  have lines : shellLines s.render = (s.headLines.flatMap shellLines ++ [[]]) ++
      setting.toList :: (rest.flatMap shellLines ++ [[]]) := by
    rw [render, Text.shellLines_unlines, body, List.flatMap_append, List.flatMap_cons,
      List.flatMap_cons, Text.shellLines_of_not_mem (l := setting) (by decide)]
    simp [shellLines, Address.splitAll]
  rw [heading, lines]
  refine ⟨by simp, ?_⟩
  rw [List.takeWhile_append_of_pos]
  · simp
  · intro part hpart
    rcases List.mem_append.mp hpart with inside | empty
    · simpa using others part inside
    · rw [List.mem_singleton.mp empty]
      rfl

/-- A line of its own that begins like a comment. -/
theorem remark_of_comment (free : '\n' ∉ l.toList) (first : l.toList.head? = some '#') :
    ∀ part ∈ shellLines l, Remark part ∧ part ≠ setting.toList := by
  rw [Text.shellLines_of_not_mem free, List.forall_mem_singleton]
  refine ⟨.inr first, fun same => ?_⟩
  rw [same] at first
  exact absurd first (by decide)

theorem ne_setting_of_not_mem (free : '$' ∉ l.toList) :
    ∀ part ∈ shellLines l, part ≠ setting.toList := by
  rintro part hpart rfl
  exact free (Address.splitAll_subset hpart (by decide))

/-- Behind a line feed in the words of a command line stands what is no comment. -/
theorem exists_not_remark (lead : String) {args : String} (feed : '\n' ∈ args.toList)
    (last : args.toList.getLast? ≠ some '\n') (hash : '#' ∉ args.toList) :
    ∃ part ∈ shellLines (lead ++ args), ¬Remark part := by
  obtain ⟨front, line, args_eq, free⟩ := Text.exists_last_line feed
  refine ⟨line, ?_, ?_⟩
  · rw [shellLines, String.toList_append, args_eq, ← List.append_assoc, Address.splitAll_append,
      Address.splitAll_of_not_mem free]
    simp
  · rw [args_eq] at last hash
    rintro (rfl | first)
    · simp at last
    · exact hash (by simp [List.mem_of_head? first])

/-- What the head of a script is made of. -/
structure Headed (s : Script) : Prop where
  version : '\n' ∉ s.version.toList
  time : '\n' ∉ s.stamp.time.toList
  user : '\n' ∉ s.stamp.user.toList
  args : '#' ∉ s.args.toList ∧ '$' ∉ s.args.toList
  ends : s.args.toList.getLast? ≠ some '\n'
  warnings : ∀ w ∈ s.warnings, '$' ∉ w.toList ∧ ('\n' ∈ w.toList → '\n' ∈ s.args.toList)

/-- Every line of a head begins like a comment, and only the words bring line feeds into it. -/
theorem Headed.headLines (h : s.Headed) : ∀ l ∈ s.headLines, l.toList.head? = some '#' ∧
    ('\n' ∈ l.toList → '\n' ∈ s.args.toList ∧ '$' ∉ l.toList) := by
  have plain {l : String} (first : l.toList.head? = some '#') (free : '\n' ∉ l.toList) :
      l.toList.head? = some '#' ∧ ('\n' ∈ l.toList → '\n' ∈ s.args.toList ∧ '$' ∉ l.toList) :=
    ⟨first, fun feed => absurd feed free⟩
  have led {lead l : String} (first : lead.toList.head? = some '#')
      (free : '\n' ∉ lead.toList ∧ '$' ∉ lead.toList)
      (said : '$' ∉ l.toList ∧ ('\n' ∈ l.toList → '\n' ∈ s.args.toList)) :
      (lead ++ l).toList.head? = some '#' ∧
        ('\n' ∈ (lead ++ l).toList → '\n' ∈ s.args.toList ∧ '$' ∉ (lead ++ l).toList) := by
    simp only [String.toList_append, List.mem_append, List.head?_append, first, free,
      false_or, said, not_false_eq_true, and_true]
    exact ⟨rfl, said.2⟩
  have asked : '$' ∉ (if s.args.isEmpty then "(none)" else s.args).toList ∧
      ('\n' ∈ (if s.args.isEmpty then "(none)" else s.args).toList → '\n' ∈ s.args.toList) := by
    split
    · exact ⟨by decide, fun feed => absurd feed (by decide)⟩
    · exact ⟨h.args.2, id⟩
  simp only [Script.headLines, List.forall_mem_append, List.forall_mem_map, List.forall_mem_cons]
  refine ⟨⟨plain rfl (by decide), plain rfl (by decide), plain rfl (by decide),
    plain rfl (by decide), plain ?_ ?_, plain rfl (by decide), plain ?_ ?_, plain rfl (by decide),
    led rfl (by decide) asked, List.forall_mem_nil _⟩,
    fun w hw => led rfl (by decide) (h.warnings w hw)⟩
  · simp
  · simp [h.version]
  · simp
  · simp [h.time, h.user]

/-- The lines before the first command are those of the head, and an empty one. -/
theorem Headed.heading_render (h : s.Headed) : setting.toList ∈ shellLines s.render ∧
    heading s.render = s.headLines.flatMap shellLines ++ [[]] := by
  refine Script.heading_render ?_
  rw [List.forall_mem_flatMap]
  intro l hl part hpart
  obtain ⟨first, fed⟩ := h.headLines l hl
  by_cases feed : '\n' ∈ l.toList
  · exact ne_setting_of_not_mem (fed feed).2 part hpart
  · exact (remark_of_comment feed first part hpart).2

/-- The lines of a head are comments if the words have no line feed, and only then. -/
theorem Headed.remarks_iff (h : s.Headed) :
    (∀ l ∈ heading s.render, Remark l) ↔ '\n' ∉ s.args.toList := by
  rw [h.heading_render.2, List.forall_mem_append, List.forall_mem_flatMap,
    List.forall_mem_singleton]
  constructor
  · rintro ⟨remarks, -⟩ feed
    have some_ : s.args.isEmpty = false := by
      rw [Bool.eq_false_iff, ne_eq, String.isEmpty_iff]
      intro empty
      simp [empty] at feed
    obtain ⟨part, hpart, not_⟩ :=
      exists_not_remark "# Interfaces: " feed h.ends h.args.1
    exact not_ (remarks _ (by simp [Script.headLines, some_]) part hpart)
  · intro free
    refine ⟨fun l hl part hpart => ?_, .inl rfl⟩
    obtain ⟨first, fed⟩ := h.headLines l hl
    exact (remark_of_comment (fun feed => free (fed feed).1) first part hpart).1

end Script

/-! ### The head of the script of a policy -/

namespace Policy

variable {r : Registry} {c : Char}

theorem mem_name_of_mem_warning (special : c = '\n' ∨ c = '$') :
    ∀ w ∈ allWarnings r, c ∈ w.toList → ∃ i ∈ r.interfaces, c ∈ i.name.toList := by
  have unserved (wanted : HostKinds → Bool) {label : String} (said : c ∉ label.toList) :
      ∀ w ∈ unservedWarnings r wanted label, c ∈ w.toList →
        ∃ i ∈ r.interfaces, c ∈ i.name.toList := by
    rw [unservedWarnings, List.forall_mem_map]
    intro i hi hc
    have fixed : c ∉ "Interface ".toList ∧ c ∉ " (index ".toList ∧ c ∉ ") is marked +".toList ∧
        c ∉ " but has no network; ".toList ∧ c ∉ " services stay closed".toList ∧
        c ≠ '-' ∧ c.isDigit = false := by
      rcases special with rfl | rfl <;> decide
    have number : c ∉ (toString i.index).toList := fun hc =>
      (Text.minus_or_isDigit_of_mem_intCast hc).elim fixed.2.2.2.2.2.1
        fun digit => by simp [fixed] at digit
    simp only [String.toList_append, List.mem_append, fixed, number, said, false_or, or_false] at hc
    exact ⟨i, (List.mem_filter.mp hi).1, hc⟩
  rw [allWarnings, List.forall_mem_append]
  have labels : c ∉ "mac".toList ∧ c ∉ "win".toList := by
    rcases special with rfl | rfl <;> decide
  exact ⟨unserved _ labels.1, unserved _ labels.2⟩

end Policy

namespace Registry

variable {tokens : List String} {r : Registry} {c : Char}

theorem exists_token_of_mem_name (declared : (ofTokens tokens).2 = .ok r) {i : Interface}
    (hi : i ∈ r.interfaces) (hc : c ∈ i.name.toList) : ∃ token ∈ tokens, c ∈ token.toList := by
  obtain ⟨token, listed, said, parsed, stems⟩ := exists_token declared hi
  rw [stems] at hc
  exact ⟨token, listed, (Interface.parse_subset parsed).1 hc⟩

theorem isTokenChar_of_declared (declared : (ofTokens tokens).2 = .ok r) :
    ∀ token ∈ tokens, ∀ c ∈ token.toList, Interface.isTokenChar c = true := by
  obtain ⟨is, parsed, -, -⟩ := declared_iff_parseAll.mp declared
  have related := parseAll_eq_ok_iff.mp parsed
  intro token listed
  obtain ⟨k, within, rfl⟩ := List.mem_iff_getElem.mp listed
  exact Interface.isTokenChar_of_parse (related.get within (related.length_eq ▸ within))

end Registry

namespace Deployment

variable {tokens : List String} {r : Registry} {stamp : Stamp}

theorem headed_ofPolicy (declared : (Registry.ofTokens tokens).2 = .ok r)
    (time : '\n' ∉ stamp.time.toList) (user : '\n' ∉ stamp.user.toList) (sysctls : List Sysctl)
    (rules : List Rule) {s : Script}
    (made : Script.ofPolicy stamp (Policy.assemble r sysctls rules) tokens = .ok s) :
    s.Headed ∧ s.args = Text.ShellWord.join tokens := by
  obtain ⟨services, -, made⟩ := Interface.bind_eq_ok_iff.mp made
  cases made
  have plain {c : Char} (other : Interface.isTokenChar c = false)
      (apart : ¬(c = ' ' ∨ Text.ShellWord.isQuote c = true)) :
      c ∉ (Text.ShellWord.join tokens).toList := by
    intro hc
    rcases Text.ShellWord.mem_join hc with ⟨token, listed, hc⟩ | quote
    · have known := Registry.isTokenChar_of_declared declared token listed c hc
      rw [other] at known
      cases known
    · exact apart quote
  have dollar : '$' ∉ (Text.ShellWord.join tokens).toList := plain rfl (by decide)
  refine ⟨⟨(by decide : '\n' ∉ Script.release.toList), time, user,
    ⟨plain rfl (by decide), dollar⟩, Text.ShellWord.getLast?_join_ne tokens,
    fun w hw => ⟨fun sign => ?_, fun feed => ?_⟩⟩, rfl⟩
  · obtain ⟨i, hi, hc⟩ := Policy.mem_name_of_mem_warning (.inr rfl) w hw sign
    obtain ⟨token, listed, hc⟩ := Registry.exists_token_of_mem_name declared hi hc
    exact dollar (Text.ShellWord.subset_join listed hc)
  · obtain ⟨i, hi, hc⟩ := Policy.mem_name_of_mem_warning (.inl rfl) w hw feed
    obtain ⟨token, listed, hc⟩ := Registry.exists_token_of_mem_name declared hi hc
    exact Text.ShellWord.subset_join listed hc

theorem exists_headed (declared : (Registry.ofTokens tokens).2 = .ok r)
    (time : '\n' ∉ stamp.time.toList) (user : '\n' ∉ stamp.user.toList) (o : Options)
    (host debugging : Bool) :
    ∃ (p : Policy) (s : Script), (Policy.compile r o host debugging).result = .ok p ∧
      renderScript stamp none p tokens = .ok s.render ∧ s.Headed ∧
      s.args = Text.ShellWord.join tokens := by
  obtain ⟨s, made⟩ : ∃ s, Script.ofPolicy stamp
      (Policy.assemble r (if host then Host.sysctls o else []) (Policy.rules r o)) tokens = .ok s :=
    ⟨_, rfl⟩
  exact ⟨_, s, Policy.compile_eq_ok (Registry.indexed_of_declared declared) o host debugging,
    by rw [renderScript, made], headed_ofPolicy declared time user _ _ made⟩

/-- All that stands in a script before its first command are comments if no token has a line feed,
and only then. -/
theorem remarks_heading_iff (declared : (Registry.ofTokens tokens).2 = .ok r)
    (time : '\n' ∉ stamp.time.toList) (user : '\n' ∉ stamp.user.toList) (o : Options)
    (host debugging : Bool) :
    ∃ p text, (Policy.compile r o host debugging).result = .ok p ∧
      renderScript stamp none p tokens = .ok text ∧
      Script.setting.toList ∈ Text.shellLines text ∧
      ((∀ l ∈ Script.heading text, Script.Remark l) ↔
        ∀ token ∈ tokens, '\n' ∉ token.toList) := by
  obtain ⟨p, s, compiled, rendered, headed, args⟩ :=
    exists_headed declared time user o host debugging
  refine ⟨p, s.render, compiled, rendered, headed.heading_render.1, ?_⟩
  rw [headed.remarks_iff, args]
  constructor
  · exact fun free token listed feed => free (Text.ShellWord.subset_join listed feed)
  · intro free feed
    rcases Text.ShellWord.mem_join feed with ⟨token, listed, feed⟩ | quote
    · exact free token listed feed
    · exact absurd quote (by decide)

theorem remarks_heading_iff_home :
    ∃ p text, (Policy.compile .home {} true false).result = .ok p ∧
      renderScript gateway.stamp none p ["en0+mac::192.168.0.0/16", "en1\x7b504,120\x7d"] =
        .ok text ∧
      ∀ l ∈ Script.heading text, Script.Remark l := by
  obtain ⟨time, user⟩ : '\n' ∉ gateway.stamp.time.toList ∧ '\n' ∉ gateway.stamp.user.toList := by
    decide
  obtain ⟨p, text, compiled, rendered, -, remarks⟩ :=
    remarks_heading_iff Registry.declared_home time user {} true false
  exact ⟨p, text, compiled, rendered, remarks.mpr (by decide)⟩

/-- The quote behind a name with a line feed stands on a line of its own, and opens what no quote
closes before the first command. -/
theorem not_remarks_heading_fed :
    (Registry.ofTokens ["en0\n"]).2 = .ok .lone ∧
    ∃ p text, (Policy.compile .lone {} true false).result = .ok p ∧
      renderScript gateway.stamp none p ["en0\n"] = .ok text ∧
      ['\''] ∈ Script.heading text ∧ ¬∀ l ∈ Script.heading text, Script.Remark l := by
  have declared : (Registry.ofTokens ["en0\n"]).2 = .ok .lone := by rfl
  obtain ⟨time, user⟩ : '\n' ∉ gateway.stamp.time.toList ∧ '\n' ∉ gateway.stamp.user.toList := by
    decide
  obtain ⟨p, s, compiled, rendered, headed, args⟩ :=
    exists_headed declared time user {} true false
  refine ⟨declared, p, s.render, compiled, rendered, ?_, fun remarks => ?_⟩
  · have quoted : ['\''] ∈ Text.shellLines "# Interfaces: 'en0\n'" := by decide
    have words : s.args = "'en0\n'" := args.trans (by decide)
    rw [headed.heading_render.2, List.mem_append, List.mem_flatMap]
    exact .inl ⟨_, by simp [Script.headLines, words], quoted⟩
  · exact headed.remarks_iff.mp remarks (by rw [args]; decide)

end Deployment
end Firewall

import Firewall.Proofs.Clauses
import Firewall.Proofs.Parsing
import Firewall.Proofs.Unbroken
import Firewall.Script

/-!
The names of interfaces as words. Names go into rules as they are, and into scripts as words of a
shell; letters, digits and a few marks make one word of them in both. The test of a name lets one
line feed pass behind it, which stays in the name where more of the token follows.
-/

namespace Firewall

namespace Text

/-- Characters that print, at least one, and no blank among them. -/
structure IsWord (s : String) : Prop where
  some_ : s ≠ ""
  prints : ∀ c ∈ s.toList, isPrintable c = true
  whole : ∀ c ∈ s.toList, isBlank c = false

/-- A text stands in a line with blanks, or the ends of the line, on both sides. -/
def StandsIn (s line : String) : Prop :=
  ∃ lead trail, line.toList = lead ++ s.toList ++ trail ∧
    (∀ c ∈ lead.getLast?, isBlank c = true) ∧ ∀ c ∈ trail.head?, isBlank c = true

variable {s line : String} {words : List String}

theorem standsIn_self (s : String) : StandsIn s s := ⟨[], [], by simp, by simp, by simp⟩

theorem StandsIn.append_left (h : StandsIn s line) {lead : String}
    (blank : ∀ c ∈ lead.toList.getLast?, isBlank c = true) : StandsIn s (lead ++ line) := by
  obtain ⟨before, trail, split, first, last⟩ := h
  refine ⟨lead.toList ++ before, trail, by simp [split], ?_, last⟩
  rw [List.getLast?_append]
  cases ends : before.getLast? with
  | none => exact blank
  | some c =>
      rw [ends] at first
      exact first

theorem StandsIn.append_right (h : StandsIn s line) {trail : String}
    (blank : ∀ c ∈ trail.toList.head?, isBlank c = true) : StandsIn s (line ++ trail) := by
  obtain ⟨lead, after, split, first, last⟩ := h
  refine ⟨lead, after ++ trail.toList, by simp [split], first, ?_⟩
  rw [List.head?_append]
  cases begins : after.head? with
  | none => exact blank
  | some c =>
      rw [begins] at last
      exact last

/-- Words that are joined by blanks stand in the line. -/
theorem standsIn_intercalate (hs : s ∈ words) : StandsIn s (" ".intercalate words) := by
  induction words with
  | nil => cases hs
  | cons word rest ih =>
      cases rest with
      | nil =>
          obtain rfl := List.mem_singleton.mp hs
          simpa using standsIn_self s
      | cons next rest =>
          rw [String.intercalate_cons_cons]
          rcases List.mem_cons.mp hs with rfl | later
          · rw [String.append_assoc]
            exact (standsIn_self s).append_right (by simp [isBlank])
          · exact (ih later).append_left (by simp [isBlank])

theorem ShellWord.standsIn_join (hs : s ∈ words) : StandsIn (quote s) (join words) :=
  standsIn_intercalate (List.mem_map_of_mem hs)

theorem ShellWord.isWord_quote (h : IsWord s) : IsWord (quote s) where
  some_ empty := by
    have sub := subset_quote s
    rw [empty] at sub
    exact h.some_ (String.toList_eq_nil_iff.mp (List.eq_nil_of_subset_nil sub))
  prints c hc := by
    refine (mem_quote hc).elim (h.prints c) fun quote => ?_
    simp only [isQuote, Bool.or_eq_true, decide_eq_true_eq] at quote
    rcases quote with rfl | rfl <;> decide
  whole c hc := by
    refine (mem_quote hc).elim (h.whole c) fun quote => ?_
    simp only [isQuote, Bool.or_eq_true, decide_eq_true_eq] at quote
    rcases quote with rfl | rfl <;> decide

end Text

namespace Ipfw

variable {name : String} {names : List String}

theorem mem_viaAlternatives (hname : name ∈ names) : name ∈ viaAlternatives names := by
  induction names with
  | nil => cases hname
  | cons first rest ih =>
      cases rest with
      | nil => exact List.mem_cons_of_mem _ hname
      | cons next rest =>
          rw [viaAlternatives_cons_cons]
          rcases List.mem_cons.mp hname with rfl | later
          · simp
          · simp [ih later]

theorem mem_viaWords (hname : name ∈ names) : name ∈ viaWords names := by
  match names with
  | [_] => exact mem_viaAlternatives hname
  | first :: next :: rest =>
      rw [viaWords_cons_cons]
      exact List.mem_cons_of_mem _ (List.mem_append_left _ (mem_viaAlternatives hname))

theorem mem_ruleWords_of_via {rule : Rule} (matches_ : rule.action ≠ .checkState)
    (hname : name ∈ rule.what.via) : name ∈ ruleWords rule := by
  simp [ruleWords, matches_, matchWords, mem_viaWords hname]

end Ipfw

namespace Interface

open Text (IsWord StandsIn ShellWord.quote ShellWord.join)

variable {token : String} {cs name : List Char} {rates : Option Rates} {i : Interface} {c : Char}

theorem bounds_of_isAlphanum (h : c.isAlphanum = true) : 48 ≤ c.toNat ∧ c.toNat ≤ 122 := by
  have within : (65 ≤ c.toNat ∧ c.toNat ≤ 90) ∨ (97 ≤ c.toNat ∧ c.toNat ≤ 122) ∨
      48 ≤ c.toNat ∧ c.toNat ≤ 57 := by
    rcases Bool.or_eq_true_iff.mp h with alpha | digit
    · rcases Bool.or_eq_true_iff.mp alpha with upper | lower
      · exact .inl (of_decide_eq_true upper)
      · have bounds := Bool.and_eq_true_iff.mp lower
        exact .inr (.inl ⟨of_decide_eq_true bounds.1, of_decide_eq_true bounds.2⟩)
    · have bounds := Bool.and_eq_true_iff.mp digit
      exact .inr (.inr ⟨of_decide_eq_true bounds.1, of_decide_eq_true bounds.2⟩)
  omega

theorem bounds_of_isNameChar (h : isNameChar c = true) : 42 ≤ c.toNat ∧ c.toNat ≤ 122 := by
  simp only [isNameChar, Bool.or_eq_true, decide_eq_true_eq] at h
  rcases h with (((alphanum | rfl) | rfl) | rfl) | rfl
  · have bounds := bounds_of_isAlphanum alphanum
    omega
  all_goals decide

theorem isWord_of_isNameChar {s : String} (some_ : s ≠ "")
    (letters : ∀ c ∈ s.toList, isNameChar c = true) : IsWord s where
  some_ := some_
  prints c hc := by
    have bounds := bounds_of_isNameChar (letters c hc)
    have ascii : c.toNat < 127 := by omega
    simp only [Text.isPrintable, ascii, if_true, decide_eq_true_eq]
    omega
  whole c hc := by
    have bounds := bounds_of_isNameChar (letters c hc)
    simp only [Text.isBlank, Bool.or_eq_false_iff, Bool.and_eq_false_iff, decide_eq_false_iff_not,
      beq_eq_false_iff_ne]
    omega

/-- The text of a token before its markers, its rates and its network. -/
def stem (token : String) : List Char :=
  (Text.trim token.toList).takeWhile fun c => !isBrace c ∧ c ≠ '+' ∧ c ≠ ':'

theorem eq_takeWhile_of_parseName {text : String} (parsed : parseName text cs = .ok (name, rates)) :
    name = cs.takeWhile (!isBrace ·) := by
  unfold parseName at parsed
  split at parsed
  · split at parsed
    · cases parsed
    · rename_i parts
      obtain ⟨_, -, parsed⟩ := bind_eq_ok_iff.mp parsed
      obtain ⟨_, -, parsed⟩ := bind_eq_ok_iff.mp parsed
      cases parsed
      obtain ⟨trail, -, rfl, plain, -⟩ := exists_of_splitRates? parts
      exact (Text.cut_append_cons '\x7b' _ (by simpa using plain) (by decide)).1.symm
  · rename_i plain
    cases parsed
    refine (List.takeWhile_eq_self_iff.mpr fun c hc => ?_).symm
    simpa using List.any_eq_false.mp (Bool.not_eq_true _ ▸ plain) c hc

/-- What is promised of a name: letters, digits and marks, so that it is one word wherever a rule
that it is named in is printed, alone or in a line of a script. -/
structure Proper (name : String) : Prop where
  some_ : name ≠ ""
  letters : ∀ c ∈ name.toList, isNameChar c = true
  word : IsWord name ∧ IsWord (ShellWord.quote name)
  stands : ∀ rule : Rule, rule.action ≠ .checkState → name ∈ rule.what.via →
    name ∈ Ipfw.ruleWords rule ∧
      StandsIn (ShellWord.quote name) (ShellWord.join (Ipfw.ruleWords rule)) ∧
      StandsIn (ShellWord.quote name) (Script.filterLine (ShellWord.join (Ipfw.ruleWords rule)))

theorem proper_iff {name : String} (some_ : name ≠ "") :
    Proper name ↔ ∀ c ∈ name.toList, isNameChar c = true := by
  refine ⟨Proper.letters, fun letters => ?_⟩
  have word := isWord_of_isNameChar some_ letters
  refine ⟨some_, letters, ⟨word, Text.ShellWord.isWord_quote word⟩, fun rule matches_ hname => ?_⟩
  have listed := Ipfw.mem_ruleWords_of_via matches_ hname
  have stands := Text.ShellWord.standsIn_join listed
  exact ⟨listed, stands, stands.append_left (by simp [Text.isBlank])⟩

/-- The name of an accepted token is the text before its markers, its rates and its network: a
word, and perhaps a line feed behind it. It is a proper name exactly where that text has no line
feed. -/
theorem proper_name_iff (parsed : parse token = .ok i) :
    i.name.toList = stem token ∧
      (∃ letters, letters ≠ [] ∧ (∀ c ∈ letters, isNameChar c = true) ∧
        (i.name.toList = letters ∨ i.name.toList = letters ++ ['\n'])) ∧
      (Proper i.name ↔ '\n' ∉ stem token) := by
  obtain ⟨text, name, named, proper, -, -, stems, -⟩ := parse_eq_ok_iff.mp parsed
  have spelled : i.name.toList = name := by rw [stems, String.toList_ofList]
  have cut : name = stem token := by
    rw [eq_takeWhile_of_parseName named, headD_before, front, List.takeWhile_takeWhile, stem]
    simp
  obtain ⟨letters, some_, all, ends⟩ := isName_eq_true_iff.mp proper
  have nonempty : i.name ≠ "" := by
    intro empty
    rw [empty] at spelled
    rcases ends with rfl | rfl <;> simp_all
  refine ⟨spelled.trans cut, ⟨letters, some_, all, by rwa [spelled]⟩, ?_⟩
  rw [proper_iff nonempty, spelled, ← cut]
  have plain : '\n' ∉ letters := fun feed => absurd (all _ feed) (by decide)
  rcases ends with rfl | rfl
  · exact iff_of_true all plain
  · exact iff_of_false (fun proper => absurd (proper '\n' (by simp)) (by decide)) (by simp)

theorem proper_name_wildcard :
    (∃ i, parse "\ten*\x7b64Kbit/s, 0\x7d+mac\n" = .ok i ∧ i.name = "en*" ∧ Proper i.name) ∧
      ∃ i, parse "en0\n\x7b1,2\x7d" = .ok i ∧ i.name = "en0\n" ∧ ¬ Proper i.name := by
  have wild : parse "\ten*\x7b64Kbit/s, 0\x7d+mac\n" =
      .ok { name := "en*", hosts := { mac := true }, rates := some ⟨"64Kbit/s", "0"⟩ } := by rfl
  have fed : parse "en0\n\x7b1,2\x7d" = .ok { name := "en0\n", rates := some ⟨"1", "2"⟩ } := by rfl
  exact ⟨⟨_, wild, rfl, (proper_name_iff wild).2.2.mpr (by decide)⟩,
    ⟨_, fed, rfl, fun proper => (proper_name_iff fed).2.2.mp proper (by decide)⟩⟩

/-- The line feed before a marker stays in the name. -/
theorem not_proper_name_fed :
    parse "en0\n+mac" = .ok { name := "en0\n", hosts := { mac := true } } ∧
      (∃ c ∈ "en0\n".toList, isNameChar c = false) ∧
      ¬ Proper "en0\n" := by
  refine ⟨by rfl, ⟨'\n', by decide⟩, fun proper => ?_⟩
  exact absurd (proper.letters '\n' (by decide)) (by decide)

end Interface
end Firewall

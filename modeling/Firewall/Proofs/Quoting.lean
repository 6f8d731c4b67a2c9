import Mathlib.Data.List.Basic
import Firewall.Text.Lines
import Firewall.Text.ShellWord

/-!
Scripts as a shell takes them apart. A line feed ends a command unless it stands between quotes, and
a word that is quoted for a shell keeps its line feeds there: one command line stays one command,
whatever its words are.
-/

namespace Firewall.Text

/-- Where a shell is in a text: between words, in a word, between quotes of one kind, or in a
comment. No script has a backslash but between single quotes, where it means nothing. -/
inductive Mode
  | gap
  | word
  | single
  | double
  | comment
deriving DecidableEq

namespace Mode

def after : Mode → Char → Mode
  | .single, c => if c = '\'' then .word else .single
  | .double, c => if c = '"' then .word else .double
  | .comment, c => if c = '\n' then .gap else .comment
  | m, c =>
    if c = '\'' then .single
    else if c = '"' then .double
    else if c = ' ' ∨ c = '\t' ∨ c = '\n' then .gap
    else if c = '#' ∧ m = .gap then .comment
    else .word

/-- Whether a character ends the command that a shell is at. -/
def ends (m : Mode) (c : Char) : Bool := c = '\n' && m ≠ .single && m ≠ .double

/-- Where a shell is after characters of which none ends a command. -/
def through? (m : Mode) : List Char → Option Mode
  | [] => some m
  | c :: rest => if m.ends c then none else (m.after c).through? rest

end Mode

/-- The lines of a text as commands take them, line feeds between quotes included. -/
def commandLines (m : Mode) : List Char → List (List Char)
  | [] => [[]]
  | c :: rest =>
    if m.ends c then [] :: commandLines .gap rest
    else match commandLines (m.after c) rest with
      | [] => [[c]]
      | line :: more => (c :: line) :: more

/-- A line that is all of a command, or a comment. -/
def Whole (l : String) : Prop := (Mode.gap.through? l.toList).any (·.ends '\n') = true

instance (l : String) : Decidable (Whole l) := inferInstanceAs (Decidable (_ = true))

variable {m m' : Mode} {a b line rest : List Char} {l : String}

theorem Mode.through?_append (m : Mode) (a b : List Char) :
    m.through? (a ++ b) = (m.through? a).bind (·.through? b) := by
  induction a generalizing m with
  | nil => rfl
  | cons c a ih =>
      rw [List.cons_append, through?, through?]
      split
      · rfl
      · exact ih (m.after c)

theorem Mode.through?_of_stays (stays : ∀ c ∈ a, m.after c = m ∧ m.ends c = false) :
    m.through? a = some m := by
  induction a with
  | nil => rfl
  | cons c a ih =>
      rw [List.forall_mem_cons] at stays
      rw [through?, stays.1.2, stays.1.1]
      exact ih stays.2

theorem whole_of_through? (passed : Mode.gap.through? l.toList = some m)
    (ends : m.ends '\n' = true) : Whole l := by
  rw [Whole, passed, Option.any_some, ends]

theorem commandLines_of_through? (passed : m.through? line = some m') (ends : m'.ends '\n' = true)
    (rest : List Char) :
    commandLines m (line ++ '\n' :: rest) = line :: commandLines .gap rest := by
  induction line generalizing m with
  | nil =>
      cases passed
      rw [List.nil_append, commandLines, if_pos ends]
  | cons c line ih =>
      rw [Mode.through?] at passed
      split at passed
      · cases passed
      · rename_i inside
        rw [List.cons_append, commandLines, if_neg inside, ih passed]

/-- Lines that are whole are taken one by one. -/
theorem commandLines_unlines {ls : List String} (whole : ∀ l ∈ ls, Whole l) :
    commandLines .gap (unlines ls).toList = ls.map (·.toList) ++ [[]] := by
  induction ls with
  | nil => rfl
  | cons l rest ih =>
      rw [List.forall_mem_cons] at whole
      obtain ⟨m, passed, ends⟩ := (Option.any_eq_true _ _).mp whole.1
      have first : (unlines (l :: rest)).toList = l.toList ++ '\n' :: (unlines rest).toList := by
        simp [unlines, String.toList_join]
      rw [first, commandLines_of_through? passed ends, ih whole.2, List.map_cons,
        List.cons_append]

/-! ### Words and command lines -/

namespace ShellWord

/-- No harmless character is a blank, a quote or a sign that begins a comment. -/
theorem not_mem_of_bare {c : Char} (bare : isBare c = true) :
    c ∉ ['\'', '"', ' ', '\t', '\n', '#'] := by
  intro special
  simp only [List.mem_cons, List.not_mem_nil, or_false] at special
  rcases special with rfl | rfl | rfl | rfl | rfl | rfl
  all_goals exact absurd bare (by decide)

theorem through?_bare (bare : ∀ c ∈ a, isBare c = true) (some_ : a ≠ [])
    (outside : m = .gap ∨ m = .word) : m.through? a = some .word := by
  induction a generalizing m with
  | nil => exact absurd rfl some_
  | cons c a ih =>
      rw [List.forall_mem_cons] at bare
      have plain := not_mem_of_bare bare.1
      simp only [List.mem_cons, List.not_mem_nil, or_false, not_or] at plain
      have inside : m.ends c = false := by simp [Mode.ends, plain]
      have next : m.after c = .word := by
        rcases outside with rfl | rfl <;> simp [Mode.after, plain]
      rw [Mode.through?, inside, next]
      cases a with
      | nil => rfl
      | cons d a => exact ih bare.2 (List.cons_ne_nil d a) (.inr rfl)

theorem through?_escape (cs : List Char) :
    Mode.single.through? (cs.flatMap escape) = some .single := by
  induction cs with
  | nil => rfl
  | cons c cs ih =>
      have passed : Mode.single.through? (escape c) = some .single := by
        unfold escape
        split
        · rfl
        · rename_i plain
          simp [Mode.through?, Mode.ends, Mode.after, plain]
      rw [List.flatMap_cons, Mode.through?_append, passed]
      exact ih

/-- A quoted word is one word, whatever its characters are. -/
theorem through?_quote (word : String) (outside : m = .gap ∨ m = .word) :
    m.through? (quote word).toList = some .word := by
  unfold quote
  split
  · rcases outside with rfl | rfl <;> rfl
  · rename_i some_
    split
    · rename_i bare
      refine through?_bare (List.all_eq_true.mp bare) (fun none_ => some_ ?_) outside
      simpa using none_
    · have opened : m.through? ['\''] = some .single := by rcases outside with rfl | rfl <;> rfl
      rw [String.toList_ofList, ← List.singleton_append, List.append_assoc, Mode.through?_append,
        opened, Option.bind_some, Mode.through?_append, through?_escape]
      rfl

/-- A command line is read to its end, and no command ends within it. -/
theorem through?_join (words : List String) (outside : m = .gap ∨ m = .word) :
    ∃ m', m.through? (join words).toList = some m' ∧ (m' = .gap ∨ m' = .word) := by
  unfold join
  induction words generalizing m with
  | nil => exact ⟨m, rfl, outside⟩
  | cons word rest ih =>
      have read := through?_quote word outside
      cases rest with
      | nil => exact ⟨.word, by simpa using read, .inr rfl⟩
      | cons next rest =>
          obtain ⟨m', passed, outside'⟩ := ih (m := .gap) (.inl rfl)
          refine ⟨m', ?_, outside'⟩
          rw [List.map_cons, List.map_cons, String.intercalate_cons_cons, String.toList_append,
            String.toList_append, ← List.map_cons, Mode.through?_append, Mode.through?_append, read]
          exact passed

end ShellWord

/-! ### Whole lines -/

/-- A comment without a line feed is a line of its own. -/
theorem whole_comment {said : String} (free : '\n' ∉ said.toList) : Whole ("# " ++ said) := by
  have led : Mode.gap.through? "# ".toList = some .comment := by decide
  refine whole_of_through? (m := .comment) ?_ rfl
  rw [String.toList_append, Mode.through?_append, led]
  refine Mode.through?_of_stays fun c hc => ?_
  have other : c ≠ '\n' := fun feed => free (feed ▸ hc)
  simp [Mode.after, Mode.ends, other]

theorem whole_join (words : List String) : Whole (ShellWord.join words) := by
  obtain ⟨m, passed, outside⟩ := ShellWord.through?_join words (.inl rfl)
  exact whole_of_through? passed (by rcases outside with rfl | rfl <;> rfl)

theorem whole_append_join {lead : String} (led : Mode.gap.through? lead.toList = some .gap)
    (words : List String) : Whole (lead ++ ShellWord.join words) := by
  obtain ⟨m, passed, outside⟩ := ShellWord.through?_join words (.inl rfl)
  refine whole_of_through? (m := m) ?_ (by rcases outside with rfl | rfl <;> rfl)
  rw [String.toList_append, Mode.through?_append, led]
  exact passed

/-- Between double quotes line feeds end no command either. -/
theorem whole_between {lead : String} (led : Mode.gap.through? lead.toList = some .double)
    {said : String} (free : '"' ∉ said.toList) : Whole (lead ++ said ++ "\"") := by
  have inside : Mode.double.through? said.toList = some .double := by
    refine Mode.through?_of_stays fun c hc => ?_
    have other : c ≠ '"' := fun closes => free (closes ▸ hc)
    simp [Mode.after, Mode.ends, other]
  refine whole_of_through? (m := .word) ?_ rfl
  rw [String.toList_append, String.toList_append, Mode.through?_append, Mode.through?_append, led,
    Option.bind_some, inside]
  rfl

end Firewall.Text

import Mathlib.Data.List.TakeWhile
import Firewall.Proofs.Origins

/-!
The letters of rates and networks. No text that is read as a rate or as a network holds a character
by which the parts of a token are told apart; so the parts are found where they were written.
-/

namespace Firewall

/-! ### Texts that are cut -/

namespace Text

variable {p : Char → Bool} {c : Char} {cs head tail : List Char}

/-- A text is cut where a test fails for the first time. -/
theorem cut_iff :
    cs.takeWhile p = head ∧ cs.dropWhile p = tail ↔
      cs = head ++ tail ∧ (∀ c ∈ head, p c = true) ∧ ∀ c ∈ tail.head?, p c = false := by
  constructor
  · rintro ⟨rfl, rfl⟩
    refine ⟨List.takeWhile_append_dropWhile.symm, fun c => List.mem_takeWhile_imp, fun c hc => ?_⟩
    have law := List.head?_dropWhile_not p cs
    rwa [Option.mem_def.mp hc] at law
  · rintro ⟨rfl, inside, stop⟩
    rw [List.takeWhile_append_of_pos inside, List.dropWhile_append_of_pos inside]
    cases tail with
    | nil => simp
    | cons c rest => simp [stop c rfl]

theorem cut_append_cons (c : Char) (tail : List Char) (inside : ∀ c ∈ head, p c = true)
    (stop : p c = false) :
    (head ++ c :: tail).takeWhile p = head ∧ (head ++ c :: tail).dropWhile p = c :: tail :=
  cut_iff.mpr ⟨rfl, inside, by simpa using stop⟩

theorem mem_cut (hc : c ∈ cs) (p : Char → Bool) : p c = true ∨ c ∈ cs.dropWhile p := by
  rw [← List.takeWhile_append_dropWhile (p := p) (l := cs)] at hc
  exact (List.mem_append.mp hc).imp_left List.mem_takeWhile_imp

theorem exists_trimBy (p : Char → Bool) (cs : List Char) :
    ∃ lead trail, cs = lead ++ (trimBy p cs ++ trail) ∧ (∀ c ∈ lead, p c = true) ∧
      ∀ c ∈ trail, p c = true := by
  refine ⟨cs.takeWhile p, ((cs.dropWhile p).reverse.takeWhile p).reverse, ?_,
    fun c => List.mem_takeWhile_imp, fun c hc => List.mem_takeWhile_imp (List.mem_reverse.mp hc)⟩
  rw [trimBy, ← List.reverse_append, List.takeWhile_append_dropWhile, List.reverse_reverse,
    List.takeWhile_append_dropWhile]

theorem mem_trimBy (hc : c ∈ cs) (p : Char → Bool) : p c = true ∨ c ∈ trimBy p cs := by
  obtain ⟨lead, trail, split, before, behind⟩ := exists_trimBy p cs
  rw [split, List.mem_append, List.mem_append] at hc
  rcases hc with hc | hc | hc
  · exact .inl (before c hc)
  · exact .inr hc
  · exact .inl (behind c hc)

/-- A character stands twice in a row behind a text that is free of it. -/
theorem pair_infix_append (free : c ∉ head) : [c, c] <:+: head ++ tail ↔ [c, c] <:+: tail := by
  induction head with
  | nil => rfl
  | cons x rest ih =>
      obtain ⟨other, free⟩ := not_or.mp (mt List.mem_cons.mpr free)
      rw [List.cons_append, List.infix_cons_iff, ih free]
      simp [List.cons_prefix_cons, other]

theorem pair_infix_trimBy (kept : p c = false) : [c, c] <:+: trimBy p cs ↔ [c, c] <:+: cs := by
  obtain ⟨lead, trail, split, before, behind⟩ := exists_trimBy p cs
  have free {xs : List Char} (all : ∀ c ∈ xs, p c = true) : c ∉ xs :=
    fun hc => by simp [all c hc] at kept
  have turn (xs : List Char) : [c, c] <:+: xs ↔ [c, c] <:+: xs.reverse := List.reverse_infix.symm
  have turned : [c, c] <:+: trimBy p cs ++ trail ↔ [c, c] <:+: trimBy p cs := by
    rw [turn, List.reverse_append, turn (trimBy p cs)]
    exact pair_infix_append (by simpa using free behind)
  conv => rhs; rw [split]
  rw [pair_infix_append (free before), turned]

end Text

namespace Address

variable {c : Char} {cs first : List Char} {more : List (List Char)}

theorem splitAll_of_not_mem (free : c ∉ cs) : splitAll c cs = [cs] := by
  induction cs with
  | nil => rfl
  | cons x rest ih =>
      obtain ⟨other, free⟩ := not_or.mp (mt List.mem_cons.mpr free)
      rw [splitAll, if_neg (Ne.symm other), ih free]

/-- The parts between the separators are those of which the text is put together. -/
theorem splitAll_eq_cons_iff :
    splitAll c cs = first :: more ↔
      cs = first ++ more.flatMap (c :: ·) ∧ ∀ part ∈ first :: more, c ∉ part := by
  constructor
  · intro split
    induction cs generalizing first more with
    | nil =>
        cases split
        simp
    | cons x rest ih =>
        obtain ⟨part, parts, split'⟩ := List.exists_cons_of_ne_nil (splitAll_ne_nil c rest)
        obtain ⟨rest_eq, free⟩ := ih split'
        by_cases sep : x = c
        · simp only [splitAll, if_pos sep, split', List.cons.injEq] at split
          obtain ⟨rfl, rfl⟩ := split
          exact ⟨by simp [sep, rest_eq], List.forall_mem_cons.mpr ⟨List.not_mem_nil, free⟩⟩
        · simp only [splitAll, if_neg sep, split', List.cons.injEq] at split
          obtain ⟨rfl, rfl⟩ := split
          rw [List.forall_mem_cons] at free ⊢
          exact ⟨by simp [rest_eq], by simp [free.1, Ne.symm sep], free.2⟩
  · rintro ⟨rfl, free⟩
    induction more generalizing first with
    | nil => simpa using splitAll_of_not_mem (free first (List.mem_singleton_self first))
    | cons part rest ih =>
        rw [List.forall_mem_cons] at free
        rw [List.flatMap_cons, List.cons_append, splitAll_append, splitAll_of_not_mem free.1,
          ih free.2]
        rfl

theorem headD_splitAll (c : Char) (cs : List Char) :
    (splitAll c cs).headD [] = cs.takeWhile (· ≠ c) := by
  obtain ⟨first, more, split⟩ := List.exists_cons_of_ne_nil (splitAll_ne_nil c cs)
  obtain ⟨cs_eq, free⟩ := splitAll_eq_cons_iff.mp split
  have inside : ∀ x ∈ first, decide (x ≠ c) = true := by
    intro x hx
    simpa using fun same : x = c => free first (List.mem_cons_self ..) (same ▸ hx)
  have stop : ∀ x ∈ (more.flatMap (c :: ·)).head?, decide (x ≠ c) = false := by
    cases more with
    | nil => nofun
    | cons part rest => simp
  rw [split, (Text.cut_iff.mpr ⟨cs_eq, inside, stop⟩).1, List.headD_cons]

end Address

/-! ### The letters of a rate -/

namespace Rate

open Text

variable {cs : List Char} {c : Char}

/-- The letters of units, and the point. -/
def letters : List Char := ['.', '/', 'K', 'k', 'M', 'm', 'B', 'b', 'i', 't', 'y', 'e', 's']

theorem mem_letters_of_multiplier? {factor : Nat} (h : multiplier? c = some factor) :
    c ∈ letters := by
  unfold multiplier? at h
  split at h
  all_goals simp [letters] at h ⊢

theorem unit?_subset (h : (unit? cs).isSome) : cs ⊆ letters := by
  unfold unit? at h
  extract_lets kind? at h
  have kind {cs : List Char} (h : (kind? cs).isSome) : cs ⊆ letters := by
    simp only [kind?] at h
    split at h
    · split at h
      · rename_i ends
        rcases ends with rfl | rfl <;> simp [letters]
      · cases h
    · split at h
      · rename_i ends
        obtain ⟨rfl | rfl, rfl | rfl⟩ := ends <;> simp [letters]
      · cases h
    · cases h
  split at h
  · exact List.nil_subset _
  · split at h
    · rename_i factor
      rw [Option.isSome_map] at h
      exact List.cons_subset.mpr ⟨mem_letters_of_multiplier? factor, kind h⟩
    · rw [Option.isSome_map] at h
      exact kind h

theorem letter_of_reading? (h : (reading? cs).isSome) (hc : c ∈ cs) :
    isDigit c = true ∨ isBlank c = true ∨ c ∈ letters := by
  have unit {rest : List Char} (h : (unit? (rest.dropWhile isBlank)).isSome) (hc : c ∈ rest) :
      isDigit c = true ∨ isBlank c = true ∨ c ∈ letters :=
    .inr ((mem_cut hc isBlank).imp_right fun hc => unit?_subset h hc)
  rcases mem_cut hc isDigit with digit | behind
  · exact .inl digit
  unfold reading? at h
  simp only at h
  split at h
  · cases h
  · rw [Option.isSome_map] at h
    split at h
    · rename_i more point
      split at h
      · exact unit h behind
      · rw [point] at behind
        rcases List.mem_cons.mp behind with rfl | behind
        · exact .inr (.inr (by simp [letters]))
        · exact (mem_cut behind isDigit).elim .inl (unit h)
    · exact unit h behind

/-- A text that is read as a rate. -/
def Accepts (cs : List Char) : Prop := ∃ value, parse (String.ofList cs) = .ok value

theorem parse_eq_ok_iff {value : String} :
    parse (String.ofList cs) = .ok value ↔
      (reading? (trim cs)).isSome = true ∧ value = String.ofList (trim cs) := by
  simp only [parse, strip, String.toList_ofList]
  split
  · rename_i reads
    simp [reads, eq_comm]
  · rename_i reads
    simp [reads]

theorem Accepts.not_mem (accepts : Accepts cs) (digit : isDigit c = false)
    (blank : isBlank c = false) (letter : c ∉ letters) : c ∉ cs := by
  intro hc
  obtain ⟨value, parsed⟩ := accepts
  rcases mem_trimBy hc isBlank with blank' | hc
  · simp [blank] at blank'
  · rcases letter_of_reading? (parse_eq_ok_iff.mp parsed).1 hc with digit' | blank' | letter'
    · simp [digit] at digit'
    · simp [blank] at blank'
    · exact letter letter'

end Rate

/-! ### Networks and colons -/

open Interface (bind_eq_ok_iff)

namespace Address

variable {cs : List Char} {a : Nat}

theorem isDigit_of_octet {text : String} (read : octet text cs = .ok a) :
    ∀ c ∈ cs, c.isDigit = true := by
  simp only [octet] at read
  split at read
  · cases read
  · split at read
    · cases read
    · rename_i digits
      simpa using digits

/-- An address is written in digits and points. -/
theorem letter_of_parse (read : parse cs = .ok a) :
    ∀ c ∈ cs, c.isDigit = true ∨ c = '.' := by
  simp only [parse] at read
  split at read
  · cases read
  · split at read
    · rename_i a b c d parts
      obtain ⟨_, first, read⟩ := bind_eq_ok_iff.mp read
      obtain ⟨_, second, read⟩ := bind_eq_ok_iff.mp read
      obtain ⟨_, third, read⟩ := bind_eq_ok_iff.mp read
      obtain ⟨_, fourth, -⟩ := bind_eq_ok_iff.mp read
      have digits {text : String} {part : List Char} {n : Nat} (said : octet text part = .ok n) :
          ∀ c ∈ part, c.isDigit = true ∨ c = '.' := fun c hc => .inl (isDigit_of_octet said c hc)
      rw [(splitAll_eq_cons_iff.mp parts).1]
      simp only [List.flatMap_cons, List.flatMap_nil, List.append_nil, List.forall_mem_append,
        List.forall_mem_cons, or_true, true_and]
      exact ⟨digits first, digits second, digits third, digits fourth⟩
    · cases read

end Address

namespace Block

variable {cs : List Char}

theorem letter_of_parseLength {n : Nat} (read : parseLength cs = .ok n) :
    ∀ c ∈ cs, c.isDigit = true ∨ c = '.' := by
  simp only [parseLength] at read
  split at read
  · rename_i digits
    simp only [Bool.and_eq_true, List.all_eq_true] at digits
    exact fun c hc => .inl (digits.1.1.2 c hc)
  · split at read
    · cases read
    · rename_i mask
      exact Address.letter_of_parse mask

theorem letter_of_parse {b : Block} (read : parse cs = .ok b) :
    ∀ c ∈ cs, c.isDigit = true ∨ c = '.' ∨ c = '/' := by
  have weaken {part : List Char} (said : ∀ c ∈ part, c.isDigit = true ∨ c = '.') :
      ∀ c ∈ part, c.isDigit = true ∨ c = '.' ∨ c = '/' :=
    fun c hc => (said c hc).imp_right .inl
  simp only [parse] at read
  split at read
  · rename_i address parts
    obtain ⟨a, said, -⟩ := bind_eq_ok_iff.mp read
    rw [(Address.splitAll_eq_cons_iff.mp parts).1, List.flatMap_nil, List.append_nil]
    exact weaken (Address.letter_of_parse said)
  · rename_i address length parts
    obtain ⟨a, said, read⟩ := bind_eq_ok_iff.mp read
    obtain ⟨l, long, -⟩ := bind_eq_ok_iff.mp read
    rw [(Address.splitAll_eq_cons_iff.mp parts).1]
    simp only [List.flatMap_cons, List.flatMap_nil, List.append_nil, List.forall_mem_append,
      List.forall_mem_cons, or_true, true_and]
    exact ⟨weaken (Address.letter_of_parse said), weaken (letter_of_parseLength long)⟩
  · cases read

theorem colon_not_mem_of_parse {b : Block} (read : parse cs = .ok b) : ':' ∉ cs :=
  fun hc => absurd (letter_of_parse read ':' hc) (by decide)

/-- A block does not begin with a slash. -/
theorem head?_ne_of_parse {b : Block} (read : parse cs = .ok b) : cs.head? ≠ some '/' := by
  simp only [parse] at read
  split at read
  · rename_i address parts
    obtain ⟨rfl, free⟩ := Address.splitAll_eq_cons_iff.mp parts
    rw [List.flatMap_nil, List.append_nil]
    exact fun first => free address (by simp) (List.mem_of_mem_head? first)
  · rename_i address length parts
    obtain ⟨a, said, -⟩ := bind_eq_ok_iff.mp read
    obtain ⟨rfl, free⟩ := Address.splitAll_eq_cons_iff.mp parts
    cases address with
    | nil => cases said
    | cons x rest =>
        rintro ⟨⟩
        exact free _ (List.mem_cons_self ..) (List.mem_cons_self ..)
  · cases read

end Block

namespace Network

variable {cs : List Char}

theorem colon_mem_slashForColon (pair : [':', ':'] <:+: cs) : ':' ∈ slashForColon cs := by
  induction cs with
  | nil => simp at pair
  | cons x rest ih =>
      rw [List.infix_cons_iff, List.cons_prefix_cons] at pair
      rw [slashForColon]
      split
      · refine List.mem_cons_of_mem _ ?_
        rcases pair with ⟨-, first⟩ | later
        · exact first.subset (List.mem_singleton_self _)
        · exact later.subset (List.mem_cons_self ..)
      · rename_i other
        rcases pair with ⟨first, -⟩ | later
        · exact absurd first.symm other
        · exact List.mem_cons_of_mem _ (ih later)

theorem subset_slashForColon (cs : List Char) : cs ⊆ ':' :: slashForColon cs := by
  induction cs with
  | nil => exact List.nil_subset _
  | cons x rest ih =>
      rw [slashForColon]
      split
      · rename_i colon
        rw [colon]
        exact List.cons_subset_cons ':' (List.subset_cons_self '/' rest)
      · refine List.cons_subset.mpr ⟨by simp, fun c hc => ?_⟩
        have := ih hc
        simp only [List.mem_cons] at this ⊢
        exact this.imp_right .inr

/-- A text that is read as a network is empty or a word for every address, or is read as a block. -/
theorem parse_cases {n : Network} (read : parse (String.ofList cs) = .ok n) :
    (cs = [] ∨ cs = ['a', 'n', 'y']) ∨ ∃ b, Block.parse (slashForColon cs) = .ok b := by
  simp only [parse, String.toList_ofList] at read
  split at read
  · rename_i any
    refine .inl (any.imp String.ofList_eq_empty_iff.mp fun any => ?_)
    simpa using congrArg String.toList any
  · split at read
    · rename_i block
      exact .inr ⟨_, block⟩
    · cases read

/-- A network has no colon at its beginning and no two colons in a row. -/
theorem colon_of_parse {n : Network} (read : parse (String.ofList cs) = .ok n) :
    cs.head? ≠ some ':' ∧ ¬ [':', ':'] <:+: cs := by
  rcases parse_cases read with spelled | ⟨b, block⟩
  · rcases spelled with rfl | rfl <;> decide
  · refine ⟨?_, fun pair => Block.colon_not_mem_of_parse block (colon_mem_slashForColon pair)⟩
    cases cs with
    | nil => nofun
    | cons x rest =>
        rintro ⟨⟩
        exact Block.head?_ne_of_parse block rfl

theorem letter_of_parse {n : Network} (read : parse (String.ofList cs) = .ok n) :
    ∀ c ∈ cs, c.isAlphanum = true ∨ c ∈ ['.', '/', ':'] := by
  rcases parse_cases read with (rfl | rfl) | ⟨b, block⟩
  · exact List.forall_mem_nil _
  · have letters : ['a', 'n', 'y'].all Char.isAlphanum = true := rfl
    exact fun c hc => .inl (List.all_eq_true.mp letters c hc)
  · intro c hc
    rcases List.mem_cons.mp (subset_slashForColon cs hc) with rfl | hc
    · exact .inr (by decide)
    · rcases Block.letter_of_parse block c hc with digit | rfl | rfl
      · exact .inl (by simp [Char.isAlphanum, digit])
      · exact .inr (by decide)
      · exact .inr (by decide)

end Network
end Firewall

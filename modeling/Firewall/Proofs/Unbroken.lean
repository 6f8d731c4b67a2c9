import Firewall.Proofs.Origins
import Firewall.Script

/-!
Texts that stand on one line. Lines that hold no line boundary are read back from their text as
they were written, and what is made of such texts is such a text.
-/

namespace Firewall.Text

/-- A text without a line boundary in it. -/
def Unbroken (s : String) : Prop := ∀ c ∈ s.toList, isLineBreak c = false

instance (s : String) : Decidable (Unbroken s) :=
  decidable_of_iff (s.toList.all (!isLineBreak ·) = true) (by simp [Unbroken])

/-! ### Lines read back -/

theorem lines_break (rest : List Char) : lines ('\n' :: rest) = [] :: lines rest := by
  have boundary : isLineBreak '\n' = true := rfl
  rw [lines, if_pos boundary]
  nofun

theorem lines_cons {c : Char} (h : isLineBreak c = false) (rest : List Char) :
    lines (c :: rest) = match lines rest with
      | [] => [[c]]
      | line :: more => (c :: line) :: more := by
  have apart : ∀ more, c = '\x0d' → rest = '\n' :: more → False := by
    rintro _ rfl
    cases h
  exact (lines.eq_3 _ _ apart).trans (if_neg (by simp [h]))

theorem lines_append {cs : List Char} (h : ∀ c ∈ cs, isLineBreak c = false) (rest : List Char) :
    lines (cs ++ '\n' :: rest) = cs :: lines rest := by
  induction cs with
  | nil => exact lines_break rest
  | cons c more ih =>
      rw [List.forall_mem_cons] at h
      rw [List.cons_append, lines_cons h.1, ih h.2]

theorem toList_unlines_cons (l : String) (ls : List String) :
    (unlines (l :: ls)).toList = l.toList ++ '\n' :: (unlines ls).toList := by
  simp [unlines, String.toList_join]

theorem lines_unlines {ls : List String} (h : ∀ l ∈ ls, Unbroken l) :
    lines (unlines ls).toList = ls.map String.toList := by
  induction ls with
  | nil => rfl
  | cons l rest ih =>
      rw [List.forall_mem_cons] at h
      rw [toList_unlines_cons, lines_append h.1, ih h.2, List.map_cons]

/-- What follows a lead, on a line that begins with it. -/
def after? (lead line : String) : Option String :=
  (lead.toList.isPrefixOf? line.toList).map String.ofList

/-- What follows a lead on the lines of a text that begin with it. -/
def linesAfter (lead text : String) : List String :=
  (lines text.toList).filterMap fun line => after? lead (String.ofList line)

theorem linesAfter_unlines {lead : String} {ls : List String} (h : ∀ l ∈ ls, Unbroken l) :
    linesAfter lead (unlines ls) = ls.filterMap (after? lead) := by
  rw [linesAfter, lines_unlines h, List.filterMap_map]
  simp

@[simp] theorem after?_append (lead s : String) : after? lead (lead ++ s) = some s := by
  have split : lead.toList.isPrefixOf? (lead ++ s).toList = some s.toList :=
    List.isPrefixOf?_eq_some_iff_append_eq.mpr String.toList_append.symm
  rw [after?, split, Option.map_some, String.ofList_toList]

theorem after?_eq_none {lead line : String} {c : Char} (first : lead.toList.head? = some c)
    (other : line.toList.head? ≠ some c) : after? lead line = none := by
  rw [after?, Option.map_eq_none_iff, Option.eq_none_iff_forall_ne_some]
  intro rest split
  rw [← List.isPrefixOf?_eq_some_iff_append_eq.mp split, List.head?_append, first] at other
  exact other rfl

theorem filterMap_after?_map (lead : String) (ls : List String) :
    (ls.map (lead ++ ·)).filterMap (after? lead) = ls := by
  rw [List.filterMap_map]
  simp

/-! ### Texts made of others -/

variable {s t : String}

theorem unbroken_ofList {cs : List Char} (h : cs.all (!isLineBreak ·) = true) :
    Unbroken (String.ofList cs) := by
  rw [Unbroken, String.toList_ofList]
  simpa using h

theorem Unbroken.of_subset (h : Unbroken s) (sub : t.toList ⊆ s.toList) : Unbroken t :=
  fun c hc => h c (sub hc)

@[simp] theorem unbroken_append : Unbroken (s ++ t) ↔ Unbroken s ∧ Unbroken t := by
  simp [Unbroken, or_imp, forall_and]

theorem mem_intercalate {separator : String} {ts : List String} {c : Char} :
    c ∈ (separator.intercalate ts).toList →
      c ∈ separator.toList ∨ ∃ t ∈ ts, c ∈ t.toList := by
  induction ts with
  | nil => simp
  | cons t rest ih =>
      cases rest with
      | nil => simpa using .inr
      | cons next rest =>
          rw [String.intercalate_cons_cons, String.toList_append, String.toList_append,
            List.mem_append, List.mem_append]
          rintro ((here | between) | later)
          · exact .inr ⟨t, List.mem_cons_self, here⟩
          · exact .inl between
          · exact (ih later).imp_right fun ⟨u, hu, hc⟩ => ⟨u, List.mem_cons_of_mem t hu, hc⟩

theorem subset_intercalate (separator : String) {ts : List String} (ht : t ∈ ts) :
    t.toList ⊆ (separator.intercalate ts).toList := by
  induction ts with
  | nil => cases ht
  | cons first rest ih =>
      cases rest with
      | nil =>
          obtain rfl := List.mem_singleton.mp ht
          simp
      | cons next rest =>
          rw [String.intercalate_cons_cons, String.toList_append, String.toList_append]
          rcases List.mem_cons.mp ht with rfl | later
          · exact fun c hc => List.mem_append_left _ (List.mem_append_left _ hc)
          · exact fun c hc => List.mem_append_right _ (ih later hc)

theorem unbroken_intercalate {separator : String} {ts : List String} (hs : Unbroken separator)
    (ht : ∀ t ∈ ts, Unbroken t) : Unbroken (separator.intercalate ts) := by
  intro c hc
  rcases mem_intercalate hc with between | ⟨t, listed, hc⟩
  · exact hs c between
  · exact ht t listed c hc

theorem isLineBreak_of_isBlank {c : Char} (h : isBlank c = false) : isLineBreak c = false := by
  simp only [isBlank, isLineBreak, Bool.or_eq_false_iff, Bool.and_eq_false_iff,
    decide_eq_false_iff_not, beq_eq_false_iff_ne] at *
  omega

theorem isLineBreak_of_isDigit {c : Char} (h : isDigit c = true) : isLineBreak c = false := by
  rw [isDigit, digit?, List.findSome?_isSome_iff] at h
  obtain ⟨first, listed, within⟩ := h
  have apart := (by decide : ∀ first ∈ digitZeros, 30 < first ∧
    (first + 10 ≤ 0x85 ∨ 0x85 < first) ∧ (first + 10 ≤ 0x2028 ∨ 0x2029 < first)) first listed
  split at within
  · simp only [isLineBreak, Bool.or_eq_false_iff, Bool.and_eq_false_iff, decide_eq_false_iff_not,
      beq_eq_false_iff_ne]
    omega
  · cases within

theorem digit?_of_ascii {c : Char} (h : c.isDigit = true) : digit? c = some (c.toNat - 48) := by
  have bounds : 48 ≤ c.toNat ∧ c.toNat < 58 := by
    have within := Char.isDigit_iff_toNat.mp h
    simp at within
    omega
  have zeros : digitZeros = 48 :: digitZeros.tail := rfl
  rw [digit?, zeros, List.findSome?_cons, if_pos bounds]

theorem isDigit_of_ascii {c : Char} (h : c.isDigit = true) : isDigit c = true := by
  rw [isDigit, digit?_of_ascii h, Option.isSome_some]

theorem toList_natCast (n : Nat) : (toString n).toList = Nat.toDigits 10 n := String.toList_ofList

theorem isDigit_of_mem_natCast {c : Char} {n : Nat} (hc : c ∈ (toString n).toList) :
    c.isDigit = true := by
  rw [toList_natCast] at hc
  exact Nat.isDigit_of_mem_toDigits (by decide) (by decide) hc

theorem toList_negSucc (k : Nat) :
    (toString (Int.negSucc k)).toList = '-' :: (toString (k + 1)).toList := by
  have sign : toString (Int.negSucc k) = "-" ++ toString (k + 1) := rfl
  rw [sign, String.toList_append]
  rfl

theorem minus_or_isDigit_of_mem_intCast {n : Int} {c : Char} (hc : c ∈ (toString n).toList) :
    c = '-' ∨ c.isDigit = true := by
  cases n with
  | ofNat k => exact .inr (isDigit_of_mem_natCast hc)
  | negSucc k =>
      rw [toList_negSucc, List.mem_cons] at hc
      exact hc.imp_right isDigit_of_mem_natCast

theorem unbroken_natCast (n : Nat) : Unbroken (toString n) :=
  fun _ hc => isLineBreak_of_isDigit (isDigit_of_ascii (isDigit_of_mem_natCast hc))

theorem unbroken_intCast (n : Int) : Unbroken (toString n) := by
  cases n with
  | ofNat n => exact unbroken_natCast n
  | negSucc n => exact unbroken_append.mpr ⟨by decide, unbroken_natCast (n + 1)⟩

namespace ShellWord

variable {c : Char} {words : List String}

def isQuote (c : Char) : Bool := c = '\'' || c = '"'

theorem mem_escape {d : Char} (hc : c ∈ escape d) : c = d ∨ isQuote c = true := by
  unfold escape at hc
  split at hc
  · have quotes : "'\"'\"'".toList.all isQuote = true := rfl
    exact .inr (List.all_eq_true.mp quotes c hc)
  · exact .inl (List.mem_singleton.mp hc)

/-- A quoted word holds the characters of the word, and quotes. -/
theorem mem_quote (hc : c ∈ (quote s).toList) : c ∈ s.toList ∨ isQuote c = true := by
  unfold quote at hc
  split at hc
  · have quotes : "''".toList.all isQuote = true := rfl
    exact .inr (List.all_eq_true.mp quotes c hc)
  · split at hc
    · exact .inl hc
    · simp only [String.toList_ofList, List.cons_append, List.mem_cons, List.mem_append,
        List.mem_flatMap, List.not_mem_nil, or_false] at hc
      rcases hc with rfl | ⟨d, hd, hc⟩ | rfl
      · exact .inr rfl
      · exact (mem_escape hc).imp_left fun (same : c = d) => same ▸ hd
      · exact .inr rfl

theorem subset_quote (s : String) : s.toList ⊆ (quote s).toList := by
  unfold quote
  split
  · rename_i empty
    simp [String.isEmpty_iff.mp empty]
  · split
    · exact List.Subset.refl _
    · intro c hc
      have kept : c ∈ escape c := by
        unfold escape
        split <;> simp_all
      simp only [String.toList_ofList, List.cons_append, List.mem_cons, List.mem_append,
        List.mem_flatMap]
      exact .inr (.inl ⟨c, hc, kept⟩)

theorem mem_join (hc : c ∈ (join words).toList) :
    (∃ w ∈ words, c ∈ w.toList) ∨ c = ' ' ∨ isQuote c = true := by
  rcases mem_intercalate hc with blank | ⟨_, listed, hc⟩
  · exact .inr (.inl (by simpa using blank))
  · obtain ⟨w, hw, rfl⟩ := List.mem_map.mp listed
    rcases mem_quote hc with inside | quote
    · exact .inl ⟨w, hw, inside⟩
    · exact .inr (.inr quote)

theorem subset_join {w : String} (hw : w ∈ words) : w.toList ⊆ (join words).toList :=
  List.Subset.trans (subset_quote w) (subset_intercalate " " (List.mem_map_of_mem hw))

theorem unbroken_quote (h : Unbroken s) : Unbroken (quote s) := by
  intro c hc
  rcases mem_quote hc with inside | quote
  · exact h c inside
  · simp only [isQuote, Bool.or_eq_true, decide_eq_true_eq] at quote
    rcases quote with rfl | rfl <;> rfl

theorem unbroken_join (h : ∀ w ∈ words, Unbroken w) : Unbroken (join words) := by
  refine unbroken_intercalate (by decide) fun t ht => ?_
  obtain ⟨w, hw, rfl⟩ := List.mem_map.mp ht
  exact unbroken_quote (h w hw)

end ShellWord
end Firewall.Text

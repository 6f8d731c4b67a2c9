import Mathlib.Data.List.Forall2
import Firewall.Ipfw.Words

/-!
Sentences of clauses. A clause is a part of a command that is said or left out. Where clauses begin
differently and no way to say one begins another way to say it, the words of a sentence tell
which of its clauses are said and how.
-/

namespace Firewall.Ipfw

/-! ### Clauses -/

/-- A part of a command that may be left out: the ways to say it, and the words that they begin
with. No way to say it begins another. -/
structure Clause where
  leads : List (List String)
  Said : List String → Prop
  nonempty : [] ∉ leads
  exists_lead {words : List String} : Said words → ∃ lead ∈ leads, lead <+: words
  prefixFree {words others : List String} :
    Said words → Said others → words <+: others → words = others

namespace Clause

/-- The words of a clause, which may be left out. -/
def Fits (c : Clause) (words : List String) : Prop := words = [] ∨ c.Said words

/-- A clause that is said in one of several ways. -/
def choice (ways : List (List String)) (nonempty : [] ∉ ways)
    (free : ∀ way ∈ ways, ∀ other ∈ ways, way <+: other → way = other) : Clause where
  leads := ways
  Said words := words ∈ ways
  nonempty := nonempty
  exists_lead said := ⟨_, said, List.prefix_rfl⟩
  prefixFree said others := free _ said _ others

/-- A clause that is always said in the same words. -/
def fixed (words : List String) (nonempty : words ≠ []) : Clause :=
  choice [words] (by simpa using nonempty.symm) (by simp)

/-- A clause of a word and what it is about. -/
def operand (word : String) : Clause where
  leads := [[word]]
  Said words := ∃ about, words = [word, about]
  nonempty := by simp
  exists_lead := by
    rintro _ ⟨about, rfl⟩
    exact ⟨[word], List.mem_singleton_self _, [about], rfl⟩
  prefixFree := by
    rintro _ _ ⟨about, rfl⟩ ⟨other, rfl⟩ before
    exact before.eq_of_length rfl

theorem fits_fixed (words : List String) (nonempty : words ≠ []) (on : Bool) :
    (fixed words nonempty).Fits (if on then words else []) := by
  cases on
  · exact .inl rfl
  · exact .inr (List.mem_singleton_self _)

theorem fits_optionWords (word : String) (about : Option String) :
    (operand word).Fits (optionWords word about) := by
  cases about with
  | none => exact .inl rfl
  | some s =>
      rw [optionWords]
      split
      · exact .inl rfl
      · exact .inr ⟨s, rfl⟩

theorem fits_listWords (word : String) (xs : List String) :
    (operand word).Fits (listWords word xs) := by
  rw [listWords]
  split
  · exact .inl rfl
  · exact .inr ⟨commaJoined xs, rfl⟩

end Clause

/-! ### Sentences -/

/-- No words begin both with one of some leads and with one of others. -/
def Apart (leads others : List (List String)) : Prop :=
  ∀ lead ∈ leads, ∀ other ∈ others, ¬lead <+: other ∧ ¬other <+: lead

instance (leads others : List (List String)) : Decidable (Apart leads others) :=
  List.decidableBAll _ _

section Sentences

variable {clauses : List Clause} {words others : List (List String)}

/-- A sentence that is not empty begins with a lead of one of its clauses. -/
theorem exists_lead_flatten (fits : List.Forall₂ Clause.Fits clauses words)
    (said : words.flatten ≠ []) : ∃ c ∈ clauses, ∃ lead ∈ c.leads, lead <+: words.flatten := by
  induction fits with
  | nil => exact absurd rfl said
  | @cons c here _ _ fit _ ih =>
      rw [List.flatten_cons] at said ⊢
      obtain rfl | spoken := fit
      · obtain ⟨d, hd, lead, leads, before⟩ := ih said
        exact ⟨d, List.mem_cons_of_mem _ hd, lead, leads, before⟩
      · obtain ⟨lead, leads, before⟩ := c.exists_lead spoken
        exact ⟨c, List.mem_cons_self, lead, leads, before.trans (List.prefix_append _ _)⟩

/-- No clause begins a sentence of clauses that begin differently. -/
theorem not_prefix_flatten {c : Clause} {said : List String}
    (apart : ∀ d ∈ clauses, Apart c.leads d.leads) (fits : List.Forall₂ Clause.Fits clauses words)
    (spoken : c.Said said) : ¬said <+: words.flatten := by
  intro before
  obtain ⟨lead, leads, begins⟩ := c.exists_lead spoken
  have first := begins.trans before
  by_cases empty : words.flatten = []
  · rw [empty, List.prefix_nil] at first
    exact c.nonempty (first ▸ leads)
  · obtain ⟨d, hd, other, others, second⟩ := exists_lead_flatten fits empty
    obtain ⟨not_before, not_after⟩ := apart d hd lead leads other others
    exact (List.prefix_or_prefix_of_prefix first second).elim not_before not_after

/-- A sentence of clauses that begin differently tells the words of each of them. -/
theorem flatten_inj (apart : (clauses.map Clause.leads).Pairwise Apart)
    (fits : List.Forall₂ Clause.Fits clauses words)
    (fits' : List.Forall₂ Clause.Fits clauses others) (same : words.flatten = others.flatten) :
    words = others := by
  induction fits generalizing others with
  | nil =>
      cases fits'
      rfl
  | @cons c here clauses words fit fits ih =>
      cases fits' with
      | @cons _ there _ others fit' fits' =>
          rw [List.map_cons, List.pairwise_cons, List.forall_mem_map] at apart
          rw [List.flatten_cons, List.flatten_cons] at same
          -- A clause said on one side only would begin the clauses behind it on the other.
          have heads : here = there := by
            obtain rfl | spoken := fit <;> obtain rfl | spoken' := fit'
            · rfl
            · exact absurd ⟨_, same.symm⟩ (not_prefix_flatten apart.1 fits spoken')
            · exact absurd ⟨_, same⟩ (not_prefix_flatten apart.1 fits' spoken)
            · obtain before | after := List.prefix_or_prefix_of_prefix
                (List.prefix_append here words.flatten) ⟨_, same.symm⟩
              · exact c.prefixFree spoken spoken' before
              · exact (c.prefixFree spoken' spoken after).symm
          subst heads
          rw [ih apart.2 fits' (List.append_cancel_left same)]

end Sentences

/-! ### Alternatives -/

theorem viaAlternatives_cons_cons (name next : String) (rest : List String) :
    viaAlternatives (name :: next :: rest) =
      "via" :: name :: "or" :: viaAlternatives (next :: rest) := rfl

/-- The brace after alternatives tells where they end. -/
theorem prefixFree_viaAlternatives {names others : List String} (said : names ≠ [])
    (said' : others ≠ [])
    (before : viaAlternatives names ++ ["\x7d"] <+: viaAlternatives others ++ ["\x7d"]) :
    names = others := by
  induction names generalizing others with
  | nil => exact absurd rfl said
  | cons name rest ih =>
      -- The third word is the brace or `or`, so both lists end at the same place.
      match rest, others with
      | [], [other] => simpa [viaAlternatives] using before
      | [], other :: next :: more => simp [viaAlternatives] at before
      | next :: rest, [other] => simp [viaAlternatives] at before
      | next :: rest, other :: next' :: more =>
          simp only [viaAlternatives_cons_cons, List.cons_append, List.cons_prefix_cons,
            true_and] at before
          obtain ⟨rfl, before⟩ := before
          rw [ih (by simp) (by simp) before]

theorem viaWords_cons_cons (name next : String) (rest : List String) :
    viaWords (name :: next :: rest) =
      "\x7b" :: (viaAlternatives (name :: next :: rest) ++ ["\x7d"]) := rfl

theorem prefixFree_viaWords {names others : List String} (said : names ≠ [])
    (said' : others ≠ []) (before : viaWords names <+: viaWords others) : names = others := by
  match names, others with
  | [name], [other] => simpa [viaWords] using before
  | [name], other :: next :: more => simp [viaWords] at before
  | name :: next :: rest, [other] => simp [viaWords] at before
  | name :: next :: rest, other :: next' :: more =>
      rw [viaWords_cons_cons, viaWords_cons_cons, List.cons_prefix_cons] at before
      exact prefixFree_viaAlternatives said said' before.2

end Firewall.Ipfw

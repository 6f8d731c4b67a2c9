import Firewall.Numbering

/-!
Rules in the order of their numbers. Where no number occurs twice there is one such order, so a
sorted list is known once its rules are.
-/

namespace Firewall

/-- A list that is sorted by a number of its items is in the order of that number. -/
theorem pairwise_mergeSort_by {α : Type} (key : α → Int) (xs : List α) :
    (xs.mergeSort fun a b => key a ≤ key b).Pairwise fun a b => key a ≤ key b := by
  have sorted : (xs.mergeSort fun a b => key a ≤ key b).Pairwise fun a b =>
      decide (key a ≤ key b) = true :=
    List.pairwise_mergeSort
      (fun a b c hab hbc => by simp only [decide_eq_true_eq] at *; omega)
      (fun a b => by simp only [Bool.or_eq_true, decide_eq_true_eq]; omega) xs
  exact sorted.imp fun hab => by simpa using hab

namespace Numbering

def Ascending (rules : List Rule) : Prop := rules.Pairwise fun a b => a.number < b.number

theorem pairwise_sort (rules : List Rule) :
    (sort rules).Pairwise fun a b => a.number ≤ b.number :=
  pairwise_mergeSort_by Rule.number rules

theorem ascending_sort {rules : List Rule}
    (distinct : rules.Pairwise fun a b => a.number ≠ b.number) : Ascending (sort rules) := by
  have distinct' : (sort rules).Pairwise fun a b => a.number ≠ b.number :=
    distinct.perm (sort_perm rules).symm fun h => h.symm
  exact (pairwise_sort rules).imp₂ (fun a b le ne => by omega) distinct'

theorem Ascending.distinct {rules : List Rule} (h : Ascending rules) :
    rules.Pairwise fun a b => a.number ≠ b.number :=
  h.imp fun less => by omega

/-- Sorting brings rules with different numbers into the one ascending order that they have. -/
theorem sort_eq_of_perm {rules ordered : List Rule} (perm : rules.Perm ordered)
    (ascending : Ascending ordered) : sort rules = ordered := by
  have distinct : rules.Pairwise fun a b => a.number ≠ b.number :=
    ascending.distinct.perm perm.symm fun h => h.symm
  exact List.Perm.eq_of_pairwise (fun a b _ _ hab hba => by omega) (ascending_sort distinct)
    ascending ((sort_perm rules).trans perm)

/-- Changes to rules that leave their numbers may as well be made after sorting. -/
theorem sort_map {f : Rule → Rule} (number : ∀ r, (f r).number = r.number) (rules : List Rule) :
    sort (rules.map f) = (sort rules).map f := by
  refine (List.map_mergeSort fun a _ b _ => ?_).symm
  rw [number, number]

theorem Ascending.filter {rules : List Rule} (h : Ascending rules) (p : Rule → Bool) :
    Ascending (rules.filter p) :=
  List.Pairwise.filter p h

theorem Ascending.sort_filter {rules : List Rule} (h : Ascending rules) (p : Rule → Bool) :
    sort (rules.filter p) = rules.filter p :=
  sort_eq_of_perm (List.Perm.refl _) (h.filter p)

/-- Where every rule of one kind stands before every other rule, the two parts make up the whole. -/
theorem Ascending.filter_append_filter_not {rules : List Rule} (h : Ascending rules)
    (first : Rule → Bool) (apart : ∀ a ∈ rules, ∀ b ∈ rules, first a = true → first b = false →
      a.number < b.number) :
    rules.filter first ++ rules.filter (fun rule => !first rule) = rules := by
  have ascending : Ascending (rules.filter first ++ rules.filter fun rule => !first rule) := by
    refine List.pairwise_append.mpr ⟨h.filter _, h.filter _, ?_⟩
    intro a ha b hb
    obtain ⟨memA, isFirst⟩ := List.mem_filter.mp ha
    obtain ⟨memB, notFirst⟩ := List.mem_filter.mp hb
    exact apart a memA b memB isFirst (by simpa using notFirst)
  rw [← sort_eq_of_perm (List.filter_append_perm first rules).symm ascending]
  exact sort_eq_of_perm (List.Perm.refl _) h

/-- Ascending rules are known by which rules they are. -/
theorem Ascending.ext {rules others : List Rule} (h : Ascending rules) (h' : Ascending others)
    (same : ∀ rule, rule ∈ rules ↔ rule ∈ others) : rules = others := by
  have nodup {list : List Rule} (ascending : Ascending list) : list.Nodup :=
    ascending.imp fun less eq => by simp [eq] at less
  exact ((List.perm_ext_iff_of_nodup (nodup h) (nodup h')).mpr same).eq_of_pairwise
    (fun a b _ _ hab hba => by omega) h h'

/-- The rule with the highest number of all stands at the end. -/
theorem Ascending.exists_append_last {rules : List Rule} (h : Ascending rules) {last : Rule}
    (mem : last ∈ rules) (highest : ∀ rule ∈ rules, rule.number ≤ last.number) :
    ∃ init, rules = init ++ [last] := by
  obtain ⟨init, later, rfl⟩ := List.append_of_mem mem
  cases later with
  | nil => exact ⟨init, rfl⟩
  | cons next rest =>
      have behind := (List.pairwise_append.mp h).2.1
      have higher := (List.pairwise_cons.mp behind).1 next List.mem_cons_self
      have := highest next (by simp)
      omega

theorem Ascending.le {rules : List Rule} (h : Ascending rules) :
    rules.Pairwise fun a b => a.number ≤ b.number :=
  h.imp fun less => by omega

end Numbering
end Firewall

import Firewall.Proofs.Emitting
import Firewall.Proofs.Questioning

/-!
The check of the numbers of a program, for rules of any origin. It goes on behind a rule that it
objects to, and does not remember the number of a rule that belongs to no band; it still objects to
a program exactly when something is wrong with it, and hands on all rules as they came. It does not
get to its end where an objection cannot be written; the rules are handed on even so.
-/

namespace Firewall

variable {rules : List Rule}

namespace Diagnostics

theorem errors_foldl_abortFor (d : Diagnostics) (label : String) (texts : List String) :
    (texts.foldl (·.abortFor label ·) d).errors = d.errors ++ texts.map (about label) := by
  induction texts generalizing d with
  | nil => simp
  | cons text rest ih => rw [List.foldl_cons, ih]; simp [abortFor, abort, error]

end Diagnostics

namespace Numbering

/-- Every objection is recorded, and nothing but an objection makes a check abandon the program. -/
theorem exists_errors_checkFrom (checkable : ∀ rule ∈ rules, rule.Checkable)
    (seen : List (Int × String)) (d : Diagnostics) :
    ∃ more, (checkFrom seen d rules).1.errors = d.errors ++ more ∧
      (checkFrom seen d rules).1.aborted = (d.aborted || !more.isEmpty) := by
  induction rules generalizing seen d with
  | nil => exact ⟨[], by simp [checkFrom]⟩
  | cons rule rest ih =>
      rw [List.forall_mem_cons] at checkable
      obtain ⟨label, labelled⟩ :=
        Option.isSome_iff_exists.mp (Rule.isSome_label?_iff.mpr checkable.1.number)
      rw [checkFrom, labelled]
      cases tag : rule.tag with
      | unknown text => exact ⟨[], by simp⟩
      | untagged =>
          obtain ⟨more, errors, aborted⟩ :=
            ih checkable.2 seen (d.abortFor label "rule has no number band")
          refine ⟨Diagnostics.about label "rule has no number band" :: more, ?_, ?_⟩
          · rw [errors]
            simp [Diagnostics.abortFor, Diagnostics.abort, Diagnostics.error]
          · rw [aborted]
            simp [Diagnostics.abortFor, Diagnostics.abort, Diagnostics.error]
      | known p =>
          have some_ : (faults? seen rule p).isSome :=
            isSome_faults?_iff.mpr ⟨checkable.1.number, checkable.1.set (by simp [tag])⟩
          obtain ⟨texts, found⟩ := Option.isSome_iff_exists.mp some_
          obtain ⟨more, errors, aborted⟩ := ih checkable.2 ((rule.number, label) :: seen)
            (texts.foldl (·.abortFor label ·) d)
          simp only [found]
          refine ⟨texts.map (Diagnostics.about label) ++ more, ?_, ?_⟩
          · rw [errors, Diagnostics.errors_foldl_abortFor, List.append_assoc]
          · rw [aborted, Diagnostics.aborted_foldl_abortFor]
            cases texts <;> simp

theorem errors_check_ne_nil_iff (checkable : ∀ rule ∈ rules, rule.Checkable) :
    (check {} rules).1.errors ≠ [] ↔ (check {} rules).1.aborted = true := by
  obtain ⟨more, errors, aborted⟩ := exists_errors_checkFrom checkable [] {}
  rw [check, errors, aborted]
  cases more <;> simp

/-- A rule that belongs to no band, one outside of the band of its purpose, or two rules of one
number. -/
def Objectionable (rules : List Rule) : Prop :=
  (∃ rule ∈ rules, rule.tag = .untagged) ∨
    (∃ rule ∈ rules, ∃ p, rule.tag = .known p ∧
      (rule.set ≠ p.band.set ∨ rule.number < p.band.base ∨ p.band.last < rule.number)) ∨
    ∃ (i j : Nat) (a b : Rule), i ≠ j ∧ rules[i]? = some a ∧ rules[j]? = some b ∧
      a.number = b.number

theorem inBand_iff {rule : Rule} (known : ∀ text, rule.tag ≠ .unknown text) :
    InBand rule ↔ rule.tag ≠ .untagged ∧ ∀ p, rule.tag = .known p →
      rule.set = p.band.set ∧ p.band.base ≤ rule.number ∧ rule.number ≤ p.band.last := by
  cases tag : rule.tag with
  | untagged => simp [InBand, tag]
  | known p => simp [InBand, tag, Band.holds, and_assoc]
  | unknown text => exact absurd tag (known text)

theorem pairwise_ne_iff : rules.Pairwise (fun a b => a.number ≠ b.number) ↔
    ¬ ∃ (i j : Nat) (a b : Rule), i ≠ j ∧ rules[i]? = some a ∧ rules[j]? = some b ∧
      a.number = b.number := by
  rw [List.pairwise_iff_getElem]
  constructor
  · rintro apart ⟨i, j, a, b, differ, ha, hb, same⟩
    obtain ⟨hi, rfl⟩ := List.getElem?_eq_some_iff.mp ha
    obtain ⟨hj, rfl⟩ := List.getElem?_eq_some_iff.mp hb
    rcases Nat.lt_or_gt_of_ne differ with less | less
    · exact apart i j hi hj less same
    · exact apart j i hj hi less same.symm
  · intro apart i j hi hj less same
    exact apart ⟨i, j, rules[i], rules[j], Nat.ne_of_lt less, List.getElem?_eq_getElem hi,
      List.getElem?_eq_getElem hj, same⟩

theorem aborted_check_iff_objectionable
    (checkable : ∀ rule ∈ rules, (∀ text, rule.tag ≠ .unknown text) ∧ rule.Checkable) :
    (check {} rules).1.aborted = true ↔ Objectionable rules := by
  have inBand : (∀ rule ∈ rules, InBand rule) ↔
      ¬ ((∃ rule ∈ rules, rule.tag = .untagged) ∨ ∃ rule ∈ rules, ∃ p, rule.tag = .known p ∧
        (rule.set ≠ p.band.set ∨ rule.number < p.band.base ∨ p.band.last < rule.number)) := by
    push Not
    rw [← forall₂_and]
    exact forall₂_congr fun rule hr => inBand_iff (checkable rule hr).1
  rw [← Bool.not_eq_false, aborted_check_eq_false_iff checkable, inBand, pairwise_ne_iff, ← not_or,
    not_not, or_assoc, Objectionable]

/-- Something is wrong with a program whose check is stopped. -/
theorem objectionable_of_long (known : ∀ rule ∈ rules, ∀ text, rule.tag ≠ .unknown text)
    (long : ¬ ∀ rule ∈ rules, rule.Checkable) : Objectionable rules := by
  push Not at long
  obtain ⟨rule, hr, long⟩ := long
  cases tag : rule.tag with
  | unknown text => exact absurd tag (known rule hr text)
  | untagged => exact .inl ⟨rule, hr, tag⟩
  | known p =>
      refine .inr (.inl ⟨rule, hr, p, tag, ?_⟩)
      by_contra within
      have held : p.band.holds rule.set rule.number = true := by
        push Not at within
        simpa [Band.holds, and_assoc] using within
      obtain ⟨number, set⟩ := short_of_holds held
      exact long ⟨number, fun _ => set⟩

end Numbering

namespace Chain

open Firewall.Numbering (Objectionable)

variable {stages : List Stage} {d d' : Desk} {is : List Nat}

/-! ### Asking the last stage until it has no more -/

theorem nextAt_last (stages : List Stage) (d : Desk) : nextAt stages (stages.length - 1) d =
    { next stages.length stages.reverse d with
      line := (next stages.length stages.reverse d).line.reverse } := by
  have whole : stages.take (stages.length - 1 + 1) = stages := List.take_of_length_le (by omega)
  have rest : stages.drop (stages.length - 1 + 1) = [] := List.drop_eq_nil_of_le (by omega)
  simp [nextAt, whole, rest]

/-- Asked once more than there are rules, a line that hands them on answers with all of them. -/
theorem exists_askAll_of_yields (stages : List Stage)
    (h : Yields stages.length keep is stages.reverse d d') :
    ∃ stages', askAll (List.replicate (is.length + 1) (stages.length - 1)) stages d =
      ⟨is.map (.ok ∘ some) ++ [.ok none], stages', d'⟩ := by
  generalize depth_eq : stages.length = depth at h
  generalize line_eq : stages.reverse = line at h
  induction h generalizing stages with
  | @dry line line' d d' asked =>
      subst line_eq depth_eq
      refine ⟨line'.reverse, ?_⟩
      simp [askAll, nextAt_last, asked]
  | @more i is line line' d d₁ d' asked rest ih =>
      subst line_eq depth_eq
      have length := (conserving_next stages.length stages.reverse d).length_eq
      rw [asked, List.length_reverse] at length
      obtain ⟨stages', all⟩ := ih line'.reverse (by simpa using length) (by simp)
      have all : askAll (List.replicate (is.length + 1) (stages.length - 1)) line'.reverse d₁ =
          ⟨is.map (.ok ∘ some) ++ [.ok none], stages', d'⟩ := all
      refine ⟨stages', ?_⟩
      rw [List.length_cons, List.replicate_succ, askAll, nextAt_last, asked]
      simp [all]

/-- A check that is stopped has taken all rules even so, and hands them on when it is asked
again. -/
theorem exists_askAll_of_stopped (first : Stage) (name : String)
    (h : Yields 1 keep is [first] d d)
    (stopped : (Numbering.check d.diagnostics (is.map d.rule)).2 = some .longNumber) :
    ∃ stages, askAll (List.replicate (is.length + 2) 1) [first, { kind := .check, name }] d =
      ⟨.error (.stopped .longNumber) :: is.map (.ok ∘ some) ++ [.ok none], stages,
        d.checked is⟩ := by
  obtain ⟨before, same, stepped⟩ :=
    exists_step_check_stopped name (List.cons_ne_nil first []) h stopped
  have length : before.length = 1 := by simpa [plan] using congrArg List.length same
  let checker : Stage := { kind := .check, name, queue := is, spent := true }
  let line : List Stage := checker :: before
  have faulty : next 2 [first, { kind := .check, name }].reverse d =
      ⟨.error (.stopped .longNumber), line, d.checked is⟩ := next_of_fault rfl stepped
  have asked : nextAt [first, { kind := .check, name }] 1 d =
      ⟨.error (.stopped .longNumber), line.reverse, d.checked is⟩ := by
    have asked := nextAt_last [first, { kind := .check, name }] d
    rw [List.length_cons, List.length_singleton, faulty] at asked
    exact asked
  have idle : Idle before.length checker before :=
    idle_of_spent rfl (ne_nil_of_plan_eq same (List.cons_ne_nil first [])) (by simp [checker])
  have waits : Opens is line (d.checked is) (d.checked is) := fun use =>
    yields_queue idle use is (d.checked is)
  obtain ⟨stages, answers⟩ := exists_askAll_of_yields line.reverse (d := d.checked is) (by
    rw [List.reverse_reverse, List.length_reverse]
    exact waits.yields)
  refine ⟨stages, ?_⟩
  have last : line.reverse.length - 1 = 1 := by simp [line, length]
  rw [last] at answers
  rw [List.replicate_succ, askAll, asked]
  simp only [answers]
  rfl

def numbered (tag : Tag) (set number : Int) : Rule :=
  { set, number, action := .deny, what := {}, tag }

/-- A rule of no purpose before one that is in its band under the same number, and one that is not
in its band. -/
def stray : List Rule :=
  [numbered .untagged 2 2100, numbered (.known .denyFragments) 2 2100,
    numbered (.known .checkState) 5 2000]

end Chain
end Firewall

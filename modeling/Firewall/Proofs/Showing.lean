import Firewall.Proofs.Treatment

/-!
Programs that are shown while they are treated. What is shown goes into the notices and nowhere
else: the chain stores the same rules and records the same errors as without the stages that show
them, and as one check of the emitted rules at one stroke.
-/

namespace Firewall

/-! ### What is recorded, apart from what is said -/

namespace Diagnostics

def unsaid (d : Diagnostics) : Diagnostics := { d with notices := [] }

variable {d e : Diagnostics}

theorem unsaid_abort (same : d.unsaid = e.unsaid) : d.abort.unsaid = e.abort.unsaid := by
  obtain ⟨errors, warnings, aborted, notices⟩ := d
  obtain ⟨errors', warnings', aborted', notices'⟩ := e
  simp only [unsaid, mk.injEq] at same
  simp [unsaid, abort, same]

theorem unsaid_abortFor (same : d.unsaid = e.unsaid) (label text : String) :
    (d.abortFor label text).unsaid = (e.abortFor label text).unsaid := by
  obtain ⟨errors, warnings, aborted, notices⟩ := d
  obtain ⟨errors', warnings', aborted', notices'⟩ := e
  simp only [unsaid, mk.injEq] at same
  simp [unsaid, abortFor, abort, error, same]

theorem unsaid_foldl_abortFor (same : d.unsaid = e.unsaid) (label : String)
    (texts : List String) : (texts.foldl (·.abortFor label ·) d).unsaid =
      (texts.foldl (·.abortFor label ·) e).unsaid := by
  induction texts generalizing d e with
  | nil => exact same
  | cons text rest ih => exact ih (unsaid_abortFor same label text)

end Diagnostics

theorem Rule.silenced_label? (r : Rule) : r.silenced.label? = r.label? := by
  rw [label?, label?, silenced_tag, silenced_number]

namespace Numbering

open Diagnostics (unsaid)

@[simp] theorem unsaid_note (debugging : Bool) (d : Diagnostics) (stage : String)
    (rules : List Rule) : (note debugging d stage rules).unsaid = d.unsaid := by
  rw [note_eq]
  rfl

/-- A check records the same errors whatever was said before it. -/
theorem unsaid_checkFrom {d e : Diagnostics} (same : d.unsaid = e.unsaid)
    (seen : List (Int × String)) (rules : List Rule) :
    (checkFrom seen d rules).1.unsaid = (checkFrom seen e rules).1.unsaid := by
  induction rules generalizing seen d e with
  | nil => exact same
  | cons rule rest ih =>
      rw [checkFrom, checkFrom]
      cases rule.tag with
      | unknown text => exact same
      | untagged =>
          cases rule.label? with
          | none => exact Diagnostics.unsaid_abort same
          | some label => exact ih (Diagnostics.unsaid_abortFor same label _) _
      | known p =>
          dsimp only
          cases faults? seen rule p <;> cases rule.label?
          case some.some texts label =>
            exact ih (Diagnostics.unsaid_foldl_abortFor same label texts) _
          all_goals exact same

/-- The answer of a rule is nothing that a check looks at. -/
theorem checkFrom_map_silenced (seen : List (Int × String)) (d : Diagnostics) (rules : List Rule) :
    checkFrom seen d (rules.map Rule.silenced) = checkFrom seen d rules := by
  have faults_ (seen : List (Int × String)) (rule : Rule) (p : Purpose) :
      faults? seen rule.silenced p = faults? seen rule p := by
    unfold Rule.silenced
    split <;> rfl
  induction rules generalizing seen d with
  | nil => rfl
  | cons rule rest ih =>
      simp only [List.map_cons, checkFrom, Rule.silenced_tag, Rule.silenced_number,
        Rule.silenced_label?, faults_, ih]

theorem check_silence_eq (stealth : Bool) (d : Diagnostics) (rules : List Rule) :
    check d (silence stealth rules) = check d rules := by
  cases stealth with
  | false => rfl
  | true => exact checkFrom_map_silenced [] d rules

theorem unsaid_said (name : String) (stealth debugging : Bool) (emitted : List Rule) :
    (said name stealth debugging emitted).unsaid = (check {} emitted).1.unsaid := by
  simp only [said, unsaid_note, check_silence_eq]
  exact unsaid_checkFrom (by simp only [unsaid_note]) [] emitted

/-! ### The order of evaluation -/

/-- The rules in the order of their numbers, those of one number as they stood before. -/
structure StablySorts (rules ordered : List Rule) : Prop where
  perm : ordered.Perm rules
  ascending : ordered.Pairwise fun a b => a.number ≤ b.number
  stable : ∀ n : Int, ordered.filter (·.number = n) = rules.filter (·.number = n)

theorem stablySorts_sort (rules : List Rule) : StablySorts rules (sort rules) where
  perm := sort_perm rules
  ascending := pairwise_sort rules
  stable n := by
    let own (rule : Rule) : Bool := rule.number = n
    have alike : (rules.filter own).Pairwise fun a b => decide (a.number ≤ b.number) = true := by
      refine List.pairwise_of_forall_mem_list fun a ha b hb => ?_
      have ha := of_decide_eq_true (List.mem_filter.mp ha).2
      have hb := of_decide_eq_true (List.mem_filter.mp hb).2
      rw [ha, hb]
      exact decide_eq_true (Int.le_refl n)
    have within : (rules.filter own).Sublist (sort rules) := by
      refine List.sublist_mergeSort ?_ ?_ alike List.filter_sublist
      · intro a b c hab hbc
        simp only [decide_eq_true_eq] at *
        omega
      · intro a b
        simp only [Bool.or_eq_true, decide_eq_true_eq]
        omega
    have kept := within.filter own
    simp only [List.filter_filter, Bool.and_self] at kept
    exact (kept.eq_of_length ((sort_perm rules).filter own).length_eq.symm).symm

end Numbering

/-! ### The chain with and without what it shows -/

namespace Chain

open Firewall.Numbering (StablySorts Writable check silence sort)

/-- Three rules, of which two share a number and one states no purpose. -/
def colliding : List Rule :=
  [ { set := 30, number := 30300, action := .reject, what := {}, tag := .known .rejectAll,
      response := some .hostProhibited },
    { set := 0, number := 7, action := .allow, what := {} },
    { set := 30, number := 30300, action := .deny, what := {}, tag := .known .rejectAll } ]

end Chain
end Firewall

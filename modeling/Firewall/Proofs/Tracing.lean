import Firewall.Proofs.Selection

/-!
The way of a packet through a filter. Its course is the rules that take effect on it, in the order
in which they do: a rule that decides ends it, and one that sends the packet on skips the rules up
to its target. A packet reaches a number if no rule before that number decides about it or sends it
on past that number.
-/

namespace Firewall

/-- The packet goes on, and no further than to the given number. -/
def Effect.letsOn (number : Int) : Effect → Bool
  | .accept | .drop => false
  | .skip n => n ≤ number
  | .pass => true

namespace Evaluation

open Firewall.Numbering (Ascending)

/-- The rules that take effect on a packet; rules with a number below `start` are passed over. -/
def course (holds : Match → Bool) : Option Int → List Rule → List Rule
  | _, [] => []
  | start, r :: rest =>
    if passesOver holds start r then course holds start rest
    else r :: match r.effect with
      | .accept | .drop => []
      | .skip number => course holds (some number) rest
      | .pass => course holds start rest

def programCourse (holds : Match → Bool) (p : Program) : List Rule :=
  course holds none (Numbering.sort (p.rules.filter fun r => switchedOn p.setStates r.set))

def Reaches (number : Int) (course : List Rule) : Prop :=
  ∀ r ∈ course, r.number < number → r.effect.letsOn number = true

instance (number : Int) (course : List Rule) : Decidable (Reaches number course) :=
  List.decidableBAll _ course

variable {holds : Match → Bool} {start : Option Int} {r a : Rule} {rest rules : List Rule}

theorem course_cons_over (h : passesOver holds start r = true) :
    course holds start (r :: rest) = course holds start rest := by
  rw [course, if_pos h]

theorem course_cons (h : passesOver holds start r = false) :
    course holds start (r :: rest) = r :: match r.effect with
      | .accept | .drop => []
      | .skip number => course holds (some number) rest
      | .pass => course holds start rest := by
  rw [course, if_neg (by simp [h])]

/-- The rules on a course are those of the filter that match the packet. -/
theorem of_mem_course (ha : a ∈ course holds start rules) : a ∈ rules ∧ holds a.what = true := by
  induction rules generalizing start with
  | nil => cases ha
  | cons r rest ih =>
      have later {s : Option Int} (h : a ∈ course holds s rest) :
          a ∈ r :: rest ∧ holds a.what = true :=
        ⟨List.mem_cons_of_mem r (ih h).1, (ih h).2⟩
      cases past : passesOver holds start r with
      | true =>
          rw [course_cons_over past] at ha
          exact later ha
      | false =>
          rw [course_cons past] at ha
          rcases List.mem_cons.mp ha with rfl | ha
          · exact ⟨List.mem_cons_self, holds_of_passesOver past⟩
          · cases effect : r.effect with
            | accept | drop => simp [effect] at ha
            | skip n =>
                rw [effect] at ha
                exact later ha
            | pass =>
                rw [effect] at ha
                exact later ha

/-- A packet is dropped by a rule on its course, or not at all. -/
theorem acceptsFrom_eq_all (holds : Match → Bool) (start : Option Int) (rules : List Rule) :
    acceptsFrom holds start rules =
      (course holds start rules).all fun r => r.effect != .drop := by
  induction rules generalizing start with
  | nil => rfl
  | cons r rest ih =>
      cases past : passesOver holds start r with
      | true => rw [acceptsFrom_cons_over past, course_cons_over past, ih]
      | false =>
          rw [acceptsFrom_cons past, course_cons past]
          cases effect : r.effect <;> simp [effect, ih]

theorem programAccepts_eq_all (holds : Match → Bool) (p : Program) :
    programAccepts holds p = (programCourse holds p).all fun r => r.effect != .drop :=
  acceptsFrom_eq_all holds none _

/-- Only the last rule of a course decides. -/
theorem pairwise_course (holds : Match → Bool) (start : Option Int) (rules : List Rule) :
    (course holds start rules).Pairwise fun a _ => decision a.effect = none := by
  induction rules generalizing start with
  | nil => exact .nil
  | cons r rest ih =>
      cases past : passesOver holds start r with
      | true =>
          rw [course_cons_over past]
          exact ih start
      | false =>
          rw [course_cons past, List.pairwise_cons]
          cases effect : r.effect with
          | accept | drop => simp
          | skip number => exact ⟨fun _ _ => rfl, ih (some number)⟩
          | pass => exact ⟨fun _ _ => rfl, ih start⟩

/-- A rule that decides about a packet ends its course. -/
theorem getLast?_course (ha : a ∈ course holds start rules) (decides : decision a.effect ≠ none) :
    (course holds start rules).getLast? = some a := by
  obtain ⟨before, behind, split⟩ := List.append_of_mem ha
  have undecided := pairwise_course holds start rules
  rw [split, List.pairwise_append, List.pairwise_cons] at undecided
  cases behind with
  | nil => rw [split, List.getLast?_concat]
  | cons b _ => exact absurd (undecided.2.1.1 b List.mem_cons_self) decides

/-- A packet that reaches a number and matches a rule from there on meets that rule, or one before
it from that number on. -/
theorem exists_mem_course_of_reaches {number : Int} (ascending : Ascending rules)
    (within : Within number start) (reaches : Reaches number (course holds start rules))
    (ha : a ∈ rules) (place : number ≤ a.number) (matched : holds a.what = true) :
    ∃ r ∈ course holds start rules, number ≤ r.number ∧ r.number ≤ a.number := by
  induction rules generalizing start with
  | nil => cases ha
  | cons r rest ih =>
      have ascends := List.pairwise_cons.mp ascending
      cases past : passesOver holds start r with
      | true =>
          have later : a ∈ rest := by
            refine (List.mem_cons.mp ha).resolve_left ?_
            rintro rfl
            rw [passesOver_eq_false within place matched] at past
            cases past
          rw [course_cons_over past] at reaches ⊢
          exact ih ascends.2 within reaches later
      | false =>
          rw [course_cons past] at reaches ⊢
          have here := reaches r List.mem_cons_self
          have behind := fun x hx => reaches x (List.mem_cons_of_mem r hx)
          by_cases early : r.number < number
          · have later : a ∈ rest := by
              refine (List.mem_cons.mp ha).resolve_left ?_
              rintro rfl
              omega
            have onward := here early
            cases effect : r.effect with
            | accept | drop => simp [effect, Effect.letsOn] at onward
            | skip n =>
                simp only [effect, Effect.letsOn, decide_eq_true_eq] at onward behind ⊢
                obtain ⟨met, taken, bounds⟩ := ih ascends.2 (within_some onward) behind later
                exact ⟨met, List.mem_cons_of_mem r taken, bounds⟩
            | pass =>
                simp only [effect] at behind ⊢
                obtain ⟨met, taken, bounds⟩ := ih ascends.2 within behind later
                exact ⟨met, List.mem_cons_of_mem r taken, bounds⟩
          · have before : r.number ≤ a.number := by
              rcases List.mem_cons.mp ha with rfl | later
              · exact Int.le_refl _
              · exact Int.le_of_lt (ascends.1 a later)
            exact ⟨r, List.mem_cons_self, by omega, before⟩

end Evaluation
end Firewall

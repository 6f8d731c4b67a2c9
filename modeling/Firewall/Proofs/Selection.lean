import Firewall.Evaluation
import Firewall.Proofs.Ordering

/-!
What a filter decides with some of its rules left out. Rules that only let packets on may be left
out without a change, rules that accept may be added without a packet being lost, and what stands
behind an accepting rule does not matter to the packets that it accepts.
-/

namespace Firewall.Evaluation

variable {holds : Match → Bool}

/-- The packet was sent on past the rule, or does not match it. -/
def passesOver (holds : Match → Bool) (start : Option Int) (r : Rule) : Bool :=
  start.any (r.number < ·) || !holds r.what

variable {start start' : Option Int} {r : Rule} {rest rules : List Rule}

theorem holds_of_passesOver (h : passesOver holds start r = false) : holds r.what = true := by
  simp only [passesOver, Bool.or_eq_false_iff, Bool.not_eq_false'] at h
  exact h.2

theorem acceptsFrom_cons_over (h : passesOver holds start r = true) :
    acceptsFrom holds start (r :: rest) = acceptsFrom holds start rest := by
  unfold passesOver at h
  simp [acceptsFrom, h]

theorem acceptsFrom_cons (h : passesOver holds start r = false) :
    acceptsFrom holds start (r :: rest) =
      match r.effect with
      | .accept => true
      | .drop => false
      | .skip number => acceptsFrom holds (some number) rest
      | .pass => acceptsFrom holds start rest := by
  unfold passesOver at h
  rw [acceptsFrom, h]
  rfl

section Alike

variable {f : Rule → Rule} (number : ∀ r, (f r).number = r.number)
  (what : ∀ r, (f r).what = r.what) (effect : ∀ r, (f r).effect = r.effect)

include number what effect

/-- Rules decide alike that match the same under the same numbers to the same effect. -/
theorem acceptsFrom_map (start : Option Int) (rules : List Rule) :
    acceptsFrom holds start (rules.map f) = acceptsFrom holds start rules := by
  induction rules generalizing start with
  | nil => rfl
  | cons r rest ih => simp only [List.map_cons, acceptsFrom, number, what, effect, ih]

theorem accepts_map (set : ∀ r, (f r).set = r.set) (on : Int → Bool) (rules : List Rule) :
    accepts holds on (rules.map f) = accepts holds on rules := by
  have kept : ((fun r => on r.set) ∘ f) = fun r => on r.set := by
    funext r
    rw [Function.comp_apply, set]
  rw [accepts, accepts, List.filter_map, kept, Numbering.sort_map number,
    acceptsFrom_map number what effect]

end Alike

/-- Two places to go on at are as good as each other for the rules that they pass over alike. -/
def Agree (start start' : Option Int) (rules : List Rule) : Prop :=
  ∀ r ∈ rules, start.any (r.number < ·) = start'.any (r.number < ·)

theorem Agree.refl (start : Option Int) (rules : List Rule) : Agree start start rules :=
  fun _ _ => rfl

theorem Agree.tail (h : Agree start start' (r :: rest)) : Agree start start' rest :=
  fun s hs => h s (List.mem_cons_of_mem r hs)

theorem Agree.passesOver_eq (h : Agree start start' (r :: rest)) :
    passesOver holds start r = passesOver holds start' r := by
  unfold passesOver
  rw [h r List.mem_cons_self]

/-- A rule that lets every packet on without passing over any of the given rules behind it. -/
def Idle (kept : List Rule) (r : Rule) : Prop :=
  r.effect = .pass ∨ ∃ n, r.effect = .skip n ∧ ∀ s ∈ kept, r.number ≤ s.number → n ≤ s.number

/-- Leaving out idle rules leaves a decision as it is, and leaving out rules that accept changes
it in one way only: `R` relates the decision without the rules to the one with them. -/
theorem acceptsFrom_filter {R : Bool → Bool → Prop} (same : ∀ b, R b b) (keep : Rule → Bool)
    (all : List Rule) (sorted : rules.Pairwise fun a b => a.number ≤ b.number) (sub : rules ⊆ all)
    (left : ∀ r ∈ rules, keep r = false →
      (r.effect = .accept ∧ ∀ b, R b true) ∨ Idle (all.filter keep) r)
    (agree : Agree start start' (rules.filter keep)) :
    R (acceptsFrom holds start (rules.filter keep)) (acceptsFrom holds start' rules) := by
  induction rules generalizing start start' with
  | nil => exact same true
  | cons r rest ih =>
      rw [List.pairwise_cons] at sorted
      rw [List.forall_mem_cons] at left
      rw [List.cons_subset] at sub
      cases kept : keep r with
      | true =>
          rw [List.filter_cons_of_pos kept] at agree ⊢
          have alike : passesOver holds start r = passesOver holds start' r := agree.passesOver_eq
          cases past : passesOver holds start' r with
          | true =>
              rw [acceptsFrom_cons_over (alike.trans past), acceptsFrom_cons_over past]
              exact ih sorted.2 sub.2 left.2 agree.tail
          | false =>
              rw [acceptsFrom_cons (alike.trans past), acceptsFrom_cons past]
              cases r.effect with
              | accept => exact same true
              | drop => exact same false
              | skip n => exact ih sorted.2 sub.2 left.2 (.refl _ _)
              | pass => exact ih sorted.2 sub.2 left.2 agree.tail
      | false =>
          rw [List.filter_cons_of_neg (by simp [kept])] at agree ⊢
          cases past : passesOver holds start' r with
          | true =>
              rw [acceptsFrom_cons_over past]
              exact ih sorted.2 sub.2 left.2 agree
          | false =>
              rw [acceptsFrom_cons past]
              rcases left.1 kept with ⟨effect, more⟩ | effect | ⟨n, effect, beyond⟩
              · rw [effect]
                exact more _
              · rw [effect]
                exact ih sorted.2 sub.2 left.2 agree
              · rw [effect]
                refine ih sorted.2 sub.2 left.2 ?_
                -- Both places are at or before every rule that was kept.
                intro s hs
                obtain ⟨hmem, hkept⟩ := List.mem_filter.mp hs
                have later : r.number ≤ s.number := sorted.1 s hmem
                have reached : start'.any (s.number < ·) = false := by
                  simp only [passesOver, Bool.or_eq_false_iff] at past
                  cases start' with
                  | none => rfl
                  | some m => simp at past ⊢; omega
                have target : n ≤ s.number :=
                  beyond s (List.mem_filter.mpr ⟨sub.2 hmem, hkept⟩) later
                rw [agree s hs, reached]
                simpa using target

def Within (bound : Int) (start : Option Int) : Prop := ∀ n ∈ start, n ≤ bound

theorem within_none (bound : Int) : Within bound none := by simp [Within]

theorem within_some {bound n : Int} (h : n ≤ bound) : Within bound (some n) := by
  simpa [Within] using h

/-- A packet that is not lost behind `pre` is accepted within `pre`, where everything behind it
rejects; so something else may stand there. -/
theorem acceptsFrom_append_of_closed {pre closing : List Rule} {bound : Int}
    (targets : ∀ r ∈ pre, ∀ n, r.effect = .skip n → n ≤ bound)
    (closed : ∀ start, Within bound start → acceptsFrom holds start closing = false)
    (within : Within bound start) (accepted : acceptsFrom holds start (pre ++ closing) = true)
    (post : List Rule) : acceptsFrom holds start (pre ++ post) = true := by
  induction pre generalizing start with
  | nil =>
      rw [List.nil_append, closed start within] at accepted
      cases accepted
  | cons r rest ih =>
      rw [List.forall_mem_cons] at targets
      rw [List.cons_append] at accepted ⊢
      cases past : passesOver holds start r with
      | true =>
          rw [acceptsFrom_cons_over past] at accepted ⊢
          exact ih targets.2 within accepted
      | false =>
          rw [acceptsFrom_cons past] at accepted ⊢
          cases effect : r.effect with
          | accept => rfl
          | drop => simp [effect] at accepted
          | skip n =>
              simp only [effect] at accepted ⊢
              exact ih targets.2 (within_some (targets.1 n effect)) accepted
          | pass =>
              simp only [effect] at accepted ⊢
              exact ih targets.2 within accepted

/-- A rule takes effect on a packet that matches it and was not sent on past it. -/
theorem passesOver_eq_false {bound : Int} (within : Within bound start) (place : bound ≤ r.number)
    (matched : holds r.what = true) : passesOver holds start r = false := by
  cases start with
  | none => simp [passesOver, matched]
  | some n =>
      have := within n rfl
      simp only [passesOver, Option.any_some, matched, Bool.not_true, Bool.or_false,
        decide_eq_false_iff_not]
      omega

def decision : Effect → Option Bool
  | .accept => some true
  | .drop => some false
  | .skip _ | .pass => none

/-- A rule decides as it says about a packet that reaches it: no rule before it decides otherwise,
and none sends the packet on past it. -/
theorem acceptsFrom_eq_of_reached {a : Rule} {verdict : Bool}
    (ascending : Numbering.Ascending rules) (ha : a ∈ rules)
    (decides : decision a.effect = some verdict) (matched : holds a.what = true)
    (undecided : ∀ r ∈ rules, r.number < a.number → holds r.what = true →
      decision r.effect ≠ some (!verdict))
    (targets : ∀ r ∈ rules, r.number < a.number → ∀ n, r.effect = .skip n → n ≤ a.number)
    (within : Within a.number start) : acceptsFrom holds start rules = verdict := by
  induction rules generalizing start with
  | nil => cases ha
  | cons r rest ih =>
      have ascends := List.pairwise_cons.mp ascending
      rw [List.forall_mem_cons] at undecided targets
      rcases List.mem_cons.mp ha with rfl | hrest
      · rw [acceptsFrom_cons (passesOver_eq_false within (Int.le_refl _) matched)]
        cases effect : a.effect <;> simp_all [decision]
      · have before : r.number < a.number := ascends.1 a hrest
        have go {s : Option Int} (hs : Within a.number s) :
            acceptsFrom holds s rest = verdict :=
          ih ascends.2 hrest undecided.2 targets.2 hs
        cases past : passesOver holds start r with
        | true => rw [acceptsFrom_cons_over past, go within]
        | false =>
            have open_ := undecided.1 before (holds_of_passesOver past)
            rw [acceptsFrom_cons past]
            cases effect : r.effect with
            | accept => cases verdict <;> simp_all [decision]
            | drop => cases verdict <;> simp_all [decision]
            | skip n => exact go (within_some (targets.1 before n effect))
            | pass => exact go within

end Firewall.Evaluation

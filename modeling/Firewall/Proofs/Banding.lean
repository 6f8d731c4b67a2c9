import Mathlib.Data.List.Sort
import Firewall.Proofs.Selection
import Firewall.Proofs.Settlement

/-!
What a program decides, band by band. All rules of a purpose stand together and say the same about
the packets they match, and no rule sends a packet into the middle of a band; so it only counts
which purposes have a rule that matches, and not which rule of a purpose it is.
-/

namespace Firewall

namespace Purpose

theorem skip_mem (p : Purpose) {n : Int} (h : p.effect = .skip n) :
    n ∈ [shapingExit, knownNetworkExit] := by
  have effects := (by decide : ∀ p ∈ all,
    p.effect ∈ [.accept, .drop, .pass, .skip shapingExit, .skip knownNetworkExit]) p p.mem_all
  simpa [h] using effects

theorem skip_le (p : Purpose) {n : Int} (h : p.effect = .skip n) : n ≤ knownNetworkExit :=
  (by decide : ∀ n ∈ [shapingExit, knownNetworkExit], n ≤ knownNetworkExit) n (p.skip_mem h)

theorem last_lt_of_skip (p : Purpose) {n : Int} (h : p.effect = .skip n) : p.band.last < n :=
  (by decide : ∀ p ∈ all, ∀ n ∈ [shapingExit, knownNetworkExit],
    p.effect = .skip n → p.band.last < n) p p.mem_all n (p.skip_mem h) h

theorem target_apart (p : Purpose) {n : Int} (h : n ∈ [shapingExit, knownNetworkExit]) :
    n ≤ p.band.base ∨ p.band.last < n :=
  (by decide : ∀ p ∈ all, ∀ n ∈ [shapingExit, knownNetworkExit],
    n ≤ p.band.base ∨ p.band.last < n) p p.mem_all n h

/-- The purposes in the order of their bands. -/
def ordered : List Purpose := all.insertionSort fun p q => p.band.base ≤ q.band.base

theorem mem_ordered (p : Purpose) : p ∈ ordered :=
  (List.perm_insertionSort _ all).mem_iff.mpr p.mem_all

theorem pairwise_ordered : ordered.Pairwise fun p q => p.band.last < q.band.base := by
  decide

end Purpose

namespace Policy

variable {r : Registry} {o : Options}

structure Bears (rule : Rule) (p : Purpose) : Prop where
  tag_eq : rule.tag = .known p
  set_eq : rule.set = p.band.set
  base_le : p.band.base ≤ rule.number
  le_last : rule.number ≤ p.band.last
  effect_eq : rule.effect = p.effect

theorem bears_settled (h : r.Indexed) {d : Draft} (hd : d ∈ Ruleset.drafts r o) :
    Bears (d.settled o.stealth) d.purpose := by
  have conforms := Ruleset.conforms_drafts h o d hd
  refine ⟨by simp, by simp, ?_, ?_, ?_⟩
  · simpa using conforms.fits.within.1
  · simpa using conforms.fits.within.2
  · simpa using conforms.effect_eq

theorem bears_of_mem (h : r.Indexed) {rule : Rule} (hr : rule ∈ rules r o) :
    ∃ p, Bears rule p := by
  obtain ⟨d, hd, rfl⟩ := mem_rules.mp hr
  exact ⟨d.purpose, bears_settled h hd⟩

theorem skip_le_of_mem (h : r.Indexed) {rule : Rule} (hr : rule ∈ rules r o) {n : Int}
    (skips : rule.effect = .skip n) : n ≤ knownNetworkExit := by
  obtain ⟨p, bears⟩ := bears_of_mem h hr
  exact p.skip_le (bears.effect_eq ▸ skips)

/-- A packet is never sent back to a rule that was tried before. -/
theorem number_lt_of_skip (h : r.Indexed) {rule : Rule} (hr : rule ∈ rules r o) {n : Int}
    (skips : rule.effect = .skip n) : rule.number < n := by
  obtain ⟨p, bears⟩ := bears_of_mem h hr
  have := p.last_lt_of_skip (bears.effect_eq ▸ skips)
  have := bears.le_last
  omega

end Policy

/-- What follows from an effect: the end, or the tries behind at some place to go on at. -/
def Effect.follow (effect : Effect) (start : Option Int) (go : Option Int → Bool) : Bool :=
  match effect with
  | .accept => true
  | .drop => false
  | .skip number => go (some number)
  | .pass => go start

namespace Evaluation

open Firewall.Numbering (Ascending)
open Policy (Bears bears_of_mem)

variable {holds : Match → Bool} {r : Registry} {o : Options} {on : Int → Bool}

theorem accepts_rules (h : r.Indexed) (on : Int → Bool) :
    accepts holds on (Policy.rules r o) =
      acceptsFrom holds none ((Policy.rules r o).filter fun rule => on rule.set) := by
  unfold accepts
  rw [(Policy.ascending_rules h o).sort_filter]

/-- The rule of a draft decides as it says about a packet that reaches it. -/
theorem accepts_rules_eq (h : r.Indexed) {d : Draft} (hd : d ∈ Ruleset.drafts r o)
    (hon : on d.purpose.band.set = true) {verdict : Bool}
    (decides : decision d.numbered.effect = some verdict) (matched : holds d.what = true)
    (undecided : ∀ e ∈ Ruleset.drafts r o, e.numbered.number < d.numbered.number →
      holds e.what = true → decision e.numbered.effect ≠ some (!verdict))
    (targets : ∀ e ∈ Ruleset.drafts r o, e.numbered.number < d.numbered.number →
      ∀ n, e.numbered.effect = .skip n → n ≤ d.numbered.number) :
    accepts holds on (Policy.rules r o) = verdict := by
  have mem : d.settled o.stealth ∈ (Policy.rules r o).filter fun rule => on rule.set :=
    List.mem_filter.mpr ⟨Policy.mem_rules.mpr ⟨d, hd, rfl⟩, by simpa using hon⟩
  rw [accepts_rules h]
  refine acceptsFrom_eq_of_reached ((Policy.ascending_rules h o).filter _) mem
    (by simpa using decides) (by simpa using matched) ?_ ?_ (within_none _)
  · intro rule hrule
    obtain ⟨e, he, rfl⟩ := Policy.mem_rules.mp (List.mem_filter.mp hrule).1
    simpa using undecided e he
  · intro rule hrule
    obtain ⟨e, he, rfl⟩ := Policy.mem_rules.mp (List.mem_filter.mp hrule).1
    simpa using targets e he

/-- Whether a packet is accepted when purposes are tried instead of rules: `fires` tells of which
purposes a rule matches it. -/
def acceptsBy (fires : Purpose → Bool) : Option Int → List Purpose → Bool
  | _, [] => true
  | start, p :: rest =>
    if start.any (p.band.base < ·) || !fires p then acceptsBy fires start rest
    else p.effect.follow start (acceptsBy fires · rest)

variable {p : Purpose} {start : Option Int} {block rest rules : List Rule}

theorem acceptsFrom_append_over (passed : ∀ rule ∈ block, passesOver holds start rule = true) :
    acceptsFrom holds start (block ++ rest) = acceptsFrom holds start rest := by
  induction block with
  | nil => rfl
  | cons rule block ih =>
      rw [List.forall_mem_cons] at passed
      rw [List.cons_append, acceptsFrom_cons_over passed.1, ih passed.2]

/-- The rules of one purpose do together what one of them does alone. -/
theorem acceptsFrom_append_block (bears : ∀ rule ∈ block, Bears rule p)
    (reached : ∀ n ∈ start, n ≤ p.band.base) :
    acceptsFrom holds start (block ++ rest) =
      if block.any (fun rule => holds rule.what) then
        p.effect.follow start (acceptsFrom holds · rest)
      else acceptsFrom holds start rest := by
  induction block with
  | nil => rfl
  | cons rule block ih =>
      rw [List.forall_mem_cons] at bears
      rw [List.cons_append, List.any_cons]
      cases matched : holds rule.what with
      | false =>
          have passed : passesOver holds start rule = true := by simp [passesOver, matched]
          rw [acceptsFrom_cons_over passed, ih bears.2, Bool.false_or]
      | true =>
          have here : passesOver holds start rule = false := by
            have := bears.1.base_le
            cases start with
            | none => simp [passesOver, matched]
            | some n =>
                have := reached n rfl
                simp only [passesOver, Option.any_some, matched, Bool.not_true, Bool.or_false,
                  decide_eq_false_iff_not]
                omega
          rw [acceptsFrom_cons here, bears.1.effect_eq, Bool.true_or, if_pos rfl]
          cases effect : p.effect with
          | accept => rfl
          | drop => rfl
          | skip n =>
              refine acceptsFrom_append_over fun other hother => ?_
              have := p.last_lt_of_skip effect
              have := (bears.2 other hother).le_last
              simp only [passesOver, Option.any_some, Bool.or_eq_true, decide_eq_true_eq]
              omega
          | pass =>
              simp only [ih bears.2, effect, Effect.follow]
              split <;> rfl

/-- The rules of the first purpose stand before all others. -/
theorem exists_block {ps : List Purpose}
    (inOrder : (p :: ps).Pairwise fun p q => p.band.last < q.band.base)
    (ascending : Ascending rules) (bears : ∀ rule ∈ rules, ∃ q ∈ p :: ps, Bears rule q) :
    ∃ block later, rules = block ++ later ∧ Ascending later ∧ (∀ rule ∈ block, Bears rule p) ∧
      ∀ rule ∈ later, ∃ q ∈ ps, Bears rule q := by
  have behind := (List.pairwise_cons.mp inOrder).1
  let first (rule : Rule) : Bool := rule.number ≤ p.band.last
  have own : ∀ rule ∈ rules, first rule = true → Bears rule p := by
    intro rule mem within
    obtain ⟨q, hq, borne⟩ := bears rule mem
    rcases List.mem_cons.mp hq with rfl | hq
    · exact borne
    · have := behind q hq
      have := borne.base_le
      have := of_decide_eq_true within
      omega
  have others : ∀ rule ∈ rules, first rule = false → ∃ q ∈ ps, Bears rule q := by
    intro rule mem beyond
    obtain ⟨q, hq, borne⟩ := bears rule mem
    rcases List.mem_cons.mp hq with rfl | hq
    · exact absurd borne.le_last (of_decide_eq_false beyond)
    · exact ⟨q, hq, borne⟩
  refine ⟨rules.filter first, rules.filter fun rule => !first rule, ?_, ascending.filter _, ?_, ?_⟩
  · refine (ascending.filter_append_filter_not first fun a _ b _ within beyond => ?_).symm
    have := of_decide_eq_true within
    have := of_decide_eq_false beyond
    omega
  · intro rule hrule
    obtain ⟨mem, within⟩ := List.mem_filter.mp hrule
    exact own rule mem within
  · intro rule hrule
    obtain ⟨mem, beyond⟩ := List.mem_filter.mp hrule
    exact others rule mem (by simpa using beyond)

/-- Whether a rule of a purpose matches a packet. -/
def firesIn (holds : Match → Bool) (rules : List Rule) (p : Purpose) : Bool :=
  rules.any fun rule => rule.tag = .known p && holds rule.what

theorem firesIn_append (p : Purpose) : firesIn holds (block ++ rest) p =
    (firesIn holds block p || firesIn holds rest p) :=
  List.any_append

theorem firesIn_of_bears (bears : ∀ rule ∈ block, Bears rule p) :
    firesIn holds block p = block.any fun rule => holds rule.what := by
  unfold firesIn
  rw [Bool.eq_iff_iff, List.any_eq_true, List.any_eq_true]
  refine exists_congr fun rule => and_congr_right fun hrule => ?_
  simp [(bears rule hrule).tag_eq]

theorem firesIn_of_ne {q : Purpose} (bears : ∀ rule ∈ block, ∃ p, p ≠ q ∧ Bears rule p) :
    firesIn holds block q = false := by
  unfold firesIn
  rw [List.any_eq_false]
  intro rule hrule
  obtain ⟨p, other, bears⟩ := bears rule hrule
  simp [bears.tag_eq, other]

theorem acceptsFrom_eq_acceptsBy {fires : Purpose → Bool} {ps : List Purpose}
    (inOrder : ps.Pairwise fun p q => p.band.last < q.band.base) (ascending : Ascending rules)
    (bears : ∀ rule ∈ rules, ∃ p ∈ ps, Bears rule p)
    (fires_eq : ∀ p ∈ ps, fires p = firesIn holds rules p)
    (target : ∀ n ∈ start, n ∈ [shapingExit, knownNetworkExit]) :
    acceptsFrom holds start rules = acceptsBy fires start ps := by
  induction ps generalizing rules start with
  | nil =>
      cases rules with
      | nil => rfl
      | cons rule rest =>
          obtain ⟨p, hp, -⟩ := bears rule List.mem_cons_self
          cases hp
  | cons p ps ih =>
      obtain ⟨block, later, rfl, ascends, blockBears, laterBears⟩ :=
        exists_block inOrder ascending bears
      have inOrder := List.pairwise_cons.mp inOrder
      rw [List.forall_mem_cons] at fires_eq
      have other : ∀ q ∈ ps, p ≠ q := by
        rintro q hq rfl
        have := inOrder.1 p hq
        have := p.band.base_le_last
        omega
      have firesHere : fires p = block.any fun rule => holds rule.what := by
        have elsewhere : firesIn holds later p = false := by
          refine firesIn_of_ne fun rule hrule => ?_
          obtain ⟨q, hq, borne⟩ := laterBears rule hrule
          exact ⟨q, (other q hq).symm, borne⟩
        rw [fires_eq.1, firesIn_append, firesIn_of_bears blockBears, elsewhere, Bool.or_false]
      have firesLater : ∀ q ∈ ps, fires q = firesIn holds later q := by
        intro q hq
        have elsewhere : firesIn holds block q = false :=
          firesIn_of_ne fun rule hrule => ⟨p, other q hq, blockBears rule hrule⟩
        rw [fires_eq.2 q hq, firesIn_append, elsewhere, Bool.false_or]
      have go {s : Option Int} (hs : ∀ n ∈ s, n ∈ [shapingExit, knownNetworkExit]) :
          acceptsFrom holds s later = acceptsBy fires s ps :=
        ih inOrder.2 ascends laterBears firesLater hs
      rw [acceptsBy]
      cases past : start.any (p.band.base < ·) with
      | true =>
          obtain ⟨n, rfl, less⟩ := (Option.any_eq_true _ _).mp past
          have beyond : p.band.last < n := by
            have := of_decide_eq_true less
            exact (p.target_apart (target n rfl)).resolve_left (by omega)
          rw [Bool.true_or, if_pos rfl, ← go target]
          refine acceptsFrom_append_over fun rule hrule => ?_
          have := (blockBears rule hrule).le_last
          simp only [passesOver, Option.any_some, Bool.or_eq_true, decide_eq_true_eq]
          omega
      | false =>
          have reached : ∀ n ∈ start, n ≤ p.band.base := by
            rintro n rfl
            simpa using past
          rw [acceptsFrom_append_block blockBears reached, ← firesHere, Bool.false_or, go target]
          cases fires p with
          | false => rfl
          | true =>
              simp only [Bool.not_true, Bool.false_eq_true, if_false, if_true]
              cases effect : p.effect with
              | accept => rfl
              | drop => rfl
              | skip n =>
                  refine go fun m hm => ?_
                  cases hm
                  exact p.skip_mem effect
              | pass => exact go target

/-- Whether a rule of a purpose is on and matches a packet. -/
def fires (holds : Match → Bool) (on : Int → Bool) (drafts : List Draft) (p : Purpose) : Bool :=
  on p.band.set && drafts.any fun d => d.purpose = p && holds d.what

theorem fires_eq_firesIn (p : Purpose) :
    fires holds on (Ruleset.drafts r o) p =
      firesIn holds ((Policy.rules r o).filter fun rule => on rule.set) p := by
  unfold fires firesIn
  rw [Bool.eq_iff_iff]
  simp only [Bool.and_eq_true, List.any_eq_true, List.mem_filter, Policy.mem_rules,
    decide_eq_true_eq]
  constructor
  · rintro ⟨isOn, d, hd, rfl, matched⟩
    exact ⟨d.settled o.stealth, ⟨⟨d, hd, rfl⟩, by simpa using isOn⟩, by simp, by simpa using matched⟩
  · rintro ⟨_, ⟨⟨d, hd, rfl⟩, isOn⟩, tag, matched⟩
    rw [Draft.settled_tag, Tag.known.injEq] at tag
    subst tag
    exact ⟨by simpa using isOn, d, hd, rfl, by simpa using matched⟩

/-- A program decides about a packet as its purposes do, each of them tried once. -/
theorem accepts_rules_eq_acceptsBy (h : r.Indexed) (on : Int → Bool) :
    accepts holds on (Policy.rules r o) =
      acceptsBy (fires holds on (Ruleset.drafts r o)) none Purpose.ordered := by
  rw [accepts_rules h]
  refine acceptsFrom_eq_acceptsBy Purpose.pairwise_ordered ((Policy.ascending_rules h o).filter _)
    ?_ (fun p _ => fires_eq_firesIn p) (by simp)
  intro rule hrule
  obtain ⟨p, bears⟩ := bears_of_mem h (List.mem_filter.mp hrule).1
  exact ⟨p, p.mem_ordered, bears⟩

end Evaluation
end Firewall

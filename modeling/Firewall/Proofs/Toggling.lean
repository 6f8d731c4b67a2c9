import Firewall.Proofs.Banding

/-!
Switching sets on and off. Set 10 only lets packets on, within the numbers that it has to itself,
and sets 11 and 20 only accept; so a program with more of these sets switched on accepts more.
-/

namespace Firewall

namespace Purpose

theorem effect_of_shaping (p : Purpose) (h : p.band.set = 10) :
    p.effect = .pass ∨ p.effect = .skip shapingExit :=
  (by decide : ∀ p ∈ all, p.band.set = 10 → p.effect = .pass ∨ p.effect = .skip shapingExit)
    p p.mem_all h

theorem effect_of_opening (p : Purpose) (h : p.band.set = 11 ∨ p.band.set = 20) :
    p.effect = .accept :=
  (by decide : ∀ p ∈ all, p.band.set = 11 ∨ p.band.set = 20 → p.effect = .accept)
    p p.mem_all h

/-- The rules of other sets stand before the shaping rules or at their exit. -/
theorem outside_shaping (p : Purpose) (h : p.band.set ≠ 10) :
    p.band.last < 450 ∨ shapingExit ≤ p.band.base :=
  (by decide : ∀ p ∈ all, p.band.set ≠ 10 → p.band.last < 450 ∨ shapingExit ≤ p.band.base)
    p p.mem_all h

theorem base_of_shaping (p : Purpose) (h : p.band.set = 10) : 450 ≤ p.band.base :=
  (by decide : ∀ p ∈ all, p.band.set = 10 → 450 ≤ p.band.base) p p.mem_all h

end Purpose

namespace Evaluation

open Policy (Bears bears_of_mem)

variable {holds : Match → Bool} {r : Registry} {o : Options} {on on' : Int → Bool}

/-- A rule of set 10 lets packets on to the first rule that is not of this set. -/
theorem idle_of_shaping (h : r.Indexed) {rule : Rule} (hr : rule ∈ Policy.rules r o)
    (set : rule.set = 10) {kept : List Rule}
    (others : ∀ s ∈ kept, s ∈ Policy.rules r o ∧ s.set ≠ 10) : Idle kept rule := by
  obtain ⟨p, bears⟩ := bears_of_mem h hr
  have shapes : p.band.set = 10 := bears.set_eq ▸ set
  unfold Idle
  rw [bears.effect_eq]
  rcases p.effect_of_shaping shapes with effect | effect
  · exact Or.inl effect
  · refine Or.inr ⟨shapingExit, effect, ?_⟩
    intro s hs later
    obtain ⟨mem, other⟩ := others s hs
    obtain ⟨q, bears'⟩ := bears_of_mem h mem
    have := p.base_of_shaping shapes
    have := q.outside_shaping (bears'.set_eq ▸ other)
    have := bears.base_le
    have := bears'.base_le
    have := bears'.le_last
    omega

theorem filter_filter_of_imp {p q : Rule → Bool} (more : ∀ rule, q rule = true → p rule = true)
    (rules : List Rule) : (rules.filter p).filter q = rules.filter q := by
  rw [List.filter_filter]
  congr 1
  funext rule
  cases kept : q rule with
  | false => rfl
  | true => simp [more rule kept]

/-- With more of the toggleable sets switched on a program accepts no less. -/
theorem accepts_rules_mono (h : r.Indexed) (more : ∀ set, on set = true → on' set = true)
    (toggled : ∀ set, on' set = true → on set = false → set ∈ toggleableSets)
    (accepted : accepts holds on (Policy.rules r o) = true) :
    accepts holds on' (Policy.rules r o) = true := by
  rw [accepts_rules h] at accepted ⊢
  rw [← filter_filter_of_imp (p := fun rule => on' rule.set) fun rule => more rule.set] at accepted
  refine acceptsFrom_filter (R := fun a b => a = true → b = true) (fun _ => id)
    (fun rule => on rule.set) _ ((Policy.ascending_rules h o).filter _).le (List.Subset.refl _)
    ?_ (.refl _ _) accepted
  intro rule hrule off
  obtain ⟨mem, hon'⟩ := List.mem_filter.mp hrule
  have set := toggled _ hon' off
  simp only [toggleableSets, List.mem_cons, List.not_mem_nil, or_false] at set
  rcases set with set | set
  · refine Or.inr (idle_of_shaping h mem set fun s hs => ?_)
    obtain ⟨hs, hon⟩ := List.mem_filter.mp hs
    refine ⟨(List.mem_filter.mp hs).1, fun same => ?_⟩
    rw [same, ← set, off] at hon
    cases hon
  · obtain ⟨p, bears⟩ := bears_of_mem h mem
    refine Or.inl ⟨?_, fun _ _ => rfl⟩
    rw [bears.effect_eq]
    exact p.effect_of_opening (bears.set_eq ▸ set)

/-- The rules of set 10 have no say in what a program accepts. -/
theorem accepts_rules_unshaped (h : r.Indexed) (on : Int → Bool) :
    accepts holds (fun set => set != 10 && on set) (Policy.rules r o) =
      accepts holds on (Policy.rules r o) := by
  rw [accepts_rules h, accepts_rules h]
  rw [← filter_filter_of_imp (p := fun rule => on rule.set)
    (q := fun rule => rule.set != 10 && on rule.set) (by simp)]
  refine acceptsFrom_filter (R := Eq) (fun _ => rfl) _ _
    ((Policy.ascending_rules h o).filter _).le (List.Subset.refl _) ?_ (.refl _ _)
  intro rule hrule off
  obtain ⟨mem, hon⟩ := List.mem_filter.mp hrule
  refine Or.inr (idle_of_shaping h mem (by simpa [hon] using off) fun s hs => ?_)
  obtain ⟨hs, kept⟩ := List.mem_filter.mp hs
  simp only [Bool.and_eq_true, bne_iff_ne] at kept
  exact ⟨(List.mem_filter.mp hs).1, kept.1⟩

theorem accepts_rules_congr_on (h : r.Indexed) (same : ∀ set, set ≠ 10 → on set = on' set) :
    accepts holds on (Policy.rules r o) = accepts holds on' (Policy.rules r o) := by
  rw [← accepts_rules_unshaped h on, ← accepts_rules_unshaped h on']
  congr 1
  funext set
  by_cases shaping : set = 10
  · simp [shaping]
  · simp [same set shaping]

/-- The program with exactly the chosen ones of its toggleable sets switched on. -/
def enabling (chosen : List Int) (p : Program) : Program :=
  { p with setStates := toggleableSets.map fun set => { set, enabled := chosen.contains set } }

theorem switchedOn_enabling (chosen : List Int) (p : Program) (set : Int) :
    switchedOn (enabling chosen p).setStates set =
      (!toggleableSets.contains set || chosen.contains set) := by
  rw [Bool.eq_iff_iff]
  simp [switchedOn, enabling, toggleableSets]
  grind

/-- A program accepts the more packets, the more of its toggleable sets are on, and set 10 changes
nothing, on or off. -/
theorem programAccepts_enabling {tokens : List String}
    (declared : (Registry.ofTokens tokens).2 = .ok r) (o : Options) (host debugging : Bool) :
    ∃ p, (Policy.compile r o host debugging).result = .ok p ∧
      ∀ (holds : Match → Bool) (chosen more : List Int),
        (chosen ⊆ more → programAccepts holds (enabling chosen p.program) = true →
          programAccepts holds (enabling more p.program) = true) ∧
        programAccepts holds (enabling (10 :: chosen) p.program) =
          programAccepts holds (enabling (chosen.filter (· ≠ 10)) p.program) := by
  have indexed := Registry.indexed_of_declared declared
  refine ⟨_, Policy.compile_eq_ok indexed o host debugging, fun holds chosen more => ⟨?_, ?_⟩⟩
  · intro sub accepted
    refine accepts_rules_mono indexed ?_ ?_ accepted
    · intro set on
      simp only [switchedOn_enabling, Bool.or_eq_true] at on ⊢
      exact on.imp id fun mem => by simpa using sub (by simpa using mem)
    · intro set _ off
      simp only [switchedOn_enabling, Bool.or_eq_false_iff, Bool.not_eq_false'] at off
      simpa using off.1
  · refine accepts_rules_congr_on indexed fun set other => ?_
    rw [switchedOn_enabling, switchedOn_enabling]
    congr 1
    rw [Bool.eq_iff_iff]
    simp [other]

/-- The matches of a packet that leaves by the shaped interface. -/
def leaves (m : Match) : Bool :=
  m = {} || m.direction = .outbound && !m.src.negate && (m.via.isEmpty || m.via.contains "en1")

/-- A packet that leaves by the shaped interface needs set 11, with the shaping rules or without
them. -/
theorem programAccepts_enabling_home :
    ∃ p, (Policy.compile .home {} false false).result = .ok p ∧
      ∃ holds : Match → Bool, holds {} = true ∧
        programAccepts holds (enabling [10, 20] p.program) = false ∧
        programAccepts holds (enabling [11] p.program) = true ∧
        programAccepts holds (enabling [11, 20] p.program) = true ∧
        programAccepts holds (enabling [10, 11] p.program) = true := by
  obtain ⟨p, compiled, laws⟩ := programAccepts_enabling Registry.declared_home {} false false
  have indexed := Registry.indexed_of_declared Registry.declared_home
  have known := Policy.eq_of_compiled Registry.declared_home compiled
  have decided (chosen : List Int) :
      programAccepts leaves (enabling chosen p.program) =
        acceptsBy (fires leaves (fun set => !toggleableSets.contains set || chosen.contains set)
          (Ruleset.drafts .home {})) none Purpose.ordered := by
    rw [← accepts_rules_eq_acceptsBy indexed, known]
    unfold programAccepts
    congr 1
    funext set
    exact switchedOn_enabling chosen _ set
  have denied : programAccepts leaves (enabling [10, 20] p.program) = false := by
    rw [decided]
    decide +kernel
  have opened : programAccepts leaves (enabling [11] p.program) = true := by
    rw [decided]
    decide +kernel
  refine ⟨p, compiled, leaves, by decide, denied, opened, ?_, ?_⟩
  · exact (laws leaves [11] [11, 20]).1 (by simp) opened
  · exact ((laws leaves [11] []).2).trans opened

end Evaluation
end Firewall

import Mathlib.Data.List.Permutation
import Firewall.Proofs.Toggling

/-!
Programs that are installed in part. The default-deny set goes in first, its unconditional last
rule before all others; what a filter accepts after that is accepted by one of the rules already
there, and the rules still to come take none of it back.
-/

namespace Firewall

open Firewall.Numbering (Ascending sort sort_eq_of_perm sort_perm)

namespace Purpose

theorem base_of_closing (p : Purpose) (h : p.band.set = defaultDenySet) :
    30000 ≤ p.band.base ∧ p.band.last ≤ rejectAll.band.base ∧ p.effect = .drop :=
  (by decide : ∀ p ∈ all, p.band.set = defaultDenySet →
    30000 ≤ p.band.base ∧ p.band.last ≤ rejectAll.band.base ∧ p.effect = .drop) p p.mem_all h

theorem last_of_opening (p : Purpose) (h : p.band.set ≠ defaultDenySet) : p.band.last < 30000 :=
  (by decide : ∀ p ∈ all, p.band.set ≠ defaultDenySet → p.band.last < 30000) p p.mem_all h

end Purpose

namespace Policy

variable {r : Registry} {o : Options}

/-- The default-deny set of a program, in the order of evaluation. -/
def closing (r : Registry) (o : Options) : List Rule :=
  (rules r o).filter (·.set = defaultDenySet)

def opening (r : Registry) (o : Options) : List Rule :=
  (rules r o).filter (·.set ≠ defaultDenySet)

theorem closing_le_of_mem (h : r.Indexed) {rule : Rule} (hr : rule ∈ closing r o) :
    30000 ≤ rule.number ∧ rule.number ≤ Purpose.rejectAll.band.base ∧ rule.effect = .drop := by
  obtain ⟨mem, set⟩ := List.mem_filter.mp hr
  obtain ⟨p, bears⟩ := bears_of_mem h mem
  have set' : p.band.set = defaultDenySet := by simpa [bears.set_eq] using set
  obtain ⟨above, below, effect⟩ := p.base_of_closing set'
  have := bears.base_le
  have := bears.le_last
  exact ⟨by omega, by omega, bears.effect_eq.trans effect⟩

theorem opening_lt_of_mem (h : r.Indexed) {rule : Rule} (hr : rule ∈ opening r o) :
    rule.number < 30000 := by
  obtain ⟨mem, set⟩ := List.mem_filter.mp hr
  obtain ⟨p, bears⟩ := bears_of_mem h mem
  have set' : p.band.set ≠ defaultDenySet := by simpa [bears.set_eq] using set
  have := p.last_of_opening set'
  have := bears.le_last
  omega

theorem opening_append_closing (h : r.Indexed) : opening r o ++ closing r o = rules r o := by
  have parts := (ascending_rules h o).filter_append_filter_not
    (fun rule => rule.set ≠ defaultDenySet) fun a ha b hb opens closes => by
      have := opening_lt_of_mem h (List.mem_filter.mpr ⟨ha, opens⟩)
      have := (closing_le_of_mem h (List.mem_filter.mpr ⟨hb, by simpa using closes⟩)).1
      omega
  simpa [opening, closing] using parts

theorem installOrder_assemble (r : Registry) (o : Options) (sysctls : List Sysctl) :
    (assemble r sysctls (rules r o)).program.installOrder =
      (closing r o).reverse ++ opening r o := rfl

def rejectAll (o : Options) : Draft :=
  { purpose := .rejectAll, action := .reject, log := o.logAll,
    response := some .filterProhibited, what := {} }

theorem rejectAll_mem : rejectAll o ∈ Ruleset.drafts r o := by
  simp [Ruleset.drafts, Ruleset.defaultDeny, rejectAll]

theorem rejectAll_number :
    ((rejectAll o).settled o.stealth).number = Purpose.rejectAll.band.base := by
  rw [Draft.settled_number]
  rfl

theorem closing_eq_append_rejectAll (h : r.Indexed) :
    ∃ (init : List Rule) (last : Rule), closing r o = init ++ [last] ∧ last.what = {} ∧
      last.number = Purpose.rejectAll.band.base := by
  have mem : (rejectAll o).settled o.stealth ∈ closing r o :=
    List.mem_filter.mpr ⟨mem_rules.mpr ⟨_, rejectAll_mem, rfl⟩,
      by simp [rejectAll, Purpose.band, defaultDenySet]⟩
  have ascending : Ascending (closing r o) := (ascending_rules h o).filter _
  obtain ⟨init, split⟩ := ascending.exists_append_last mem fun rule hr =>
    rejectAll_number ▸ (closing_le_of_mem h hr).2.1
  exact ⟨init, _, split, by simp [rejectAll], rejectAll_number⟩

end Policy

namespace Evaluation

open Policy (closing opening rules)

variable {holds : Match → Bool} {r : Registry} {o : Options} {on : Int → Bool}

theorem acceptsFrom_closing (h : r.Indexed) (empty : holds {} = true) {added : List Rule}
    (ascending : Ascending added) (sub : added ⊆ closing r o) {last : Rule} (hlast : last ∈ added)
    (what : last.what = {}) {start : Option Int} (within : Within last.number start) :
    acceptsFrom holds start added = false := by
  have drops : ∀ rule ∈ added, rule.effect = .drop :=
    fun rule hr => (Policy.closing_le_of_mem h (sub hr)).2.2
  refine acceptsFrom_eq_of_reached ascending hlast ?_ (what ▸ empty) ?_ ?_ within
  · rw [drops last hlast]
    rfl
  · intro rule hr _ _
    rw [drops rule hr]
    decide
  · intro rule hr _ n skips
    rw [drops rule hr] at skips
    cases skips

theorem filter_closing (closed : on defaultDenySet = true) {added : List Rule}
    (sub : added ⊆ closing r o) : added.filter (fun rule => on rule.set) = added := by
  rw [List.filter_eq_self]
  intro rule hr
  have set : rule.set = defaultDenySet := by simpa using (List.mem_filter.mp (sub hr)).2
  rw [set, closed]

/-- As long as only default-deny rules are installed, nothing is accepted. -/
theorem not_accepts_of_prefix_closing (h : r.Indexed) (empty : holds {} = true)
    {added : List Rule} (nonempty : added ≠ []) (first : added <+: (closing r o).reverse)
    (closed : on defaultDenySet = true) : accepts holds on added = false := by
  obtain ⟨init, last, split, what, -⟩ := Policy.closing_eq_append_rejectAll (o := o) h
  have hlast : last ∈ added := by
    rw [split, List.reverse_append, List.reverse_singleton, List.singleton_append] at first
    cases added with
    | nil => exact absurd rfl nonempty
    | cons rule rest => simp [(List.cons_prefix_cons.mp first).1]
  have sub : added ⊆ closing r o := fun rule hr => List.mem_reverse.mp (first.subset hr)
  have distinct : added.Pairwise fun a b => a.number ≠ b.number := by
    have all : (closing r o).Pairwise fun a b => a.number ≠ b.number :=
      Ascending.distinct ((Policy.ascending_rules h o).filter _)
    exact ((all.perm (List.reverse_perm _).symm) fun ne => ne.symm).sublist first.sublist
  have perm := sort_perm added
  unfold accepts
  rw [filter_closing closed sub]
  exact acceptsFrom_closing h empty (Numbering.ascending_sort distinct)
    (fun rule hr => sub (perm.mem_iff.mp hr)) (perm.mem_iff.mpr hlast) what (within_none _)

/-- What a filter accepts that holds the first rules to be installed, the whole program accepts
with the same sets switched on. -/
theorem accepts_of_accepts_partial (h : r.Indexed) (empty : holds {} = true) {added : List Rule}
    (nonempty : added ≠ []) (first : added <+: (closing r o).reverse ++ opening r o)
    (closed : on defaultDenySet = true) (accepted : accepts holds on added = true) :
    accepts holds on (rules r o) = true := by
  obtain ⟨later, split⟩ := first
  rcases List.append_eq_append_iff.mp split with ⟨rest, front, -⟩ | ⟨opened, rfl, front⟩
  -- no more than default-deny rules are in: they accept nothing
  · have refused := not_accepts_of_prefix_closing h empty nonempty ⟨rest, front.symm⟩ closed
    rw [refused] at accepted
    cases accepted
  -- all default-deny rules are in, so a packet that the filter accepts was accepted before them
  · obtain ⟨init, last, end_, what, number⟩ := Policy.closing_eq_append_rejectAll (o := o) h
    have ascending : Ascending (opening r o ++ closing r o) :=
      Policy.opening_append_closing (o := o) h ▸ Policy.ascending_rules h o
    have on_closing := filter_closing (r := r) (o := o) closed (List.Subset.refl _)
    have sorted : sort (((closing r o).reverse ++ opened).filter fun rule => on rule.set) =
        opened.filter (fun rule => on rule.set) ++ closing r o := by
      refine sort_eq_of_perm ?_ ?_
      · rw [List.filter_append, List.filter_reverse, on_closing]
        exact List.perm_append_comm.trans ((List.reverse_perm _).append_left _)
      · refine ascending.sublist ?_
        rw [front]
        exact (List.filter_sublist.trans (List.sublist_append_left _ _)).append (.refl _)
    unfold accepts at accepted
    rw [accepts_rules h, ← Policy.opening_append_closing h, front, List.append_assoc,
      List.filter_append]
    rw [sorted] at accepted
    refine acceptsFrom_append_of_closed ?_ ?_ (within_none last.number) accepted _
    · intro rule hr n skips
      have mem : rule ∈ rules r o := by
        have : rule ∈ opening r o := by simp [front, (List.mem_filter.mp hr).1]
        exact (List.mem_filter.mp this).1
      have := Policy.skip_le_of_mem h mem skips
      have : knownNetworkExit ≤ Purpose.rejectAll.band.base := by decide
      omega
    · intro start within
      exact acceptsFrom_closing h empty (ascending.sublist (List.sublist_append_right _ _))
        (List.Subset.refl _) (by simp [end_]) what within

/-- The sets that are on while a program goes in: all but those that are switched at its end. -/
def onMeanwhile (set : Int) : Bool := !toggleableSets.contains set

theorem switchedOn_of_onMeanwhile {states : List SetState}
    (toggled : ∀ s ∈ states, s.set ∈ toggleableSets) {set : Int} (h : onMeanwhile set = true) :
    switchedOn states set = true := by
  unfold switchedOn
  rw [List.all_eq_true]
  intro s hs
  have other : s.set ≠ set := by
    intro same
    have mem := toggled s hs
    rw [same] at mem
    simp [onMeanwhile, mem] at h
  simp [other]

/-- At every moment of its installation a compiled program accepts only what it accepts when all
its rules are in and its sets are switched as they are to stay. -/
theorem programAccepts_of_partial {tokens : List String}
    (declared : (Registry.ofTokens tokens).2 = .ok r) (o : Options) (host debugging : Bool) :
    ∃ p, (Policy.compile r o host debugging).result = .ok p ∧
      ∀ (holds : Match → Bool) (added : List Rule), holds {} = true → added ≠ [] →
        added <+: p.program.installOrder → accepts holds onMeanwhile added = true →
        programAccepts holds p.program = true := by
  have indexed := Registry.indexed_of_declared declared
  refine ⟨_, Policy.compile_eq_ok indexed o host debugging, ?_⟩
  intro holds added empty nonempty first accepted
  rw [Policy.installOrder_assemble] at first
  have whole := accepts_of_accepts_partial indexed empty nonempty first (by decide) accepted
  refine accepts_rules_mono indexed (fun set => switchedOn_of_onMeanwhile ?_) ?_ whole
  · intro s hs
    obtain ⟨set, mem, rfl⟩ := List.mem_map.mp hs
    exact mem
  · intro set _ off
    simpa [onMeanwhile] using off

/-- The rule for the loopback interface goes in first after the default-deny set. -/
theorem programAccepts_of_partial_loopback :
    ∃ p, (Policy.compile .lone {} false false).result = .ok p ∧
      ∃ added, added ≠ [] ∧ added <+: p.program.installOrder ∧
        added.length < p.program.installOrder.length ∧
        accepts (fun m => m = {} || m.via = ["lo*"]) onMeanwhile added = true ∧
        programAccepts (fun m => m = {} || m.via = ["lo*"]) p.program = true := by
  obtain ⟨p, compiled, accepted⟩ :=
    programAccepts_of_partial Registry.declared_lone {} false false
  have known := Policy.compile_eq_ok (Registry.indexed_of_declared Registry.declared_lone) {}
    false false
  rw [compiled, Except.ok.injEq] at known
  have front := List.take_prefix 8 p.program.installOrder
  have some_ : p.program.installOrder.take 8 ≠ [] := by
    apply List.ne_nil_of_length_pos
    rw [known, Policy.installOrder_assemble]
    cbv
  have part : accepts (fun m => m = {} || m.via = ["lo*"]) onMeanwhile
      (p.program.installOrder.take 8) = true := by
    rw [known, Policy.installOrder_assemble]
    cbv
  refine ⟨p, compiled, _, some_, front, ?_, part, accepted _ _ (by decide) some_ front part⟩
  rw [known, Policy.installOrder_assemble]
  cbv

end Evaluation
end Firewall

import Firewall.Policy
import Firewall.Proofs.Drafting
import Firewall.Proofs.Ordering
import Firewall.Proofs.Writing

/-!
The rules that a compilation ends with. The numbering check finds nothing to object to in the
drafts of a policy, so every registry of declared interfaces compiles, and its program holds the
drafted rules in strictly ascending order.
-/

namespace Firewall

namespace Draft

def settled (stealth : Bool) (d : Draft) : Rule :=
  if stealth then d.numbered.silenced else d.numbered

variable (stealth : Bool) (d : Draft)

@[simp] theorem settled_set : (d.settled stealth).set = d.purpose.band.set := by
  unfold settled; split <;> simp [Rule.silenced_set]

@[simp] theorem settled_number : (d.settled stealth).number = d.numbered.number := by
  unfold settled; split <;> simp [Rule.silenced_number]

@[simp] theorem settled_action : (d.settled stealth).action = d.action := by
  unfold settled; split <;> simp [Rule.silenced_action, numbered]

@[simp] theorem settled_what : (d.settled stealth).what = d.what := by
  unfold settled; split <;> simp [Rule.silenced_what]

@[simp] theorem settled_log : (d.settled stealth).log = d.log := by
  unfold settled; split <;> simp [Rule.silenced_log, numbered]

@[simp] theorem settled_target : (d.settled stealth).target = d.target := by
  unfold settled; split <;> simp [Rule.silenced_target, numbered]

@[simp] theorem settled_tag : (d.settled stealth).tag = .known d.purpose := by
  unfold settled; split <;> simp [Rule.silenced_tag]

@[simp] theorem settled_effect : (d.settled stealth).effect = d.numbered.effect := by
  unfold settled; split <;> simp [Rule.effect_silenced]

theorem silence_map_numbered (ds : List Draft) :
    Numbering.silence stealth (ds.map numbered) = ds.map (settled stealth) := by
  cases stealth <;> simp [Numbering.silence, settled]

end Draft

namespace Numbering

def InBand (r : Rule) : Prop := ∃ p, r.tag = .known p ∧ p.band.holds r.set r.number = true

theorem InBand.checkable {r : Rule} (h : InBand r) :
    (∀ text, r.tag ≠ .unknown text) ∧ r.Checkable := by
  obtain ⟨p, tag, held⟩ := h
  obtain ⟨number, set⟩ := short_of_holds held
  exact ⟨by simp [tag], number, fun _ => set⟩

theorem faults?_of_inBand {seen : List (Int × String)} {r : Rule} {p : Purpose}
    (held : p.band.holds r.set r.number = true) (fresh : holder? seen r.number = none) :
    faults? seen r p = some [] := by
  simp [faults?, held, fresh, Text.decimal?_of_short (short_of_holds held).1]

theorem checkFrom_of_inBand {rules : List Rule} (seen : List (Int × String)) (d : Diagnostics)
    (inBand : ∀ r ∈ rules, InBand r) (distinct : rules.Pairwise fun a b => a.number ≠ b.number)
    (fresh : ∀ r ∈ rules, holder? seen r.number = none) : checkFrom seen d rules = (d, none) := by
  induction rules generalizing seen with
  | nil => rfl
  | cons r rest ih =>
      rw [List.forall_mem_cons] at inBand fresh
      rw [List.pairwise_cons] at distinct
      obtain ⟨p, tag, held⟩ := inBand.1
      obtain ⟨label, labelled⟩ :=
        Option.isSome_iff_exists.mp (Rule.isSome_label?_iff.mpr inBand.1.checkable.2.number)
      simp only [checkFrom, tag, faults?_of_inBand held fresh.1, labelled, List.foldl_nil]
      refine ih _ inBand.2 distinct.2 ?_
      intro later hlater
      have different : (later.number == r.number) = false :=
        beq_eq_false_iff_ne.mpr (distinct.1 later hlater).symm
      rw [holder?, List.lookup_cons, different]
      exact fresh.2 later hlater

theorem check_of_inBand {rules : List Rule} (d : Diagnostics) (inBand : ∀ r ∈ rules, InBand r)
    (distinct : rules.Pairwise fun a b => a.number ≠ b.number) : check d rules = (d, none) :=
  checkFrom_of_inBand [] d inBand distinct (fun _ _ => rfl)

/-- What is shown goes into the notices and nowhere else. -/
theorem note_recorded (debugging : Bool) (d : Diagnostics) (stage : String) (rules : List Rule) :
    (note debugging d stage rules).aborted = d.aborted ∧
      (note debugging d stage rules).errors = d.errors := by
  rw [note_eq]
  exact ⟨rfl, rfl⟩

/-- Rules that pass the check are settled without an error, and debugging changes what is said
and nothing else. -/
theorem settle_of_inBand (stealth debugging : Bool) {emitted : List Rule}
    (inBand : ∀ r ∈ emitted, InBand r)
    (distinct : emitted.Pairwise fun a b => a.number ≠ b.number)
    (showable : debugging = true → ∀ r ∈ emitted, r.Showable) :
    (settle stealth debugging emitted).stopped = none ∧
      (settle stealth debugging emitted).rules = sort (silence stealth emitted) ∧
      (settle stealth debugging emitted).diagnostics.aborted = false ∧
      (settle stealth debugging emitted).diagnostics.errors = [] := by
  have silent : ∀ r ∈ silence stealth emitted, InBand r := by
    refine (forall_mem_silence_iff (fun r => ?_) stealth).mpr inBand
    rw [InBand, Rule.silenced_tag, Rule.silenced_set, Rule.silenced_number, InBand]
  have apart : (silence stealth emitted).Pairwise fun a b => a.number ≠ b.number := by
    cases stealth with
    | false => exact distinct
    | true => simpa [silence, List.pairwise_map, Rule.silenced_number] using distinct
  have known : ∀ r ∈ emitted, ∀ text, r.tag ≠ .unknown text := fun r hr =>
    (inBand r hr).checkable.1
  rw [settle_eq stealth known fun r hr => ⟨(inBand r hr).checkable.2, fun debugs =>
    showable debugs r hr⟩]
  simp [said, note_recorded, check_of_inBand _ silent apart]

end Numbering

namespace Draft

theorem Fits.inBand {d : Draft} (h : d.Fits) (stealth : Bool) :
    Numbering.InBand (d.settled stealth) := by
  refine ⟨d.purpose, settled_tag stealth d, ?_⟩
  simp [Band.holds, h.within.1, h.within.2]

end Draft

/-! ### What the drafts have in them to be shown -/

namespace Ruleset

variable {r : Registry} {o : Options} {i : Interface}

theorem icmpTypes_of_flatMap {ds : List Draft}
    (fixed : ds.flatMap (·.what.icmpTypes) ⊆ bootstrapIcmpTypes) :
    ∀ d ∈ ds, d.what.icmpTypes ⊆ bootstrapIcmpTypes :=
  fun d hd _ hn => fixed (List.mem_flatMap.mpr ⟨d, hd, hn⟩)

theorem icmpTypes_openPortsOf :
    ∀ d ∈ openPortsOf o i, d.what.icmpTypes ⊆ bootstrapIcmpTypes := by
  intro d hd
  obtain ⟨_, _, _, _, opened⟩ := exists_openTo hd
  obtain ⟨-, rfl⟩ := eq_of_mem_openTo opened
  exact List.nil_subset _

/-- No draft but the one that lets in what is needed to come up names types of control messages. -/
theorem icmpTypes_of_mem_drafts : ∀ d ∈ drafts r o, d.what.icmpTypes ⊆ bootstrapIcmpTypes := by
  have none_ : [] ⊆ bootstrapIcmpTypes := List.nil_subset _
  have each {interfaces : List Interface} {f : Interface → List Draft}
      (all : ∀ i, ∀ d ∈ f i, d.what.icmpTypes ⊆ bootstrapIcmpTypes) :
      ∀ d ∈ interfaces.flatMap f, d.what.icmpTypes ⊆ bootstrapIcmpTypes := by
    rw [List.forall_mem_flatMap]
    exact fun i _ => all i
  have baseline : ∀ d ∈ baseline r o, d.what.icmpTypes ⊆ bootstrapIcmpTypes :=
    forall_mem_baseline none_ (fun _ => none_) (icmpTypes_of_flatMap none_)
      (fun _ _ _ => none_) (icmpTypes_of_flatMap none_)
  have routing : ∀ d ∈ routing o, d.what.icmpTypes ⊆ bootstrapIcmpTypes := by
    rw [routing, List.forall_mem_flatMap]
    exact fun router _ => icmpTypes_of_flatMap none_
  have trusted : ∀ d ∈ trusted r o, d.what.icmpTypes ⊆ bootstrapIcmpTypes := by
    rw [trusted, List.forall_mem_append, List.forall_mem_map]
    exact ⟨fun _ _ => none_, icmpTypes_of_flatMap none_⟩
  have filtered : ∀ d ∈ inboundFilter r o, d.what.icmpTypes ⊆ bootstrapIcmpTypes := by
    simp only [inboundFilter, List.forall_mem_append, List.forall_mem_map]
    refine ⟨⟨⟨icmpTypes_of_flatMap none_, fun _ _ => none_⟩, ?_⟩, icmpTypes_of_flatMap none_⟩
    unfold forged
    split
    · exact List.forall_mem_nil _
    · exact icmpTypes_of_flatMap none_
  have shaped : ∀ d ∈ shaping r, d.what.icmpTypes ⊆ bootstrapIcmpTypes := by
    rw [shaping_eq_flatMap]
    refine each fun i => ?_
    unfold shapingOf
    cases i.rates with
    | none => exact List.forall_mem_nil _
    | some rates => exact icmpTypes_of_flatMap none_
  simp only [drafts, List.forall_mem_append]
  exact ⟨⟨⟨⟨⟨⟨⟨⟨⟨⟨⟨baseline, routing⟩, icmpTypes_of_flatMap none_⟩,
    each fun _ => icmpTypes_of_flatMap none_⟩, each fun _ => icmpTypes_of_flatMap none_⟩, trusted⟩,
    icmpTypes_of_flatMap (List.Subset.refl _)⟩, filtered⟩, shaped⟩, icmpTypes_of_flatMap none_⟩,
    each fun _ => icmpTypes_openPortsOf⟩, icmpTypes_of_flatMap none_⟩

end Ruleset

namespace Policy

open Firewall.Numbering (Ascending sort)

def rules (r : Registry) (o : Options) : List Rule :=
  sort ((Ruleset.drafts r o).map (Draft.settled o.stealth))

variable {r : Registry}

/-- Where the drafts under two options differ by a change that leaves the numbers of their rules,
so do the rules of the two policies. -/
theorem rules_eq_map {o o' : Options} {f : Rule → Rule} {g : Draft → Draft}
    (number : ∀ rule, (f rule).number = rule.number)
    (drafted : Ruleset.drafts r o' = (Ruleset.drafts r o).map g)
    (settled : ∀ d, (g d).settled o'.stealth = f (d.settled o.stealth)) :
    rules r o' = (rules r o).map f := by
  have each : Draft.settled o'.stealth ∘ g = f ∘ Draft.settled o.stealth := funext settled
  rw [rules, rules, drafted, List.map_map, each, ← List.map_map, Numbering.sort_map number]

theorem distinct_settled (h : r.Indexed) (o : Options) (stealth : Bool) :
    ((Ruleset.drafts r o).map (Draft.settled stealth)).Pairwise
      fun a b => a.number ≠ b.number := by
  rw [List.pairwise_map]
  refine (Ruleset.apart_drafts h o).imp_of_mem ?_
  intro d e hd he apart
  simpa using Draft.Fits.number_ne (Ruleset.conforms_drafts h o d hd).fits
    (Ruleset.conforms_drafts h o e he).fits apart

theorem fits_drafts (h : r.Indexed) (o : Options) : ∀ d ∈ Ruleset.drafts r o, d.Fits :=
  fun d hd => (Ruleset.conforms_drafts h o d hd).fits

theorem showable_drafts (h : r.Indexed) (o : Options) :
    ∀ rule ∈ (Ruleset.drafts r o).map Draft.numbered, rule.Showable := by
  rw [List.forall_mem_map]
  intro d hd
  obtain ⟨p, -, held⟩ := (fits_drafts h o d hd).inBand false
  obtain ⟨number, set⟩ := Numbering.short_of_holds held
  refine ⟨number, set, fun n hn => ?_⟩
  obtain ⟨positive, few⟩ := (by decide : ∀ n ∈ Ruleset.bootstrapIcmpTypes, 0 ≤ n ∧ n < 100000) n
    (Ruleset.icmpTypes_of_mem_drafts d hd hn)
  exact Text.short_of_bounds positive few

theorem settle_drafts (h : r.Indexed) (o : Options) (debugging : Bool) :
    let settled := Numbering.settle o.stealth debugging
      ((Ruleset.drafts r o).map Draft.numbered)
    settled.stopped = none ∧ settled.rules = rules r o ∧ settled.diagnostics.aborted = false ∧
      settled.diagnostics.errors = [] := by
  rw [rules, ← Draft.silence_map_numbered o.stealth]
  refine Numbering.settle_of_inBand o.stealth debugging ?_ (distinct_settled h o false)
    fun _ => showable_drafts h o
  rw [List.forall_mem_map]
  exact fun d hd => (fits_drafts h o d hd).inBand false

/-- Every registry of declared interfaces compiles, whatever the options. -/
theorem compile_eq_ok (h : r.Indexed) (o : Options) (host debugging : Bool) :
    (compile r o host debugging).result =
      .ok (assemble r (if host then Host.sysctls o else []) (rules r o)) := by
  obtain ⟨through, settled, running, silent⟩ := settle_drafts h o debugging
  rw [compile, Draft.placeAll_of_fits (fits_drafts h o)]
  simp only [finish, through, settled, running, silent]
  rfl

theorem eq_of_compiled {tokens : List String} (declared : (Registry.ofTokens tokens).2 = .ok r)
    {o : Options} {host debugging : Bool} {p : Policy}
    (compiled : (compile r o host debugging).result = .ok p) :
    p = assemble r (if host then Host.sysctls o else []) (rules r o) := by
  rw [compile_eq_ok (Registry.indexed_of_declared declared)] at compiled
  exact (Except.ok.inj compiled).symm

theorem ascending_rules (h : r.Indexed) (o : Options) : Ascending (rules r o) :=
  Numbering.ascending_sort (distinct_settled h o o.stealth)

theorem distinct_rules (h : r.Indexed) (o : Options) :
    (rules r o).Pairwise fun a b => a.number ≠ b.number :=
  (ascending_rules h o).distinct

theorem mem_rules {o : Options} {rule : Rule} :
    rule ∈ rules r o ↔ ∃ d ∈ Ruleset.drafts r o, d.settled o.stealth = rule := by
  unfold rules
  rw [(Numbering.sort_perm _).mem_iff, List.mem_map]

end Policy
end Firewall

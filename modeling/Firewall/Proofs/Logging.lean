import Mathlib.Data.List.Forall2
import Firewall.Proofs.Registration
import Firewall.Proofs.Settlement

/-!
Policies that log whatever they reject. The option turns on the logs of the rules that accept or
drop packets in every set behind routing, and no other difference comes of it; the rules of the
baseline that drop packets are logged anyhow.
-/

namespace Firewall

/-- Whether the rules of a purpose are logged if the option asks for it. -/
def Purpose.onDemand (p : Purpose) : Bool :=
  (p.effect = .accept || p.effect = .drop) && p.band.set ∉ ([0, 1] : List Int)

theorem Purpose.not_onDemand (p : Purpose) (h : p.band.set ∈ ([0, 1, 10] : List Int)) :
    p.onDemand = false :=
  (by decide : ∀ p ∈ all, p.band.set ∈ ([0, 1, 10] : List Int) → p.onDemand = false) p p.mem_all h

theorem Purpose.onDemand_of_drop (p : Purpose) (drops : p.effect = .drop)
    (behind : p.band.set ≠ 0) : p.onDemand = true :=
  (by decide : ∀ p ∈ all, p.effect = .drop → p.band.set ≠ 0 → p.onDemand = true)
    p p.mem_all drops behind

/-! ### Drafts with more logs -/

namespace Draft

def loud (d : Draft) : Draft := { d with log := d.log || d.purpose.onDemand }

theorem map_loud_eq_self {ds : List Draft} {set : Int} (conforms : ∀ d ∈ ds, d.Conforms set)
    (quiet : set ∈ ([0, 1, 10] : List Int)) : ds.map loud = ds := by
  refine (List.map_congr_left fun d hd => ?_).trans (List.map_id ds)
  rw [loud, d.purpose.not_onDemand ((conforms d hd).set_eq ▸ quiet), Bool.or_false]
  rfl

end Draft

namespace Ruleset

open Draft (loud map_loud_eq_self)

variable {r : Registry} (o : Options)

theorem serviceRules_loud (wanted : HostKinds → Bool) {rules rules' : Interface → List Draft}
    (each : ∀ i, rules' i = (rules i).map loud) :
    serviceRules r wanted rules' = (serviceRules r wanted rules).map loud := by
  rw [serviceRules, serviceRules, List.map_flatMap, funext each]

theorem trusted_loud : trusted r { o with logAll := true } =
    (trusted r { o with logAll := false }).map loud := by
  rw [trusted, trusted, List.map_append, List.map_map]
  rfl

theorem forged_loud (names : List String) : (forged names).map loud = forged names := by
  unfold forged
  split <;> rfl

theorem inboundFilter_loud : inboundFilter r { o with logAll := true } =
    (inboundFilter r { o with logAll := false }).map loud := by
  simp only [inboundFilter, List.map_append, List.map_map, forged_loud]
  rfl

theorem openTo_loud (i : Interface) {purpose : Purpose} (opening : purpose ∈ openings)
    (proto : String) (ports : List String) :
    openTo { o with logAll := true } i purpose proto ports =
      (openTo { o with logAll := false } i purpose proto ports).map loud := by
  have logged := (by decide : ∀ p ∈ openings, p.onDemand = true) purpose opening
  unfold openTo
  split
  · rfl
  · simp [loud, logged]

theorem openPortsOf_loud (i : Interface) :
    openPortsOf { o with logAll := true } i =
      (openPortsOf { o with logAll := false } i).map loud := by
  simp (disch := decide) only [openPortsOf, openTo_loud o, List.map_append,
    apply_ite (List.map loud), List.map_nil]

theorem openPorts_loud : openPorts r { o with logAll := true } =
    (openPorts r { o with logAll := false }).map loud := by
  rw [openPorts, openPorts, List.map_flatMap, funext (openPortsOf_loud o)]

/-- The option turns on the logs of drafts and does nothing else to them. -/
theorem drafts_loud (indexed : r.Indexed) : drafts r { o with logAll := true } =
    (drafts r { o with logAll := false }).map loud := by
  let quiet : Options := { o with logAll := false }
  let all : Options := { o with logAll := true }
  -- Baseline, routing and shaping do not know the option, and none of their purposes is on demand.
  have baseline : baseline r all = (baseline r quiet).map loud :=
    (map_loud_eq_self (conforms_baseline quiet) (by decide)).symm
  have routing : routing all = (routing quiet).map loud :=
    (map_loud_eq_self (conforms_routing quiet) (by decide)).symm
  have state : state all = (state quiet).map loud := rfl
  have mac : macServices r all = (macServices r quiet).map loud :=
    serviceRules_loud _ fun _ => rfl
  have windows : windowsServices r all = (windowsServices r quiet).map loud :=
    serviceRules_loud _ fun _ => rfl
  have trusted : trusted r all = (trusted r quiet).map loud := trusted_loud o
  have bootstrap : bootstrap r all = (bootstrap r quiet).map loud := rfl
  have inbound : inboundFilter r all = (inboundFilter r quiet).map loud := inboundFilter_loud o
  have shaping : (shaping r).map loud = shaping r :=
    map_loud_eq_self (conforms_shaping indexed) (by decide)
  have outbound : outbound r all = (outbound r quiet).map loud := rfl
  have opened : openPorts r all = (openPorts r quiet).map loud := openPorts_loud o
  have last : defaultDeny r all = (defaultDeny r quiet).map loud := rfl
  change drafts r all = (drafts r quiet).map loud
  simp only [drafts, List.map_append, baseline, routing, state, mac, windows, trusted, bootstrap,
    inbound, shaping, outbound, opened, last]

/-- The rules of the baseline that drop packets are logged whatever the options. -/
theorem log_of_mem_baseline {o : Options} : ∀ d ∈ baseline r o, d.numbered.effect = .drop →
    d.log = true :=
  forall_mem_baseline nofun (fun _ => nofun) (by decide) (fun _ _ _ _ => rfl) (by decide)

/-- With the option, whatever drops a packet is logged. -/
theorem log_of_drop (indexed : r.Indexed) (o : Options) : ∀ d ∈ drafts r { o with logAll := true },
    d.numbered.effect = .drop → d.log = true := by
  intro d hd drops
  by_cases first : d.purpose.band.set = 0
  · exact log_of_mem_baseline d (mem_baseline_of_set indexed hd first) drops
  · rw [(conforms_drafts indexed _ d hd).effect_eq] at drops
    rw [drafts_loud o indexed] at hd
    obtain ⟨quiet, -, rfl⟩ := List.mem_map.mp hd
    rw [loud, quiet.purpose.onDemand_of_drop drops first, Bool.or_true]

end Ruleset

/-! ### Rules with more logs -/

/-- The same rule, logged at least where the first is. -/
structure Rule.Louder (a b : Rule) : Prop where
  same : b = { a with log := b.log }
  kept : a.log = true → b.log = true

def Rule.loud (rule : Rule) : Rule :=
  { rule with log := rule.log || match rule.tag with
      | .known p => p.onDemand
      | _ => false }

theorem Rule.louder_loud (rule : Rule) : rule.Louder rule.loud :=
  ⟨rfl, fun logged => by rw [loud, logged, Bool.true_or]⟩

theorem Rule.silenced_loud (rule : Rule) : rule.loud.silenced = rule.silenced.loud := by
  obtain ⟨_, _, action, _, _, _, _, _⟩ := rule
  cases action <;> rfl

theorem Draft.settled_loud (stealth : Bool) (d : Draft) :
    d.loud.settled stealth = (d.settled stealth).loud := by
  cases stealth with
  | false => rfl
  | true => exact Rule.silenced_loud d.numbered

namespace Policy

variable {r : Registry}

theorem rules_loud (indexed : r.Indexed) (o : Options) :
    rules r { o with logAll := true } = (rules r { o with logAll := false }).map Rule.loud :=
  rules_eq_map (fun _ => rfl) (Ruleset.drafts_loud o indexed) (Draft.settled_loud _)

/-- The option turns on logs, among them those of all rules that deny or reject, and changes
nothing else. -/
theorem compile_logAll {tokens : List String} (declared : (Registry.ofTokens tokens).2 = .ok r)
    (o : Options) (host debugging : Bool) :
    ∃ p q, (compile r { o with logAll := false } host debugging).result = .ok p ∧
      (compile r { o with logAll := true } host debugging).result = .ok q ∧
      q = { p with program := { p.program with rules := q.program.rules } } ∧
      List.Forall₂ Rule.Louder p.program.rules q.program.rules ∧
      ∀ rule ∈ q.program.rules, rule.action = .deny ∨ rule.action = .reject →
        rule.log = true := by
  have indexed := Registry.indexed_of_declared declared
  refine ⟨_, _, compile_eq_ok indexed _ host debugging, compile_eq_ok indexed _ host debugging,
    rfl, ?_, ?_⟩
  · change List.Forall₂ _ (rules r _) (rules r _)
    rw [rules_loud indexed, List.forall₂_map_right_iff, List.forall₂_same]
    exact fun rule _ => rule.louder_loud
  · intro rule hrule rejects
    obtain ⟨d, hd, rfl⟩ := mem_rules.mp hrule
    rw [Draft.settled_action] at rejects
    rw [Draft.settled_log]
    refine Ruleset.log_of_drop indexed o d hd ?_
    rw [Rule.effect, Draft.numbered]
    rcases rejects with action | action <;> rw [action]

/-- The last rule rejects without a log, and is logged if the option asks for it. -/
theorem compile_logAll_home :
    ∃ p q, (compile .home {} false false).result = .ok p ∧
      (compile .home { logAll := true } false false).result = .ok q ∧
      ∃ rule ∈ p.program.rules, rule.number = 30300 ∧ rule.log = false ∧
        { rule with log := true } ∈ q.program.rules := by
  obtain ⟨p, q, compiled, compiled', -, louder, logged⟩ :=
    compile_logAll Registry.declared_home {} false false
  have last : ∃ rule ∈ p.program.rules, rule.number = 30300 ∧ rule.log = false ∧
      rule.action = .reject := by
    rw [eq_of_compiled Registry.declared_home compiled]
    obtain ⟨d, hd, number, quiet⟩ := (by decide +kernel : ∃ d ∈ Ruleset.drafts .home {},
      d.numbered.number = 30300 ∧ d.numbered.log = false ∧ d.numbered.action = .reject)
    exact ⟨_, mem_rules.mpr ⟨d, hd, rfl⟩, number, quiet⟩
  obtain ⟨rule, hrule, number, quiet, rejects⟩ := last
  refine ⟨p, q, compiled, compiled', rule, hrule, number, quiet, ?_⟩
  obtain ⟨i, hi, rfl⟩ := List.getElem_of_mem hrule
  have hi' : i < q.program.rules.length := louder.length_eq ▸ hi
  have same : q.program.rules[i] = { p.program.rules[i] with log := q.program.rules[i].log } :=
    (louder.get hi hi').same
  have mem : q.program.rules[i] ∈ q.program.rules := List.getElem_mem hi'
  have log : q.program.rules[i].log = true := by
    refine logged _ mem (.inr ?_)
    rw [same]
    exact rejects
  rwa [same, log] at mem

end Policy
end Firewall

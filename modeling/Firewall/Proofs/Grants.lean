import Firewall.Proofs.PartialInstallation

/-!
What a program lets in or out, and on what grounds. Every rule that allows has one of five
grounds, and one only: nothing is open by accident.
-/

namespace Firewall

open Ruleset (one bootstrapIcmpTypes dhcpPorts)

inductive Ground
  | loopback
  | routing
  | bootstrap
  | outbound
  | interface
deriving DecidableEq, Repr

namespace Ground

/-- The rule binds itself to the interfaces of a router and to its client network. -/
structure Routes (router : Router) (m : Match) : Prop where
  network : m.src = one router.network.text ∨ m.dst = one router.network.text
  bound : m.recv ≠ none ∨ m.xmit ≠ none
  recv : ∀ name ∈ m.recv, name = router.external ∨ name = router.client
  xmit : ∀ name ∈ m.xmit, name = router.external ∨ name = router.client
  via : m.via = []

structure Serves (i : Interface) (p : Purpose) (rule : Rule) : Prop where
  perInterface : p.band.perInterface = true
  set_eq : rule.set = p.band.set
  number_eq : rule.number = p.band.base + i.index
  via_eq : rule.what.via = [i.name]
  addresses_eq : rule.what.src.addresses = [i.network.text]
  asserted : rule.what.src.negate = false

def Covers (r : Registry) (o : Options) (rule : Rule) : Ground → Prop
  | loopback => rule.set = 0 ∧ rule.number = 100 ∧ rule.what = { via := ["lo*"] }
  | routing => rule.set = 1 ∧ ∃ router, o.router = some router ∧ Routes router rule.what
  | bootstrap => rule.set = 6 ∧
      (rule.what.proto = "icmp" ∧ rule.what.icmpTypes = bootstrapIcmpTypes ∨
        rule.what.proto = "udp" ∧ rule.what.src = .anyAt dhcpPorts ∧
          rule.what.dst = .anyAt dhcpPorts)
  | outbound => rule.set = 11 ∧ rule.what.direction = .outbound ∧ rule.what.src = .me
  | interface => ∃ (k : Nat) (i : Interface) (p : Purpose),
      r.interfaces[k]? = some i ∧ i.index = k ∧ Serves i p rule

def sets : Ground → List Int
  | loopback => [0]
  | routing => [1]
  | bootstrap => [6]
  | outbound => [11]
  | interface => [3, 4, 5, 7, 10, 20]

variable {r : Registry} {o : Options} {rule : Rule} {g g' : Ground}

theorem set_of_perInterface (p : Purpose) (h : p.band.perInterface = true) :
    p.band.set ∈ interface.sets :=
  (by decide : ∀ p ∈ Purpose.all, p.band.perInterface = true → p.band.set ∈ interface.sets)
    p p.mem_all h

theorem Covers.set_mem (h : g.Covers r o rule) : rule.set ∈ g.sets := by
  cases g with
  | loopback => simp [sets, h.1]
  | routing => simp [sets, h.1]
  | bootstrap => simp [sets, h.1]
  | outbound => simp [sets, h.1]
  | interface =>
      obtain ⟨_, _, p, _, _, serves⟩ := h
      rw [serves.set_eq]
      exact set_of_perInterface p serves.perInterface

theorem Covers.unique (h : g.Covers r o rule) (h' : g'.Covers r o rule) : g = g' := by
  have mem := h.set_mem
  have mem' := h'.set_mem
  cases g <;> cases g' <;> simp [sets] at mem mem' ⊢ <;> omega

theorem Covers.what_ne (h : g.Covers r o rule) : rule.what ≠ {} := by
  intro everything
  cases g with
  | loopback =>
      obtain ⟨_, _, what⟩ := h
      simp [everything] at what
  | routing =>
      obtain ⟨_, router, _, routes⟩ := h
      rw [everything] at routes
      exact routes.bound.elim (absurd rfl) (absurd rfl)
  | bootstrap =>
      obtain ⟨_, ⟨proto, _⟩ | ⟨proto, _⟩⟩ := h <;> simp [everything] at proto
  | outbound =>
      obtain ⟨_, direction, _⟩ := h
      simp [everything] at direction
  | interface =>
      obtain ⟨_, _, _, _, _, serves⟩ := h
      have via := serves.via_eq
      simp [everything] at via

end Ground

def Draft.Grounded (r : Registry) (o : Options) (d : Draft) : Prop :=
  d.action = .allow → ∃ g : Ground, g.Covers r o (d.settled o.stealth)

namespace Ruleset

open Draft (Grounded)

variable {r : Registry} {o : Options}

private theorem grounded_of_action {d : Draft} (h : decide (d.action = .allow) = false) :
    d.Grounded r o :=
  fun allows => absurd allows (of_decide_eq_false h)

private theorem grounded_of_actions {ds : List Draft}
    (h : (ds.all fun d => d.action != .allow) = true) : ∀ d ∈ ds, d.Grounded r o := by
  intro d hd allows
  have other := List.all_eq_true.mp h d hd
  simp [allows] at other

theorem grounded_baseline : ∀ d ∈ baseline r o, d.Grounded r o := by
  refine forall_mem_baseline (fun _ => ⟨.loopback, ?_, ?_, ?_⟩) (fun _ => grounded_of_action rfl)
    (grounded_of_actions rfl) (fun _ _ _ => grounded_of_action rfl) (grounded_of_actions rfl)
  · rw [Draft.settled_set]
    rfl
  · rw [Draft.settled_number]
    rfl
  · rw [Draft.settled_what]

theorem routes_routingRules (router : Router) :
    ∀ d ∈ routingRules router, Ground.Routes router d.what := by
  simp only [routingRules, List.forall_mem_cons]
  refine ⟨⟨?_, ?_, ?_, ?_, rfl⟩, ⟨?_, ?_, ?_, ?_, rfl⟩, ⟨?_, ?_, ?_, ?_, rfl⟩,
    ⟨?_, ?_, ?_, ?_, rfl⟩, ⟨?_, ?_, ?_, ?_, rfl⟩, ⟨?_, ?_, ?_, ?_, rfl⟩, by simp⟩ <;> simp

theorem grounded_routing : ∀ d ∈ routing o, d.Grounded r o := by
  intro d hd _
  obtain ⟨router, declared, mem⟩ := List.mem_flatMap.mp hd
  refine ⟨.routing, ?_, router, by simpa using declared, ?_⟩
  · rw [Draft.settled_set, (conforms_routing o d hd).set_eq]
  · rw [Draft.settled_what]
    exact routes_routingRules router d mem

theorem grounded_of_confined (indexed : r.Indexed) {i : Interface} (hi : i ∈ r.interfaces)
    {set : Int} {d : Draft} (serves : d.Serves i set) (confined : d.Confined i) :
    d.Grounded r o := by
  intro _
  obtain ⟨k, hk⟩ := List.mem_iff_getElem?.mp hi
  refine ⟨.interface, k, i, d.purpose, hk, indexed.index_eq hk, serves.perInterface,
    Draft.settled_set _ _, ?_, ?_, ?_, ?_⟩
  · simp [Draft.numbered, serves.index_eq]
  · rw [Draft.settled_what, confined.via_eq]
  · rw [Draft.settled_what, confined.src_eq]
    rfl
  · rw [Draft.settled_what, confined.src_eq]
    rfl

theorem grounded_serviceRules (indexed : r.Indexed) {wanted : HostKinds → Bool} {set : Int}
    {f : Interface → List Draft} (serves : ∀ i, ∀ d ∈ f i, d.Serves i set)
    (confined : ∀ i, ∀ d ∈ f i, d.Confined i) :
    ∀ d ∈ serviceRules r wanted f, d.Grounded r o := by
  intro d hd
  obtain ⟨i, hi, hd⟩ := List.mem_flatMap.mp hd
  exact grounded_of_confined indexed (List.mem_filter.mp hi).1 (serves i d hd) (confined i d hd)

theorem grounded_trusted (indexed : r.Indexed) : ∀ d ∈ trusted r o, d.Grounded r o := by
  have icmp : ∀ d ∈ (r.interfaces.filter (·.trusted)).map (trustedIcmp o), d.Grounded r o := by
    intro d hd
    obtain ⟨i, hi, rfl⟩ := List.mem_map.mp hd
    exact grounded_of_confined indexed (List.mem_filter.mp hi).1
      (serves_trustedIcmp o i _ List.mem_cons_self) ⟨rfl, rfl⟩
  unfold trusted
  rw [List.forall_mem_append]
  exact ⟨icmp, grounded_of_actions rfl⟩

theorem grounded_bootstrap : ∀ d ∈ bootstrap r o, d.Grounded r o := by
  simp only [bootstrap, List.forall_mem_cons]
  refine ⟨fun _ => ⟨.bootstrap, ?_, Or.inl ⟨?_, ?_⟩⟩,
    fun _ => ⟨.bootstrap, ?_, Or.inr ⟨?_, ?_, ?_⟩⟩, by simp⟩
  all_goals simp [Purpose.band]

theorem grounded_outbound : ∀ d ∈ outbound r o, d.Grounded r o := by
  simp only [outbound, List.forall_mem_cons]
  refine ⟨fun _ => ⟨.outbound, ?_, ?_, ?_⟩, fun _ => ⟨.outbound, ?_, ?_, ?_⟩,
    fun _ => ⟨.outbound, ?_, ?_, ?_⟩, fun _ => ⟨.outbound, ?_, ?_, ?_⟩, by simp⟩
  all_goals simp [Purpose.band]

theorem grounded_openPorts (indexed : r.Indexed) : ∀ d ∈ openPorts r o, d.Grounded r o := by
  intro d hd
  obtain ⟨i, hi, hd⟩ := List.mem_flatMap.mp hd
  exact grounded_of_confined indexed hi (serves_openPortsOf o i d hd)
    (confined_openPortsOf o i d hd)

theorem grounded_drafts (indexed : r.Indexed) : ∀ d ∈ drafts r o, d.Grounded r o := by
  have elsewhere {set : Int} {ds : List Draft} (conforms : ∀ d ∈ ds, d.Conforms set)
      (quiet : set ∉ Purpose.acceptingSets) : ∀ d ∈ ds, d.Grounded r o := by
    intro d hd allows
    have accepts := (conforms d hd).effect_of_allow allows
    exact absurd accepts ((conforms d hd).effect_ne_accept quiet)
  simp only [drafts, List.forall_mem_append]
  exact ⟨⟨⟨⟨⟨⟨⟨⟨⟨⟨⟨grounded_baseline, grounded_routing⟩, elsewhere (conforms_state o) (by decide)⟩,
    grounded_serviceRules indexed (serves_macRules o) (confined_macRules o)⟩,
    grounded_serviceRules indexed (serves_windowsRules o) (confined_windowsRules o)⟩,
    grounded_trusted indexed⟩, grounded_bootstrap⟩,
    elsewhere (conforms_inboundFilter indexed o) (by decide)⟩,
    elsewhere (conforms_shaping indexed) (by decide)⟩, grounded_outbound⟩,
    grounded_openPorts indexed⟩, elsewhere (conforms_defaultDeny o) (by decide)⟩

end Ruleset

theorem Rule.action_of_accept {rule : Rule} (h : rule.effect = .accept) : rule.action = .allow := by
  unfold Rule.effect at h
  split at h <;> try cases h
  · assumption
  · split at h <;> cases h

namespace Evaluation

/-- A packet that only rules without a condition match is dropped: there is none that allows. -/
theorem exists_not_accepted {r : Registry} (indexed : r.Indexed) (o : Options) (on : Int → Bool)
    (closed : on defaultDenySet = true) :
    ∃ holds : Match → Bool, holds {} = true ∧ accepts holds on (Policy.rules r o) = false := by
  refine ⟨fun m => m = {}, by simp, ?_⟩
  refine accepts_rules_eq indexed Policy.rejectAll_mem closed rfl (by simp [Policy.rejectAll]) ?_ ?_
  · intro d hd _ matched allows
    have accepts : d.numbered.effect = .accept := by
      cases effect : d.numbered.effect <;> simp [effect, decision] at allows ⊢
    have grounded : d.Grounded r o := Ruleset.grounded_drafts indexed d hd
    obtain ⟨g, covers⟩ := grounded (Rule.action_of_accept accepts)
    have asks := covers.what_ne
    rw [Draft.settled_what] at asks
    exact asks (by simpa using matched)
  · intro d hd _ n skips
    rw [(Ruleset.conforms_drafts indexed o d hd).effect_eq] at skips
    have number : (Policy.rejectAll o).numbered.number = 30300 := rfl
    rw [number]
    exact Int.le_trans (d.purpose.skip_le skips) (by decide)

end Evaluation

/-- Every rule of a compiled program that allows has one ground. -/
theorem Policy.exists_ground_of_allow {tokens : List String} {r : Registry}
    (declared : (Registry.ofTokens tokens).2 = .ok r) (o : Options) (host debugging : Bool) :
    ∃ p, (Policy.compile r o host debugging).result = .ok p ∧
      ∀ rule ∈ p.program.rules, rule.action = .allow →
        ∃ g : Ground, g.Covers r o rule ∧ ∀ g' : Ground, g'.Covers r o rule → g' = g := by
  have indexed := Registry.indexed_of_declared declared
  refine ⟨_, Policy.compile_eq_ok indexed o host debugging, ?_⟩
  intro rule hr allows
  obtain ⟨d, hd, rfl⟩ := mem_rules.mp hr
  rw [Draft.settled_action] at allows
  obtain ⟨g, covers⟩ := Ruleset.grounded_drafts indexed d hd allows
  exact ⟨g, covers, fun g' covers' => covers'.unique covers⟩

theorem Policy.exists_ground_of_ssh :
    ∃ p, (Policy.compile .lone { ports := { publicTcp := ["22"] } } false false).result = .ok p ∧
      ∃ rule ∈ p.program.rules, rule.number = 20200 ∧
        Ground.Covers .lone { ports := { publicTcp := ["22"] } } rule .interface := by
  obtain ⟨p, compiled, grounds⟩ := exists_ground_of_allow Registry.declared_lone
    { ports := { publicTcp := ["22"] } } false false
  have indexed := Registry.indexed_of_declared Registry.declared_lone
  have known := compile_eq_ok indexed { ports := { publicTcp := ["22"] } } false false
  rw [compiled, Except.ok.injEq] at known
  obtain ⟨d, hd, number, allows, set⟩ := (by decide +kernel :
    ∃ d ∈ Ruleset.drafts .lone { ports := { publicTcp := ["22"] } },
      d.numbered.number = 20200 ∧ d.action = .allow ∧ d.purpose.band.set = 20)
  have mem : d.settled false ∈ p.program.rules := by
    rw [known]
    exact mem_rules.mpr ⟨d, hd, rfl⟩
  obtain ⟨g, covers, -⟩ := grounds _ mem ((Draft.settled_action _ _).trans allows)
  refine ⟨p, compiled, _, mem, (Draft.settled_number _ _).trans number, ?_⟩
  have place := covers.set_mem
  rw [Draft.settled_set, set] at place
  cases g with
  | interface => exact covers
  | loopback | routing | bootstrap | outbound => simp [Ground.sets] at place

end Firewall

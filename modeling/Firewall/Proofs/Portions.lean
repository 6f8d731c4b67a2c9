import Firewall.Proofs.Settlement

/-!
What a program holds for the sake of one interface. Every purpose with a rule for each interface
has a gate: what the interface has to be like, and which ports have to be listed, for it to get
that rule. The program has the rule if the gate is open, and only then.
-/

namespace Firewall

namespace Ruleset

variable {r : Registry} {o : Options} {i : Interface} {d : Draft}

def macPurposes : List Purpose :=
  [.macTcp, .macUdp, .macMdns, .macMulticast, .macSsdp, .macBroadcast]

def windowsPurposes : List Purpose := [.winTcp, .winUdp, .winMulticast, .winSsdp, .winBroadcast]

def shapingPurposes : List Purpose :=
  [.shapeSkipPrivateOut, .shapeSkipPrivateIn, .shapeInTcp, .shapeInUdp, .shapeHighAck,
    .shapeMediumTcp, .shapeMediumUdp, .shapeLowTcp, .shapeLowUdp]

/-- The purposes with a rule for each interface, in the order in which they are drafted. -/
def eachPurposes : List Purpose :=
  macPurposes ++ windowsPurposes ++ [.trustedIcmp] ++ [.knownNetwork] ++ shapingPurposes ++ openings

/-- What is drafted for the sake of one interface. -/
def portion (o : Options) (i : Interface) : List Draft :=
  (if i.hosts.mac && i.bounded then macRules o i else [])
    ++ (if i.hosts.windows && i.bounded then windowsRules o i else [])
    ++ (if i.trusted then [trustedIcmp o i] else [])
    ++ (if i.bounded then [knownNetwork i] else [])
    ++ shapingOf i ++ openPortsOf o i

/-! ### The purposes of a portion -/

theorem mem_eachPurposes_of_gate {p : Purpose} (h : p.gate o i = true) : p ∈ eachPurposes := by
  cases p <;> first | decide | cases h

private theorem map_purpose_if {ds : List Draft} {ps : List Purpose} {granted : Bool}
    (purposes : ds.map (·.purpose) = ps) (gates : ∀ p ∈ ps, p.gate o i = granted) :
    (if granted then ds else []).map (·.purpose) = ps.filter (·.gate o i) := by
  cases granted with
  | false => exact (List.filter_eq_nil_iff.mpr fun p hp => by simp [gates p hp]).symm
  | true => exact purposes.trans (List.filter_eq_self.mpr gates).symm

theorem map_purpose_shapingOf (o : Options) (i : Interface) :
    (shapingOf i).map (·.purpose) = shapingPurposes.filter (·.gate o i) := by
  unfold shapingOf
  cases rates : i.rates <;>
    simp [shapingPurposes, Purpose.gate, Interface.shaped, rates, Shaping.rules]

/-- An interface gets the rules whose gates it opens, and each of them once. -/
theorem map_purpose_portion (o : Options) (i : Interface) :
    (portion o i).map (·.purpose) = eachPurposes.filter (·.gate o i) := by
  have mac : (if i.hosts.mac && i.bounded then macRules o i else []).map (·.purpose) =
      macPurposes.filter (·.gate o i) :=
    map_purpose_if rfl (by simp [macPurposes, Purpose.gate])
  have windows : (if i.hosts.windows && i.bounded then windowsRules o i else []).map (·.purpose) =
      windowsPurposes.filter (·.gate o i) :=
    map_purpose_if rfl (by simp [windowsPurposes, Purpose.gate])
  have icmp : (if i.trusted then [trustedIcmp o i] else []).map (·.purpose) =
      [Purpose.trustedIcmp].filter (·.gate o i) :=
    map_purpose_if rfl (by simp [Purpose.gate])
  have known : (if i.bounded then [knownNetwork i] else []).map (·.purpose) =
      [Purpose.knownNetwork].filter (·.gate o i) :=
    map_purpose_if rfl (by simp [Purpose.gate])
  simp only [portion, eachPurposes, List.map_append, List.filter_append]
  rw [mac, windows, icmp, known, map_purpose_shapingOf o, map_purpose_openPortsOf]

/-! ### Portions and whole policies -/

theorem index_eq_none {set : Int} (conforms : d.Conforms set)
    (single : set ∈ [0, 1, 2, 6, 11, 30]) : d.index = none := by
  have common : d.purpose.band.perInterface = false :=
    (by decide : ∀ p ∈ Purpose.all, p.band.set ∈ [0, 1, 2, 6, 11, 30] →
      p.band.perInterface = false) d.purpose d.purpose.mem_all (conforms.set_eq ▸ single)
  have fits := conforms.fits
  unfold Draft.Fits at fits
  cases index : d.index with
  | none => rfl
  | some k => simp [index, common] at fits

theorem not_mem_of_common {ds : List Draft} (common : ds.all (·.index.isNone) = true)
    (indexed : d.index ≠ none) : d ∉ ds :=
  fun mem => indexed (by simpa using List.all_eq_true.mp common d mem)

theorem common_forged (names : List String) : (forged names).all (·.index.isNone) = true := by
  unfold forged
  split <;> rfl

theorem mem_ite_nil {α : Type} {x : α} {c : Bool} {xs : List α} :
    x ∈ (if c then xs else []) ↔ c = true ∧ x ∈ xs := by
  cases c <;> simp

theorem mem_serviceRules {wanted : HostKinds → Bool} {f : Interface → List Draft} :
    d ∈ serviceRules r wanted f ↔
      ∃ i ∈ r.interfaces, (wanted i.hosts && i.bounded) = true ∧ d ∈ f i := by
  simp [serviceRules, and_assoc]

/-- The drafts with an index are those of the portions. -/
theorem mem_drafts_iff (indexed : d.index ≠ none) :
    d ∈ drafts r o ↔ ∃ i ∈ r.interfaces, d ∈ portion o i := by
  have elsewhere {set : Int} {ds : List Draft} (conforms : ∀ d ∈ ds, d.Conforms set)
      (single : set ∈ [0, 1, 2, 6, 11, 30]) : d ∉ ds :=
    fun mem => indexed (index_eq_none (conforms d mem) single)
  have icmp : d ∈ trusted r o ↔ ∃ i ∈ r.interfaces, i.trusted = true ∧ d = trustedIcmp o i := by
    rw [trusted, List.mem_append, or_iff_left (not_mem_of_common rfl indexed)]
    simp only [List.mem_map, List.mem_filter, and_assoc, @eq_comm _ _ d]
  have known : d ∈ inboundFilter r o ↔
      ∃ i ∈ r.interfaces, i.bounded = true ∧ d = knownNetwork i := by
    rw [inboundFilter, List.mem_append, or_iff_left (not_mem_of_common rfl indexed),
      List.mem_append, or_iff_left (not_mem_of_common (common_forged _) indexed), List.mem_append,
      or_iff_right (not_mem_of_common rfl indexed)]
    simp only [List.mem_map, List.mem_filter, and_assoc, @eq_comm _ _ d]
  simp only [drafts, List.mem_append, elsewhere (conforms_baseline o) (by decide),
    elsewhere (conforms_routing o) (by decide), elsewhere (conforms_state o) (by decide),
    elsewhere (conforms_bootstrap o) (by decide), elsewhere (conforms_outbound o) (by decide),
    elsewhere (conforms_defaultDeny o) (by decide), false_or, or_false, macServices,
    windowsServices, mem_serviceRules, icmp, known, shaping_eq_flatMap, openPorts,
    List.mem_flatMap]
  simp only [portion, List.mem_append, mem_ite_nil, List.mem_singleton, and_or_left, exists_or]

/-! ### The rules of a portion -/

theorem forall_mem_portion {P : Draft → Prop} (mac : ∀ d ∈ macRules o i, P d)
    (windows : ∀ d ∈ windowsRules o i, P d) (icmp : P (trustedIcmp o i))
    (known : P (knownNetwork i)) (shaping : ∀ d ∈ shapingOf i, P d)
    (openings : ∀ d ∈ openPortsOf o i, P d) : ∀ d ∈ portion o i, P d := by
  intro d hd
  simp only [portion, List.mem_append, mem_ite_nil, List.mem_singleton] at hd
  rcases hd with ((((⟨_, hd⟩ | ⟨_, hd⟩) | ⟨_, rfl⟩) | ⟨_, rfl⟩) | hd) | hd
  · exact mac d hd
  · exact windows d hd
  · exact icmp
  · exact known
  · exact shaping d hd
  · exact openings d hd

theorem serves_portion : ∀ d ∈ portion o i, d.Serves i d.purpose.band.set := by
  have own {set : Int} {ds : List Draft} (serves : ∀ d ∈ ds, d.Serves i set) :
      ∀ d ∈ ds, d.Serves i d.purpose.band.set := by
    intro d hd
    have each := serves d hd
    exact ⟨rfl, each.perInterface, each.effect_eq, each.index_eq⟩
  exact forall_mem_portion (own (serves_macRules o i)) (own (serves_windowsRules o i))
    ⟨rfl, rfl, rfl, rfl⟩ ⟨rfl, rfl, rfl, rfl⟩ (own (serves_shapingOf i))
    (own (serves_openPortsOf o i))

theorem via_shapingOf : ∀ d ∈ shapingOf i, d.what.via = [i.name] := by
  unfold shapingOf
  cases i.rates <;> simp [Shaping.rules, Shaping.allocate]

theorem via_portion : ∀ d ∈ portion o i, d.what.via = [i.name] :=
  forall_mem_portion (fun d hd => (confined_macRules o i d hd).via_eq)
    (fun d hd => (confined_windowsRules o i d hd).via_eq) rfl rfl via_shapingOf
    fun d hd => (confined_openPortsOf o i d hd).via_eq

theorem src_portion :
    ∀ d ∈ portion o i, d.purpose.band.set ≠ 10 → d.what.src = .network i.network :=
  forall_mem_portion (fun d hd _ => (confined_macRules o i d hd).src_eq)
    (fun d hd _ => (confined_windowsRules o i d hd).src_eq) (fun _ => rfl) (fun _ => rfl)
    (fun d hd other => absurd (serves_shapingOf i d hd).set_eq other)
    fun d hd _ => (confined_openPortsOf o i d hd).src_eq

theorem gate_portion (hd : d ∈ portion o i) : d.purpose.gate o i = true := by
  have mem := List.mem_map_of_mem (f := fun d : Draft => d.purpose) hd
  rw [map_purpose_portion] at mem
  exact (List.mem_filter.mp mem).2

theorem exists_mem_portion {p : Purpose} (h : p.gate o i = true) :
    ∃ d ∈ portion o i, d.purpose = p := by
  have mem : p ∈ (portion o i).map (·.purpose) := by
    rw [map_purpose_portion]
    exact List.mem_filter.mpr ⟨mem_eachPurposes_of_gate h, h⟩
  exact List.mem_map.mp mem

end Ruleset

theorem ruleNumber_eq_ok_iff {p : Purpose} {k n : Int} : ruleNumber p (some k) = .ok n ↔
    p.band.perInterface = true ∧ (0 ≤ k ∧ k < maxInterfaces) ∧ p.band.base + k = n := by
  unfold ruleNumber Band.number
  split
  · rename_i each
    by_cases bounds : 0 ≤ k ∧ k < maxInterfaces <;> simp [each, bounds]
  · rename_i common
    simp [common]

namespace Draft

theorem Fits.eq_of_number {d : Draft} (h : d.Fits) {p : Purpose} {k : Int}
    (taken : ruleNumber p (some k) = .ok d.numbered.number) : d.purpose = p ∧ d.index = some k :=
  Purpose.eq_of_number h.number taken

theorem Serves.ruleNumber_eq {r : Registry} {i : Interface} {set : Int} {d : Draft}
    (h : d.Serves i set) (indexed : r.Indexed) (hi : i ∈ r.interfaces) :
    ruleNumber d.purpose (some i.index) = .ok d.numbered.number :=
  ruleNumber_eq_ok_iff.mpr
    ⟨h.perInterface, indexed.bounds hi, by simp [numbered, h.index_eq]⟩

end Draft

theorem Registry.Indexed.eq_of_index {r : Registry} (h : r.Indexed) {i j : Interface}
    (hi : i ∈ r.interfaces) (hj : j ∈ r.interfaces) (same : i.index = j.index) : i = j := by
  obtain ⟨k, hk⟩ := List.mem_iff_getElem?.mp hi
  obtain ⟨l, hl⟩ := List.mem_iff_getElem?.mp hj
  have place : (k : Int) = l := by rw [← h.index_eq hk, ← h.index_eq hl, same]
  rw [Int.ofNat_inj.mp place, hl] at hk
  exact (Option.some.inj hk).symm

namespace Policy

/-- A program has the rule of a purpose for an interface if the gate of the purpose is open, and
only then; the rule is about that interface and, unless it shapes, about packets from its network. -/
theorem exists_rule_iff_gate {tokens : List String} {r : Registry}
    (declared : (Registry.ofTokens tokens).2 = .ok r) (o : Options) (host debugging : Bool) :
    ∃ p, (compile r o host debugging).result = .ok p ∧ ∀ (purpose : Purpose) (k : Int),
      ((∃ rule ∈ p.program.rules, ruleNumber purpose (some k) = .ok rule.number) ↔
        ∃ i ∈ r.interfaces, i.index = k ∧ purpose.gate o i = true) ∧
      ∀ rule ∈ p.program.rules, ruleNumber purpose (some k) = .ok rule.number →
        ∀ i ∈ r.interfaces, i.index = k →
          rule.tag = .known purpose ∧ rule.what.via = [i.name] ∧
            (purpose.band.set ≠ 10 → rule.what.src = .network i.network) := by
  have indexed := Registry.indexed_of_declared declared
  -- A rule with that number comes from the portion of the interface with that index.
  have source (purpose : Purpose) (k : Int) : ∀ rule ∈ rules r o,
      ruleNumber purpose (some k) = .ok rule.number → ∃ i ∈ r.interfaces, i.index = k ∧
        ∃ d ∈ Ruleset.portion o i, d.purpose = purpose ∧ d.settled o.stealth = rule := by
    intro rule hr taken
    obtain ⟨d, hd, rfl⟩ := mem_rules.mp hr
    rw [Draft.settled_number] at taken
    obtain ⟨same, index⟩ := (Ruleset.conforms_drafts indexed o d hd).fits.eq_of_number taken
    obtain ⟨i, hi, mem⟩ := (Ruleset.mem_drafts_iff (by simp [index])).mp hd
    have place := (Ruleset.serves_portion d mem).index_eq
    rw [index, Option.some.injEq] at place
    exact ⟨i, hi, place.symm, d, mem, same, rfl⟩
  refine ⟨_, compile_eq_ok indexed o host debugging, fun purpose k => ⟨⟨?_, ?_⟩, ?_⟩⟩
  · rintro ⟨rule, hr, taken⟩
    obtain ⟨i, hi, place, d, mem, rfl, -⟩ := source purpose k rule hr taken
    exact ⟨i, hi, place, Ruleset.gate_portion mem⟩
  · rintro ⟨i, hi, rfl, gate⟩
    obtain ⟨d, mem, rfl⟩ := Ruleset.exists_mem_portion gate
    have serves := Ruleset.serves_portion d mem
    have hd : d ∈ Ruleset.drafts r o :=
      (Ruleset.mem_drafts_iff (by simp [serves.index_eq])).mpr ⟨i, hi, mem⟩
    refine ⟨d.settled o.stealth, mem_rules.mpr ⟨d, hd, rfl⟩, ?_⟩
    rw [Draft.settled_number]
    exact serves.ruleNumber_eq indexed hi
  · intro rule hr taken i hi place
    obtain ⟨j, hj, place', d, mem, rfl, rfl⟩ := source purpose k rule hr taken
    obtain rfl : j = i := indexed.eq_of_index hj hi (place'.trans place.symm)
    refine ⟨Draft.settled_tag _ _, ?_, fun shapesNot => ?_⟩
    · rw [Draft.settled_what, Ruleset.via_portion d mem]
    · rw [Draft.settled_what, Ruleset.src_portion d mem shapesNot]

/-- Ports for local networks are opened on the interface that has a network, and on no other. -/
theorem exists_rule_iff_gate_home :
    ∃ p, (compile .home { ports := { localTcp := ["22"] } } false false).result = .ok p ∧
      (∃ rule ∈ p.program.rules, rule.number = 20100 ∧ rule.what.via = ["en0"] ∧
        rule.what.src.addresses = ["192.168.0.0/16"]) ∧
      ¬ ∃ rule ∈ p.program.rules, rule.number = 20101 := by
  obtain ⟨p, compiled, laws⟩ := exists_rule_iff_gate Registry.declared_home
    { ports := { localTcp := ["22"] } } false false
  refine ⟨p, compiled, ?_, ?_⟩
  · obtain ⟨rule, hr, taken⟩ := (laws .localTcp 0).1.mpr (by decide)
    obtain ⟨-, via, src⟩ := (laws .localTcp 0).2 rule hr taken _ List.mem_cons_self rfl
    have number : ruleNumber .localTcp (some 0) = .ok 20100 := rfl
    refine ⟨rule, hr, (Except.ok.inj (number.symm.trans taken)).symm, via, ?_⟩
    rw [src (by decide)]
    decide +kernel
  · rintro ⟨rule, hr, number⟩
    have taken : ruleNumber .localTcp (some 1) = .ok rule.number := by
      rw [number]
      rfl
    exact absurd ((laws .localTcp 1).1.mp ⟨rule, hr, taken⟩) (by decide)

end Policy
end Firewall

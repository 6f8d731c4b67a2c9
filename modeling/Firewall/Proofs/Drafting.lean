import Firewall.Proofs.Placement

/-!
The drafts of a policy, set by set. Each of the twelve lists holds the rules of one set, which
the purposes settle, and repeats no purpose for the same interface. The statements about a whole
policy at the end are assembled from the lists.
-/

namespace Firewall.Ruleset

open Draft (Apart Confined Conforms Serves conforms_of_accords serves_of_accords)

variable {r : Registry}

/-! ### Rules for every interface -/

private theorem conforms_flatMap (h : r.Indexed) {interfaces : List Interface}
    (sub : interfaces.Sublist r.interfaces) {set : Int} {f : Interface → List Draft}
    (serves : ∀ i, ∀ d ∈ f i, Serves i set d) : ∀ d ∈ interfaces.flatMap f, Conforms set d := by
  intro d hd
  obtain ⟨i, hi, hd⟩ := List.mem_flatMap.mp hd
  exact (serves i d hd).conforms h (sub.subset hi)

private theorem apart_flatMap (h : r.Indexed) {interfaces : List Interface}
    (sub : interfaces.Sublist r.interfaces) {set : Int} {f : Interface → List Draft}
    (serves : ∀ i, ∀ d ∈ f i, Serves i set d) (each : ∀ i, (f i).Pairwise Apart) :
    (interfaces.flatMap f).Pairwise Apart := by
  rw [List.pairwise_flatMap]
  refine ⟨fun i _ => each i, (h.pairwise_index.sublist sub).imp ?_⟩
  intro i j different d hd e he
  right
  rw [(serves i d hd).index_eq, (serves j e he).index_eq]
  simpa using different

private theorem apart_append (rank : Purpose → Int) (m : Int) {ds es : List Draft}
    (hd : ds.Pairwise Apart) (he : es.Pairwise Apart)
    (below : ∀ d ∈ ds, rank d.purpose ≤ m) (above : ∀ e ∈ es, m < rank e.purpose) :
    (ds ++ es).Pairwise Apart := by
  rw [List.pairwise_append]
  refine ⟨hd, he, fun d hd e he => Or.inl ?_⟩
  intro same
  have := below d hd
  have := above e he
  rw [same] at *
  omega

/-! ### Set 0: baseline -/

/-- The rule against an option in the header of a packet that arrives. -/
def optionRule (r : Registry) (purpose : Purpose) (option : String) : Draft :=
  { purpose, action := .deny, log := true,
    what := { ipOptions := some option, direction := .inbound, via := r.names } }

theorem drop_of_denied {purpose : Purpose} {option : String}
    (h : (purpose, option) ∈ deniedOptions) :
    purpose.band.set = 0 ∧ purpose.band.perInterface = false ∧ purpose.effect = .drop ∧
      option ≠ "" :=
  (by decide : ∀ entry ∈ deniedOptions, entry.1.band.set = 0 ∧
    entry.1.band.perInterface = false ∧ entry.1.effect = .drop ∧ entry.2 ≠ "") _ h

theorem forall_mem_baseline {o : Options} {P : Draft → Prop}
    (loopback : P { purpose := .loopback, action := .allow, what := { via := ["lo*"] } })
    (divert : ∀ router, P (divertRule router)) (limited : ∀ d ∈ limits, P d)
    (denied : ∀ purpose option, (purpose, option) ∈ deniedOptions →
      P (optionRule r purpose option))
    (odd : ∀ d ∈ abnormal, P d) : ∀ d ∈ baseline r o, P d := by
  intro d hd
  simp only [baseline, List.mem_append, List.mem_singleton] at hd
  rcases hd with (((rfl | hd) | hd) | hd) | hd
  · exact loopback
  · obtain ⟨router, _, rfl⟩ := List.mem_map.mp hd
    exact divert router
  · exact limited d hd
  · obtain ⟨⟨purpose, option⟩, mem, rfl⟩ := List.mem_map.mp hd
    exact denied purpose option mem
  · exact odd d hd

theorem conforms_baseline (o : Options) : ∀ d ∈ baseline r o, Conforms 0 d := by
  refine forall_mem_baseline ⟨rfl, rfl, rfl⟩ (fun _ => ⟨rfl, rfl, rfl⟩)
    (conforms_of_accords rfl) ?_ (conforms_of_accords rfl)
  intro purpose option denied
  obtain ⟨set, single, drops, -⟩ := drop_of_denied denied
  exact ⟨set, single, drops.symm⟩

theorem apart_baseline (o : Options) : (baseline r o).Pairwise Apart := by
  cases h : o.router <;>
    simp [baseline, h, divertRule, limits, deniedOptions, abnormal, Apart]

/-! ### Set 1: routing -/

theorem conforms_routing (o : Options) : ∀ d ∈ routing o, Conforms 1 d := by
  unfold routing
  rw [List.forall_mem_flatMap]
  intro router _
  exact conforms_of_accords rfl

theorem apart_routing (o : Options) : (routing o).Pairwise Apart := by
  cases h : o.router <;> simp [routing, routingRules, h, Apart]

/-! ### Set 2: state -/

theorem conforms_state (o : Options) : ∀ d ∈ state o, Conforms 2 d := conforms_of_accords rfl

theorem apart_state (o : Options) : (state o).Pairwise Apart := by
  simp [state, Apart]

/-! ### Sets 3 and 4: services of one kind of host -/

theorem serves_macRules (o : Options) (i : Interface) : ∀ d ∈ macRules o i, Serves i 3 d :=
  serves_of_accords rfl (by simp [macRules, service, broadcasts])

theorem confined_macRules (o : Options) (i : Interface) : ∀ d ∈ macRules o i, Confined i d := by
  simp only [macRules, service, broadcasts, List.forall_mem_append, List.forall_mem_cons]
  exact ⟨⟨⟨rfl, rfl⟩, ⟨rfl, rfl⟩, ⟨rfl, rfl⟩, by simp⟩, ⟨rfl, rfl⟩, ⟨rfl, rfl⟩, ⟨rfl, rfl⟩,
    by simp⟩

theorem conforms_macServices (h : r.Indexed) (o : Options) :
    ∀ d ∈ macServices r o, Conforms 3 d :=
  conforms_flatMap h List.filter_sublist (serves_macRules o)

theorem apart_macServices (h : r.Indexed) (o : Options) : (macServices r o).Pairwise Apart := by
  refine apart_flatMap h List.filter_sublist (serves_macRules o) ?_
  intro i
  simp [macRules, service, broadcasts, Apart]

theorem serves_windowsRules (o : Options) (i : Interface) :
    ∀ d ∈ windowsRules o i, Serves i 4 d :=
  serves_of_accords rfl (by simp [windowsRules, service, broadcasts])

theorem confined_windowsRules (o : Options) (i : Interface) :
    ∀ d ∈ windowsRules o i, Confined i d := by
  simp only [windowsRules, service, broadcasts, List.forall_mem_append, List.forall_mem_cons]
  exact ⟨⟨⟨rfl, rfl⟩, ⟨rfl, rfl⟩, by simp⟩, ⟨rfl, rfl⟩, ⟨rfl, rfl⟩, ⟨rfl, rfl⟩, by simp⟩

theorem conforms_windowsServices (h : r.Indexed) (o : Options) :
    ∀ d ∈ windowsServices r o, Conforms 4 d :=
  conforms_flatMap h List.filter_sublist (serves_windowsRules o)

theorem apart_windowsServices (h : r.Indexed) (o : Options) :
    (windowsServices r o).Pairwise Apart := by
  refine apart_flatMap h List.filter_sublist (serves_windowsRules o) ?_
  intro i
  simp [windowsRules, service, broadcasts, Apart]

/-! ### Set 5: trusted networks, containment of broadcasts -/

theorem serves_trustedIcmp (o : Options) (i : Interface) :
    ∀ d ∈ [trustedIcmp o i], Serves i 5 d := by
  rw [List.forall_mem_singleton]
  exact ⟨rfl, rfl, rfl, rfl⟩

theorem conforms_trusted (h : r.Indexed) (o : Options) : ∀ d ∈ trusted r o, Conforms 5 d := by
  unfold trusted
  rw [List.forall_mem_append, List.map_eq_flatMap]
  exact ⟨conforms_flatMap h List.filter_sublist (serves_trustedIcmp o), conforms_of_accords rfl⟩

theorem apart_trusted (h : r.Indexed) (o : Options) : (trusted r o).Pairwise Apart := by
  unfold trusted
  rw [List.map_eq_flatMap]
  refine apart_append (·.band.base) 5100 ?_ ?_ ?_ ?_
  · exact apart_flatMap h List.filter_sublist (serves_trustedIcmp o) (by simp)
  · simp [contained, Apart]
  · simp only [List.forall_mem_flatMap, List.forall_mem_singleton]
    exact fun _ _ => Int.le_refl 5100
  · simp only [contained, List.forall_mem_cons]
    decide

/-! ### Set 6: bootstrap -/

theorem conforms_bootstrap (o : Options) : ∀ d ∈ bootstrap r o, Conforms 6 d :=
  conforms_of_accords rfl

theorem apart_bootstrap (o : Options) : (bootstrap r o).Pairwise Apart := by
  simp [bootstrap, Apart]

/-! ### Set 7: inbound filter -/

private theorem serves_knownNetwork (i : Interface) :
    ∀ d ∈ [knownNetwork i], Serves i 7 d := by
  rw [List.forall_mem_singleton]
  exact ⟨rfl, rfl, rfl, rfl⟩

theorem conforms_forged (names : List String) : ∀ d ∈ forged names, Conforms 7 d := by
  unfold forged
  split
  · simp
  · exact conforms_of_accords rfl

theorem apart_forged (names : List String) : (forged names).Pairwise Apart := by
  unfold forged
  split
  · exact .nil
  · simp [forgedSources, Apart]

private theorem base_forged (names : List String) :
    ∀ d ∈ forged names, 7200 < d.purpose.band.base ∧ d.purpose.band.base ≤ 7400 := by
  unfold forged
  split
  · simp
  · simp only [forgedSources, List.map_cons, List.map_nil, List.forall_mem_cons]
    decide

theorem conforms_inboundFilter (h : r.Indexed) (o : Options) :
    ∀ d ∈ inboundFilter r o, Conforms 7 d := by
  simp only [inboundFilter, List.forall_mem_append, List.map_eq_flatMap]
  refine ⟨⟨⟨conforms_of_accords rfl, ?_⟩, conforms_forged _⟩, conforms_of_accords rfl⟩
  exact conforms_flatMap h List.filter_sublist serves_knownNetwork

theorem apart_inboundFilter (h : r.Indexed) (o : Options) :
    (inboundFilter r o).Pairwise Apart := by
  have known : ∀ d ∈ (r.interfaces.filter (·.bounded)).map knownNetwork,
      d.purpose.band.base = 7200 := by
    intro d hd
    obtain ⟨i, _, rfl⟩ := List.mem_map.mp hd
    rfl
  have spoofed := base_forged (publicNames r)
  unfold inboundFilter
  refine apart_append (·.band.base) 7400 (apart_append (·.band.base) 7200
    (apart_append (·.band.base) 7110 ?_ ?_ ?_ ?_) (apart_forged _) ?_ ?_) ?_ ?_ ?_
  · simp [Apart]
  · rw [List.map_eq_flatMap]
    exact apart_flatMap h List.filter_sublist serves_knownNetwork (by simp)
  · simp only [List.forall_mem_cons]
    decide
  · intro d hd
    rw [known d hd]
    decide
  · rw [List.forall_mem_append]
    refine ⟨?_, fun d hd => Int.le_of_eq (known d hd)⟩
    simp only [List.forall_mem_cons]
    decide
  · exact fun d hd => (spoofed d hd).1
  · simp [Apart]
  · simp only [List.forall_mem_append]
    refine ⟨⟨?_, fun d hd => ?_⟩, fun d hd => (spoofed d hd).2⟩
    · simp only [List.forall_mem_cons]
      decide
    · rw [known d hd]
      decide
  · simp only [List.forall_mem_cons]
    decide

/-! ### Set 10: shaping -/

def shapingOf (i : Interface) : List Draft :=
  (i.rates.map (Shaping.allocate i)).toList.flatMap Shaping.rules

theorem shaping_eq_flatMap (r : Registry) : shaping r = r.interfaces.flatMap shapingOf := by
  unfold shaping Shaping.plan
  induction r.interfaces with
  | nil => rfl
  | cons i rest ih =>
      rw [List.flatMap_cons, ← ih]
      cases h : i.rates <;> simp [shapingOf, h]

theorem serves_shapingOf (i : Interface) : ∀ d ∈ shapingOf i, Serves i 10 d := by
  unfold shapingOf
  cases i.rates with
  | none => simp
  | some rates =>
      refine serves_of_accords rfl ?_
      simp [Shaping.rules, Shaping.allocate]

theorem conforms_shaping (h : r.Indexed) : ∀ d ∈ shaping r, Conforms 10 d := by
  rw [shaping_eq_flatMap]
  exact conforms_flatMap h (List.Sublist.refl _) serves_shapingOf

theorem apart_shaping (h : r.Indexed) : (shaping r).Pairwise Apart := by
  rw [shaping_eq_flatMap]
  refine apart_flatMap h (List.Sublist.refl _) serves_shapingOf ?_
  intro i
  unfold shapingOf
  cases i.rates <;> simp [Shaping.rules, Apart]

/-! ### Set 11: outbound -/

theorem conforms_outbound (o : Options) : ∀ d ∈ outbound r o, Conforms 11 d :=
  conforms_of_accords rfl

theorem apart_outbound (o : Options) : (outbound r o).Pairwise Apart := by
  simp [outbound, Apart]

/-! ### Set 20: opened ports -/

theorem eq_of_mem_openTo {o : Options} {i : Interface} {purpose : Purpose} {proto : String}
    {ports : List String} {d : Draft} (hd : d ∈ openTo o i purpose proto ports) :
    ports ≠ [] ∧ d =
      { purpose, action := .allow, index := some i.index, log := o.logAll,
        what := { proto, src := .network i.network, dst := { addresses := ["me"], ports },
                  direction := .inbound, via := [i.name], setup := proto == "tcp",
                  keepState := true } } := by
  unfold openTo at hd
  split at hd
  · cases hd
  · rename_i listed
    exact ⟨by simpa using listed, List.mem_singleton.mp hd⟩

def openings : List Purpose :=
  [.trustedTcp, .trustedUdp, .localTcp, .localUdp, .publicTcp, .publicUdp]

/-- Every rule for an opened port is made in one way, for one of the six purposes. -/
theorem exists_openTo {o : Options} {i : Interface} {d : Draft} (hd : d ∈ openPortsOf o i) :
    ∃ purpose ∈ openings, ∃ proto ports, d ∈ openTo o i purpose proto ports := by
  simp only [openPortsOf, List.mem_append] at hd
  rcases hd with ((hd | hd) | hd) | hd
  · split at hd
    · rcases List.mem_append.mp hd with hd | hd <;> exact ⟨_, by decide, _, _, hd⟩
    · cases hd
  · split at hd
    · rcases List.mem_append.mp hd with hd | hd <;> exact ⟨_, by decide, _, _, hd⟩
    · cases hd
  · exact ⟨_, by decide, _, _, hd⟩
  · exact ⟨_, by decide, _, _, hd⟩

theorem serves_openPortsOf (o : Options) (i : Interface) :
    ∀ d ∈ openPortsOf o i, Serves i 20 d := by
  intro d hd
  obtain ⟨purpose, listed, _, _, hd⟩ := exists_openTo hd
  obtain ⟨_, rfl⟩ := eq_of_mem_openTo hd
  obtain ⟨set, each, effect⟩ := (by decide : ∀ p ∈ openings,
    p.band.set = 20 ∧ p.band.perInterface = true ∧ p.effect = .accept) purpose listed
  exact ⟨set, each, effect.symm, rfl⟩

theorem confined_openPortsOf (o : Options) (i : Interface) :
    ∀ d ∈ openPortsOf o i, Confined i d := by
  intro d hd
  obtain ⟨_, _, _, _, hd⟩ := exists_openTo hd
  obtain ⟨_, rfl⟩ := eq_of_mem_openTo hd
  exact ⟨rfl, rfl⟩

theorem conforms_openPorts (h : r.Indexed) (o : Options) :
    ∀ d ∈ openPorts r o, Conforms 20 d :=
  conforms_flatMap h (List.Sublist.refl _) (serves_openPortsOf o)

theorem map_purpose_openTo (o : Options) (i : Interface) (purpose : Purpose) (proto : String)
    (ports : List String) :
    (openTo o i purpose proto ports).map (·.purpose) = if ports.isEmpty then [] else [purpose] := by
  unfold openTo
  split <;> rfl

private theorem map_purpose_tier {o : Options} {i : Interface} {granted : Bool} {p q : Purpose}
    {tcp udp : List String} (hp : p.gate o i = (granted && !tcp.isEmpty))
    (hq : q.gate o i = (granted && !udp.isEmpty)) :
    (if granted then openTo o i p "tcp" tcp ++ openTo o i q "udp" udp else []).map (·.purpose) =
      [p, q].filter (·.gate o i) := by
  cases granted with
  | false => simp [hp, hq]
  | true =>
      simp only [if_true, List.map_append, map_purpose_openTo]
      cases tcp <;> cases udp <;> simp [hp, hq]

/-- Whatever is opened on an interface, each of the six purposes occurs once at most. -/
theorem map_purpose_openPortsOf (o : Options) (i : Interface) :
    (openPortsOf o i).map (·.purpose) = openings.filter (·.gate o i) := by
  have trusted : (if i.trusted then openTo o i .trustedTcp "tcp" o.ports.trustedTcp ++
      openTo o i .trustedUdp "udp" o.ports.trustedUdp else []).map (·.purpose) = _ :=
    map_purpose_tier rfl rfl
  have local_ : (if i.bounded || i.trusted then openTo o i .localTcp "tcp" o.ports.localTcp ++
      openTo o i .localUdp "udp" o.ports.localUdp else []).map (·.purpose) = _ :=
    map_purpose_tier rfl rfl
  have public_ : (if true then openTo o i .publicTcp "tcp" o.ports.publicTcp ++
      openTo o i .publicUdp "udp" o.ports.publicUdp else []).map (·.purpose) = _ :=
    map_purpose_tier rfl rfl
  rw [if_pos rfl] at public_
  rw [openPortsOf, List.append_assoc, List.map_append, List.map_append, trusted, local_, public_,
    ← List.filter_append, ← List.filter_append]
  rfl

theorem apart_openPorts (h : r.Indexed) (o : Options) : (openPorts r o).Pairwise Apart := by
  refine apart_flatMap h (List.Sublist.refl _) (serves_openPortsOf o) ?_
  intro i
  have distinct : ((openPortsOf o i).map (·.purpose)).Nodup := by
    rw [map_purpose_openPortsOf]
    exact List.filter_sublist.nodup (by decide)
  rw [List.Nodup, List.pairwise_map] at distinct
  exact distinct.imp Or.inl

/-! ### Set 30: default deny -/

theorem conforms_defaultDeny (o : Options) : ∀ d ∈ defaultDeny r o, Conforms 30 d :=
  conforms_of_accords rfl

theorem apart_defaultDeny (o : Options) : (defaultDeny r o).Pairwise Apart := by
  simp [defaultDeny, Apart]

/-! ### The whole policy -/

def groups (r : Registry) (o : Options) : List (Int × List Draft) :=
  [(0, baseline r o), (1, routing o), (2, state o), (3, macServices r o),
    (4, windowsServices r o), (5, trusted r o), (6, bootstrap r o), (7, inboundFilter r o),
    (10, shaping r), (11, outbound r o), (20, openPorts r o), (30, defaultDeny r o)]

theorem drafts_eq_groups (r : Registry) (o : Options) :
    drafts r o = (groups r o).flatMap (·.2) := by
  simp [drafts, groups]

theorem conforms_groups (h : r.Indexed) (o : Options) :
    ∀ g ∈ groups r o, ∀ d ∈ g.2, Conforms g.1 d := by
  simp only [groups, List.forall_mem_cons]
  exact ⟨conforms_baseline o, conforms_routing o, conforms_state o, conforms_macServices h o,
    conforms_windowsServices h o, conforms_trusted h o, conforms_bootstrap o,
    conforms_inboundFilter h o, conforms_shaping h, conforms_outbound o, conforms_openPorts h o,
    conforms_defaultDeny o, by simp⟩

theorem apart_groups (h : r.Indexed) (o : Options) :
    ∀ g ∈ groups r o, g.2.Pairwise Apart := by
  simp only [groups, List.forall_mem_cons]
  exact ⟨apart_baseline o, apart_routing o, apart_state o, apart_macServices h o,
    apart_windowsServices h o, apart_trusted h o, apart_bootstrap o, apart_inboundFilter h o,
    apart_shaping h, apart_outbound o, apart_openPorts h o, apart_defaultDeny o, by simp⟩

theorem mem_baseline_of_set (h : r.Indexed) {o : Options} {d : Draft} (hd : d ∈ drafts r o)
    (set : d.purpose.band.set = 0) : d ∈ baseline r o := by
  rw [drafts_eq_groups] at hd
  obtain ⟨g, hg, hd⟩ := List.mem_flatMap.mp hd
  have first : ∀ g ∈ groups r o, g.1 = 0 → g.2 = baseline r o := by simp [groups]
  have same := (conforms_groups h o g hg d hd).set_eq
  rwa [first g hg (same.symm.trans set)] at hd

theorem conforms_drafts (h : r.Indexed) (o : Options) :
    ∀ d ∈ drafts r o, Conforms d.purpose.band.set d := by
  intro d hd
  rw [drafts_eq_groups] at hd
  obtain ⟨g, hg, hd⟩ := List.mem_flatMap.mp hd
  have settled := conforms_groups h o g hg d hd
  rwa [settled.set_eq]

theorem apart_drafts (h : r.Indexed) (o : Options) : (drafts r o).Pairwise Apart := by
  rw [drafts_eq_groups, List.pairwise_flatMap]
  refine ⟨apart_groups h o, ?_⟩
  have sets : (groups r o).Pairwise fun a b => a.1 ≠ b.1 := by simp [groups]
  refine sets.imp_of_mem ?_
  intro a b ha hb different d hd e he
  left
  intro same
  apply different
  rw [← (conforms_groups h o a ha d hd).set_eq, ← (conforms_groups h o b hb e he).set_eq, same]

end Firewall.Ruleset

import Firewall.Proofs.Queuing

/-!
What a packet is charged to. Each interface with rates has rules of its own for its pipes and
queues, which ask for its name alone: a packet is charged once for every interface with rates that
bears the name, so that no packet is charged twice as long as each name has rates once.
-/

namespace Firewall

namespace Packet

/-- What the shaping rules for a packet of its direction do with it. -/
def lane (p : Packet) : Action := if p.inbound then .pipe else .queue

/-- Connection attempts that arrive are not shaped, nor are the protocols besides the two. -/
def metered (p : Packet) : Bool :=
  p.proto = "udp" || p.isTcp && (!p.inbound || !p.flags.contains "syn")

/-- An answer of a web server that arrives on an interface. -/
def reply (name : String) : Packet :=
  { proto := "tcp", src := 3221225985, dst := 3325256711, srcPort := some 443,
    dstPort := some 40000, inbound := true, arrival := some name, flags := ["ack"] }

end Packet

/-- The pipe or the queue of an interface that a packet is charged to. -/
def InterfaceShaping.laneFor (shaping : InterfaceShaping) (p : Packet) : Int :=
  if p.inbound then shaping.inbound.id else (shaping.queueFor p).id

/-- The rules that charge a packet to pipes if it arrives, and to queues if it leaves. -/
def Program.charges (p : Program) (s : Station) (packet : Packet) : List Rule :=
  p.rules.filter fun rule =>
    rule.set = 10 && (rule.action = packet.lane && packet.meets s rule.what)

/-- The registry of a host with rates for each of two networks behind one interface. -/
def Registry.doubled : Registry :=
  { interfaces :=
      [ { name := "en0", network := .block { address := 3232235520, length := 16 },
          rates := some { inbound := "504", outbound := "120" }, index := 0 },
        { name := "en0", rates := some { inbound := "504", outbound := "120" }, index := 1 } ]
    frozen := true }

theorem Registry.declared_doubled :
    (Registry.ofTokens ["en0\x7b504,120\x7d:192.168.0.0/16", "en0\x7b504,120\x7d"]).2 =
      .ok doubled := by rfl

namespace Shaping

variable {s : Station} {p : Packet} {shaping : InterfaceShaping} {name : String}

theorem via_rules (shaping : InterfaceShaping) :
    ∀ d ∈ rules shaping, d.what.via = [shaping.name] := by
  simp [rules]

theorem not_meets_of_other (plain : s.Plain) (on : p.interface = some name)
    (other : shaping.name ≠ name) : ∀ d ∈ rules shaping, p.meets s d.what = false := by
  intro d hd
  simp [Packet.meets, via_rules shaping d hd, on, plain.bound_eq, other]

theorem meets_inTcp (plain : s.Plain) (on : p.interface = some shaping.name)
    (inbound : p.inbound = true) :
    p.meets s { proto := "tcp", direction := .inbound, via := [shaping.name],
                tcpFlags := ["!syn"] } = (p.isTcp && !p.flags.contains "syn") := by
  have tcp : ("tcp" = p.proto) = (p.isTcp = true) := by simp [Packet.isTcp, eq_comm]
  simp [Packet.meets, Station.endpoint, Packet.directed, Packet.asked, Packet.flagged, inbound, on,
    plain.bound_eq, tcp]

theorem meets_inUdp (plain : s.Plain) (on : p.interface = some shaping.name)
    (inbound : p.inbound = true) :
    p.meets s { proto := "udp", direction := .inbound, via := [shaping.name] } =
      decide (p.proto = "udp") := by
  simp [Packet.meets, Station.endpoint, Packet.directed, Packet.asked, inbound, on, plain.bound_eq,
    eq_comm]

theorem map_target_of_inbound (plain : s.Plain) (on : p.interface = some shaping.name)
    (inbound : p.inbound = true) :
    ((rules shaping).filter fun d => d.action = .pipe && p.meets s d.what).map (·.target) =
      if p.metered then [some (.id shaping.inbound.id)] else [] := by
  have one : p.isTcp = true → p.proto ≠ "udp" := by
    simp +contextual [Packet.isTcp]
  simp only [rules, List.filter_cons, meets_inTcp plain on inbound, meets_inUdp plain on inbound]
  cases tcp : p.isTcp <;> by_cases udp : p.proto = "udp" <;>
    cases syn : p.flags.contains "syn" <;> simp_all [Packet.metered]

theorem filter_queue (f : Draft → Bool) :
    ((rules shaping).filter fun d => d.action = .queue && f d) = (queueRules shaping).filter f := by
  have first : ∀ d ∈ (rules shaping).take 4, d.action ≠ .queue := by simp [rules]
  have behind (d : Draft) (hd : d ∈ queueRules shaping) : d.action = .queue :=
    (kind_of_queueRule hd).1
  rw [← List.take_append_drop 4 (rules shaping), List.filter_append, queueRules]
  rw [List.filter_eq_nil_iff.mpr fun d hd => by simp [first d hd], List.nil_append]
  exact List.filter_congr fun d hd => by simp [behind d hd]

theorem map_target_of_outbound (plain : s.Plain) (on : p.interface = some shaping.name)
    (outbound : p.inbound = false) :
    ((rules shaping).filter fun d => d.action = .queue && p.meets s d.what).map (·.target) =
      if p.metered then [some (.id (shaping.queueFor p).id)] else [] := by
  have leaves : p.Leaves s shaping.name := by
    refine ⟨outbound, ?_⟩
    rw [Packet.interface, outbound] at on
    simpa [plain.bound_eq] using congrArg (s.bound shaping.name) on
  rw [filter_queue]
  by_cases proto : p.proto = "tcp" ∨ p.proto = "udp"
  · rw [map_target_queueRules leaves proto, if_pos]
    rcases proto with same | same <;> simp [Packet.metered, Packet.isTcp, same, outbound]
  · rw [List.filter_eq_nil_iff.mpr, if_neg]
    · rfl
    · simpa [Packet.metered, Packet.isTcp, outbound, or_comm] using proto
    · intro d hd
      have asks := (kind_of_queueRule hd).2.2
      have other : d.what.proto ≠ p.proto := fun same => proto (by simpa [same] using asks)
      have all : d.what.proto ≠ "all" := fun same => absurd (same ▸ asks) (by decide)
      simp [Packet.meets, other, all]

/-- The rules of an interface charge a packet on it once, and no packet on another one. -/
theorem map_target_rules (plain : s.Plain) (on : p.interface = some name) :
    ((rules shaping).filter fun d => d.action = p.lane && p.meets s d.what).map (·.target) =
      if shaping.name = name && p.metered then [some (.id (shaping.laneFor p))] else [] := by
  by_cases here : shaping.name = name
  · subst here
    cases inbound : p.inbound with
    | true =>
        simpa [Packet.lane, InterfaceShaping.laneFor, inbound] using
          map_target_of_inbound plain on inbound
    | false =>
        simpa [Packet.lane, InterfaceShaping.laneFor, inbound] using
          map_target_of_outbound plain on inbound
  · have none := not_meets_of_other plain on here
    rw [List.filter_eq_nil_iff.mpr fun d hd => by simp [none d hd]]
    simp [here]

end Shaping

namespace Ruleset

variable {r : Registry} {o : Options}

/-- The drafts of the shaping set. -/
theorem filter_drafts_shaping (h : r.Indexed) :
    (drafts r o).filter (·.purpose.band.set = 10) = shaping r := by
  have each : ∀ g ∈ groups r o,
      g.2.filter (·.purpose.band.set = 10) = if g.1 = 10 then g.2 else [] := by
    intro g hg
    have set := fun d hd => (conforms_groups h o g hg d hd).set_eq
    split <;> rename_i same
    · exact List.filter_eq_self.mpr fun d hd => by simp [set d hd, same]
    · exact List.filter_eq_nil_iff.mpr fun d hd => by simp [set d hd, same]
  rw [drafts_eq_groups, List.filter_flatMap, List.flatMap_congr each]
  simp [groups]

end Ruleset

namespace Policy

variable {r : Registry} {s : Station} {packet : Packet} {name : String}

theorem flatMap_ite_singleton {α β : Type} (c : α → Bool) (f : α → β) (xs : List α) :
    xs.flatMap (fun x => if c x then [f x] else []) = (xs.filter c).map f := by
  induction xs with
  | nil => rfl
  | cons x rest ih => cases kept : c x <;> simp [kept, ih]

/-- A packet on an interface is charged to the lanes of the interfaces with rates that bear its
name. -/
theorem perm_charges (h : r.Indexed) (o : Options) (sysctls : List Sysctl) (plain : s.Plain)
    (on : packet.interface = some name) :
    (((assemble r sysctls (rules r o)).program.charges s packet).map (·.target)).Perm
      (((Shaping.plan r).filter fun shaping => shaping.name = name && packet.metered).map
        fun shaping => some (.id (shaping.laneFor packet))) := by
  have drafted : ((((Ruleset.drafts r o).map (Draft.settled o.stealth)).filter
      fun rule => rule.set = 10 && (rule.action = packet.lane && packet.meets s rule.what)).map
        (·.target)) =
      ((Ruleset.shaping r).filter fun d => d.action = packet.lane && packet.meets s d.what).map
        (·.target) := by
    simp only [← Ruleset.filter_drafts_shaping h (o := o), List.filter_filter, List.filter_map,
      List.map_map, Function.comp_def, Draft.settled_set, Draft.settled_action, Draft.settled_what,
      Draft.settled_target, Bool.and_comm]
  refine (((Numbering.sort_perm _).filter _).map _).trans (List.Perm.of_eq ?_)
  rw [drafted, Ruleset.shaping, List.filter_flatMap, List.map_flatMap]
  simp only [Shaping.map_target_rules plain on]
  exact flatMap_ite_singleton _ _ _

theorem map_name_plan (r : Registry) :
    (Shaping.plan r).map (·.name) = (r.interfaces.filter (·.shaped)).map (·.name) := by
  unfold Shaping.plan
  induction r.interfaces with
  | nil => rfl
  | cons i rest ih =>
      cases rates : i.rates <;> simp [rates, Interface.shaped, Shaping.allocate, ih]

/-- A packet on an interface is charged as often as its name has rates, if it is charged at all. -/
theorem length_charges (h : r.Indexed) (o : Options) (sysctls : List Sysctl) (plain : s.Plain)
    (on : packet.interface = some name) :
    ((assemble r sysctls (rules r o)).program.charges s packet).length =
      if packet.metered then ((r.interfaces.filter (·.shaped)).map (·.name)).count name else 0 := by
  have length := (perm_charges h o sysctls plain on).length_eq
  rw [List.length_map, List.length_map] at length
  rw [length, ← map_name_plan, List.count_eq_countP, List.countP_map, List.countP_eq_length_filter]
  cases packet.metered <;> simp [Function.comp_def, beq_eq_decide]

/-- A packet is charged once to every interface with rates that bears its name; no packet is
charged twice if and only if no name has rates twice. -/
theorem charges_once_iff {tokens : List String} (declared : (Registry.ofTokens tokens).2 = .ok r)
    (o : Options) (host debugging : Bool) :
    ∃ p, (compile r o host debugging).result = .ok p ∧
      (∀ (s : Station) (packet : Packet) (name : String), s.Plain → packet.interface = some name →
        ((p.program.charges s packet).map (·.target)).Perm
          ((p.shaping.filter fun shaping => shaping.name = name && packet.metered).map
            fun shaping => some (.id (shaping.laneFor packet)))) ∧
      ((∀ (s : Station) (packet : Packet) (name : String), s.Plain →
          packet.interface = some name → (p.program.charges s packet).length ≤ 1) ↔
        ((r.interfaces.filter (·.shaped)).map (·.name)).Nodup) := by
  have indexed := Registry.indexed_of_declared declared
  refine ⟨_, compile_eq_ok indexed o host debugging,
    fun s packet name plain on => perm_charges indexed o _ plain on, fun once => ?_,
    fun distinct s packet name plain on => ?_⟩
  · refine List.nodup_iff_count_le_one.mpr fun name => ?_
    have charged := once .plain (.reply name) name Station.plain_plain rfl
    rw [length_charges indexed o _ Station.plain_plain rfl] at charged
    simpa [Packet.metered, Packet.reply, Packet.isTcp] using charged
  · rw [length_charges indexed o _ plain on]
    split
    · exact List.nodup_iff_count_le_one.mp distinct name
    · exact Nat.zero_le 1

theorem charges_once_iff_home :
    ∃ p, (compile .home {} false false).result = .ok p ∧
      (∀ (s : Station) (packet : Packet) (name : String), s.Plain →
        packet.interface = some name → (p.program.charges s packet).length ≤ 1) ∧
      (p.program.charges .plain (.reply "en1")).map (·.target) = [some (.id 101)] := by
  obtain ⟨p, compiled, charged, once⟩ := charges_once_iff Registry.declared_home {} false false
  have known := compile_eq_ok (Registry.indexed_of_declared Registry.declared_home) {} false false
  rw [compiled, Except.ok.injEq] at known
  refine ⟨p, compiled, once.mpr (by decide), List.perm_singleton.mp ?_⟩
  have lanes := charged .plain (.reply "en1") "en1" Station.plain_plain rfl
  rw [known] at lanes ⊢
  exact lanes

/-- An answer that arrives on an interface with rates for each of its networks goes through the
inbound pipes of both. -/
theorem not_charges_once_doubled :
    (Registry.ofTokens ["en0\x7b504,120\x7d:192.168.0.0/16", "en0\x7b504,120\x7d"]).2 =
      .ok .doubled ∧
    ∃ p, (compile .doubled {} false false).result = .ok p ∧
      ((p.program.charges .plain (.reply "en0")).map (·.target)).Perm
        [some (.id 100), some (.id 101)] ∧
      ¬∀ (s : Station) (packet : Packet) (name : String), s.Plain →
        packet.interface = some name → (p.program.charges s packet).length ≤ 1 := by
  have indexed := Registry.indexed_of_declared Registry.declared_doubled
  have on : (Packet.reply "en0").interface = some "en0" := rfl
  have lanes := perm_charges indexed {} [] Station.plain_plain on
  refine ⟨Registry.declared_doubled, _, compile_eq_ok indexed {} false false, lanes, ?_⟩
  intro once
  have twice := lanes.length_eq
  rw [List.length_map] at twice
  have := twice ▸ once .plain (.reply "en0") "en0" Station.plain_plain rfl
  exact absurd this (by decide)

end Policy
end Firewall

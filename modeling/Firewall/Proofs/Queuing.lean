import Firewall.Proofs.Meaning
import Firewall.Proofs.Portions
import Firewall.Proofs.PublicPorts
import Firewall.Proofs.Retuning

/-!
The queues of an interface with rates. Its five queue rules divide the packets that leave by it
among three queues: constants of the rules and of their words fit together, so that every packet of
the two protocols matches one rule and no packet matches two.
-/

namespace Firewall

open Ipfw (Worded asks matchPart matchWords ruleWords)

/-- A packet that leaves by an interface. -/
structure Packet.Leaves (s : Station) (name : String) (p : Packet) : Prop where
  outbound : p.inbound = false
  exit : s.bound name p.exit = true

namespace Packet

/-- A segment that acknowledges and carries next to nothing. -/
def smallAck (p : Packet) : Bool := p.isTcp && p.flags.contains "ack" && p.length ≤ 80

/-- Shells, web and desktops, and over the other protocol name service and tunnels. -/
def interactive (p : Packet) : Bool :=
  p.dstPort.any fun port => if p.isTcp then port ∈ [22, 80, 443, 5900] else port ∈ [53, 1194]

end Packet

/-- The queue of an interface that a packet belongs to. -/
def InterfaceShaping.queueFor (shaping : InterfaceShaping) (p : Packet) : Queue :=
  if p.smallAck then shaping.high else if p.interactive then shaping.medium else shaping.low

/-- A segment of a conversation with a web server. -/
def Packet.request (length : Nat) : Packet :=
  { proto := "tcp", src := 3325256711, dst := 3221225985, srcPort := some 40000,
    dstPort := some 443, inbound := false, exit := some "en1", flags := ["ack"], length }

/-- The rules for the queues of the interface with an index. -/
def Program.queueRules (p : Program) (index : Int) : List Rule :=
  p.rules.filter fun rule =>
    rule.number ∈ [600 + index, 700 + index, 710 + index, 800 + index, 810 + index]

namespace Shaping

variable {s : Station} {p : Packet} {shaping : InterfaceShaping} {proto : String}
  {ports : List String}

theorem worded_rules (shaping : InterfaceShaping) : ∀ d ∈ rules shaping, Worded d.what := by
  simp only [rules, List.forall_mem_cons]
  refine ⟨?_, ?_, ?_, ?_, ?_, ?_, ?_, ?_, ?_, by simp⟩
  all_goals
    constructor
    all_goals
      dsimp only
      decide

theorem covers_mediumTcpPorts (n : Nat) :
    mediumTcpPorts.any (Ports.covers · n) = decide (n ∈ [22, 80, 443, 5900]) := by
  have each : mediumTcpPorts.any (Ports.covers · n) = (decide (22 = n) ||
      (decide (80 = n) || (decide (443 = n) || (decide (5900 = n) || false)))) := rfl
  rw [each]
  simp [eq_comm]

theorem covers_mediumUdpPorts (n : Nat) :
    mediumUdpPorts.any (Ports.covers · n) = decide (n ∈ [53, 1194]) := by
  have each : mediumUdpPorts.any (Ports.covers · n) =
    (decide (53 = n) || (decide (1194 = n) || false)) := rfl
  rw [each]
  simp [eq_comm]

/-- What a rule asks that looks at the destination port of a packet that leaves. -/
theorem meets_ports (leaves : p.Leaves s shaping.name) (listed : ports ≠ []) (negated long : Bool) :
    p.meets s { proto, dst := { ports, portsNegate := negated }, direction := .outbound,
                via := [shaping.name], notSmallAck := long } =
      ((proto = "all" || proto = p.proto)
        && ((p.dstPort.any fun n => ports.any (Ports.covers · n)) != negated)
        && (!long || p.isTcp && !p.flags.contains "ack" || 80 < p.length)) := by
  have filled : ports.isEmpty = false := by simpa using listed
  simp [Packet.meets, Station.endpoint, Packet.directed, Packet.asked, Packet.interface,
    leaves.outbound, leaves.exit, filled]

theorem meets_highAck (leaves : p.Leaves s shaping.name) :
    p.meets s { proto := "tcp", direction := .outbound, via := [shaping.name],
                tcpFlags := ["ack"], ipLength := some smallAckLength } = p.smallAck := by
  have short : Ports.covers smallAckLength p.length = decide (p.length ≤ 80) := by
    change (decide (0 ≤ p.length) && decide (p.length ≤ 80)) = _
    simp
  have tcp : ("tcp" = p.proto) = (p.isTcp = true) := by
    simp [Packet.isTcp, eq_comm]
  have said : smallAckLength.isEmpty = false := by decide
  simp [Packet.meets, Station.endpoint, Packet.directed, Packet.asked, Packet.interface,
    leaves.outbound, leaves.exit, short, Packet.smallAck, Packet.flagged, said, tcp]

/-- The rules for the queues of an interface: those behind the rules for its inbound pipe. -/
def queueRules (shaping : InterfaceShaping) : List Draft := (rules shaping).drop 4

theorem kind_of_queueRule {d : Draft} (hd : d ∈ queueRules shaping) :
    d.action = .queue ∧ (∃ id, d.target = some (.id id)) ∧ d.what.proto ∈ ["tcp", "udp"] := by
  revert d
  simp [queueRules, rules]

theorem map_meets_queueRules (leaves : p.Leaves s shaping.name)
    (proto : p.proto = "tcp" ∨ p.proto = "udp") :
    (queueRules shaping).map (fun d => p.meets s d.what) =
      [p.smallAck, p.isTcp && (p.interactive && !p.smallAck), !p.isTcp && p.interactive,
        p.isTcp && (!p.interactive && !p.smallAck), !p.isTcp && !p.interactive] := by
  have tcp : decide ("tcp" = p.proto) = p.isTcp := decide_eq_decide.mpr eq_comm
  have udp : decide ("udp" = p.proto) = !p.isTcp := by
    rcases proto with same | same <;> simp [Packet.isTcp, same]
  have long : decide (80 < p.length) = !decide (p.length ≤ 80) := by simp [← Nat.not_le, -not_le]
  have tcpPorts : mediumTcpPorts ≠ [] := by decide
  have udpPorts : mediumUdpPorts ≠ [] := by decide
  simp only [queueRules, rules, List.drop_succ_cons, List.drop_zero, List.map_cons, List.map_nil,
    Endpoint.anyAt, Endpoint.anyNotAt, meets_highAck leaves, meets_ports leaves tcpPorts,
    meets_ports leaves udpPorts, covers_mediumTcpPorts, covers_mediumUdpPorts]
  cases isTcp : p.isTcp <;> simp [tcp, udp, long, isTcp, Packet.interactive, Packet.smallAck]

theorem map_filter_eq {α β : Type} (f : α → Bool) (g : α → β) (xs : List α) :
    (xs.filter f).map g =
      ((xs.map f).zip (xs.map g)).filterMap fun (kept, y) => if kept then some y else none := by
  induction xs with
  | nil => rfl
  | cons x rest ih => cases kept : f x <;> simp [kept, ih]

/-- A packet that leaves over one of the two protocols matches one queue rule, that of its queue. -/
theorem map_target_queueRules (leaves : p.Leaves s shaping.name)
    (proto : p.proto = "tcp" ∨ p.proto = "udp") :
    ((queueRules shaping).filter fun d => p.meets s d.what).map (·.target) =
      [some (.id (shaping.queueFor p).id)] := by
  have targets : (queueRules shaping).map (·.target) =
      [shaping.high, shaping.medium, shaping.medium, shaping.low, shaping.low].map
        fun queue => some (.id queue.id) := rfl
  have small : p.smallAck = true → p.isTcp = true := by simp +contextual [Packet.smallAck]
  rw [map_filter_eq, map_meets_queueRules leaves proto, targets]
  cases ack : p.smallAck <;> cases tcp : p.isTcp <;> cases ports : p.interactive <;>
    simp_all [InterfaceShaping.queueFor]

end Shaping

namespace Ruleset

variable {r : Registry} {o : Options} {i : Interface} {rates : Rates} {d : Draft}

def queuePurposes : List Purpose :=
  [.shapeHighAck, .shapeMediumTcp, .shapeMediumUdp, .shapeLowTcp, .shapeLowUdp]

theorem mem_shapingOf_of_portion :
    ∀ d ∈ portion o i, d.purpose.band.set = 10 → d ∈ shapingOf i := by
  have elsewhere {set : Int} {ds : List Draft} (serves : ∀ d ∈ ds, d.Serves i set)
      (other : set ≠ 10) : ∀ d ∈ ds, d.purpose.band.set = 10 → d ∈ shapingOf i :=
    fun d hd shapes => absurd ((serves d hd).set_eq.symm.trans shapes) other
  exact forall_mem_portion (elsewhere (serves_macRules o i) (by decide))
    (elsewhere (serves_windowsRules o i) (by decide))
    (fun shapes => absurd shapes (by simp [trustedIcmp, Purpose.band]))
    (fun shapes => absurd shapes (by simp [knownNetwork, Purpose.band])) (fun d hd _ => hd)
    (elsewhere (serves_openPortsOf o i) (by decide))

theorem shapingOf_of_rates (rated : i.rates = some rates) :
    shapingOf i = Shaping.rules (Shaping.allocate i rates) := by
  simp [shapingOf, rated]

theorem mem_queueRules_iff {shaping : InterfaceShaping} (hd : d ∈ Shaping.rules shaping) :
    d ∈ Shaping.queueRules shaping ↔ d.purpose ∈ queuePurposes := by
  have before : ∀ d ∈ (Shaping.rules shaping).take 4, d.purpose ∉ queuePurposes := by
    simp [Shaping.rules, queuePurposes]
  have behind : ∀ d ∈ Shaping.queueRules shaping, d.purpose ∈ queuePurposes := by
    simp [Shaping.queueRules, Shaping.rules, queuePurposes]
  rw [← List.take_append_drop 4 (Shaping.rules shaping), List.mem_append] at hd
  exact ⟨behind d, fun queues => hd.resolve_left fun first => before d first queues⟩

end Ruleset

namespace Policy

variable {r : Registry} {i : Interface} {rates : Rates}

theorem mem_queueNumbers_iff {number index : Int} :
    number ∈ [600 + index, 700 + index, 710 + index, 800 + index, 810 + index] ↔
      ∃ p ∈ Ruleset.queuePurposes, p.band.base + index = number := by
  simp [Ruleset.queuePurposes, Purpose.band, eq_comm]

/-- The rules for the queues of an interface are those that were drafted for it. -/
theorem queueRules_assemble (h : r.Indexed) (hi : i ∈ r.interfaces) (rated : i.rates = some rates)
    (o : Options) (sysctls : List Sysctl) :
    (assemble r sysctls (rules r o)).program.queueRules i.index =
      (Shaping.queueRules (Shaping.allocate i rates)).map (Draft.settled o.stealth) := by
  have each : ∀ p ∈ Ruleset.queuePurposes, p.band.perInterface = true ∧ p.band.set = 10 := by decide
  have shapingOf := Ruleset.shapingOf_of_rates rated
  refine Numbering.Ascending.ext ((ascending_rules h o).filter _) ?_ fun rule => ?_
  · simp [Numbering.Ascending, Shaping.queueRules, Shaping.rules, Draft.numbered, Purpose.band]
  · simp only [Program.queueRules, assemble, List.mem_filter, mem_rules, List.mem_map,
      decide_eq_true_eq, mem_queueNumbers_iff]
    constructor
    · rintro ⟨⟨d, hd, rfl⟩, p, queues, number⟩
      rw [Draft.settled_number] at number
      obtain ⟨rfl, index⟩ := (fits_drafts h o d hd).eq_of_number
        (ruleNumber_eq_ok_iff.mpr ⟨(each p queues).1, h.bounds hi, number⟩)
      obtain ⟨j, hj, mem⟩ := (Ruleset.mem_drafts_iff (by simp [index])).mp hd
      have place := (Ruleset.serves_portion d mem).index_eq
      rw [index, Option.some.injEq] at place
      obtain rfl := h.eq_of_index hi hj place
      have shaped := Ruleset.mem_shapingOf_of_portion d mem (each _ queues).2
      rw [shapingOf] at shaped
      exact ⟨d, (Ruleset.mem_queueRules_iff shaped).mpr queues, rfl⟩
    · rintro ⟨d, hd, rfl⟩
      have shaped : d ∈ Shaping.rules (Shaping.allocate i rates) := List.mem_of_mem_drop hd
      have queues := (Ruleset.mem_queueRules_iff shaped).mp hd
      rw [← shapingOf] at shaped
      have index := (Ruleset.serves_shapingOf i d shaped).index_eq
      have mem : d ∈ Ruleset.drafts r o :=
        (Ruleset.mem_drafts_iff (by simp [index])).mpr ⟨i, hi, by simp [Ruleset.portion, shaped]⟩
      exact ⟨⟨d, mem, rfl⟩, d.purpose, queues, by simp [Draft.numbered, index]⟩

/-- The words of a rule for a queue ask what its draft asks. -/
theorem asks_queueRule {s : Station} {packet : Packet} (short : packet.length ≤ 65535)
    (stealth : Bool) {shaping : InterfaceShaping} {d : Draft}
    (hd : d ∈ Shaping.queueRules shaping) :
    asks s packet (matchPart (ruleWords (d.settled stealth))) = packet.meets s d.what := by
  obtain ⟨queues, ⟨id, target⟩, proto⟩ := Shaping.kind_of_queueRule hd
  have worded := Shaping.worded_rules shaping d (List.mem_of_mem_drop hd)
  rw [Ipfw.matchPart_ruleWords, Draft.settled_what, Ipfw.asks_matchWords worded short]
  · simp [queues]
  · simp only [Ipfw.actionWords, Draft.settled_action, queues, Draft.settled_target, target,
      Ipfw.targetWord, Target.text, List.mem_cons, not_or]
    exact ⟨by decide, (Ipfw.intCast_ne_from id).symm, List.not_mem_nil⟩
  · rw [Draft.settled_what]
    rintro same
    rw [same] at proto
    exact absurd proto (by decide)

/-- A packet that leaves by an interface with rates over TCP or UDP matches one of the five rules
for its queues, read from their words, and that rule sends it to the queue it belongs to. -/
theorem map_target_of_leaves {tokens : List String}
    (declared : (Registry.ofTokens tokens).2 = .ok r) (o : Options) (host debugging : Bool)
    (hi : i ∈ r.interfaces) (shaped : i.shaped = true) :
    ∃ p shaping, (compile r o host debugging).result = .ok p ∧
      Shaping.forIndex? p.shaping i.index = some shaping ∧
      (p.program.queueRules i.index).length = 5 ∧
      (∀ rule ∈ p.program.queueRules i.index, rule.action = .queue) ∧
      ∀ (s : Station) (packet : Packet), packet.Leaves s i.name →
        packet.proto = "tcp" ∨ packet.proto = "udp" → packet.length ≤ 65535 →
        ((p.program.queueRules i.index).filter fun rule =>
          asks s packet (matchPart (ruleWords rule))).map (·.target) =
            [some (.id (shaping.queueFor packet).id)] := by
  have indexed := Registry.indexed_of_declared declared
  obtain ⟨rates, rated⟩ := Option.isSome_iff_exists.mp shaped
  refine ⟨_, _, compile_eq_ok indexed o host debugging, forIndex?_plan indexed hi rated, ?_⟩
  rw [queueRules_assemble indexed hi rated]
  refine ⟨rfl, ?_, fun s packet leaves proto short => ?_⟩
  · rw [List.forall_mem_map]
    exact fun d hd => (Draft.settled_action o.stealth d).trans (Shaping.kind_of_queueRule hd).1
  · rw [List.filter_map, List.map_map]
    have same : (Shaping.queueRules (Shaping.allocate i rates)).filter
        ((fun rule => asks s packet (matchPart (ruleWords rule))) ∘ Draft.settled o.stealth) =
        (Shaping.queueRules (Shaping.allocate i rates)).filter fun d => packet.meets s d.what :=
      List.filter_congr fun d hd => asks_queueRule short o.stealth hd
    have target : (fun rule : Rule => rule.target) ∘ Draft.settled o.stealth = fun d => d.target :=
      funext fun d => Draft.settled_target o.stealth d
    rw [same, target]
    exact Shaping.map_target_queueRules leaves proto

/-- A segment to a web server leaves by the medium queue, and an acknowledgement by the high one. -/
theorem map_target_of_leaves_home :
    ∃ p, (compile .home {} false false).result = .ok p ∧
      ∀ length ∈ [((40 : Nat), (101 : Int)), (1500, 201)],
        ((p.program.queueRules 1).filter fun rule =>
          asks .plain (.request length.1) (matchPart (ruleWords rule))).map (·.target) =
            [some (.id length.2)] := by
  obtain ⟨p, shaping, compiled, planned, -, -, queued⟩ := map_target_of_leaves
    Registry.declared_home {} false false (List.mem_cons_of_mem _ List.mem_cons_self) rfl
  have known := compile_eq_ok (Registry.indexed_of_declared Registry.declared_home) {} false false
  rw [compiled, Except.ok.injEq] at known
  rw [known] at planned
  cases planned
  refine ⟨p, compiled, fun length listed => ?_⟩
  obtain ⟨short, queue⟩ :=
    (by decide : ∀ length ∈ [((40 : Nat), (101 : Int)), (1500, 201)], length.1 ≤ 65535 ∧
      ((Shaping.allocate { name := "en1", index := 1 } ⟨"504", "120"⟩).queueFor
        (.request length.1)).id = length.2) length listed
  rw [queued .plain (.request length.1) ⟨rfl, rfl⟩ (.inl rfl) short]
  exact congrArg (fun id => [some (Target.id id)]) queue

end Policy
end Firewall

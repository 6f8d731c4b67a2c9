import Firewall.Proofs.Banding
import Firewall.Proofs.Canonical
import Firewall.Proofs.PublicPorts
import Firewall.Proofs.Reordering
import Firewall.Proofs.Scopes
import Firewall.Proofs.Tracing

/-!
Packets with a forged source. On an interface that faces the public network no packet has a private
source, unless it comes from a network that the interface is known to have. A packet that has one
all the same and gets as far as the rules for known networks is dropped by the rules behind them:
those that let known networks skip the others pass it over.
-/

namespace Firewall

open Ruleset (forgedRule forgedSources publicNames)

/-- 10/8, 172.16/12, 192.168/16 and 127/8. -/
def Block.inner : List Block :=
  [ { address := 167772160, length := 8 }, { address := 2886729728, length := 12 },
    { address := 3232235520, length := 16 }, { address := 2130706432, length := 8 } ]

theorem Block.canonical_inner {b : Block} (hb : b ∈ inner) : b.Canonical := by
  obtain ⟨small, short, aligned⟩ := (by decide : ∀ b ∈ inner, b.address < 4294967296 ∧
    b.length ≤ 32 ∧ b.address / size b.length * size b.length = b.address) b hb
  exact ⟨small, short, aligned⟩

/-- A packet that arrives on an interface with an inner source which is in none of the networks that
the interface is declared to have. -/
structure Packet.Forged (r : Registry) (name : String) (p : Packet) : Prop where
  inbound : p.inbound = true
  arrival : p.arrival = some name
  inner : ∃ b ∈ Block.inner, b.contains p.src = true
  unknown : ∀ i ∈ r.interfaces, i.name = name → ∀ b, i.network = .block b →
    b.contains p.src = false

/-- The registry of a host with a network that it knows and others behind one interface. -/
def Registry.split : Registry :=
  { interfaces :=
      [ { name := "en0", network := .block { address := 3232235520, length := 16 }, index := 0 },
        { name := "en0", index := 1 } ]
    frozen := true }

theorem Registry.declared_split :
    (Registry.ofTokens ["en0:192.168.0.0/16", "en0"]).2 = .ok split := by rfl

/-- A connection attempt from 10.0.0.1. -/
def Packet.stray : Packet := { Packet.syn 22 with src := 167772161 }

theorem Packet.forged_stray : stray.Forged .split "en0" where
  inbound := rfl
  arrival := rfl
  inner := by decide
  unknown := by simp [Registry.split, stray, Block.contains, Block.size]

/-- The numbers from the first rule for a known network to the last one against forged sources are
those of these rules. -/
theorem Purpose.of_between (p : Purpose) (first : 7200 ≤ p.band.last) (last : p.band.base ≤ 7400) :
    p = .knownNetwork ∨ p.effect = .drop ∧ 7300 ≤ p.band.base :=
  (by decide : ∀ p ∈ all, 7200 ≤ p.band.last → p.band.base ≤ 7400 →
    p = .knownNetwork ∨ p.effect = .drop ∧ 7300 ≤ p.band.base) p p.mem_all first last

namespace Ruleset

variable {r : Registry} {o : Options} {d : Draft} {name : String}

theorem exists_forgedSource {b : Block} (hb : b ∈ Block.inner) :
    ∃ entry ∈ forgedSources, entry.2 = b.text ∧ entry.1.band.set = 7 ∧
      7200 ≤ entry.1.band.base ∧ entry.1.band.base ≤ 7400 :=
  (by decide +kernel : ∀ b ∈ Block.inner, ∃ entry ∈ forgedSources, entry.2 = b.text ∧
    entry.1.band.set = 7 ∧ 7200 ≤ entry.1.band.base ∧ entry.1.band.base ≤ 7400) b hb

theorem mem_publicNames (unbounded : ∃ i ∈ r.interfaces, i.name = name ∧ i.bounded = false) :
    name ∈ publicNames r := by
  obtain ⟨i, hi, rfl, facing⟩ := unbounded
  refine mem_firstOccurrences.mpr (List.mem_map.mpr ⟨i, List.mem_filter.mpr ⟨hi, ?_⟩, rfl⟩)
  simp [facing]

end Ruleset

namespace Packet.Forged

variable {s : Station} {r : Registry} {o : Options} {p : Packet} {name : String} {d : Draft}

/-- The rule against its source matches a forged packet. -/
theorem exists_forgedRule (forged : p.Forged r name) (plain : s.Plain)
    (unbounded : ∃ i ∈ r.interfaces, i.name = name ∧ i.bounded = false) (o : Options) :
    ∃ d ∈ Ruleset.drafts r o, p.meets s d.what = true ∧ d.purpose.band.set = 7 ∧
      7200 ≤ d.numbered.number ∧ d.numbered.number ≤ 7400 := by
  obtain ⟨b, hb, inside⟩ := forged.inner
  obtain ⟨entry, listed, word, set, first, last⟩ := Ruleset.exists_forgedSource hb
  have facing := Ruleset.mem_publicNames unbounded
  have mem : forgedRule (publicNames r) entry ∈ Ruleset.forged (publicNames r) :=
    Ruleset.mem_forged_iff.mpr ⟨List.ne_nil_of_mem facing, entry, listed, rfl⟩
  have number : (forgedRule (publicNames r) entry).numbered.number = entry.1.band.base :=
    Int.add_zero _
  refine ⟨_, Ruleset.mem_drafts_iff_scope.mpr (.inr (.inl mem)), ?_, set, number ▸ first,
    number ▸ last⟩
  have source : s.reads entry.2 p.src = true := by
    rw [word, s.reads_text (Block.canonical_inner hb), inside]
  have via : (publicNames r).any (s.bound · p.interface) = true := by
    refine List.any_eq_true.mpr ⟨name, facing, ?_⟩
    simp [interface, forged.inbound, forged.arrival, plain.bound_eq]
  simp [forgedRule, meets, Station.endpoint, Ruleset.one, source, directed, forged.inbound, via,
    asked]

/-- The rule for a known network does not match a forged packet. -/
theorem not_meets_knownNetwork {tokens : List String}
    (declared : (Registry.ofTokens tokens).2 = .ok r) (forged : p.Forged r name) (plain : s.Plain)
    (hd : d ∈ Ruleset.drafts r o) (purpose : d.purpose = .knownNetwork) :
    p.meets s d.what = false := by
  have indexed := Registry.indexed_of_declared declared
  have one : d.index ≠ none := by
    intro none_
    have fits := (Ruleset.conforms_drafts indexed o d hd).fits
    simp [Draft.Fits, none_, purpose, Purpose.band] at fits
  obtain ⟨i, hi, mem⟩ := (Ruleset.mem_drafts_iff one).mp hd
  have via := Ruleset.via_portion d mem
  have src := Ruleset.src_portion d mem (by simp [purpose, Purpose.band])
  have bounded := Ruleset.gate_portion mem
  rw [purpose] at bounded
  by_cases here : i.name = name
  · cases network : i.network with
    | any => simp [Purpose.gate, Interface.bounded, network, Network.bounded] at bounded
    | block b =>
        refine not_meets_of_word (src.trans (congrArg Endpoint.network network)) ?_
        exact (s.reads_text (Registry.canonical_of_declared declared hi network) p.src).trans
          (forged.unknown i hi here b network)
  · simp [meets, via, interface, forged.inbound, forged.arrival, plain.bound_eq, here]

end Packet.Forged

namespace Evaluation

variable {tokens : List String} {r : Registry} {o : Options} {s : Station} {packet : Packet}
  {name : String}

theorem exists_drop_of_forged (declared : (Registry.ofTokens tokens).2 = .ok r)
    (unbounded : ∃ i ∈ r.interfaces, i.name = name ∧ i.bounded = false) (plain : s.Plain)
    (forged : packet.Forged r name) {on : Int → Bool} (always : on 7 = true)
    (reaches : Reaches 7200
      (course (packet.meets s) none ((Policy.rules r o).filter fun rule => on rule.set))) :
    ∃ rule ∈ course (packet.meets s) none ((Policy.rules r o).filter fun rule => on rule.set),
      rule.effect = .drop ∧ 7300 ≤ rule.number ∧ rule.number ≤ 7400 := by
  have indexed := Registry.indexed_of_declared declared
  obtain ⟨d, hd, matched, set, first, last⟩ := forged.exists_forgedRule plain unbounded o
  have mem : d.settled o.stealth ∈ (Policy.rules r o).filter fun rule => on rule.set :=
    List.mem_filter.mpr ⟨Policy.mem_rules.mpr ⟨d, hd, rfl⟩, by simp [set, always]⟩
  obtain ⟨rule, taken, behind, before⟩ := exists_mem_course_of_reaches
    ((Policy.ascending_rules indexed o).filter _) (within_none 7200) reaches mem
    (by simpa using first) (by simpa using matched)
  rw [Draft.settled_number] at before
  obtain ⟨listed, met⟩ := of_mem_course taken
  obtain ⟨e, he, rfl⟩ := Policy.mem_rules.mp (List.mem_filter.mp listed).1
  have bears := Policy.bears_settled indexed he
  have lower := bears.base_le
  have upper := bears.le_last
  rcases e.purpose.of_between (by omega) (by omega) with known | ⟨drops, later⟩
  · rw [Draft.settled_what, forged.not_meets_knownNetwork declared plain he known] at met
    cases met
  · exact ⟨_, taken, bears.effect_eq.trans drops, by omega, by omega⟩

/-- A packet with a forged source that reaches the rules for known networks is dropped by a rule
against forged sources, so that no rule behind them lets it in. -/
theorem dropped_of_forged (declared : (Registry.ofTokens tokens).2 = .ok r) (o : Options)
    (host debugging : Bool)
    (unbounded : ∃ i ∈ r.interfaces, i.name = name ∧ i.bounded = false) :
    ∃ p, (Policy.compile r o host debugging).result = .ok p ∧
      ∀ (s : Station) (packet : Packet), s.Plain → packet.Forged r name →
        Reaches 7200 (programCourse (packet.meets s) p.program) →
        (∃ rule, (programCourse (packet.meets s) p.program).getLast? = some rule ∧
          rule.effect = .drop ∧ 7300 ≤ rule.number ∧ rule.number ≤ 7400) ∧
        (∀ rule ∈ programCourse (packet.meets s) p.program, rule.effect ≠ .accept) ∧
        programAccepts (packet.meets s) p.program = false := by
  have indexed := Registry.indexed_of_declared declared
  refine ⟨_, Policy.compile_eq_ok indexed o host debugging, ?_⟩
  intro s packet plain forged reaches
  have always : switchedOn (Policy.assemble r (if host then Host.sysctls o else [])
      (Policy.rules r o)).program.setStates 7 = true := by
    simp [Policy.assemble, switchedOn, toggleableSets]
  rw [programAccepts_eq_all]
  simp only [programCourse, Policy.assemble,
    (Policy.ascending_rules indexed o).sort_filter] at reaches always ⊢
  obtain ⟨rule, taken, drops, bounds⟩ :=
    exists_drop_of_forged declared unbounded plain forged always reaches
  have ends := getLast?_course taken (by simp [drops, decision])
  refine ⟨⟨rule, ends, drops, bounds⟩, ?_, ?_⟩
  · intro other met accepts
    have same := getLast?_course met (by simp [accepts, decision])
    rw [ends, Option.some.injEq] at same
    rw [same, accepts] at drops
    cases drops
  · rw [List.all_eq_false]
    exact ⟨rule, taken, by simp [drops]⟩

/-- The interface faces a known network and the public one, and the packet comes from neither. -/
theorem dropped_of_forged_split :
    (Registry.ofTokens ["en0:192.168.0.0/16", "en0"]).2 = .ok .split ∧
    ∃ p, (Policy.compile .split { ports := { publicTcp := ["22"] } } false false).result = .ok p ∧
      Reaches 7200 (programCourse (Packet.stray.meets .plain) p.program) ∧
      (∃ rule ∈ p.program.rules, rule.set = 20 ∧ Packet.stray.meets .plain rule.what = true) ∧
      programAccepts (Packet.stray.meets .plain) p.program = false := by
  have indexed := Registry.indexed_of_declared Registry.declared_split
  have facing : ∃ i ∈ Registry.split.interfaces, i.name = "en0" ∧ i.bounded = false := by decide
  obtain ⟨p, compiled, dropped⟩ := dropped_of_forged Registry.declared_split
    { ports := { publicTcp := ["22"] } } false false facing
  have known := Policy.compile_eq_ok indexed { ports := { publicTcp := ["22"] } } false false
  rw [compiled, Except.ok.injEq] at known
  have drafted : ∀ rule ∈ p.program.rules, ∃ d ∈ Ruleset.drafts .split
      { ports := { publicTcp := ["22"] } }, d.settled false = rule := by
    rw [known]
    exact fun rule => Policy.mem_rules.mp
  have reaches : Reaches 7200 (programCourse (Packet.stray.meets .plain) p.program) := by
    intro rule taken early
    obtain ⟨mem, met⟩ := of_mem_course taken
    obtain ⟨d, hd, rfl⟩ := drafted rule
      (List.mem_filter.mp ((Numbering.sort_perm _).mem_iff.mp mem)).1
    simp only [Draft.settled_number, Draft.settled_what, Draft.settled_effect] at early met ⊢
    exact (by decide +kernel : ∀ d ∈ Ruleset.drafts .split { ports := { publicTcp := ["22"] } },
      d.numbered.number < 7200 → Packet.stray.meets .plain d.what = true →
        d.numbered.effect.letsOn 7200 = true) d hd early met
  refine ⟨Registry.declared_split, p, compiled, reaches, ?_, ?_⟩
  · obtain ⟨d, hd, set, met⟩ := (by decide +kernel :
      ∃ d ∈ Ruleset.drafts .split { ports := { publicTcp := ["22"] } },
        d.purpose.band.set = 20 ∧ Packet.stray.meets .plain d.what = true)
    refine ⟨d.settled false, ?_, by simpa using set, by simpa using met⟩
    rw [known]
    exact Policy.mem_rules.mpr ⟨d, hd, rfl⟩
  · exact (dropped .plain .stray Station.plain_plain Packet.forged_stray reaches).2.2

end Evaluation
end Firewall

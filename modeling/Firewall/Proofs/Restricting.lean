import Mathlib.Algebra.Group.Nat.Defs
import Firewall.Proofs.Forgery

/-!
Networks without a restriction. A network restricts an interface if there is an address outside of
it. Every network but `any` counts as bounded, and a network of length zero, in whatever notation,
is none that restricts: its interface does without the rules against forged sources all the same,
and a router takes it for a client network.
-/

namespace Firewall

open Ruleset (forgedRule forgedSources publicNames)
open Interface (bind_eq_ok_iff)

/-! ### Addresses of a network -/

def Network.admits : Network → Nat → Bool
  | .any, _ => true
  | .block b, a => b.contains a

/-- Some address does not belong to the network. -/
def Network.Restricts (n : Network) : Prop := ∃ a < 2 ^ 32, n.admits a = false

namespace Block

variable {b : Block}

/-- The text of the block of all addresses. -/
def wholeText : String := "0.0.0.0/0"

theorem text_eq_wholeText_iff (canonical : b.Canonical) : b.text = wholeText ↔ b.length = 0 := by
  constructor
  · intro same
    have read := Network.parse_text canonical
    have whole : Network.parse wholeText = .ok (.block { address := 0, length := 0 }) := by rfl
    rw [same, whole] at read
    cases read
    rfl
  · intro none_
    have aligned := canonical.aligned
    have small := canonical.address_lt
    obtain ⟨address, length⟩ := b
    cases none_
    change address / 4294967296 * 4294967296 = address at aligned
    change address < 4294967296 at small
    obtain rfl : address = 0 := by omega
    rfl

/-- The address that differs from a block in its first bit is outside. -/
theorem restricts_of_length_ne (canonical : b.Canonical) (some_ : b.length ≠ 0) :
    Network.Restricts (.block b) := by
  have small := canonical.address_lt
  have half : 2 ^ 31 = 2 ^ (b.length - 1) * size b.length := by
    rw [size, Nat.pow_eq, ← Nat.pow_add]
    have := canonical.length_le
    congr 1
    omega
  have shifted (a : Nat) : (a + 2 ^ 31) / size b.length ≠ a / size b.length := by
    rw [half, Nat.add_mul_div_right _ _ (size_pos _)]
    have := Nat.two_pow_pos (b.length - 1)
    omega
  by_cases low : b.address < 2 ^ 31
  · refine ⟨b.address + 2 ^ 31, by omega, ?_⟩
    simpa [Network.admits, contains] using shifted b.address
  · refine ⟨b.address - 2 ^ 31, by omega, ?_⟩
    have differ := shifted (b.address - 2 ^ 31)
    rw [Nat.sub_add_cancel (Nat.not_lt.mp low)] at differ
    simpa [Network.admits, contains] using differ.symm

theorem restricts_iff (canonical : b.Canonical) :
    Network.Restricts (.block b) ↔ b.text ≠ wholeText := by
  rw [ne_eq, text_eq_wholeText_iff canonical]
  refine ⟨?_, restricts_of_length_ne canonical⟩
  rintro ⟨a, small, outside⟩ none_
  have first : b.address / 4294967296 = 0 := Nat.div_eq_of_lt canonical.address_lt
  have second : a / 4294967296 = 0 := Nat.div_eq_of_lt small
  have whole : size b.length = 4294967296 := by rw [none_]; rfl
  simp [Network.admits, contains, whole, first, second] at outside

end Block

namespace Network

variable {n : Network}

theorem not_restricts_any : ¬ Restricts .any := fun ⟨_, _, outside⟩ => by cases outside

theorem restricts_iff (canonical : ∀ b, n = .block b → b.Canonical) (bounded : n.bounded = true) :
    n.Restricts ↔ n.text ≠ Block.wholeText := by
  cases n with
  | any => cases bounded
  | block b => exact Block.restricts_iff (canonical b rfl)

/-- Without a restriction, a network is unbounded unless it is the block of all addresses. -/
theorem bounded_eq_false_iff (canonical : ∀ b, n = .block b → b.Canonical)
    (whole : ¬ n.Restricts) : n.bounded = false ↔ n.text ≠ Block.wholeText := by
  cases n with
  | any => exact iff_of_true rfl (by decide)
  | block b => exact iff_of_false nofun (mt (restricts_iff canonical rfl).mpr whole)

end Network

/-! ### Routers -/

namespace Router

variable {text : String} {external client net : List Char}

theorem parse_of_split? {n : Network}
    (split : split? (Text.trim text.toList) = some (external, client, net))
    (read : Network.parse (String.ofList net) = .ok n) :
    parse text = match n with
      | .any => .error (.unboundedRouter text)
      | .block b =>
        .ok { external := String.ofList external, client := String.ofList client,
              network := b } := by
  unfold parse
  simp only [split, read]
  cases n <;> rfl

theorem exists_network_of_parse {router : Router} (parsed : parse text = .ok router) :
    ∃ word, Network.parse word = .ok (.block router.network) := by
  unfold parse at parsed
  split at parsed
  · cases parsed
  · obtain ⟨n, read, parsed⟩ := bind_eq_ok_iff.mp parsed
    cases n with
    | any => cases parsed
    | block b =>
        cases parsed
        exact ⟨_, read⟩

end Router

/-! ### Rules against forged sources -/

/-- The numbers of the rules against forged sources, and the sources. -/
def forgedTable : List (Int × String) :=
  [(7300, "192.168.0.0/16"), (7310, "172.16.0.0/12"), (7320, "10.0.0.0/8"), (7400, "127.0.0.0/8")]

/-- Packets with a forged source that arrive on an interface are denied, and none of them is let
past the rules that deny them for the sake of a known network. -/
structure Program.Guards (p : Program) (i : Interface) : Prop where
  denies : ∀ entry ∈ forgedTable, ∃ rule ∈ p.rules, rule.number = entry.1 ∧ rule.action = .deny ∧
    rule.what = { src := Ruleset.one entry.2, direction := .inbound, via := rule.what.via } ∧
    i.name ∈ rule.what.via
  skipsNone : ∀ rule ∈ p.rules, rule.number ≠ 7200 + i.index

namespace Policy

variable {r : Registry} {o : Options} {i : Interface}

theorem denies_of_unbounded (hi : i ∈ r.interfaces) (facing : i.bounded = false)
    {entry : Int × String} (hentry : entry ∈ forgedTable) :
    ∃ rule ∈ rules r o, rule.number = entry.1 ∧ rule.action = .deny ∧
      rule.what = { src := Ruleset.one entry.2, direction := .inbound, via := rule.what.via } ∧
      i.name ∈ rule.what.via := by
  have table : forgedTable = forgedSources.map fun e => (e.1.band.base, e.2) := by decide
  rw [table] at hentry
  obtain ⟨e, listed, rfl⟩ := List.mem_map.mp hentry
  have named : i.name ∈ publicNames r := Ruleset.mem_publicNames ⟨i, hi, rfl, facing⟩
  have drafted : forgedRule (publicNames r) e ∈ Ruleset.forged (publicNames r) :=
    Ruleset.mem_forged_iff.mpr ⟨List.ne_nil_of_mem named, e, listed, rfl⟩
  refine ⟨_, mem_rules.mpr ⟨_, Ruleset.mem_drafts_iff_scope.mpr (.inr (.inl drafted)), rfl⟩, ?_⟩
  simp only [Draft.settled_number, Draft.settled_action, Draft.settled_what]
  exact ⟨Int.add_zero _, rfl, rfl, named⟩

/-- The rules for known networks are for bounded interfaces. -/
theorem exists_knownNetwork_iff (indexed : r.Indexed) (hi : i ∈ r.interfaces) :
    (∃ rule ∈ rules r o, rule.number = 7200 + i.index) ↔ i.bounded = true := by
  constructor
  · rintro ⟨rule, hr, number⟩
    obtain ⟨d, hd, rfl⟩ := mem_rules.mp hr
    have taken : ruleNumber .knownNetwork (some i.index) = .ok d.numbered.number :=
      ruleNumber_eq_ok_iff.mpr
        ⟨rfl, indexed.bounds hi, by rw [← Draft.settled_number o.stealth, number]; rfl⟩
    obtain ⟨known, index⟩ := (Ruleset.conforms_drafts indexed o d hd).fits.eq_of_number taken
    obtain ⟨j, hj, mem⟩ := (Ruleset.mem_drafts_iff (by simp [index])).mp hd
    have place := (Ruleset.serves_portion d mem).index_eq
    rw [index, Option.some.injEq] at place
    obtain rfl := indexed.eq_of_index hi hj place
    have gate := Ruleset.gate_portion mem
    rwa [known] at gate
  · intro bounded
    have gate : Purpose.gate o i .knownNetwork = true := bounded
    obtain ⟨d, mem, known⟩ := Ruleset.exists_mem_portion gate
    have index := (Ruleset.serves_portion d mem).index_eq
    have hd : d ∈ Ruleset.drafts r o :=
      (Ruleset.mem_drafts_iff (by simp [index])).mpr ⟨i, hi, mem⟩
    refine ⟨d.settled o.stealth, mem_rules.mpr ⟨d, hd, rfl⟩, ?_⟩
    rw [Draft.settled_number, Draft.numbered, known, index]
    rfl

theorem guards_iff (indexed : r.Indexed) (hi : i ∈ r.interfaces) (sysctls : List Sysctl) :
    (assemble r sysctls (rules r o)).program.Guards i ↔ i.bounded = false := by
  constructor
  · intro guards
    refine Bool.eq_false_iff.mpr fun bounded => ?_
    obtain ⟨rule, hr, number⟩ := (exists_knownNetwork_iff indexed hi).mpr bounded
    exact guards.skipsNone rule hr number
  · intro facing
    refine ⟨fun entry => denies_of_unbounded hi facing, fun rule hr number => ?_⟩
    have bounded := (exists_knownNetwork_iff indexed hi).mp ⟨rule, hr, number⟩
    rw [facing] at bounded
    cases bounded

end Policy

namespace Network

/-- A bounded network restricts its interface, a router its clients, unless the network is of
length zero; and a network that does not restrict counts as unbounded, so that a router refuses it
and the rules against forged sources are bound to its interface, with the same exception. -/
theorem restricts_of_written (token text : String) (tokens : List String) (o : Options)
    (host debugging : Bool) :
    (∀ i, Interface.parse token = .ok i →
      (i.bounded = true → (i.network.Restricts ↔ i.network.text ≠ Block.wholeText)) ∧
        (¬ i.network.Restricts → (i.bounded = false ↔ i.network.text ≠ Block.wholeText))) ∧
    (∀ router, Router.parse text = .ok router →
      (Restricts (.block router.network) ↔ router.network.text ≠ Block.wholeText)) ∧
    (∀ external client net n,
      Router.split? (Text.trim text.toList) = some (external, client, net) →
      parse (String.ofList net) = .ok n → ¬ n.Restricts →
      (Router.parse text = .error (.unboundedRouter text) ↔ n.text ≠ Block.wholeText)) ∧
    ∀ r, (Registry.ofTokens tokens).2 = .ok r →
      ∃ p, (Policy.compile r o host debugging).result = .ok p ∧
        ∀ i ∈ r.interfaces, ¬ i.network.Restricts →
          (p.program.Guards i ↔ i.network.text ≠ Block.wholeText) := by
  refine ⟨fun i parsed => ?_, fun router parsed => ?_,
    fun external client net n split read whole => ?_, fun r declared => ?_⟩
  · have canonical (b : Block) : i.network = .block b → b.Canonical :=
      Interface.canonical_of_parse parsed
    exact ⟨restricts_iff canonical, bounded_eq_false_iff canonical⟩
  · obtain ⟨word, read⟩ := Router.exists_network_of_parse parsed
    exact Block.restricts_iff (canonical_of_parse read)
  · have canonical : ∀ b, n = .block b → b.Canonical := by
      rintro b rfl
      exact canonical_of_parse read
    rw [← bounded_eq_false_iff canonical whole, Router.parse_of_split? split read]
    cases n with
    | any => exact iff_of_true rfl rfl
    | block b => exact iff_of_false nofun nofun
  · have indexed := Registry.indexed_of_declared declared
    refine ⟨_, Policy.compile_eq_ok indexed o host debugging, fun i hi whole => ?_⟩
    rw [Policy.guards_iff indexed hi]
    exact bounded_eq_false_iff (fun b => Registry.canonical_of_declared declared hi) whole

/-- A network by its mask, a router with its clients and one without, and a host that faces the
public network. -/
theorem restricts_of_written_lone :
    (∃ i, Interface.parse "en0+mac:10.0.0.7:255.0.0.0" = .ok i ∧ i.bounded = true ∧
      i.network.Restricts) ∧
    (∃ router, Router.parse "en0,en1@192.168.2.0/24" = .ok router ∧
      Restricts (.block router.network)) ∧
    Router.parse "en0,en1@any" = .error (.unboundedRouter "en0,en1@any") ∧
    ∃ p, (Policy.compile .lone {} false false).result = .ok p ∧
      ∃ i ∈ Registry.lone.interfaces, ¬ i.network.Restricts ∧ p.program.Guards i := by
  have token : Interface.parse "en0+mac:10.0.0.7:255.0.0.0" =
      .ok { name := "en0", network := .block { address := 167772160, length := 8 },
            hosts := { mac := true } } := by rfl
  have router : Router.parse "en0,en1@192.168.2.0/24" =
      .ok { external := "en0", client := "en1",
            network := { address := 3232236032, length := 24 } } := by rfl
  have split : Router.split? (Text.trim "en0,en1@any".toList) =
      some ("en0".toList, "en1".toList, "any".toList) := by rfl
  obtain ⟨bounded, routed, -, compile⟩ := restricts_of_written "en0+mac:10.0.0.7:255.0.0.0"
    "en0,en1@192.168.2.0/24" ["en0"] {} false false
  obtain ⟨-, -, refused, -⟩ := restricts_of_written "" "en0,en1@any" [] {} false false
  obtain ⟨p, compiled, guards⟩ := compile _ Registry.declared_lone
  have listed : { name := "en0", index := 0 } ∈ Registry.lone.interfaces := List.mem_cons_self
  exact ⟨⟨_, token, rfl, ((bounded _ token).1 rfl).mpr (by decide +kernel)⟩,
    ⟨_, router, (routed _ router).mpr (by decide +kernel)⟩,
    (refused _ _ _ .any split rfl not_restricts_any).mpr (by decide),
    p, compiled, _, listed, not_restricts_any,
    (guards _ listed not_restricts_any).mpr (by decide)⟩

end Network

/-- The registry of a host with an interface to a network of length zero. -/
def Registry.whole : Registry :=
  { interfaces := [{ name := "en0", network := .block { address := 0, length := 0 }, index := 0 }]
    frozen := true }

/-- A network of length zero counts as bounded: no rule against forged sources is left, and a
router takes it for a client network. -/
theorem Network.not_restricts_whole :
    (∃ i, Interface.parse "en0:0.0.0.0/0" = .ok i ∧ i.bounded = true ∧ ¬ i.network.Restricts) ∧
    (∃ router, Router.parse "en0,en1@10.1.2.3:0.0.0.0" = .ok router ∧
      ¬ Restricts (.block router.network)) ∧
    (Registry.ofTokens ["en0:0.0.0.0/0"]).2 = .ok .whole ∧
    ∃ p, (Policy.compile .whole {} false false).result = .ok p ∧
      ∀ i ∈ Registry.whole.interfaces, ¬ p.program.Guards i := by
  have read : parse "0.0.0.0/0" = .ok (.block { address := 0, length := 0 }) := by rfl
  have whole : ¬ Restricts (.block { address := 0, length := 0 }) :=
    fun outside => (Block.restricts_iff (canonical_of_parse read)).mp outside (by decide +kernel)
  have declared : (Registry.ofTokens ["en0:0.0.0.0/0"]).2 = .ok .whole := by rfl
  have indexed := Registry.indexed_of_declared declared
  refine ⟨⟨_, rfl, rfl, whole⟩, ⟨_, rfl, whole⟩, declared, _,
    Policy.compile_eq_ok indexed {} false false, fun i hi guards => ?_⟩
  have facing := (Policy.guards_iff indexed hi _).mp guards
  obtain rfl := List.mem_singleton.mp hi
  cases facing

end Firewall

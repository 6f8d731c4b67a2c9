import Firewall.Ipfw.Words
import Firewall.Proofs.Origins
import Firewall.Proofs.Scopes
import Firewall.Proofs.Widening

/-!
How the rules for the known interfaces are printed. Their clause lists the names of all registered
interfaces. Where there are none the clause is missing, and ipfw reads the rule as one for every
interface.
-/

namespace Firewall

namespace Ipfw

/-- The names in the interface clause of a printed rule. -/
def clauseNames : List String → List String
  | [] | [_] => []
  | word :: name :: rest =>
    if word = "via" then name :: clauseNames rest else clauseNames (name :: rest)

/-- Whether the interface clause of a printed rule admits packets on an interface. A rule without
such a clause is one for every interface. -/
def admits (s : Station) (words : List String) (interface : Option String) : Bool :=
  (clauseNames words).isEmpty || (clauseNames words).any (s.bound · interface)

theorem clauseNames_cons {word : String} (other : word ≠ "via") (rest : List String) :
    clauseNames (word :: rest) = clauseNames rest := by
  cases rest with
  | nil => rfl
  | cons name rest => rw [clauseNames, if_neg other]

theorem clauseNames_append {front : List String} (plain : "via" ∉ front) (rest : List String) :
    clauseNames (front ++ rest) = clauseNames rest := by
  induction front with
  | nil => rfl
  | cons word front ih =>
      rw [List.mem_cons, not_or] at plain
      rw [List.cons_append, clauseNames_cons (Ne.symm plain.1), ih plain.2]

theorem clauseNames_of_not_mem {words : List String} (plain : "via" ∉ words) :
    clauseNames words = [] := by
  simpa [clauseNames] using clauseNames_append plain []

theorem clauseNames_viaAlternatives (names rest : List String) :
    clauseNames (viaAlternatives names ++ rest) = names ++ clauseNames rest := by
  induction names with
  | nil => rfl
  | cons name more ih =>
      cases more with
      | nil => simp [viaAlternatives, clauseNames]
      | cons next more =>
          simp only [viaAlternatives, List.cons_append] at ih ⊢
          rw [clauseNames, if_pos rfl, clauseNames_cons (by decide), ih]

theorem clauseNames_viaWords (names rest : List String) :
    clauseNames (viaWords names ++ rest) = names ++ clauseNames rest := by
  match names with
  | [] => rfl
  | [name] => exact clauseNames_viaAlternatives [name] rest
  | first :: second :: more =>
      change clauseNames
        ("\x7b" :: viaAlternatives (first :: second :: more) ++ ["\x7d"] ++ rest) = _
      rw [List.append_assoc, List.cons_append, clauseNames_cons (by decide),
        clauseNames_viaAlternatives, List.singleton_append, clauseNames_cons (by decide)]

/-! ### Rules bound to other names -/

/-- Rules bound to other names are printed alike but for their clauses. -/
theorem exists_ruleWords_bind {rule : Rule} (worded : rule.action ≠ .checkState)
    (names : List String) :
    ∃ front back, ruleWords (rule.bind names) = front ++ (viaWords names ++ back) ∧
      ruleWords (rule.bind []) = front ++ back := by
  let m := rule.what
  let front := ["add", toString rule.number, "set", toString rule.set] ++ actionWords rule ++
    (flagWord "log" rule.log ++ ([m.proto, "from"] ++ endpointWords m.src ++ ["to"] ++
      endpointWords m.dst ++ directionWords m.direction))
  refine ⟨front, ?_⟩
  unfold ruleWords matchWords
  simp only [Rule.bind, if_neg worded, viaWords, front, m, List.append_assoc, List.nil_append]
  exact ⟨_, rfl, rfl⟩

theorem clauseNames_ruleWords_bind {rule : Rule} (worded : rule.action ≠ .checkState)
    (plain : "via" ∉ ruleWords (rule.bind [])) (names : List String) :
    clauseNames (ruleWords (rule.bind names)) = names := by
  obtain ⟨front, back, words, unbound⟩ := exists_ruleWords_bind worded names
  rw [unbound, List.mem_append, not_or] at plain
  rw [words, clauseNames_append plain.1, clauseNames_viaWords, clauseNames_of_not_mem plain.2,
    List.append_nil]

end Ipfw

/-! ### The rules for the known interfaces -/

namespace Ruleset

/-- The drafts for the known interfaces, bound to none. -/
def unboundDrafts (logAll : Bool) : List Draft :=
  (drafts {} { logAll }).filter (·.purpose.onKnown)

theorem filter_onKnown_drafts (o : Options) :
    (drafts {} o).filter (·.purpose.onKnown) = unboundDrafts o.logAll := by
  have base : (baseline {} o).filter (·.purpose.onKnown) =
      (baseline {} { logAll := o.logAll }).filter (·.purpose.onKnown) := by
    cases h : o.router with
    | none => simp only [baseline, h]
    | some router =>
        simp only [baseline, h]
        rfl
  have routed : (routing o).filter (·.purpose.onKnown) = [] := by
    cases h : o.router with
    | none => simp [routing, h]
    | some router =>
        have none_ : (routingRules router).filter (·.purpose.onKnown) = [] := rfl
        simp [routing, h, none_]
  simp only [unboundDrafts, drafts_empty, List.filter_append, base, routed]
  rfl

theorem checked_unboundDrafts : ∀ logAll stealth : Bool, ∀ d ∈ unboundDrafts logAll,
    (d.settled stealth).action ≠ .checkState ∧
      "via" ∉ Ipfw.ruleWords ((d.settled stealth).bind []) := by
  decide

theorem exists_unboundDraft : ∀ logAll : Bool, ∀ p ∈ Purpose.all, p.onKnown = true →
    ∃ d ∈ unboundDrafts logAll, d.purpose = p := by
  decide

end Ruleset

namespace Registry

variable {tokens : List String} {r : Registry}

theorem names_eq_nil_iff (declared : (ofTokens tokens).2 = .ok r) : r.names = [] ↔ tokens = [] := by
  obtain ⟨is, parsed, -, rfl⟩ := declared_iff_parseAll.mp declared
  have same := (parseAll_eq_ok_iff.mp parsed).length_eq
  have names : (ofInterfaces is).names = [] ↔ (ofInterfaces is).interfaces = [] := by
    simp only [Registry.names, List.eq_nil_iff_forall_not_mem, mem_firstOccurrences, List.mem_map]
    simp
  rw [names, ofInterfaces, List.mapIdx_eq_nil_iff, ← List.length_eq_zero_iff, ← same,
    List.length_eq_zero_iff]

/-- The registry of a host without a declared interface. -/
def bare : Registry := { frozen := true }

theorem declared_bare : (ofTokens []).2 = .ok bare := rfl

end Registry

namespace Policy

open Ipfw (admits clauseNames ruleWords)
open Ruleset (unboundDrafts)

variable {r : Registry} {o : Options} {rule : Rule} {purpose : Purpose}

theorem exists_unbound (hrule : rule ∈ rules r o) (tag : rule.tag = .known purpose)
    (known : purpose.onKnown = true) :
    ∃ d ∈ unboundDrafts o.logAll, (d.settled o.stealth).bind r.names = rule := by
  obtain ⟨d, hd, rfl⟩ := mem_rules.mp hrule
  rw [Draft.settled_tag, Tag.known.injEq] at tag
  rw [← tag] at known
  rcases Ruleset.mem_drafts_iff_scope.mp hd with shared | against | ⟨i, -, own⟩
  · obtain ⟨e, he, rfl⟩ := List.mem_map.mp shared
    rw [Draft.bindKnown_purpose] at known
    refine ⟨e, ?_, by rw [Draft.bindKnown, if_pos known, Draft.settled_bind]⟩
    rw [← Ruleset.filter_onKnown_drafts]
    exact List.mem_filter.mpr ⟨he, known⟩
  · rw [Ruleset.onKnown_forged against] at known
    cases known
  · rw [Ruleset.onKnown_portion i d own] at known
    cases known

/-- A rule for the known interfaces is bound to their names, and printed with them. -/
theorem clauseNames_of_mem (hrule : rule ∈ rules r o) (tag : rule.tag = .known purpose)
    (known : purpose.onKnown = true) :
    rule.what.via = r.names ∧ clauseNames (ruleWords rule) = r.names := by
  obtain ⟨d, hd, rfl⟩ := exists_unbound hrule tag known
  obtain ⟨worded, plain⟩ := Ruleset.checked_unboundDrafts o.logAll o.stealth d hd
  exact ⟨rfl, Ipfw.clauseNames_ruleWords_bind worded plain _⟩

theorem exists_rule_of_onKnown (known : purpose.onKnown = true) :
    ∃ rule ∈ rules r o, rule.tag = .known purpose := by
  obtain ⟨d, hd, rfl⟩ := Ruleset.exists_unboundDraft o.logAll purpose purpose.mem_all known
  rw [← Ruleset.filter_onKnown_drafts] at hd
  refine ⟨(d.bindKnown r.names).settled o.stealth, mem_rules.mpr ⟨_, ?_, rfl⟩, by simp⟩
  exact Ruleset.mem_drafts_iff_scope.mpr (.inl (List.mem_map_of_mem (List.mem_filter.mp hd).1))

theorem admits_of_meets (same : clauseNames (ruleWords rule) = rule.what.via) (s : Station)
    (packet : Packet) (met : packet.meets s rule.what = true) :
    admits s (ruleWords rule) packet.interface = true := by
  simp only [Packet.meets, Bool.and_eq_true] at met
  rw [admits, same]
  tauto

/-- The printed rules for the known interfaces list all of them. They admit packets on registered
interfaces only, unless no interface was declared: then they admit packets on every one. -/
theorem admits_registered_iff {tokens : List String}
    (declared : (Registry.ofTokens tokens).2 = .ok r) (o : Options) (host debugging : Bool) :
    ∃ p, (compile r o host debugging).result = .ok p ∧
      (∀ purpose : Purpose, purpose.onKnown = true →
        ∃ rule ∈ p.program.rules, rule.tag = .known purpose) ∧
      ∀ rule ∈ p.program.rules, ∀ purpose : Purpose,
        rule.tag = .known purpose → purpose.onKnown = true →
          clauseNames (ruleWords rule) = r.names ∧
          (∀ (s : Station) (packet : Packet), packet.meets s rule.what = true →
            admits s (ruleWords rule) packet.interface = true) ∧
          ((∀ (s : Station) interface, admits s (ruleWords rule) interface = true →
            ∃ i ∈ r.interfaces, s.bound i.name interface = true) ↔ tokens ≠ []) := by
  have indexed := Registry.indexed_of_declared declared
  refine ⟨_, compile_eq_ok indexed o host debugging, fun _ known => exists_rule_of_onKnown known,
    fun rule hrule purpose tag known => ?_⟩
  obtain ⟨bound, printed⟩ := clauseNames_of_mem hrule tag known
  refine ⟨printed, admits_of_meets (printed.trans bound.symm), ?_, ?_⟩
  · rintro confined rfl
    have none_ := (Registry.names_eq_nil_iff declared).mpr rfl
    have open_ : admits .plain (ruleWords rule) none = true := by simp [admits, printed, none_]
    obtain ⟨i, -, on⟩ := confined .plain none open_
    simp [Station.bound] at on
  · intro some_ s interface admitted
    have named : r.names ≠ [] := fun h => some_ ((Registry.names_eq_nil_iff declared).mp h)
    simp only [admits, printed, Bool.or_eq_true, List.isEmpty_iff, named, false_or,
      List.any_eq_true] at admitted
    obtain ⟨name, hname, on⟩ := admitted
    obtain ⟨i, hi, rfl⟩ := List.mem_map.mp (mem_firstOccurrences.mp hname)
    exact ⟨i, hi, on⟩

/-- With one interface the rule for control messages is printed for it, and for no other. -/
theorem admits_registered_iff_lone :
    (Registry.ofTokens ["en0"]).2 = .ok .lone ∧
      ∃ p, (compile .lone {} false false).result = .ok p ∧ ∃ rule ∈ p.program.rules,
        rule.tag = .known .bootstrapIcmp ∧ clauseNames (ruleWords rule) = ["en0"] ∧
        admits .plain (ruleWords rule) (some "en7") = false := by
  obtain ⟨p, compiled, present, printed⟩ :=
    admits_registered_iff Registry.declared_lone {} false false
  obtain ⟨rule, hrule, tag⟩ := present .bootstrapIcmp rfl
  have names : clauseNames (ruleWords rule) = ["en0"] :=
    (printed rule hrule .bootstrapIcmp tag rfl).1
  exact ⟨Registry.declared_lone, p, compiled, rule, hrule, tag, names,
    by simp [admits, names, Station.bound, Station.plain]⟩

/-- An answer to a ping, on an interface that nobody declared. -/
def strayReply : Packet :=
  { proto := "icmp", src := 3221225985, dst := 3325256711, inbound := true, arrival := some "en7",
    icmpType := some 0 }

/-- Without interfaces the rule for control messages is printed without a clause, and the packet
is let in on an interface that is not registered. -/
theorem not_admits_registered_bare :
    (Registry.ofTokens []).2 = .ok .bare ∧
      ∃ p, (compile .bare {} false false).result = .ok p ∧ ∃ rule ∈ p.program.rules,
        rule.tag = .known .bootstrapIcmp ∧ clauseNames (ruleWords rule) = [] ∧
        strayReply.meets .plain rule.what = true ∧
        (¬ ∃ i ∈ Registry.bare.interfaces, Station.plain.bound i.name strayReply.interface = true) ∧
        Evaluation.programAccepts (strayReply.meets .plain) p.program = true := by
  have indexed := Registry.indexed_of_declared Registry.declared_bare
  obtain ⟨d, hd, purpose, printed, met⟩ : ∃ d ∈ Ruleset.drafts .bare {},
      d.purpose = .bootstrapIcmp ∧ clauseNames (ruleWords (d.settled false)) = [] ∧
        strayReply.meets .plain d.what = true := by
    decide
  refine ⟨Registry.declared_bare, _, compile_eq_ok indexed {} false false, d.settled false,
    mem_rules.mpr ⟨d, hd, rfl⟩, by rw [Draft.settled_tag, purpose], printed,
    by rwa [Draft.settled_what], by simp [Registry.bare], ?_⟩
  rw [Evaluation.programAccepts_assemble indexed]
  decide

end Policy
end Firewall

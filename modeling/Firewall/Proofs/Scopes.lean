import Firewall.Proofs.Portions

/-!
Which interfaces a rule is about: none in particular, all that are known, those that face the
public network, or one. The rules of the first two kinds are those that a policy without
interfaces has, bound to the names that there are.
-/

namespace Firewall

/-- Whether the rule of a purpose is bound to the interfaces that are known, whichever they are. -/
def Purpose.onKnown (p : Purpose) : Bool :=
  [ipoptRr, ipoptTs, ipoptLsrr, ipoptSsrr, bootstrapIcmp, bootstrapDhcp, reversePath, notForMe,
    notFromMe].contains p
    || p.band.set = 11 || p.band.set = defaultDenySet && p ≠ rejectAll

/-- The rule bound to given names. -/
def Rule.bind (names : List String) (rule : Rule) : Rule :=
  { rule with what := { rule.what with via := names } }

theorem Rule.silenced_bind (names : List String) (rule : Rule) :
    (rule.bind names).silenced = rule.silenced.bind names := by
  by_cases rejects : rule.action = .reject <;> simp [silenced, bind, rejects]

/-- The draft bound to given names. -/
def Draft.bind (names : List String) (d : Draft) : Draft :=
  { d with what := { d.what with via := names } }

/-- The draft bound to the names that are known, if its purpose asks for it. -/
def Draft.bindKnown (names : List String) (d : Draft) : Draft :=
  if d.purpose.onKnown then d.bind names else d

namespace Draft

variable (names : List String) (d : Draft)

@[simp] theorem bindKnown_purpose : (d.bindKnown names).purpose = d.purpose := by
  unfold bindKnown
  split <;> rfl

theorem settled_bind (stealth : Bool) :
    (d.bind names).settled stealth = (d.settled stealth).bind names := by
  cases stealth with
  | false => rfl
  | true => exact Rule.silenced_bind names d.numbered

theorem numbered_bindKnown : (d.bindKnown names).numbered.number = d.numbered.number := by
  unfold bindKnown
  split <;> rfl

end Draft

namespace Ruleset

variable {r : Registry} {o : Options} {d : Draft}

theorem baseline_eq (r : Registry) (o : Options) :
    baseline r o = (baseline {} o).map (Draft.bindKnown r.names) := by
  cases h : o.router <;> simp only [baseline, h] <;> rfl

theorem routing_eq (names : List String) (o : Options) :
    routing o = (routing o).map (Draft.bindKnown names) := by
  cases h : o.router <;> simp only [routing, h] <;> rfl

theorem trusted_eq (r : Registry) (o : Options) :
    trusted r o = (r.interfaces.filter (·.trusted)).map (trustedIcmp o) ++
      (trusted {} o).map (Draft.bindKnown r.names) := rfl

theorem mem_inboundFilter_iff :
    d ∈ inboundFilter r o ↔ d ∈ (inboundFilter {} o).map (Draft.bindKnown r.names) ∨
      d ∈ (r.interfaces.filter (·.bounded)).map knownNetwork ∨ d ∈ forged (publicNames r) := by
  obtain ⟨front, back, whole, skeleton⟩ : ∃ front back,
      inboundFilter r o = front ++ (r.interfaces.filter (·.bounded)).map knownNetwork ++
        forged (publicNames r) ++ back ∧
      (inboundFilter {} o).map (Draft.bindKnown r.names) = front ++ back := ⟨_, _, rfl, rfl⟩
  rw [whole, skeleton]
  simp only [List.mem_append, or_assoc, or_comm, or_left_comm]

theorem drafts_empty (o : Options) :
    drafts {} o = baseline {} o ++ routing o ++ state o ++ trusted {} o ++ bootstrap {} o ++
      inboundFilter {} o ++ outbound {} o ++ defaultDeny {} o := by
  simp [drafts, macServices, windowsServices, serviceRules, shaping, Shaping.plan, openPorts]

/-- The rules of a policy: those of the policy without interfaces, bound to the known ones, those
against forged sources, and those of each interface. -/
theorem mem_drafts_iff_scope :
    d ∈ drafts r o ↔ d ∈ (drafts {} o).map (Draft.bindKnown r.names) ∨ d ∈ forged (publicNames r) ∨
      ∃ i ∈ r.interfaces, d ∈ portion o i := by
  have each : (∃ i ∈ r.interfaces, d ∈ portion o i) ↔
      d ∈ macServices r o ∨ d ∈ windowsServices r o ∨
        d ∈ (r.interfaces.filter (·.trusted)).map (trustedIcmp o) ∨
        d ∈ (r.interfaces.filter (·.bounded)).map knownNetwork ∨ d ∈ shaping r ∨
        d ∈ openPorts r o := by
    simp only [portion, macServices, windowsServices, mem_serviceRules, shaping_eq_flatMap,
      openPorts, List.mem_append, mem_ite_nil, List.mem_flatMap, List.mem_map, List.mem_filter,
      List.mem_singleton, and_or_left, exists_or, and_assoc, @eq_comm _ _ d, or_assoc]
  have state_ : state o = (state o).map (Draft.bindKnown r.names) := rfl
  have bootstrap_ : bootstrap r o = (bootstrap {} o).map (Draft.bindKnown r.names) := rfl
  have outbound_ : outbound r o = (outbound {} o).map (Draft.bindKnown r.names) := rfl
  have deny : defaultDeny r o = (defaultDeny {} o).map (Draft.bindKnown r.names) := rfl
  rw [each, drafts, baseline_eq, routing_eq r.names, state_, trusted_eq, bootstrap_, outbound_,
    deny, drafts_empty]
  simp only [List.map_append, List.mem_append, mem_inboundFilter_iff]
  grind

/-- The rule against packets with a source that no packet from a public network bears. -/
def forgedRule (names : List String) (entry : Purpose × String) : Draft :=
  { purpose := entry.1, action := .deny, log := true,
    what := { src := one entry.2, direction := .inbound, via := names } }

theorem mem_forged_iff {names : List String} :
    d ∈ forged names ↔ names ≠ [] ∧ ∃ entry ∈ forgedSources, forgedRule names entry = d := by
  cases names with
  | nil => simp [forged]
  | cons name rest => simp [forged, forgedRule]

theorem onKnown_forged {names : List String} (hd : d ∈ forged names) :
    d.purpose.onKnown = false := by
  obtain ⟨-, entry, listed, rfl⟩ := mem_forged_iff.mp hd
  exact (by decide : ∀ entry ∈ forgedSources, entry.1.onKnown = false) entry listed

theorem onKnown_portion (i : Interface) : ∀ d ∈ portion o i, d.purpose.onKnown = false := by
  intro d hd
  have each := (serves_portion d hd).perInterface
  cases known : d.purpose.onKnown with
  | false => rfl
  | true =>
      have common := (by decide : ∀ p ∈ Purpose.all, p.onKnown = true →
        p.band.perInterface = false) d.purpose d.purpose.mem_all known
      rw [each] at common
      cases common

end Ruleset
end Firewall

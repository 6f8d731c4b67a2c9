import Firewall.Proofs.Reading
import Firewall.Proofs.Scopes

/-!
The words of a policy stand on one line each. What is not fixed in them stems from the tokens and
from the options: names of interfaces, rates, networks and ports.
-/

namespace Firewall

open Text

/-! ### The texts of a rule -/

def Endpoint.texts (e : Endpoint) : List String := e.addresses ++ e.ports

/-- What a match says besides its endpoints and its interfaces. -/
def Match.marks (m : Match) : List String :=
  [m.proto] ++ m.recv.toList ++ m.xmit.toList ++ m.tcpFlags ++ m.ipOptions.toList
    ++ m.ipLength.toList

def Match.texts (m : Match) : List String := m.src.texts ++ m.dst.texts ++ m.marks ++ m.via

/-- The text of a target that has one; a number is not a text. -/
def Target.texts : Option Target → List String
  | some (.name s) => [s]
  | _ => []

def Rule.texts (r : Rule) : List String := Target.texts r.target ++ r.what.texts

def Draft.texts (d : Draft) : List String := Target.texts d.target ++ d.what.texts

theorem Draft.texts_settled (d : Draft) (stealth : Bool) : (d.settled stealth).texts = d.texts := by
  rw [Rule.texts, settled_what, settled_target, texts]

/-- The texts of a draft stand on one line each. -/
def Draft.Unbroken (d : Draft) : Prop := ∀ t ∈ d.texts, Text.Unbroken t

instance (d : Draft) : Decidable d.Unbroken := List.decidableBAll _ _

/-- A draft has the texts that it has without names, and its names. -/
theorem Draft.texts_eq (d : Draft) : d.texts = (d.bind []).texts ++ d.what.via := by
  simp [texts, bind, Match.texts, Match.marks]

namespace Ipfw

variable {word : String} {words others : List String}

theorem unbroken_ite {c : Prop} [Decidable c] (here : ∀ w ∈ words, Unbroken w)
    (else_ : ∀ w ∈ others, Unbroken w) : ∀ w ∈ if c then words else others, Unbroken w := by
  split
  · exact here
  · exact else_

theorem unbroken_commaJoined {xs : List String} (h : ∀ x ∈ xs, Unbroken x) :
    Unbroken (commaJoined xs) := unbroken_intercalate (by decide) h

theorem unbroken_endpointWords {e : Endpoint} (h : ∀ t ∈ e.texts, Unbroken t) :
    ∀ w ∈ endpointWords e, Unbroken w := by
  rw [Endpoint.texts, List.forall_mem_append] at h
  have negation (on : Bool) : ∀ w ∈ if on then ["not"] else [], Unbroken w :=
    unbroken_ite (by decide) (List.forall_mem_nil _)
  simp only [endpointWords, List.forall_mem_append]
  refine ⟨⟨negation _, ?_⟩, unbroken_ite (List.forall_mem_nil _) ?_⟩
  · exact List.forall_mem_singleton.mpr (unbroken_commaJoined h.1)
  · exact List.forall_mem_append.mpr
      ⟨negation _, List.forall_mem_singleton.mpr (unbroken_commaJoined h.2)⟩

theorem unbroken_viaAlternatives {names : List String} (h : ∀ name ∈ names, Unbroken name) :
    ∀ w ∈ viaAlternatives names, Unbroken w := by
  induction names with
  | nil => exact List.forall_mem_nil _
  | cons name more ih =>
      have later := ih fun other ho => h other (List.mem_cons_of_mem name ho)
      have named := h name (List.mem_cons_self ..)
      cases more with
      | nil =>
          simp only [viaAlternatives, List.forall_mem_cons]
          exact ⟨by decide, named, List.forall_mem_nil _⟩
      | cons next more =>
          simp only [viaAlternatives, List.forall_mem_cons]
          exact ⟨by decide, named, by decide, later⟩

theorem unbroken_viaWords {names : List String} (h : ∀ name ∈ names, Unbroken name) :
    ∀ w ∈ viaWords names, Unbroken w := by
  unfold viaWords
  split
  · exact List.forall_mem_nil _
  · exact List.forall_mem_cons.mpr ⟨by decide, h⟩
  · simp only [List.cons_append, List.forall_mem_cons, List.forall_mem_append]
    exact ⟨by decide, unbroken_viaAlternatives h, by decide, List.forall_mem_nil _⟩

theorem unbroken_optionWords (hw : Unbroken word) {o : Option String}
    (h : ∀ s ∈ o.toList, Unbroken s) : ∀ w ∈ optionWords word o, Unbroken w := by
  cases o with
  | none => exact List.forall_mem_nil _
  | some s => exact unbroken_ite (List.forall_mem_nil _) (List.forall_mem_cons.mpr ⟨hw, h⟩)

theorem unbroken_flagWord (hw : Unbroken word) (on : Bool) :
    ∀ w ∈ flagWord word on, Unbroken w :=
  unbroken_ite (List.forall_mem_singleton.mpr hw) (List.forall_mem_nil _)

theorem unbroken_listWords (hw : Unbroken word) {xs : List String} (h : ∀ x ∈ xs, Unbroken x) :
    ∀ w ∈ listWords word xs, Unbroken w :=
  unbroken_ite (List.forall_mem_nil _)
    (List.forall_mem_cons.mpr ⟨hw, List.forall_mem_singleton.mpr (unbroken_commaJoined h)⟩)

theorem unbroken_matchWords {m : Match} (h : ∀ t ∈ m.texts, Unbroken t) :
    ∀ w ∈ matchWords m, Unbroken w := by
  simp only [Match.texts, Match.marks, List.append_assoc, List.forall_mem_append,
    List.forall_mem_singleton] at h
  obtain ⟨src, dst, proto, recv, xmit, flags, options, length, via⟩ := h
  have types : ∀ t ∈ m.icmpTypes.map toString, Unbroken t := by
    rw [List.forall_mem_map]
    exact fun n _ => unbroken_intCast n
  have direction : ∀ w ∈ directionWords m.direction, Unbroken w := by
    cases m.direction <;> decide
  unfold matchWords
  simp only [List.append_assoc, List.cons_append, List.nil_append, List.forall_mem_append,
    List.forall_mem_cons]
  exact ⟨proto, by decide, unbroken_endpointWords src, by decide,
    unbroken_endpointWords dst, direction, unbroken_viaWords via,
    unbroken_optionWords (by decide) recv, unbroken_optionWords (by decide) xmit,
    unbroken_flagWord (by decide) _, unbroken_flagWord (by decide) _,
    unbroken_flagWord (by decide) _, unbroken_listWords (by decide) flags,
    unbroken_optionWords (by decide) options, unbroken_listWords (by decide) types,
    unbroken_optionWords (by decide) length,
    unbroken_ite (by decide) (List.forall_mem_nil _),
    unbroken_ite (by decide) (List.forall_mem_nil _),
    unbroken_flagWord (by decide) _⟩

theorem unbroken_actionWords {rule : Rule} (h : ∀ t ∈ rule.texts, Unbroken t) :
    ∀ w ∈ actionWords rule, Unbroken w := by
  have target : Unbroken (targetWord rule.target) := by
    rw [Rule.texts, List.forall_mem_append] at h
    cases known : rule.target with
    | none => decide
    | some t =>
        cases t with
        | id n => exact unbroken_intCast n
        | name s => exact h.1 s (by simp [known, Target.texts])
  have answer (response : Response) : ∀ w ∈ responseWords response, Unbroken w := by
    cases response <;> decide
  have action (a : Action) : Unbroken a.text := by cases a <;> decide
  unfold actionWords
  split
  · exact answer _
  all_goals
    simp only [List.forall_mem_cons, action, target, true_and]
    exact List.forall_mem_nil _

theorem unbroken_ruleWords {rule : Rule} (h : ∀ t ∈ rule.texts, Unbroken t) :
    ∀ w ∈ ruleWords rule, Unbroken w := by
  have what := unbroken_matchWords fun t ht => h t (List.mem_append_right _ ht)
  simp only [ruleWords, List.cons_append, List.nil_append, List.forall_mem_append,
    List.forall_mem_cons]
  exact ⟨by decide, unbroken_intCast _, by decide, unbroken_intCast _,
    unbroken_actionWords h, unbroken_ite (List.forall_mem_nil _)
      (List.forall_mem_append.mpr ⟨unbroken_flagWord (by decide) _, what⟩)⟩

theorem unbroken_pipeWords {p : Pipe} (h : ∀ rate ∈ p.bandwidth, Unbroken rate) :
    ∀ w ∈ pipeWords p, Unbroken w := by
  have numbered (word : String) (hw : Unbroken word) (value : Option Int) :
      ∀ w ∈ value.toList.flatMap fun n => [word, toString n], Unbroken w := by
    cases value with
    | none => exact List.forall_mem_nil _
    | some n =>
        exact List.forall_mem_cons.mpr ⟨hw, List.forall_mem_singleton.mpr (unbroken_intCast n)⟩
  simp only [pipeWords, List.append_assoc, List.cons_append, List.nil_append,
    List.forall_mem_append, List.forall_mem_cons]
  refine ⟨by decide, unbroken_intCast _, by decide, unbroken_ite ?_ (List.forall_mem_nil _),
    numbered _ (by decide) _, numbered _ (by decide) _⟩
  refine List.forall_mem_cons.mpr ⟨by decide, List.forall_mem_singleton.mpr ?_⟩
  split
  · rename_i rate known
    split
    · decide
    · exact h rate known
  · decide

theorem unbroken_queueWords (q : Queue) : ∀ w ∈ queueWords q, Unbroken w := by
  simp only [queueWords, List.forall_mem_cons]
  exact ⟨by decide, unbroken_intCast _, by decide, by decide,
    unbroken_intCast _, by decide, unbroken_intCast _, List.forall_mem_nil _⟩

theorem unbroken_setWords (set : Int) (enabled : Bool) :
    ∀ w ∈ setWords set enabled, Unbroken w := by
  simp only [setWords, List.forall_mem_cons]
  exact ⟨by decide, by cases enabled <;> decide, unbroken_intCast _,
    List.forall_mem_nil _⟩

end Ipfw

/-! ### The texts of a policy -/

theorem Network.unbroken_text (n : Network) : Unbroken n.text := by
  cases n with
  | any => decide
  | block b =>
      have dot : Unbroken "." := by decide
      have slash : Unbroken "/" := by decide
      simp only [text, Block.text, Address.dotted, unbroken_append, dot, slash, unbroken_natCast,
        and_self]

namespace Ruleset

open Draft (Confined)

variable {r : Registry} {o : Options} {i : Interface} {d : Draft}

theorem unbroken_shared : ∀ logAll : Bool, ∀ d ∈ drafts {} { logAll }, d.Unbroken := by
  decide

/-- Of the options, the policy without interfaces depends on the router and on what is logged. -/
theorem mem_shared_or_routed (hd : d ∈ drafts {} o) : d ∈ drafts {} { logAll := o.logAll } ∨
    ∃ router ∈ o.router, d ∈ divertRule router :: routingRules router := by
  obtain ⟨front, back, rest, whole⟩ : ∃ (front back : List Draft) (rest : Bool → List Draft),
      ∀ o : Options, drafts {} o =
        front ++ o.router.toList.map divertRule ++ back ++ routing o ++ rest o.logAll := by
    refine ⟨(baseline {} {}).take 1, (baseline {} {}).drop 1, fun logAll => state { logAll } ++
      trusted {} { logAll } ++ bootstrap {} { logAll } ++ inboundFilter {} { logAll } ++
      outbound {} { logAll } ++ defaultDeny {} { logAll }, fun o => ?_⟩
    rw [drafts_empty]
    simp only [baseline, List.append_assoc]
    rfl
  rw [whole] at hd ⊢
  simp only [List.mem_append] at hd ⊢
  rcases hd with (((hd | hd) | hd) | hd) | hd
  · exact .inl (.inl (.inl (.inl (.inl hd))))
  · obtain ⟨router, declared, rfl⟩ := List.mem_map.mp hd
    exact .inr ⟨router, Option.mem_toList.mp declared, List.mem_cons_self ..⟩
  · exact .inl (.inl (.inl (.inr hd)))
  · obtain ⟨router, declared, routed⟩ := List.mem_flatMap.mp hd
    exact .inr ⟨router, Option.mem_toList.mp declared, List.mem_cons_of_mem _ routed⟩
  · exact .inl (.inr hd)

theorem unbroken_router {router : Router} (external : Unbroken router.external)
    (client : Unbroken router.client) :
    ∀ d ∈ divertRule router :: routingRules router, d.Unbroken := by
  have network : Unbroken router.network.text := Network.unbroken_text (.block router.network)
  obtain ⟨all, any, me, natd⟩ : Unbroken "all" ∧ Unbroken "any" ∧ Unbroken "me" ∧
    Unbroken "natd" := by decide
  simp only [divertRule, routingRules, List.forall_mem_cons, Draft.Unbroken, Draft.texts,
    Match.texts, Match.marks, Target.texts, Endpoint.texts, Endpoint.me, one,
    List.forall_mem_append, Option.toList, all, any, me, natd, external, client, network,
    List.not_mem_nil, IsEmpty.forall_iff, implies_true, and_self]

theorem Confined.unbroken (h : Confined i d) (named : Unbroken i.name)
    (dst : ∀ t ∈ d.what.dst.texts, Unbroken t) (marks : ∀ t ∈ d.what.marks, Unbroken t)
    (target : Target.texts d.target = []) : d.Unbroken := by
  have src : ∀ t ∈ (Endpoint.network i.network).texts, Unbroken t :=
    List.forall_mem_singleton.mpr i.network.unbroken_text
  rw [Draft.Unbroken, Draft.texts, target, Match.texts, h.via_eq, h.src_eq]
  simp only [List.forall_mem_append, List.forall_mem_singleton, List.nil_append]
  exact ⟨⟨⟨src, dst⟩, marks⟩, named⟩

theorem unbroken_service (named : Unbroken i.name) (purpose : Purpose) {proto : String}
    {groups ports : List String} (said : Unbroken proto) (more : ∀ g ∈ groups, Unbroken g)
    (listed : ∀ p ∈ ports, Unbroken p) :
    (service o i purpose proto groups ports).Unbroken := by
  refine Confined.unbroken ⟨rfl, rfl⟩ named ?_ (List.forall_mem_singleton.mpr said) rfl
  exact List.forall_mem_append.mpr
    ⟨List.forall_mem_cons.mpr ⟨i.network.unbroken_text, more⟩, listed⟩

theorem unbroken_broadcasts (named : Unbroken i.name) (multicast ssdp broadcast : Purpose) :
    ∀ d ∈ broadcasts o i multicast ssdp broadcast, d.Unbroken := by
  have fixed : ∀ t ∈ ["all", "udp", multicastNetwork, ssdpAddress, broadcastAddress],
      Unbroken t := by decide
  simp only [List.forall_mem_cons] at fixed
  obtain ⟨all, udp, first, second, third, -⟩ := fixed
  simp only [broadcasts, List.forall_mem_cons]
  refine ⟨?_, ?_, ?_, List.forall_mem_nil _⟩
  · exact Confined.unbroken ⟨rfl, rfl⟩ named (List.forall_mem_singleton.mpr first)
      (List.forall_mem_singleton.mpr all) rfl
  · exact Confined.unbroken ⟨rfl, rfl⟩ named (List.forall_mem_singleton.mpr second)
      (List.forall_mem_singleton.mpr udp) rfl
  · exact Confined.unbroken ⟨rfl, rfl⟩ named (List.forall_mem_singleton.mpr third)
      (List.forall_mem_singleton.mpr udp) rfl

theorem unbroken_macRules (named : Unbroken i.name) : ∀ d ∈ macRules o i, d.Unbroken := by
  refine List.forall_mem_append.mpr ⟨?_, unbroken_broadcasts named _ _ _⟩
  simp only [List.forall_mem_cons]
  exact ⟨unbroken_service named _ (by decide) (by decide) (by decide),
    unbroken_service named _ (by decide) (by decide) (by decide),
    unbroken_service named _ (by decide) (by decide) (by decide),
    List.forall_mem_nil _⟩

theorem unbroken_windowsRules (named : Unbroken i.name) : ∀ d ∈ windowsRules o i, d.Unbroken := by
  refine List.forall_mem_append.mpr ⟨?_, unbroken_broadcasts named _ _ _⟩
  simp only [List.forall_mem_cons]
  exact ⟨unbroken_service named _ (by decide) (by decide) (by decide),
    unbroken_service named _ (by decide) (by decide) (by decide),
    List.forall_mem_nil _⟩

/-- The texts of the rules that shape are the same for every interface, but for its name. -/
theorem flatMap_texts_rules (s s' : InterfaceShaping) :
    (Shaping.rules s).flatMap (fun d => (d.bind []).texts) =
      (Shaping.rules s').flatMap fun d => (d.bind []).texts := rfl

theorem unbroken_shapingOf (named : Unbroken i.name) : ∀ d ∈ shapingOf i, d.Unbroken := by
  intro d hd
  have via := via_shapingOf d hd
  unfold shapingOf at hd
  cases rates : i.rates with
  | none => simp [rates] at hd
  | some known =>
      rw [rates] at hd
      -- But for the name, the rules of any interface show the texts of all of them.
      have fixed : ∀ t ∈ (Shaping.rules (Shaping.allocate { name := "" } ⟨"", ""⟩)).flatMap
          fun d => (d.bind []).texts, Unbroken t := by decide
      rw [flatMap_texts_rules _ (Shaping.allocate i known)] at fixed
      rw [Draft.Unbroken, d.texts_eq, via, List.forall_mem_append, List.forall_mem_singleton]
      exact ⟨fun t ht => fixed t (List.mem_flatMap.mpr ⟨d, by simpa using hd, ht⟩), named⟩

theorem unbroken_openTo (named : Unbroken i.name) {purpose : Purpose} {proto : String}
    {ports : List String} (said : Unbroken proto) (listed : ∀ port ∈ ports, Unbroken port) :
    ∀ d ∈ openTo o i purpose proto ports, d.Unbroken := by
  intro d hd
  obtain ⟨-, rfl⟩ := eq_of_mem_openTo hd
  refine Confined.unbroken ⟨rfl, rfl⟩ named ?_ (List.forall_mem_singleton.mpr said) rfl
  exact List.forall_mem_append.mpr ⟨(by decide : ∀ t ∈ ["me"], Unbroken t), listed⟩

theorem unbroken_openPortsOf (named : Unbroken i.name) (unbroken : o.Unbroken) :
    ∀ d ∈ openPortsOf o i, d.Unbroken := by
  have tcp {purpose : Purpose} (l : PortList) :
      ∀ d ∈ openTo o i purpose "tcp" (o.ports.get l), d.Unbroken :=
    unbroken_openTo named (by decide) (unbroken.ports l)
  have udp {purpose : Purpose} (l : PortList) :
      ∀ d ∈ openTo o i purpose "udp" (o.ports.get l), d.Unbroken :=
    unbroken_openTo named (by decide) (unbroken.ports l)
  simp only [openPortsOf, List.forall_mem_append]
  refine ⟨⟨⟨?_, ?_⟩, tcp .publicTcp⟩, udp .publicUdp⟩
  · split
    · exact List.forall_mem_append.mpr ⟨tcp .trustedTcp, udp .trustedUdp⟩
    · exact List.forall_mem_nil _
  · split
    · exact List.forall_mem_append.mpr ⟨tcp .localTcp, udp .localUdp⟩
    · exact List.forall_mem_nil _

theorem unbroken_portion (named : Unbroken i.name) (unbroken : o.Unbroken) :
    ∀ d ∈ portion o i, d.Unbroken := by
  refine forall_mem_portion (unbroken_macRules named) (unbroken_windowsRules named) ?_ ?_
    (unbroken_shapingOf named) (unbroken_openPortsOf named unbroken)
  · exact Confined.unbroken ⟨rfl, rfl⟩ named
      (List.forall_mem_singleton.mpr i.network.unbroken_text)
      (by decide : ∀ t ∈ ["icmp"], Unbroken t) rfl
  · exact Confined.unbroken ⟨rfl, rfl⟩ named
      (by decide : ∀ t ∈ Endpoint.me.texts, Unbroken t)
      (by decide : ∀ t ∈ ["all"], Unbroken t) rfl

theorem unbroken_forged {names : List String} (named : ∀ name ∈ names, Unbroken name) :
    ∀ d ∈ forged names, d.Unbroken := by
  intro d hd
  obtain ⟨-, entry, listed, rfl⟩ := mem_forged_iff.mp hd
  rw [Draft.Unbroken, Draft.texts_eq, List.forall_mem_append]
  exact ⟨(by decide : ∀ entry ∈ forgedSources, (forgedRule [] entry).Unbroken) entry listed, named⟩

theorem unbroken_bindKnown {names : List String} (named : ∀ name ∈ names, Unbroken name)
    (h : d.Unbroken) : (d.bindKnown names).Unbroken := by
  unfold Draft.bindKnown
  split
  · rw [Draft.Unbroken, Draft.texts_eq, List.forall_mem_append] at h ⊢
    exact ⟨h.1, named⟩
  · exact h

theorem unbroken_drafts (named : ∀ i ∈ r.interfaces, Unbroken i.name) (unbroken : o.Unbroken) :
    ∀ d ∈ drafts r o, d.Unbroken := by
  have listed {is : List Interface} (sub : is ⊆ r.interfaces) :
      ∀ name ∈ firstOccurrences (is.map (·.name)), Unbroken name := by
    intro name hname
    obtain ⟨i, hi, rfl⟩ := List.mem_map.mp (mem_firstOccurrences.mp hname)
    exact named i (sub hi)
  intro d hd
  rcases mem_drafts_iff_scope.mp hd with shared | against | ⟨i, hi, own⟩
  · -- A rule of the policy without interfaces is fixed, or it routes.
    obtain ⟨e, he, rfl⟩ := List.mem_map.mp shared
    refine unbroken_bindKnown (listed (List.Subset.refl _)) ?_
    rcases mem_shared_or_routed he with fixed | ⟨router, declared, routed⟩
    · exact unbroken_shared _ e fixed
    · obtain ⟨external, client⟩ := unbroken.router router declared
      exact unbroken_router external client e routed
  · exact unbroken_forged (listed List.filter_sublist.subset) d against
  · exact unbroken_portion (named i hi) unbroken d own

end Ruleset
end Firewall

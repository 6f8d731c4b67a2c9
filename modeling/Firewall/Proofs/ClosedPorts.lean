import Firewall.Proofs.PublicPorts

/-!
Ports that are closed to all networks. No option opens them to a source that lies in none of the
declared networks: the rules that close them stand before those of the opened ports.
-/

namespace Firewall

open Policy (rules)
open Ruleset (closedTcpPorts)

/-- A packet that no declared network vouches for. -/
structure Packet.Foreign (s : Station) (r : Registry) (p : Packet) : Prop where
  loopback : s.bound "lo*" p.interface = false
  networks : ∀ i ∈ r.interfaces, i.bounded = true → s.reads i.network.text p.src = false

def Draft.Withholds (s : Station) (p : Packet) (d : Draft) : Prop :=
  d.purpose.effect = .accept → p.meets s d.what = false

namespace Ruleset

open Draft (Withholds)

variable {s : Station} {p : Packet} {name : String} {port : Nat} {r : Registry} {o : Options}

private theorem withholds_of_effect {d : Draft}
    (h : decide (d.purpose.effect = .accept) = false) : d.Withholds s p :=
  fun accepts => absurd accepts (of_decide_eq_false h)

private theorem withholds_of_effects {ds : List Draft}
    (h : (ds.all fun d => d.purpose.effect != .accept) = true) : ∀ d ∈ ds, d.Withholds s p := by
  intro d hd accepts
  have other := List.all_eq_true.mp h d hd
  simp [accepts] at other

theorem base_of_late (q : Purpose) (h : q.band.set = 11 ∨ q.band.set = 20) : 11000 ≤ q.band.base :=
  (by decide : ∀ q ∈ Purpose.all, q.band.set = 11 ∨ q.band.set = 20 → 11000 ≤ q.band.base)
    q q.mem_all h

theorem withholds_baseline (foreign : p.Foreign s r) : ∀ d ∈ baseline r o, d.Withholds s p := by
  refine forall_mem_baseline (fun _ => ?_) (fun _ => withholds_of_effect rfl)
    (withholds_of_effects rfl) ?_ (withholds_of_effects rfl)
  · simp [Packet.meets, foreign.loopback]
  · intro purpose option denied
    obtain ⟨_, _, drops, _⟩ := drop_of_denied denied
    exact withholds_of_effect (by simp [optionRule, drops])

theorem withholds_serviceRules (foreign : p.Foreign s r) {wanted : HostKinds → Bool}
    {f : Interface → List Draft}
    (confined : ∀ i, ∀ d ∈ f i, d.Confined i) :
    ∀ d ∈ serviceRules r wanted f, d.Withholds s p := by
  intro d hd _
  obtain ⟨i, hi, hd⟩ := List.mem_flatMap.mp hd
  obtain ⟨mem, served⟩ := List.mem_filter.mp hi
  have bounded : i.bounded = true := by
    simp only [Bool.and_eq_true] at served
    exact served.2
  exact Packet.not_meets_of_word (confined i d hd).src_eq (foreign.networks i mem bounded)

theorem withholds_trusted (h : p.Knocks s name port) : ∀ d ∈ trusted r o, d.Withholds s p := by
  have icmp : ∀ d ∈ (r.interfaces.filter (·.trusted)).map (trustedIcmp o), d.Withholds s p := by
    intro d hd _
    obtain ⟨i, _, rfl⟩ := List.mem_map.mp hd
    simp [Packet.meets, trustedIcmp, h.proto]
  unfold trusted
  rw [List.forall_mem_append]
  exact ⟨icmp, withholds_of_effects rfl⟩

theorem withholds_bootstrap (h : p.Knocks s name port) :
    ∀ d ∈ bootstrap r o, d.Withholds s p := by
  simp [bootstrap, Draft.Withholds, Packet.meets, h.proto]

/-- Without a router, nothing before the opened ports accepts a connection attempt that no
declared network vouches for. -/
theorem withholds_drafts (indexed : r.Indexed) (unrouted : o.router = none)
    (h : p.Knocks s name port) (foreign : p.Foreign s r) :
    ∀ d ∈ drafts r o, d.purpose.band.base < 11000 → d.Withholds s p := by
  have elsewhere {set : Int} {ds : List Draft} (conforms : ∀ d ∈ ds, d.Conforms set)
      (quiet : set ∉ Purpose.acceptingSets) : ∀ d ∈ ds, d.Withholds s p :=
    fun d hd => withholds_of_effect (decide_eq_false ((conforms d hd).effect_ne_accept quiet))
  have routes : routing o = [] := by simp [routing, unrouted]
  intro d hd early
  simp only [drafts, routes, List.append_nil, List.mem_append] at hd
  rcases hd with ((((((((((hd | hd) | hd) | hd) | hd) | hd) | hd) | hd) | hd) | hd) | hd)
  · exact withholds_baseline foreign d hd
  · exact elsewhere (conforms_state o) (by decide) d hd
  · exact withholds_serviceRules foreign (confined_macRules o) d hd
  · exact withholds_serviceRules foreign (confined_windowsRules o) d hd
  · exact withholds_trusted h d hd
  · exact withholds_bootstrap h d hd
  · exact elsewhere (conforms_inboundFilter indexed o) (by decide) d hd
  · exact elsewhere (conforms_shaping indexed) (by decide) d hd
  · have := base_of_late d.purpose (Or.inl (conforms_outbound o d hd).set_eq)
    omega
  · have := base_of_late d.purpose (Or.inr (conforms_openPorts indexed o d hd).set_eq)
    omega
  · exact elsewhere (conforms_defaultDeny o) (by decide) d hd

/-- The rule against the services of networks that have none. -/
def rejectServiceTcp (o : Options) : Draft :=
  { purpose := .rejectServiceTcp, action := .reject, log := o.logAll,
    what := { proto := "tcp", dst := .anyAt (macTcpPorts ++ windowsTcpPorts) },
    response := some .hostProhibited }

theorem rejectServiceTcp_mem : rejectServiceTcp o ∈ drafts r o := by
  simp [drafts, trusted, rejectServiceTcp]

theorem meets_rejectServiceTcp (h : p.Knocks s name port)
    (closed : ∃ word ∈ macTcpPorts ++ windowsTcpPorts, Ports.covers word port = true) :
    p.meets s (rejectServiceTcp o).what = true := by
  have listed : ((macTcpPorts ++ windowsTcpPorts).any fun word => Ports.covers word port) = true :=
    List.any_eq_true.mpr closed
  have dst : s.endpoint (.anyAt (macTcpPorts ++ windowsTcpPorts)) p.dst p.dstPort = true := by
    simp only [Station.endpoint, Endpoint.anyAt, h.dstPort, Option.any_some, listed]
    rfl
  have src : s.endpoint {} p.src p.srcPort = true := rfl
  simp [rejectServiceTcp, Packet.meets, h.proto, src, dst, Packet.directed, Packet.asked]

/-- The rule that answers servers which ask back who connects. -/
def authReset (o : Options) : Draft :=
  { purpose := .authReset, action := .reject, log := o.logAll, response := some .tcpReset,
    what := { proto := "tcp", dst := { addresses := ["me"], ports := authPorts },
              direction := .inbound, setup := true } }

theorem authReset_mem : authReset o ∈ drafts r o := by
  simp [drafts, inboundFilter, authReset]

theorem meets_authReset (h : p.Knocks s name port)
    (closed : ∃ word ∈ authPorts, Ports.covers word port = true) :
    p.meets s (authReset o).what = true := by
  have listed : (authPorts.any fun word => Ports.covers word port) = true :=
    List.any_eq_true.mpr closed
  have dst : s.endpoint { addresses := ["me"], ports := authPorts } p.dst p.dstPort = true := by
    simp only [Station.endpoint, h.dstPort, Option.any_some, listed, List.any_cons,
      Station.reads_me, h.dst]
    rfl
  have src : s.endpoint {} p.src p.srcPort = true := rfl
  simp [authReset, Packet.meets, h.proto, src, dst, Packet.directed, Packet.asked, h.inbound,
    Packet.opens, Packet.isTcp, h.flags]

end Ruleset

namespace Evaluation

variable {s : Station} {packet : Packet} {name : String} {port : Nat} {r : Registry} {o : Options}

/-- The rules that are skipped to from before the inbound filter stand at the exit from shaping. -/
theorem skip_of_early (q : Purpose) (early : q.band.base < 7000) {n : Int}
    (h : q.effect = .skip n) : n ≤ shapingExit := by
  have exits := (by decide : ∀ q ∈ Purpose.all, q.band.base < 7000 →
    ∀ n ∈ [shapingExit, knownNetworkExit], q.effect = .skip n → n ≤ shapingExit)
  exact exits q q.mem_all early n (q.skip_mem h) h

theorem not_accepts_knock (indexed : r.Indexed) (unrouted : o.router = none) {on : Int → Bool}
    (always : on 5 = true ∧ on 7 = true) (h : packet.Knocks s name port)
    (foreign : packet.Foreign s r)
    (closed : ∃ word ∈ closedTcpPorts, Ports.covers word port = true) :
    accepts (packet.meets s) on (rules r o) = false := by
  have withheld : ∀ (bound : Int), bound < 11000 → ∀ d ∈ Ruleset.drafts r o,
      d.numbered.number < bound → packet.meets s d.what = true →
      decision d.numbered.effect ≠ some (!false) := by
    intro bound early d hd earlier matched
    have conforms := Ruleset.conforms_drafts indexed o d hd
    have := conforms.fits.within.1
    have withholds := Ruleset.withholds_drafts indexed unrouted h foreign d hd (by omega)
    rw [conforms.effect_eq]
    cases effect : d.purpose.effect with
    | accept =>
        rw [withholds effect] at matched
        cases matched
    | drop => decide
    | skip n => simp [decision]
    | pass => decide
  obtain ⟨word, listed, covered⟩ := closed
  rcases List.mem_append.mp listed with service | auth
  · refine accepts_rules_eq indexed (Ruleset.rejectServiceTcp_mem) always.1 rfl
      (Ruleset.meets_rejectServiceTcp h ⟨word, service, covered⟩) (withheld 5310 (by decide)) ?_
    intro d hd earlier n skips
    have conforms := Ruleset.conforms_drafts indexed o d hd
    have := conforms.fits.within.1
    have early : d.purpose.band.base < 7000 := by
      have : (Ruleset.rejectServiceTcp o).numbered.number = 5310 := rfl
      omega
    rw [conforms.effect_eq] at skips
    exact Int.le_trans (skip_of_early _ early skips) (by decide : shapingExit ≤ 5310)
  · refine accepts_rules_eq indexed (Ruleset.authReset_mem) always.2 rfl
      (Ruleset.meets_authReset h ⟨word, auth, covered⟩) (withheld 7700 (by decide)) ?_
    intro d hd _ n skips
    rw [(Ruleset.conforms_drafts indexed o d hd).effect_eq] at skips
    exact Int.le_trans (d.purpose.skip_le skips) (by decide : knownNetworkExit ≤ 7700)

/-- A host that does not route never accepts a connection to a closed port from a source outside
all declared networks, whatever ports its operator opens. -/
theorem not_programAccepts_of_closed {tokens : List String}
    (declared : (Registry.ofTokens tokens).2 = .ok r) (unrouted : o.router = none)
    (host debugging : Bool) (closed : ∃ word ∈ closedTcpPorts, Ports.covers word port = true) :
    ∃ p, (Policy.compile r o host debugging).result = .ok p ∧
      ∀ (s : Station) (packet : Packet), packet.Knocks s name port → packet.Foreign s r →
        programAccepts (packet.meets s) p.program = false := by
  have indexed := Registry.indexed_of_declared declared
  refine ⟨_, Policy.compile_eq_ok indexed o host debugging, ?_⟩
  intro s packet knocks foreign
  refine not_accepts_knock indexed unrouted ?_ knocks foreign closed
  simp [Policy.assemble, switchedOn, toggleableSets]

theorem foreign_syn (port : Nat) : (Packet.syn port).Foreign .plain .lone where
  loopback := rfl
  networks := by simp [Registry.lone, Interface.bounded, Network.bounded]

/-- All ports are listed here, and these ten are closed all the same. -/
theorem not_programAccepts_of_all_listed :
    (Registry.ofTokens ["en0"]).2 = .ok .lone ∧ Ports.parse "1-65535" = .ok ["1-65535"] ∧
    ∃ p, (Policy.compile .lone { ports := { publicTcp := ["1-65535"] } } false false).result =
        .ok p ∧
      ∀ port ∈ [113, 135, 136, 137, 138, 139, 445, 548, 5000, 5009],
        Ports.covers "1-65535" port = true ∧ (Packet.syn port).Knocks .plain "en0" port ∧
          programAccepts ((Packet.syn port).meets .plain) p.program = false := by
  have indexed := Registry.indexed_of_declared Registry.declared_lone
  refine ⟨Registry.declared_lone, rfl, _, Policy.compile_eq_ok indexed _ false false, ?_⟩
  intro port mem
  have listed : Ports.covers "1-65535" port = true ∧
      ∃ word ∈ closedTcpPorts, Ports.covers word port = true :=
    (by decide +kernel : ∀ port ∈ [113, 135, 136, 137, 138, 139, 445, 548, 5000, 5009],
      Ports.covers "1-65535" port = true ∧
        ∃ word ∈ closedTcpPorts, Ports.covers word port = true) port mem
  refine ⟨listed.1, Packet.knocks_syn port, ?_⟩
  exact not_accepts_knock indexed rfl (by decide) (Packet.knocks_syn port) (foreign_syn port)
    listed.2

end Evaluation
end Firewall

import Firewall.Proofs.Matching
import Firewall.Proofs.PartialInstallation

/-!
Ports that are open on every interface. A connection attempt from a public source reaches the
rule that opens the port, unless the port is one of those that are closed to all networks.
-/

namespace Firewall

/-- The TCP ports that are closed before the opened ones are looked at: services for one kind of
hosts, and the port on which servers ask back. -/
def Ruleset.closedTcpPorts : List String := macTcpPorts ++ windowsTcpPorts ++ authPorts

/-- Networks that no connection attempt from a public network comes from. -/
def Ruleset.unroutable : List String :=
  [zeroNetwork, "10.0.0.0/8", loopbackNetwork, linkLocalNetwork, "172.16.0.0/12",
    "192.168.0.0/16", multicastNetwork]

open Ruleset (closedTcpPorts unroutable)

/-- A plain attempt to connect from a public source to a port of this host. -/
structure Packet.Knocks (s : Station) (name : String) (port : Nat) (p : Packet) : Prop where
  proto : p.proto = "tcp"
  inbound : p.inbound = true
  arrival : s.bound name p.arrival = true
  dst : s.own p.dst = true
  dstPort : p.dstPort = some port
  srcPort : ∃ n, p.srcPort = some n ∧ n ≠ 0
  src : ∀ word ∈ unroutable, s.reads word p.src = false
  flags : p.flags = ["syn"]
  options : p.options = []
  whole : p.fragment = false
  reversible : p.reversible = true

/-- A host at 198.51.100.7 whose interfaces go by their own names. -/
def Station.plain : Station where
  own a := a = 3325256711
  unicast a h := by
    rw [of_decide_eq_true h]
    decide
  named name interface := name = interface

/-- Interfaces go by their own names. -/
def Station.Plain (s : Station) : Prop :=
  ∀ name interface, s.named name interface = decide (name = interface)

theorem Station.plain_plain : plain.Plain := fun _ _ => rfl

theorem Station.Plain.bound_eq {s : Station} (plain : s.Plain) (name interface : String) :
    s.bound name (some interface) = decide (name = interface) :=
  plain name interface

def Packet.syn (port : Nat) : Packet :=
  { proto := "tcp", src := 3221225985, dst := 3325256711, srcPort := some 40000,
    dstPort := some port, inbound := true, arrival := some "en0", flags := ["syn"] }

theorem Packet.knocks_syn (port : Nat) : (syn port).Knocks .plain "en0" port where
  proto := rfl
  inbound := rfl
  arrival := rfl
  dst := rfl
  dstPort := rfl
  srcPort := ⟨40000, rfl, by decide⟩
  src := (by decide :
    ∀ word ∈ unroutable, Station.plain.reads word 3221225985 = false)
  flags := rfl
  options := rfl
  whole := rfl
  reversible := rfl

namespace Station

variable (s : Station)

@[simp] theorem reads_any (a : Nat) : s.reads "any" a = true := rfl

@[simp] theorem reads_me (a : Nat) : s.reads "me" a = s.own a := rfl

theorem reads_multicast {a : Nat} (own : s.own a = true) :
    s.reads Ruleset.multicastNetwork a = false :=
  s.unicast a own

theorem reads_of_multicast {word : String} (group : Nat)
    (single : Network.parse word = .ok (.block { address := group, length := 32 }))
    (multicast : Block.classDE.contains group = true) {a : Nat} (own : s.own a = true)
    (me : word ≠ "me") : s.reads word a = false := by
  have other : a ≠ group := by
    intro same
    rw [← same, s.unicast a own] at multicast
    cases multicast
  simp [reads, me, single, Block.contains, Block.size, other]

theorem reads_ssdp {a : Nat} (own : s.own a = true) : s.reads Ruleset.ssdpAddress a = false :=
  s.reads_of_multicast 4026531837 rfl (by decide) own (by decide)

theorem reads_broadcast {a : Nat} (own : s.own a = true) :
    s.reads Ruleset.broadcastAddress a = false :=
  s.reads_of_multicast 4294967295 rfl (by decide) own (by decide)

end Station

theorem Ports.covers_zero (port : Nat) : covers "0" port = decide (0 = port) := rfl

namespace Packet

variable {s : Station} {p : Packet} {m : Match}

theorem not_meets_of_src (h : s.endpoint m.src p.src p.srcPort = false) :
    p.meets s m = false := by
  simp [meets, h]

theorem not_meets_of_dst (h : s.endpoint m.dst p.dst p.dstPort = false) :
    p.meets s m = false := by
  simp [meets, h]

theorem not_meets_of_word {word : String} (src : m.src = Ruleset.one word)
    (h : s.reads word p.src = false) : p.meets s m = false := by
  refine not_meets_of_src ?_
  simp [src, Station.endpoint, Ruleset.one, h]

namespace Knocks

variable {name : String} {port : Nat}

/-- What asks for another protocol, another direction, other flags, options or a damaged packet
does not ask for a connection attempt. -/
theorem not_meets (h : p.Knocks s name port) (other : m.proto = "udp" ∨ m.direction = .outbound ∨
      (∃ flag, flag ∈ m.tcpFlags ∧ p.flagged flag = false) ∨ m.established = true ∨
      m.frag = true ∨ m.badReversePath = true ∨
      ∃ option, m.ipOptions = some option ∧ option ≠ "") : p.meets s m = false := by
  rcases other with h' | h' | ⟨flag, hflag, h'⟩ | h' | h' | h' | ⟨option, h', some_⟩
  · simp [meets, h', h.proto]
  · simp [meets, h', directed, h.inbound]
  · have unset : m.tcpFlags.all p.flagged = false := by
      rw [List.all_eq_false]
      exact ⟨flag, hflag, by simp [h']⟩
    have asked : m.tcpFlags ≠ [] := List.ne_nil_of_mem hflag
    simp [meets, unset, asked]
  · simp [meets, h', continues, h.flags]
  · simp [meets, h', h.whole]
  · simp [meets, h', h.reversible]
  · simp [meets, h', asked, h.options, some_]

theorem not_meets_of_port (h : p.Knocks s name port) {words addresses : List String}
    (dst : m.dst = { addresses, ports := words }) (nonempty : words ≠ [])
    (free : ∀ word ∈ words, Ports.covers word port = false) : p.meets s m = false := by
  refine not_meets_of_dst ?_
  have none_ : (words.any fun word => Ports.covers word port) = false := by
    rw [List.any_eq_false]
    intro word hword
    simp [free word hword]
  simp [dst, Station.endpoint, h.dstPort, none_, nonempty]

end Knocks
end Packet

def Draft.Spares (s : Station) (p : Packet) (d : Draft) : Prop :=
  d.purpose.effect = .drop → p.meets s d.what = false

namespace Ruleset

open Draft (Spares)

variable {s : Station} {p : Packet} {name : String} {port : Nat} {r : Registry} {o : Options}

private theorem spares_of_effect {d : Draft} (h : decide (d.purpose.effect = .drop) = false) :
    d.Spares s p :=
  fun drops => absurd drops (of_decide_eq_false h)

private theorem spares_of_effects {ds : List Draft}
    (h : (ds.all fun d => d.purpose.effect != .drop) = true) : ∀ d ∈ ds, d.Spares s p := by
  intro d hd drops
  have other := List.all_eq_true.mp h d hd
  simp [drops] at other

theorem spares_baseline (h : p.Knocks s name port) (positive : 0 < port) :
    ∀ d ∈ baseline r o, d.Spares s p := by
  have fin : p.flagged "fin" = false := by simp [Packet.flagged, h.flags]
  have rst : p.flagged "rst" = false := by simp [Packet.flagged, h.flags]
  have odd : ∀ d ∈ abnormal, d.Spares s p := by
    obtain ⟨n, srcPort, nonzero⟩ := h.srcPort
    simp only [abnormal, List.forall_mem_cons]
    refine ⟨fun _ => h.not_meets (by simp [fin]), fun _ => h.not_meets (by simp [rst]),
      fun _ => Packet.not_meets_of_src ?_, fun _ => Packet.not_meets_of_dst ?_,
      fun _ => h.not_meets (by simp), fun _ => h.not_meets (by simp), by simp⟩
    · simp [Endpoint.anyAt, zeroPort, Station.endpoint, srcPort, Ports.covers_zero, nonzero.symm]
    · simp [Endpoint.anyAt, zeroPort, Station.endpoint, h.dstPort, Ports.covers_zero,
        Nat.ne_of_lt positive]
  refine forall_mem_baseline (spares_of_effect rfl) (fun _ => spares_of_effect rfl)
    (spares_of_effects rfl) ?_ odd
  intro purpose option denied _
  obtain ⟨_, _, _, some_⟩ := drop_of_denied denied
  exact h.not_meets (by simp [optionRule, some_])

theorem spares_state (h : p.Knocks s name port) : ∀ d ∈ state o, d.Spares s p := by
  simp only [state, List.forall_mem_cons]
  exact ⟨spares_of_effect rfl, fun _ => h.not_meets (by simp),
    fun _ => h.not_meets (by simp), by simp⟩

theorem spares_contained {purpose : Purpose} {address : String}
    (elsewhere : s.reads address p.dst = false) : (contained o purpose address).Spares s p := by
  intro _
  refine Packet.not_meets_of_dst ?_
  simp [contained, Station.endpoint, elsewhere]

theorem spares_trusted (h : p.Knocks s name port)
    (free : ∀ word ∈ closedTcpPorts, Ports.covers word port = false) :
    ∀ d ∈ trusted r o, d.Spares s p := by
  have icmp : ∀ d ∈ (r.interfaces.filter (·.trusted)).map (trustedIcmp o), d.Spares s p := by
    intro d hd
    obtain ⟨i, _, rfl⟩ := List.mem_map.mp hd
    exact spares_of_effect rfl
  simp only [trusted, List.forall_mem_append, List.forall_mem_cons]
  refine ⟨icmp, spares_contained (s.reads_multicast h.dst), spares_contained (s.reads_ssdp h.dst),
    spares_contained (s.reads_broadcast h.dst), fun _ => h.not_meets (by simp),
    fun _ => h.not_meets_of_port rfl (by decide) ?_, by simp⟩
  intro word hword
  exact free word (List.mem_append_left _ hword)

theorem spares_inboundFilter (h : p.Knocks s name port)
    (free : ∀ word ∈ closedTcpPorts, Ports.covers word port = false) :
    ∀ d ∈ inboundFilter r o, d.Spares s p := by
  have known : ∀ d ∈ (r.interfaces.filter (·.bounded)).map knownNetwork, d.Spares s p := by
    intro d hd
    obtain ⟨i, _, rfl⟩ := List.mem_map.mp hd
    exact spares_of_effect rfl
  have honest : ∀ d ∈ forged (publicNames r), d.Spares s p := by
    unfold forged
    split
    · simp
    · intro d hd _
      obtain ⟨⟨purpose, source⟩, mem, rfl⟩ := List.mem_map.mp hd
      have listed : source ∈ unroutable :=
        (by decide : ∀ entry ∈ forgedSources, entry.2 ∈ unroutable) (purpose, source) mem
      exact Packet.not_meets_of_word rfl (h.src source listed)
  simp only [inboundFilter, List.forall_mem_append, List.forall_mem_cons]
  refine ⟨⟨⟨⟨fun _ => h.not_meets (by simp), fun _ => Packet.not_meets_of_dst ?_,
    fun _ => h.not_meets (by simp), by simp⟩, known⟩, honest⟩,
    fun _ => Packet.not_meets_of_src ?_,
    fun _ => Packet.not_meets_of_word rfl (h.src _ (by decide)),
    fun _ => Packet.not_meets_of_word rfl (h.src _ (by decide)),
    fun _ => h.not_meets_of_port rfl (by decide) ?_, by simp⟩
  · simp [Station.endpoint, h.dst]
  · simp [Station.endpoint, one, h.src zeroNetwork (by decide)]
  · intro word hword
    exact free word (List.mem_append_right _ hword)

/-- Before the default-deny set no rule drops a connection attempt to a port that is not closed
to all networks. -/
theorem spares_drafts (indexed : r.Indexed) (h : p.Knocks s name port) (positive : 0 < port)
    (free : ∀ word ∈ closedTcpPorts, Ports.covers word port = false) :
    ∀ d ∈ drafts r o, d.purpose.band.set ≠ defaultDenySet → d.Spares s p := by
  have elsewhere {set : Int} {ds : List Draft} (conforms : ∀ d ∈ ds, d.Conforms set)
      (quiet : set ∉ Purpose.droppingSets) : ∀ d ∈ ds, d.Spares s p :=
    fun d hd => spares_of_effect (decide_eq_false ((conforms d hd).effect_ne_drop quiet))
  intro d hd open_
  have closing : d ∉ defaultDeny r o := fun mem => open_ (conforms_defaultDeny o d mem).set_eq
  simp only [drafts, List.mem_append, closing, or_false] at hd
  rcases hd with ((((((((((hd | hd) | hd) | hd) | hd) | hd) | hd) | hd) | hd) | hd) | hd)
  · exact spares_baseline h positive d hd
  · exact elsewhere (conforms_routing o) (by decide) d hd
  · exact spares_state h d hd
  · exact elsewhere (conforms_macServices indexed o) (by decide) d hd
  · exact elsewhere (conforms_windowsServices indexed o) (by decide) d hd
  · exact spares_trusted h free d hd
  · exact elsewhere (conforms_bootstrap o) (by decide) d hd
  · exact spares_inboundFilter h free d hd
  · exact elsewhere (conforms_shaping indexed) (by decide) d hd
  · exact elsewhere (conforms_outbound o) (by decide) d hd
  · exact elsewhere (conforms_openPorts indexed o) (by decide) d hd

end Ruleset

namespace Evaluation

open Policy (rules)

variable {s : Station} {packet : Packet} {r : Registry} {o : Options}

def publicTcp (o : Options) (i : Interface) : Draft :=
  { purpose := .publicTcp, action := .allow, index := some i.index, log := o.logAll,
    what := { proto := "tcp", src := .network i.network,
              dst := { addresses := ["me"], ports := o.ports.publicTcp },
              direction := .inbound, via := [i.name], setup := true, keepState := true } }

theorem publicTcp_mem {i : Interface} (hi : i ∈ r.interfaces) (listed : o.ports.publicTcp ≠ []) :
    publicTcp o i ∈ Ruleset.drafts r o := by
  have here : publicTcp o i ∈ Ruleset.openPorts r o := by
    refine List.mem_flatMap.mpr ⟨i, hi, ?_⟩
    simp [Ruleset.openPortsOf, Ruleset.openTo, listed, publicTcp]
  simp [Ruleset.drafts, here]

theorem meets_publicTcp {i : Interface} (unbounded : i.bounded = false) {word : String}
    {port : Nat} (listed : word ∈ o.ports.publicTcp) (covered : Ports.covers word port = true)
    (h : packet.Knocks s i.name port) : packet.meets s (publicTcp o i).what = true := by
  have everywhere : i.network = .any := by
    cases network : i.network with
    | any => rfl
    | block b => simp [Interface.bounded, network, Network.bounded] at unbounded
  have src : s.endpoint (.network i.network) packet.src packet.srcPort = true := by
    simp [everywhere, Endpoint.network, Network.text, Station.endpoint]
  have dst : s.endpoint { addresses := ["me"], ports := o.ports.publicTcp } packet.dst
      packet.dstPort = true := by
    have some_ : (o.ports.publicTcp.any fun word => Ports.covers word port) = true :=
      List.any_eq_true.mpr ⟨word, listed, covered⟩
    simp [Station.endpoint, h.dst, h.dstPort, some_]
  have arrival : s.bound i.name packet.interface = true := by
    simpa [Packet.interface, h.inbound] using h.arrival
  simp [publicTcp, Packet.meets, src, dst, arrival, h.proto, Packet.directed, h.inbound,
    Packet.asked, Packet.opens, Packet.isTcp, h.flags]

theorem accepts_knock (indexed : r.Indexed) {on : Int → Bool} (opened : on 20 = true)
    {i : Interface} (hi : i ∈ r.interfaces) (unbounded : i.bounded = false) {word : String}
    {port : Nat} (listed : word ∈ o.ports.publicTcp) (covered : Ports.covers word port = true)
    (positive : 0 < port) (free : ∀ word ∈ closedTcpPorts, Ports.covers word port = false)
    (h : packet.Knocks s i.name port) : accepts (packet.meets s) on (rules r o) = true := by
  have mem := publicTcp_mem (o := o) hi (List.ne_nil_of_mem listed)
  have place : 20200 ≤ (publicTcp o i).numbered.number ∧
      (publicTcp o i).numbered.number < 30000 := by
    have := indexed.bounds hi
    have : (publicTcp o i).numbered.number = 20200 + i.index := rfl
    unfold maxInterfaces at *
    omega
  refine accepts_rules_eq indexed mem opened rfl (meets_publicTcp unbounded listed covered h) ?_ ?_
  · intro d hd earlier matched
    have conforms := Ruleset.conforms_drafts indexed o d hd
    have open_ : d.purpose.band.set ≠ defaultDenySet := by
      intro closing
      have := (d.purpose.base_of_closing closing).1
      have := conforms.fits.within.1
      omega
    have spared := Ruleset.spares_drafts indexed h positive free d hd open_
    rw [conforms.effect_eq]
    cases drops : d.purpose.effect with
    | drop =>
        rw [spared drops] at matched
        cases matched
    | accept => decide
    | skip n => simp [decision]
    | pass => decide
  · intro d hd _ n skips
    rw [(Ruleset.conforms_drafts indexed o d hd).effect_eq] at skips
    have := d.purpose.skip_le skips
    have : knownNetworkExit ≤ 20200 := by decide
    omega

/-- A port that is open on every interface is reached from the public network on an interface
without a network of its own, unless it is one of the ports that are closed to all networks. -/
theorem programAccepts_of_knock {tokens : List String}
    (declared : (Registry.ofTokens tokens).2 = .ok r) (host debugging : Bool) {i : Interface}
    (hi : i ∈ r.interfaces) (unbounded : i.bounded = false) {word : String} {port : Nat}
    (listed : word ∈ o.ports.publicTcp) (covered : Ports.covers word port = true)
    (positive : 0 < port) (free : ∀ word ∈ closedTcpPorts, Ports.covers word port = false) :
    ∃ p, (Policy.compile r o host debugging).result = .ok p ∧
      ∀ (s : Station) (packet : Packet), packet.Knocks s i.name port →
        programAccepts (packet.meets s) p.program = true := by
  have indexed := Registry.indexed_of_declared declared
  refine ⟨_, Policy.compile_eq_ok indexed o host debugging, ?_⟩
  intro s packet knocks
  have some_ : 0 < r.size := List.length_pos_of_mem hi
  refine accepts_knock indexed ?_ hi unbounded listed covered positive free knocks
  simp [Policy.assemble, switchedOn, some_]

theorem programAccepts_of_knock_ssh :
    ∃ p, (Policy.compile .lone { ports := { publicTcp := ["20-25"] } } false false).result = .ok p ∧
      programAccepts ((Packet.syn 22).meets .plain) p.program = true := by
  obtain ⟨p, compiled, accepted⟩ := programAccepts_of_knock
    (o := { ports := { publicTcp := ["20-25"] } }) Registry.declared_lone false false
    List.mem_cons_self rfl List.mem_cons_self (by decide +kernel : Ports.covers "20-25" 22 = true)
    (by decide) (by decide +kernel)
  exact ⟨p, compiled, accepted _ _ (Packet.knocks_syn 22)⟩

end Evaluation
end Firewall

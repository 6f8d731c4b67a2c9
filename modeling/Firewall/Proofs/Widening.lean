import Firewall.Proofs.Declaring
import Firewall.Proofs.PublicPorts

/-!
Policies that grant more. Trust and services only bring further rules that accept, and further
ports widen the match of such a rule or bring one; so a policy that grants more accepts every
packet that it accepted before.
-/

namespace Firewall

/-! ### What is granted -/

/-- The same declaration, with trust or services that may be added. -/
structure Interface.Wider (i j : Interface) : Prop where
  name_eq : j.name = i.name
  network_eq : j.network = i.network
  rates_eq : j.rates = i.rates
  index_eq : j.index = i.index
  trusted : i.trusted = true → j.trusted = true
  mac : i.hosts.mac = true → j.hosts.mac = true
  windows : i.hosts.windows = true → j.hosts.windows = true

def Registry.Wider (r r' : Registry) : Prop :=
  List.Forall₂ Interface.Wider r.interfaces r'.interfaces

def OpenPorts.Wider (p q : OpenPorts) : Prop := ∀ l, p.get l ⊆ q.get l

/-- The same match, or the same with more destination ports in a list that is not empty. -/
inductive Match.Wider (m : Match) : Match → Prop
  | same : Wider m m
  | ports (more : List String) (listed : m.dst.ports ≠ [])
      (asserted : m.dst.portsNegate = false) (sub : m.dst.ports ⊆ more) :
      Wider m { m with dst := { m.dst with ports := more } }

theorem Interface.Wider.bounded_eq {i j : Interface} (h : i.Wider j) : j.bounded = i.bounded := by
  unfold bounded
  rw [h.network_eq]

namespace Draft

/-- The second drafts hold the first ones, with wider matches perhaps, and besides these only such
as accept. -/
structure Widens (ds es : List Draft) : Prop where
  kept : ∀ d ∈ ds, ∃ e ∈ es, e.purpose = d.purpose ∧ d.what.Wider e.what
  added : ∀ e ∈ es, e ∈ ds ∨ e.purpose.effect = .accept

variable {ds es ds' es' : List Draft}

theorem Widens.refl (ds : List Draft) : Widens ds ds :=
  ⟨fun d hd => ⟨d, hd, rfl, .same⟩, fun _ he => Or.inl he⟩

theorem Widens.of_eq (same : es = ds) : Widens ds es := same ▸ .refl ds

theorem Widens.of_accept (accept : ∀ e ∈ es, e.purpose.effect = .accept) : Widens [] es :=
  ⟨by simp, fun e he => Or.inr (accept e he)⟩

theorem Widens.append (h : Widens ds es) (h' : Widens ds' es') :
    Widens (ds ++ ds') (es ++ es') := by
  constructor
  · intro d hd
    rcases List.mem_append.mp hd with hd | hd
    · obtain ⟨e, he, alike⟩ := h.kept d hd
      exact ⟨e, List.mem_append_left _ he, alike⟩
    · obtain ⟨e, he, alike⟩ := h'.kept d hd
      exact ⟨e, List.mem_append_right _ he, alike⟩
  · intro e he
    rcases List.mem_append.mp he with he | he
    · exact (h.added e he).imp_left (List.mem_append_left _)
    · exact (h'.added e he).imp_left (List.mem_append_right _)

theorem Widens.flatMap {is js : List Interface} {f g : Interface → List Draft}
    (wider : List.Forall₂ Interface.Wider is js)
    (each : ∀ i j, Interface.Wider i j → Widens (f i) (g j)) :
    Widens (is.flatMap f) (js.flatMap g) := by
  induction wider with
  | nil => exact .refl _
  | cons here _ ih => exact (each _ _ here).append ih

/-- A gate that opens adds drafts that accept. -/
theorem Widens.gated {c c' : Bool} (opens : c = true → c' = true) (h : Widens ds es)
    (accept : ∀ e ∈ es, e.purpose.effect = .accept) :
    Widens (if c then ds else []) (if c' then es else []) := by
  cases c with
  | true => simpa [opens rfl] using h
  | false =>
      cases c' with
      | true => exact .of_accept accept
      | false => exact .refl _

/-- Where more interfaces are wanted, and what each of them gets accepts, the drafts widen. -/
theorem Widens.filter_flatMap {is js : List Interface} {p : Interface → Bool}
    {f g : Interface → List Draft} (wider : List.Forall₂ Interface.Wider is js)
    (opens : ∀ i j, Interface.Wider i j → p i = true → p j = true)
    (each : ∀ i j, Interface.Wider i j → Widens (f i) (g j))
    (accept : ∀ j, ∀ e ∈ g j, e.purpose.effect = .accept) :
    Widens ((is.filter p).flatMap f) ((js.filter p).flatMap g) := by
  have own (xs : List Interface) (h : Interface → List Draft) :
      (xs.filter p).flatMap h = xs.flatMap fun x => if p x then h x else [] := by
    induction xs with
    | nil => rfl
    | cons x rest ih => cases wanted : p x <;> simp [wanted, ih]
  rw [own is, own js]
  exact .flatMap wider fun i j here => (each i j here).gated (opens i j here) (accept j)

end Draft

/-! ### Wider policies -/

namespace Ruleset

open Draft (Widens)

variable {r r' : Registry} {o : Options} {q : OpenPorts} {i j : Interface}

theorem map_filter_of_wider {α : Type} {p : Interface → Bool} {f : Interface → α}
    {is js : List Interface} (wider : List.Forall₂ Interface.Wider is js)
    (same : ∀ i j, Interface.Wider i j → p j = p i ∧ f j = f i) :
    (js.filter p).map f = (is.filter p).map f := by
  induction wider with
  | nil => rfl
  | @cons i j is js here _ ih =>
      obtain ⟨wanted, value⟩ := same i j here
      rw [List.filter_cons, List.filter_cons, wanted]
      split
      · rw [List.map_cons, List.map_cons, value, ih]
      · exact ih

theorem names_of_wider (wider : r.Wider r') : r'.names = r.names := by
  have same := map_filter_of_wider (p := fun _ => true) wider fun _ _ here => ⟨rfl, here.name_eq⟩
  simp only [List.filter_true] at same
  unfold Registry.names
  rw [same]

theorem publicNames_of_wider (wider : r.Wider r') : publicNames r' = publicNames r := by
  unfold publicNames Registry.namesWhere
  rw [map_filter_of_wider wider fun _ _ here => ⟨by rw [here.bounded_eq], here.name_eq⟩]

theorem service_of_wider (h : i.Wider j) (purpose : Purpose) (proto : String)
    (groups ports : List String) :
    service { o with ports := q } j purpose proto groups ports =
      service o i purpose proto groups ports := by
  simp only [service, h.name_eq, h.network_eq, h.index_eq]

theorem broadcasts_of_wider (h : i.Wider j) (multicast ssdp broadcast : Purpose) :
    broadcasts { o with ports := q } j multicast ssdp broadcast =
      broadcasts o i multicast ssdp broadcast := by
  simp only [broadcasts, h.name_eq, h.network_eq, h.index_eq]

/-- The services of one kind of hosts only widen. -/
theorem widens_serviceRules {wanted : HostKinds → Bool} {f g : Interface → List Draft}
    (wider : r.Wider r') (more : ∀ i j, Interface.Wider i j → wanted i.hosts = true →
      wanted j.hosts = true) (same : ∀ i j, Interface.Wider i j → g j = f i)
    (accept : ∀ j, ∀ e ∈ g j, e.purpose.effect = .accept) :
    Widens (serviceRules r wanted f) (serviceRules r' wanted g) := by
  refine .filter_flatMap wider ?_ (fun i j here => .of_eq (same i j here)) accept
  intro i j here
  rw [here.bounded_eq, Bool.and_eq_true, Bool.and_eq_true]
  exact And.imp_left (more i j here)

theorem widens_trusted (wider : r.Wider r') :
    Widens (trusted r o) (trusted r' { o with ports := q }) := by
  have icmp (r : Registry) (o : Options) : (r.interfaces.filter (·.trusted)).map (trustedIcmp o) =
      (r.interfaces.filter (·.trusted)).flatMap fun i => [trustedIcmp o i] :=
    List.map_eq_flatMap
  unfold trusted
  rw [icmp, icmp]
  refine .append (.filter_flatMap wider (fun _ _ here => here.trusted) ?_ ?_) (.refl _)
  · intro i j here
    refine .of_eq ?_
    simp only [trustedIcmp, here.name_eq, here.network_eq, here.index_eq]
  · intro j
    rw [List.forall_mem_singleton]
    rfl

theorem inboundFilter_of_wider (wider : r.Wider r') :
    inboundFilter r' { o with ports := q } = inboundFilter r o := by
  have known : (r'.interfaces.filter (·.bounded)).map knownNetwork =
      (r.interfaces.filter (·.bounded)).map knownNetwork :=
    map_filter_of_wider wider fun i j here => ⟨here.bounded_eq, by
      simp only [knownNetwork, here.name_eq, here.network_eq, here.index_eq]⟩
  simp only [inboundFilter, names_of_wider wider, publicNames_of_wider wider, known]

theorem widens_shaping (wider : r.Wider r') : Widens (shaping r) (shaping r') := by
  rw [shaping_eq_flatMap, shaping_eq_flatMap]
  refine .flatMap wider fun i j here => .of_eq ?_
  have allocated (rates : Rates) : Shaping.allocate j rates = Shaping.allocate i rates := by
    simp only [Shaping.allocate, here.name_eq, here.index_eq]
  unfold shapingOf
  rw [here.rates_eq, funext allocated]

theorem accept_openTo {purpose : Purpose} (listed : purpose ∈ openings) {proto : String}
    {ports : List String} : ∀ d ∈ openTo o i purpose proto ports, d.purpose.effect = .accept := by
  intro d hd
  obtain ⟨-, rfl⟩ := eq_of_mem_openTo hd
  exact (by decide : ∀ p ∈ openings, p.effect = .accept) purpose listed

/-- Ports that are added to an empty list bring a rule, others go into the rule that is there. -/
theorem widens_openTo (here : i.Wider j) {purpose : Purpose} (listed : purpose ∈ openings)
    (proto : String) {ports more : List String} (sub : ports ⊆ more) :
    Widens (openTo o i purpose proto ports)
      (openTo { o with ports := q } j purpose proto more) := by
  refine ⟨fun d hd => ?_, fun e he => Or.inr (accept_openTo listed e he)⟩
  obtain ⟨some_, rfl⟩ := eq_of_mem_openTo hd
  have some_more : more ≠ [] := fun none_ => some_ (List.subset_nil.mp (none_ ▸ sub))
  unfold openTo
  rw [if_neg (by simpa using some_more)]
  refine ⟨_, List.mem_singleton.mpr rfl, rfl, ?_⟩
  rw [here.name_eq, here.network_eq]
  exact .ports more some_ rfl sub

theorem widens_openPorts (wider : r.Wider r') (more : o.ports.Wider q) :
    Widens (openPorts r o) (openPorts r' { o with ports := q }) := by
  refine .flatMap wider fun i j here => ?_
  have tier {c c' : Bool} (opens : c = true → c' = true) (tcp udp : Purpose)
      (tcp_listed : tcp ∈ openings) (udp_listed : udp ∈ openings) (l m : PortList) :
      Widens
        (if c then openTo o i tcp "tcp" (o.ports.get l) ++ openTo o i udp "udp" (o.ports.get m)
          else [])
        (if c' then openTo { o with ports := q } j tcp "tcp" (q.get l) ++
          openTo { o with ports := q } j udp "udp" (q.get m) else []) := by
    refine .gated opens (.append ?_ ?_) ?_
    · exact widens_openTo here tcp_listed "tcp" (more l)
    · exact widens_openTo here udp_listed "udp" (more m)
    · rw [List.forall_mem_append]
      exact ⟨accept_openTo tcp_listed, accept_openTo udp_listed⟩
  have nearer : (i.bounded || i.trusted) = true → (j.bounded || j.trusted) = true := by
    rw [here.bounded_eq, Bool.or_eq_true, Bool.or_eq_true]
    exact Or.imp_right here.trusted
  have trusted_ := tier here.trusted .trustedTcp .trustedUdp (by decide) (by decide)
    .trustedTcp .trustedUdp
  have local_ := tier nearer .localTcp .localUdp (by decide) (by decide) .localTcp .localUdp
  exact ((trusted_.append local_).append
    (widens_openTo here (by decide) "tcp" (more .publicTcp))).append
    (widens_openTo here (by decide) "udp" (more .publicUdp))

theorem effect_of_service (p : Purpose) (h : p.band.set = 3 ∨ p.band.set = 4) :
    p.effect = .accept :=
  (by decide : ∀ p ∈ Purpose.all, p.band.set = 3 ∨ p.band.set = 4 → p.effect = .accept)
    p p.mem_all h

/-- A policy for the same interfaces that grants more has the same rules, with more ports in some
of them, and further rules that accept. -/
theorem widens_drafts (wider : r.Wider r') (more : o.ports.Wider q) :
    Widens (drafts r o) (drafts r' { o with ports := q }) := by
  have names := names_of_wider wider
  have mac : Widens (macServices r o) (macServices r' { o with ports := q }) := by
    refine widens_serviceRules wider (fun _ _ here => here.mac) ?_ ?_
    · intro i j here
      simp only [macRules, service_of_wider here, broadcasts_of_wider here]
    · exact fun j e he => effect_of_service _ (Or.inl (serves_macRules _ j e he).set_eq)
  have windows : Widens (windowsServices r o) (windowsServices r' { o with ports := q }) := by
    refine widens_serviceRules wider (fun _ _ here => here.windows) ?_ ?_
    · intro i j here
      simp only [windowsRules, service_of_wider here, broadcasts_of_wider here]
    · exact fun j e he => effect_of_service _ (Or.inr (serves_windowsRules _ j e he).set_eq)
  unfold drafts
  refine .append (.append (.append (.append (.append (.append (.append (.append (.append (.append
    (.append ?_ ?_) ?_) mac) windows) (widens_trusted wider)) ?_) ?_) (widens_shaping wider)) ?_)
    (widens_openPorts wider more)) ?_
  · exact .of_eq (by simp only [baseline, names])
  · exact .refl _
  · exact .refl _
  · exact .of_eq (by simp only [bootstrap, names])
  · exact .of_eq (inboundFilter_of_wider wider)
  · exact .of_eq (by simp only [outbound, names])
  · exact .of_eq (by simp only [defaultDeny, names])

end Ruleset

/-! ### More packets -/

namespace Evaluation

open Draft (Widens)

/-- A match is the conjunction of its fields, and a list of destination ports a disjunction: an
empty one means any port. -/
def ReadsPorts (holds : Match → Bool) : Prop :=
  ∃ covers : String → Bool, ∀ (m : Match) (ports : List String), m.dst.portsNegate = false →
    holds { m with dst := { m.dst with ports } } =
      (holds { m with dst := { m.dst with ports := [] } } && (ports.isEmpty || ports.any covers))

variable {holds : Match → Bool} {on : Int → Bool} {ds es : List Draft}

theorem readsPorts_meets (s : Station) (packet : Packet) : ReadsPorts (packet.meets s) := by
  let covers (word : String) : Bool := packet.dstPort.any (Ports.covers word)
  refine ⟨covers, fun m ports asserted => ?_⟩
  have listed : packet.dstPort.any (fun n => ports.any (Ports.covers · n)) = ports.any covers := by
    cases port : packet.dstPort <;> simp [covers, port]
  have endpoint : s.endpoint { m.dst with ports } packet.dst packet.dstPort =
      (s.endpoint { m.dst with ports := [] } packet.dst packet.dstPort &&
        (ports.isEmpty || ports.any covers)) := by
    simp [Station.endpoint, listed, asserted]
  simp only [Packet.meets, endpoint]
  ac_rfl

theorem ReadsPorts.holds_of_wider (reads : ReadsPorts holds) {m n : Match} (wider : m.Wider n)
    (matched : holds m = true) : holds n = true := by
  obtain ⟨covers, law⟩ := reads
  cases wider with
  | same => exact matched
  | ports more listed asserted sub =>
      have own : holds m = _ := law m m.dst.ports asserted
      rw [own, Bool.and_eq_true] at matched
      obtain ⟨rest, covered⟩ := matched
      have covered : m.dst.ports.any covers = true := by simpa [listed] using covered
      obtain ⟨word, hword, covers_⟩ := List.any_eq_true.mp covered
      have among : more.any covers = true := List.any_eq_true.mpr ⟨word, sub hword, covers_⟩
      rw [law m more asserted, rest, among]
      simp

theorem fires_of_widens (reads : ReadsPorts holds) (on : Int → Bool) (widens : Widens ds es)
    (p : Purpose) : (fires holds on ds p = true → fires holds on es p = true) ∧
      (p.effect ≠ .accept → fires holds on es p = fires holds on ds p) := by
  have more : fires holds on ds p = true → fires holds on es p = true := by
    simp only [fires, Bool.and_eq_true, List.any_eq_true, decide_eq_true_eq]
    rintro ⟨isOn, d, hd, purpose, matched⟩
    obtain ⟨e, he, same, wider⟩ := widens.kept d hd
    exact ⟨isOn, e, he, same.trans purpose, reads.holds_of_wider wider matched⟩
  refine ⟨more, fun other => Bool.eq_iff_iff.mpr ⟨?_, more⟩⟩
  simp only [fires, Bool.and_eq_true, List.any_eq_true, decide_eq_true_eq]
  rintro ⟨isOn, e, he, purpose, matched⟩
  have mem := (widens.added e he).resolve_right fun accepts => other (purpose ▸ accepts)
  exact ⟨isOn, e, mem, purpose, matched⟩

/-- Where more accepting purposes have a rule that matches a packet, and all others stay as they
are, no packet is lost. -/
theorem acceptsBy_mono {fires fires' : Purpose → Bool}
    (more : ∀ p, fires p = true → fires' p = true)
    (same : ∀ p, p.effect ≠ .accept → fires' p = fires p) {start : Option Int} {ps : List Purpose}
    (accepted : acceptsBy fires start ps = true) : acceptsBy fires' start ps = true := by
  induction ps generalizing start with
  | nil => rfl
  | cons p rest ih =>
      rw [acceptsBy] at accepted ⊢
      cases past : start.any (p.band.base < ·) with
      | true =>
          simp only [past, Bool.true_or, if_true] at accepted ⊢
          exact ih accepted
      | false =>
          simp only [past, Bool.false_or] at accepted ⊢
          cases fired' : fires' p with
          | false =>
              have fired : fires p = false := by
                cases fired : fires p with
                | false => rfl
                | true => rw [more p fired] at fired'; cases fired'
              simp only [fired, Bool.not_false, if_true] at accepted ⊢
              exact ih accepted
          | true =>
              simp only [Bool.not_true, Bool.false_eq_true, if_false]
              cases effect : p.effect with
              | accept => rfl
              | drop =>
                  rw [← same p (by simp [effect]), fired'] at accepted
                  simp [effect, Effect.follow] at accepted
              | skip _ | pass =>
                  rw [← same p (by simp [effect]), fired'] at accepted
                  simp only [Bool.not_true, Bool.false_eq_true, if_false, effect,
                    Effect.follow] at accepted ⊢
                  exact ih accepted

end Evaluation

/-! ### One grant after the other -/

/-- What an operator may grant: a mark to one interface, or ports to one of the lists. -/
inductive Grant
  | mark (k : Nat) (m : Interface.Mark)
  | ports (l : PortList) (more : List String)
deriving DecidableEq, Repr

namespace Grant

def tokens (ts : List String) : Grant → List String
  | mark k m => ts.modify k (Interface.amended m.text)
  | ports _ _ => ts

def registry (r : Registry) : Grant → Registry
  | mark k m => { r with interfaces := r.interfaces.modify k m.on }
  | ports _ _ => r

def options (o : Options) : Grant → Options
  | mark _ _ => o
  | ports l more => { o with ports := o.ports.append l more }

end Grant

theorem Interface.Wider.refl (i : Interface) : i.Wider i :=
  ⟨rfl, rfl, rfl, rfl, id, id, id⟩

theorem Interface.Wider.trans {i j k : Interface} (h : i.Wider j) (h' : j.Wider k) : i.Wider k where
  name_eq := h'.name_eq.trans h.name_eq
  network_eq := h'.network_eq.trans h.network_eq
  rates_eq := h'.rates_eq.trans h.rates_eq
  index_eq := h'.index_eq.trans h.index_eq
  trusted := h'.trusted ∘ h.trusted
  mac := h'.mac ∘ h.mac
  windows := h'.windows ∘ h.windows

theorem Interface.Mark.wider_on (m : Interface.Mark) (i : Interface) : i.Wider (m.on i) := by
  cases m with
  | trust => exact ⟨rfl, rfl, rfl, rfl, fun _ => rfl, id, id⟩
  | mac => exact ⟨rfl, rfl, rfl, rfl, id, fun _ => rfl, id⟩
  | windows => exact ⟨rfl, rfl, rfl, rfl, id, id, fun _ => rfl⟩

theorem Registry.Wider.refl (r : Registry) : r.Wider r := List.forall₂_same.mpr fun i _ => .refl i

theorem Registry.Wider.mark {r r' : Registry} (h : r.Wider r') (k : Nat) (m : Interface.Mark) :
    r.Wider { r' with interfaces := r'.interfaces.modify k m.on } := by
  have marked := Registry.forall₂_modify (f := id) h (fun _ j here => here.trans (m.wider_on j)) k
  rwa [List.modify_id] at marked

theorem OpenPorts.Wider.append {p q : OpenPorts} (h : p.Wider q) (l : PortList)
    (more : List String) : p.Wider (q.append l more) := by
  intro m
  rw [OpenPorts.get_append]
  split
  · exact List.subset_append_of_subset_left _ (h m)
  · exact h m

namespace Grant

variable {ts : List String} {r : Registry}

theorem declared_foldl (declared : (Registry.ofTokens ts).2 = .ok r) (grants : List Grant) :
    (Registry.ofTokens (grants.foldl tokens ts)).2 = .ok (grants.foldl registry r) := by
  induction grants generalizing ts r with
  | nil => exact declared
  | cons g rest ih =>
      refine ih ?_
      cases g with
      | mark k m => exact Registry.declared_amended declared k m
      | ports => exact declared

theorem wider_foldl_registry (grants : List Grant) : r.Wider (grants.foldl registry r) := by
  refine List.foldlRecOn grants registry (motive := fun r' => r.Wider r') (.refl r) ?_
  intro r' wider g _
  cases g with
  | mark k m => exact wider.mark k m
  | ports => exact wider

/-- Grants change no option but the ports, and these lists only grow. -/
theorem exists_ports_foldl_options (o : Options) (grants : List Grant) :
    ∃ q, grants.foldl options o = { o with ports := q } ∧ o.ports.Wider q := by
  refine List.foldlRecOn grants options
    (motive := fun o' => ∃ q, o' = { o with ports := q } ∧ o.ports.Wider q)
    ⟨o.ports, rfl, fun _ => List.Subset.refl _⟩ ?_
  rintro _ ⟨q, rfl, wider⟩ g _
  cases g with
  | mark => exact ⟨q, rfl, wider⟩
  | ports l more => exact ⟨_, rfl, wider.append l more⟩

end Grant

namespace Evaluation

theorem programAccepts_assemble {r : Registry} (h : r.Indexed) (o : Options) (sysctls : List Sysctl)
    (holds : Match → Bool) :
    programAccepts holds (Policy.assemble r sysctls (Policy.rules r o)).program =
      acceptsBy
        (fires holds (switchedOn (toggleableSets.map fun set => { set, enabled := 0 < r.size }))
          (Ruleset.drafts r o))
        none Purpose.ordered :=
  accepts_rules_eq_acceptsBy h _

/-- Whoever is granted more loses no packet: trust, services and ports only let further packets
pass. -/
theorem programAccepts_of_grants {ts : List String} {r : Registry}
    (declared : (Registry.ofTokens ts).2 = .ok r) (o : Options) (host debugging : Bool)
    (grants : List Grant) :
    ∃ p p',
      (Registry.ofTokens (grants.foldl Grant.tokens ts)).2 = .ok (grants.foldl Grant.registry r) ∧
      (Policy.compile r o host debugging).result = .ok p ∧
      (Policy.compile (grants.foldl Grant.registry r) (grants.foldl Grant.options o) host
        debugging).result = .ok p' ∧
      ∀ holds : Match → Bool, ReadsPorts holds →
        programAccepts holds p.program = true → programAccepts holds p'.program = true := by
  have declared' := Grant.declared_foldl declared grants
  have wider := Grant.wider_foldl_registry (r := r) grants
  obtain ⟨q, options, more⟩ := Grant.exists_ports_foldl_options o grants
  have indexed := Registry.indexed_of_declared declared
  have indexed' := Registry.indexed_of_declared declared'
  refine ⟨_, _, declared', Policy.compile_eq_ok indexed o host debugging,
    Policy.compile_eq_ok indexed' _ host debugging, fun holds reads => ?_⟩
  have size : (grants.foldl Grant.registry r).size = r.size := (List.Forall₂.length_eq wider).symm
  rw [programAccepts_assemble indexed, programAccepts_assemble indexed', size, options]
  have fires := fires_of_widens reads
    (switchedOn (toggleableSets.map fun set => { set, enabled := 0 < r.size }))
    (Ruleset.widens_drafts wider more)
  exact acceptsBy_mono (fun p => (fires p).1) (fun p => (fires p).2)

/-- On a host that is open for mail and for one port of its trusted networks, trust opens that
port, and further public ports open their own; mail goes on to arrive. -/
theorem programAccepts_of_grants_lone :
    ∃ p p',
      (Registry.ofTokens ["en0::"]).2 =
        .ok { Registry.lone with interfaces := [{ name := "en0", trusted := true, index := 0 }] } ∧
      (Policy.compile .lone { ports := { publicTcp := ["25"], trustedTcp := ["22"] } } false
        false).result = .ok p ∧
      (Policy.compile
        { Registry.lone with interfaces := [{ name := "en0", trusted := true, index := 0 }] }
        { ports := { publicTcp := ["25", "80"], trustedTcp := ["22"] } } false false).result =
          .ok p' ∧
      (∀ port ∈ [22, 80], programAccepts ((Packet.syn port).meets .plain) p.program = false ∧
        programAccepts ((Packet.syn port).meets .plain) p'.program = true) ∧
      programAccepts ((Packet.syn 25).meets .plain) p.program = true ∧
      programAccepts ((Packet.syn 25).meets .plain) p'.program = true := by
  obtain ⟨p, p', declared', compiled, compiled', more⟩ := programAccepts_of_grants
    Registry.declared_lone { ports := { publicTcp := ["25"], trustedTcp := ["22"] } } false false
    [.mark 0 .trust, .ports .publicTcp ["80"]]
  have known := Policy.eq_of_compiled Registry.declared_lone compiled
  have known' := Policy.eq_of_compiled declared' compiled'
  have indexed := Registry.indexed_of_declared Registry.declared_lone
  have indexed' := Registry.indexed_of_declared declared'
  have gained : ∀ port ∈ [22, 80],
      programAccepts ((Packet.syn port).meets .plain) p.program = false ∧
        programAccepts ((Packet.syn port).meets .plain) p'.program = true := by
    simp only [known, known', programAccepts_assemble indexed, programAccepts_assemble indexed']
    decide +kernel
  have mail : programAccepts ((Packet.syn 25).meets .plain) p.program = true := by
    rw [known, programAccepts_assemble indexed]
    decide +kernel
  have kept := more _ (readsPorts_meets .plain (Packet.syn 25)) mail
  exact ⟨p, p', declared', compiled, compiled', gained, mail, kept⟩

end Evaluation
end Firewall

import Firewall.Proofs.PartialInstallation
import Firewall.Proofs.Retuning
import Firewall.Proofs.Scopes

/-!
What the rules of a program refer to by number. The pipes and the queues of a policy have numbers
of their own, queues lie in pipes that there are, and rules name pipes and queues that there are.
A rule that sends packets on names a number further on, and little stands between the two.
-/

namespace Firewall

/-! ### Numbers of pipes and queues -/

namespace Shaping

variable {r : Registry} {s : InterfaceShaping}

theorem exists_of_mem_plan (hs : s ∈ plan r) :
    ∃ i ∈ r.interfaces, ∃ rates, i.rates = some rates ∧ allocate i rates = s := by
  obtain ⟨i, hi, allocated⟩ := List.mem_filterMap.mp hs
  obtain ⟨rates, rated, allocated⟩ := Option.map_eq_some_iff.mp allocated
  exact ⟨i, hi, rates, rated, allocated⟩

/-- The indices under which the interfaces of a registry are shaped. -/
def indices (r : Registry) : List Int := (plan r).map (·.index)

theorem indices_eq_filterMap (r : Registry) :
    indices r = r.interfaces.filterMap fun i => i.rates.map fun _ => i.index := by
  rw [indices, plan, List.map_filterMap]
  congr 1
  funext i
  rw [Option.map_map]
  rfl

theorem nodup_indices (indexed : r.Indexed) : (indices r).Nodup := by
  rw [indices_eq_filterMap, List.Nodup, List.pairwise_filterMap]
  refine indexed.pairwise_index.imp fun different k hk l hl => ?_
  obtain ⟨_, _, rfl⟩ := Option.map_eq_some_iff.mp hk
  obtain ⟨_, _, rfl⟩ := Option.map_eq_some_iff.mp hl
  exact different

theorem bounds_of_mem_indices (indexed : r.Indexed) {k : Int} (hk : k ∈ indices r) :
    0 ≤ k ∧ k < maxInterfaces := by
  obtain ⟨s, hs, rfl⟩ := List.mem_map.mp hk
  obtain ⟨i, hi, _, _, rfl⟩ := exists_of_mem_plan hs
  exact indexed.bounds hi

/-- Numbers that begin at several bases, one for each index, if no base is in reach of another. -/
theorem nodup_flatMap_add {indices bases : List Int} (distinct : indices.Nodup)
    (within : ∀ k ∈ indices, 0 ≤ k ∧ k < maxInterfaces) (single : bases.Nodup)
    (spaced : ∀ a ∈ bases, ∀ b ∈ bases, a < b → a + maxInterfaces ≤ b) :
    (indices.flatMap fun k => bases.map (· + k)).Nodup := by
  rw [List.Nodup, List.pairwise_flatMap]
  constructor
  · intro k _
    exact single.map fun a b same => by simpa using same
  · refine distinct.imp_of_mem fun {k l} hk hl different a ha b hb same => ?_
    obtain ⟨base, hbase, rfl⟩ := List.mem_map.mp ha
    obtain ⟨base', hbase', rfl⟩ := List.mem_map.mp hb
    have := within k hk
    have := within l hl
    have above := spaced base hbase base' hbase'
    have below := spaced base' hbase' base hbase
    omega

def pipeBases : List Int := [inboundPipe 0, outboundPipe 0]

def queueBases : List Int := [highQueue 0, mediumQueue 0, lowQueue 0]

theorem map_id_pipes_plan (r : Registry) :
    ((plan r).flatMap (·.pipes)).map (·.id) =
      (indices r).flatMap fun k => pipeBases.map (· + k) := by
  rw [List.map_flatMap, indices, List.flatMap_map]
  refine List.flatMap_congr fun s hs => ?_
  obtain ⟨i, _, rates, _, rfl⟩ := exists_of_mem_plan hs
  simp [InterfaceShaping.pipes, allocate, pipeBases, inboundPipe, outboundPipe]

theorem map_id_queues_plan (r : Registry) :
    ((plan r).flatMap (·.queues)).map (·.id) =
      (indices r).flatMap fun k => queueBases.map (· + k) := by
  rw [List.map_flatMap, indices, List.flatMap_map]
  refine List.flatMap_congr fun s hs => ?_
  obtain ⟨i, _, rates, _, rfl⟩ := exists_of_mem_plan hs
  simp [InterfaceShaping.queues, allocate, queueBases, highQueue, mediumQueue, lowQueue]

end Shaping

namespace Policy

variable {r : Registry}

def queues (r : Registry) : List Queue := (Shaping.plan r).flatMap (·.queues)

theorem nodup_queues (indexed : r.Indexed) : ((queues r).map (·.id)).Nodup := by
  rw [queues, Shaping.map_id_queues_plan]
  exact Shaping.nodup_flatMap_add (Shaping.nodup_indices indexed)
    (fun _ => Shaping.bounds_of_mem_indices indexed) (by decide) (by decide)

/-- The fixed pipes have numbers behind those of all interfaces. -/
theorem nodup_pipes (indexed : r.Indexed) : ((pipes r).map (·.id)).Nodup := by
  rw [pipes, List.map_append, Shaping.map_id_pipes_plan, List.nodup_append]
  refine ⟨by decide, Shaping.nodup_flatMap_add (Shaping.nodup_indices indexed)
    (fun _ => Shaping.bounds_of_mem_indices indexed) (by decide) (by decide), ?_⟩
  intro fixed hfixed id hid
  obtain ⟨k, hk, hid⟩ := List.mem_flatMap.mp hid
  obtain ⟨base, hbase, rfl⟩ := List.mem_map.mp hid
  have bounds := Shaping.bounds_of_mem_indices indexed hk
  have behind := (by decide : ∀ fixed ∈ baselinePipes.map (·.id), ∀ base ∈ Shaping.pipeBases,
    base + maxInterfaces ≤ fixed) fixed hfixed base hbase
  omega

theorem mem_pipes_of_plan {s : InterfaceShaping} (hs : s ∈ Shaping.plan r) {p : Pipe}
    (hp : p ∈ s.pipes) : p ∈ pipes r :=
  List.mem_append_right _ (List.mem_flatMap.mpr ⟨s, hs, hp⟩)

theorem mem_queues_of_plan {s : InterfaceShaping} (hs : s ∈ Shaping.plan r) {q : Queue}
    (hq : q ∈ s.queues) : q ∈ queues r :=
  List.mem_flatMap.mpr ⟨s, hs, hq⟩

/-- The queues of an interface lie in its outbound pipe. -/
theorem exists_pipe_of_mem_queues {q : Queue} (hq : q ∈ queues r) :
    ∃ p ∈ pipes r, p.id = q.pipe := by
  obtain ⟨s, hs, hq⟩ := List.mem_flatMap.mp hq
  have outbound : s.outbound ∈ s.pipes := by simp [InterfaceShaping.pipes]
  refine ⟨s.outbound, mem_pipes_of_plan hs outbound, ?_⟩
  obtain ⟨i, _, rates, _, rfl⟩ := Shaping.exists_of_mem_plan hs
  simp only [InterfaceShaping.queues, Shaping.allocate, List.mem_cons, List.not_mem_nil,
    or_false] at hq
  rcases hq with rfl | rfl | rfl <;> rfl

end Policy

/-! ### What drafts refer to -/

/-- The pipe or the queue that a draft sends packets through is there, and a draft that sends them
on says where to. -/
structure Draft.Refers (r : Registry) (d : Draft) : Prop where
  piped : d.action = .pipe → ∃ p ∈ Policy.pipes r, d.target = some (.id p.id)
  queued : d.action = .queue → ∃ q ∈ Policy.queues r, d.target = some (.id q.id)
  sent : d.action = .skipto → ∃ n, d.target = some (.id n)

/-- The sets whose rules let nothing on that they match. -/
def Purpose.decidingSets : List Int := [1, 3, 4, 5, 6, 11, 20, 30]

theorem Purpose.decides (p : Purpose) (h : p.band.set ∈ decidingSets) :
    p.effect = .accept ∨ p.effect = .drop :=
  (by decide : ∀ p ∈ all, p.band.set ∈ decidingSets → p.effect = .accept ∨ p.effect = .drop)
    p p.mem_all h

namespace Ruleset

open Draft (Conforms Refers)

variable {r : Registry} {o : Options} {d : Draft}

theorem refers_of_action (h : [Action.pipe, .queue, .skipto].contains d.action = false) :
    d.Refers r := by
  constructor <;> intro action <;> simp [action] at h

theorem refers_of_actions {ds : List Draft}
    (h : (ds.all fun d => !([Action.pipe, .queue, .skipto].contains d.action)) = true) :
    ∀ d ∈ ds, d.Refers r :=
  fun d hd => refers_of_action (by simpa using List.all_eq_true.mp h d hd)

theorem refers_of_conforms {set : Int} (conforms : d.Conforms set)
    (decides : set ∈ Purpose.decidingSets) : d.Refers r := by
  have effect : d.numbered.effect = .accept ∨ d.numbered.effect = .drop := by
    rw [conforms.effect_eq]
    exact d.purpose.decides (conforms.set_eq ▸ decides)
  constructor <;> intro action <;> simp only [Rule.effect, Draft.numbered, action] at effect
  · simp at effect
  · simp at effect
  · split at effect <;> simp at effect

theorem refers_of_pipe {p : Pipe} (hp : p ∈ Policy.pipes r) (action : d.action = .pipe)
    (target : d.target = some (.id p.id)) : d.Refers r :=
  ⟨fun _ => ⟨p, hp, target⟩, by simp [action], by simp [action]⟩

theorem refers_of_queue {q : Queue} (hq : q ∈ Policy.queues r) (action : d.action = .queue)
    (target : d.target = some (.id q.id)) : d.Refers r :=
  ⟨by simp [action], fun _ => ⟨q, hq, target⟩, by simp [action]⟩

theorem refers_of_skipto {n : Int} (action : d.action = .skipto)
    (target : d.target = some (.id n)) : d.Refers r :=
  ⟨by simp [action], by simp [action], fun _ => ⟨n, target⟩⟩

theorem refers_limits : ∀ d ∈ limits, d.Refers r := by
  have fixed {p : Pipe} (hp : p ∈ Policy.baselinePipes) : p ∈ Policy.pipes r :=
    List.mem_append_left _ hp
  simp only [limits, List.forall_mem_cons]
  exact ⟨refers_of_pipe (fixed (.head _)) rfl rfl,
    refers_of_pipe (fixed (.tail _ (.head _))) rfl rfl,
    refers_of_pipe (fixed (.tail _ (.tail _ (.head _)))) rfl rfl,
    refers_of_pipe (fixed (.tail _ (.tail _ (.tail _ (.head _))))) rfl rfl, List.forall_mem_nil _⟩

theorem refers_baseline : ∀ d ∈ baseline r o, d.Refers r :=
  forall_mem_baseline (refers_of_action rfl) (fun _ => refers_of_action rfl) refers_limits
    (fun _ _ _ => refers_of_action rfl) (refers_of_actions rfl)

theorem refers_inboundFilter : ∀ d ∈ inboundFilter r o, d.Refers r := by
  have known : ∀ d ∈ (r.interfaces.filter (·.bounded)).map knownNetwork, d.Refers r := by
    rw [List.forall_mem_map]
    exact fun i _ => refers_of_skipto rfl rfl
  have against : ∀ d ∈ forged (publicNames r), d.Refers r := by
    intro d hd
    obtain ⟨-, _, _, rfl⟩ := mem_forged_iff.mp hd
    exact refers_of_action rfl
  simp only [inboundFilter, List.forall_mem_append]
  exact ⟨⟨⟨refers_of_actions rfl, known⟩, against⟩, refers_of_actions rfl⟩

theorem refers_shaping : ∀ d ∈ shaping r, d.Refers r := by
  simp only [shaping, List.forall_mem_flatMap]
  intro s hs
  have inbound : s.inbound ∈ Policy.pipes r :=
    Policy.mem_pipes_of_plan hs (by simp [InterfaceShaping.pipes])
  have queue : ∀ q ∈ s.queues, q ∈ Policy.queues r := fun _ => Policy.mem_queues_of_plan hs
  simp only [InterfaceShaping.queues, List.forall_mem_cons] at queue
  obtain ⟨high, medium, low, -⟩ := queue
  simp only [Shaping.rules, List.forall_mem_cons]
  exact ⟨refers_of_skipto rfl rfl, refers_of_skipto rfl rfl, refers_of_pipe inbound rfl rfl,
    refers_of_pipe inbound rfl rfl, refers_of_queue high rfl rfl, refers_of_queue medium rfl rfl,
    refers_of_queue medium rfl rfl, refers_of_queue low rfl rfl, refers_of_queue low rfl rfl,
    List.forall_mem_nil _⟩

theorem refers_drafts (indexed : r.Indexed) : ∀ d ∈ drafts r o, d.Refers r := by
  have deciding {set : Int} {ds : List Draft} (conforms : ∀ d ∈ ds, d.Conforms set)
      (decides : set ∈ Purpose.decidingSets) : ∀ d ∈ ds, d.Refers r :=
    fun d hd => refers_of_conforms (conforms d hd) decides
  simp only [drafts, List.forall_mem_append]
  exact ⟨⟨⟨⟨⟨⟨⟨⟨⟨⟨⟨refers_baseline, deciding (conforms_routing o) (by decide)⟩,
    refers_of_actions rfl⟩, deciding (conforms_macServices indexed o) (by decide)⟩,
    deciding (conforms_windowsServices indexed o) (by decide)⟩,
    deciding (conforms_trusted indexed o) (by decide)⟩,
    deciding (conforms_bootstrap o) (by decide)⟩, refers_inboundFilter⟩, refers_shaping⟩,
    deciding (conforms_outbound o) (by decide)⟩,
    deciding (conforms_openPorts indexed o) (by decide)⟩,
    deciding (conforms_defaultDeny o) (by decide)⟩

end Ruleset

/-! ### Where packets are sent on -/

/-- The purposes of the rules that a packet from a known network need not pass: those that tell
known networks, and those against forged sources. -/
def Purpose.bypassed : List Purpose := .knownNetwork :: Ruleset.forgedSources.map Prod.fst

/-- Between a purpose that sends packets on and the number that it names stand shaping rules, or
rules that packets from known networks need not pass. -/
theorem Purpose.between (p q : Purpose) {n : Int} (h : p.effect = .skip n)
    (behind : p.band.base < q.band.last) (before : q.band.base < n) :
    n = shapingExit ∧ q.band.set = 10 ∨ n = knownNetworkExit ∧ q ∈ bypassed :=
  (by decide +kernel : ∀ p ∈ all, ∀ q ∈ all, ∀ n ∈ [shapingExit, knownNetworkExit],
    p.effect = .skip n → p.band.base < q.band.last → q.band.base < n →
      n = shapingExit ∧ q.band.set = 10 ∨ n = knownNetworkExit ∧ q ∈ bypassed)
    p p.mem_all q q.mem_all n (p.skip_mem h) h behind before

namespace Program

/-- A rule passes packets on over nothing but rules of one kind, to a number behind its own that
some later rule reaches. -/
structure Jumps (p : Program) (rule : Rule) (n : Int) (kind : Rule → Prop) : Prop where
  forward : rule.number < n
  lands : ∃ later ∈ p.rules, rule.number < later.number ∧ n ≤ later.number
  passes : ∀ passed ∈ p.rules, rule.number < passed.number → passed.number < n → kind passed

/-- Whatever is referred to by number is there, once. -/
structure Resolves (p : Program) : Prop where
  pipes : (p.pipes.map (·.id)).Nodup
  queues : (p.queues.map (·.id)).Nodup
  nested : ∀ q ∈ p.queues, ∃ pipe ∈ p.pipes, pipe.id = q.pipe
  piped : ∀ rule ∈ p.rules, rule.action = .pipe →
    ∃ pipe ∈ p.pipes, rule.target = some (.id pipe.id)
  queued : ∀ rule ∈ p.rules, rule.action = .queue →
    ∃ queue ∈ p.queues, rule.target = some (.id queue.id)
  sent : ∀ rule ∈ p.rules, rule.action = .skipto →
    rule.target = some (.id shapingExit) ∧
        p.Jumps rule shapingExit (fun passed => passed.set = 10) ∨
      rule.target = some (.id knownNetworkExit) ∧ p.Jumps rule knownNetworkExit
        fun passed => ∃ purpose ∈ Purpose.bypassed, passed.tag = .known purpose

end Program

namespace Policy

variable {r : Registry} {o : Options}

/-- A rule that sends packets on does so in one of the two ways that there are. -/
theorem jumps_of_skipto (indexed : r.Indexed) (sysctls : List Sysctl) {rule : Rule}
    (hrule : rule ∈ rules r o) (action : rule.action = .skipto) {n : Int}
    (target : rule.target = some (.id n)) :
    n = shapingExit ∧
        (assemble r sysctls (rules r o)).program.Jumps rule n (fun passed => passed.set = 10) ∨
      n = knownNetworkExit ∧ (assemble r sysctls (rules r o)).program.Jumps rule n
        fun passed => ∃ purpose ∈ Purpose.bypassed, passed.tag = .known purpose := by
  have skips : rule.effect = .skip n := by simp only [Rule.effect, action, target]
  obtain ⟨p, bears⟩ := bears_of_mem indexed hrule
  have sends : p.effect = .skip n := by rw [← bears.effect_eq, skips]
  have forward := number_lt_of_skip indexed hrule skips
  have lands : ∃ later ∈ rules r o, rule.number < later.number ∧ n ≤ later.number := by
    refine ⟨_, mem_rules.mpr ⟨rejectAll o, rejectAll_mem, rfl⟩, ?_⟩
    have far := p.skip_le sends
    have last : knownNetworkExit < Purpose.rejectAll.band.base := by decide
    rw [rejectAll_number]
    omega
  have passes : ∀ passed ∈ rules r o, rule.number < passed.number → passed.number < n →
      ∃ q, passed.tag = .known q ∧ passed.set = q.band.set ∧
        (n = shapingExit ∧ q.band.set = 10 ∨ n = knownNetworkExit ∧ q ∈ Purpose.bypassed) := by
    intro passed hpassed behind before
    obtain ⟨q, bears'⟩ := bears_of_mem indexed hpassed
    refine ⟨q, bears'.tag_eq, bears'.set_eq, p.between q sends ?_ ?_⟩
    · have := bears.base_le
      have := bears'.le_last
      omega
    · have := bears'.base_le
      omega
  have apart : shapingExit ≠ knownNetworkExit := by decide
  have exits := p.skip_mem sends
  simp only [List.mem_cons, List.not_mem_nil, or_false] at exits
  rcases exits with rfl | rfl
  · refine .inl ⟨rfl, forward, lands, fun passed hpassed behind before => ?_⟩
    obtain ⟨q, -, set, ⟨-, shapes⟩ | ⟨other, -⟩⟩ := passes passed hpassed behind before
    · exact set.trans shapes
    · exact absurd other apart
  · refine .inr ⟨rfl, forward, lands, fun passed hpassed behind before => ?_⟩
    obtain ⟨q, tag, -, ⟨other, -⟩ | ⟨-, bypassed⟩⟩ := passes passed hpassed behind before
    · exact absurd other.symm apart
    · exact ⟨q, bypassed, tag⟩

/-- Nothing in a compiled program refers to what is not there, and no number means two things. -/
theorem compile_resolves {tokens : List String} (declared : (Registry.ofTokens tokens).2 = .ok r)
    (o : Options) (host debugging : Bool) :
    ∃ p, (compile r o host debugging).result = .ok p ∧ p.program.Resolves := by
  have indexed := Registry.indexed_of_declared declared
  have refers : ∀ rule ∈ rules r o,
      ∃ d : Draft, d.Refers r ∧ d.action = rule.action ∧ d.target = rule.target := by
    intro rule hrule
    obtain ⟨d, hd, rfl⟩ := mem_rules.mp hrule
    exact ⟨d, Ruleset.refers_drafts indexed d hd, (Draft.settled_action _ _).symm,
      (Draft.settled_target _ _).symm⟩
  refine ⟨_, compile_eq_ok indexed o host debugging, nodup_pipes indexed, nodup_queues indexed,
    fun q => exists_pipe_of_mem_queues, fun rule hrule action => ?_, fun rule hrule action => ?_,
    fun rule hrule action => ?_⟩
  all_goals obtain ⟨d, refers, same, target⟩ := refers rule hrule
  · rw [← target]
    exact refers.piped (same.trans action)
  · rw [← target]
    exact refers.queued (same.trans action)
  · obtain ⟨n, sent⟩ := refers.sent (same.trans action)
    rw [target] at sent
    rcases jumps_of_skipto indexed _ hrule action sent with ⟨rfl, jumps⟩ | ⟨rfl, jumps⟩
    · exact .inl ⟨sent, jumps⟩
    · exact .inr ⟨sent, jumps⟩

/-- Traffic that leaves by the shaped uplink goes through a queue in a pipe, and traffic of the
trusted network is sent on behind the rules against forged sources. -/
theorem compile_resolves_home :
    ∃ p, (compile .home {} false false).result = .ok p ∧
      (∃ rule ∈ p.program.rules, rule.number = 601 ∧ ∃ queue ∈ p.program.queues,
        rule.target = some (.id queue.id) ∧ ∃ pipe ∈ p.program.pipes, pipe.id = queue.pipe) ∧
      ∃ rule ∈ p.program.rules, rule.number = 7200 ∧ ∀ passed ∈ p.program.rules,
        7200 < passed.number → passed.number < 7500 →
          ∃ purpose ∈ Purpose.bypassed, passed.tag = .known purpose := by
  obtain ⟨p, compiled, resolves⟩ := compile_resolves Registry.declared_home {} false false
  have present : ∀ d ∈ Ruleset.drafts .home {}, d.settled false ∈ p.program.rules := by
    intro d hd
    rw [eq_of_compiled Registry.declared_home compiled]
    exact mem_rules.mpr ⟨d, hd, rfl⟩
  refine ⟨p, compiled, ?_, ?_⟩
  · obtain ⟨d, hd, number, action⟩ := (by decide +kernel : ∃ d ∈ Ruleset.drafts .home {},
      d.numbered.number = 601 ∧ d.action = .queue)
    obtain ⟨queue, hqueue, target⟩ := resolves.queued _ (present d hd) (by simpa using action)
    exact ⟨_, present d hd, by simpa using number, queue, hqueue, target,
      resolves.nested queue hqueue⟩
  · obtain ⟨d, hd, number, action, target⟩ := (by decide +kernel :
      ∃ d ∈ Ruleset.drafts .home {}, d.numbered.number = 7200 ∧ d.action = .skipto ∧
        d.target ≠ some (.id shapingExit))
    have number : (d.settled false).number = 7200 := by simpa using number
    refine ⟨_, present d hd, number, ?_⟩
    rcases resolves.sent _ (present d hd) (by simpa using action) with ⟨shapes, -⟩ | ⟨-, jumps⟩
    · exact absurd ((Draft.settled_target _ _).symm.trans shapes) target
    · exact number ▸ jumps.passes

end Policy
end Firewall

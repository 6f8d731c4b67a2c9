import Firewall.Proofs.Grants
import Firewall.Proofs.Obedience

/-!
When a filter is open during an installation. From the flush until the first rule is in, and again
after the flush that answers a refusal, there is no rule at all and every packet is accepted; as
soon as a rule is in, what the filter accepts the policy accepts, too.
-/

namespace Firewall.Ipfw

open Evaluation (accepts onMeanwhile programAccepts switchedOn)

variable {a : Access} {f f' : Filter} {table : List (List String × Step)} {ok : Bool}
  {recorded : List Moment}

def Told (table : List (List String × Step)) : Prop := ∀ entry ∈ table, ∃ c, entry ∈ stepsOf c

/-- What was done when a moment was recorded: the first of the steps, none left out. -/
theorem Run.moment (run : Run a f table ok recorded f') (told : Told table) (phase : Phase) :
    ∀ front m back, recorded = front ++ m :: back →
      ∃ done, done <+: table.map Prod.snd ∧ m.filter = f.afterAll done ∧
        (front ++ [m]).foldl Phase.next phase = done.foldl Phase.after phase := by
  induction run generalizing phase with
  | nil f => simp
  | refused =>
      intro front m back split
      cases front with
      | nil =>
          cases split
          exact ⟨[], List.nil_prefix, rfl, rfl⟩
      | cons first front => simp at split
  | @done f f' words s rest ok recorded run ih =>
      obtain ⟨⟨c, hc⟩, told⟩ := List.forall_mem_cons.mp told
      have next := Phase.next_of_mem phase (a := a) hc (f.after s)
      intro front m back split
      cases front with
      | nil =>
          cases split
          refine ⟨[s], ?_, rfl, ?_⟩
          · exact List.cons_prefix_cons.mpr ⟨rfl, List.nil_prefix⟩
          · simpa using next
      | cons first front =>
          cases split
          obtain ⟨done, first, filter, phases⟩ := ih told (phase.after s) front m back rfl
          refine ⟨s :: done, ?_, filter, ?_⟩
          · exact List.cons_prefix_cons.mpr ⟨rfl, first⟩
          · rw [List.cons_append, List.foldl_cons, next]
            exact phases

/-- What was done in the end; all of it, unless a command was refused. -/
theorem Run.final (run : Run a f table ok recorded f') (told : Told table) (phase : Phase) :
    ∃ done, done <+: table.map Prod.snd ∧ (ok = true → done = table.map Prod.snd) ∧
      f' = f.afterAll done ∧ recorded.foldl Phase.next phase = done.foldl Phase.after phase := by
  induction run generalizing phase with
  | nil f => exact ⟨[], List.nil_prefix, fun _ => rfl, rfl, rfl⟩
  | refused => exact ⟨[], List.nil_prefix, fun done => absurd done Bool.false_ne_true, rfl, rfl⟩
  | @done f f' words s rest ok recorded run ih =>
      obtain ⟨⟨c, hc⟩, told⟩ := List.forall_mem_cons.mp told
      have next := Phase.next_of_mem phase (a := a) hc (f.after s)
      obtain ⟨done, first, all, filter, phases⟩ := ih told (phase.after s)
      refine ⟨s :: done, ?_, ?_, filter, ?_⟩
      · exact List.cons_prefix_cons.mpr ⟨rfl, first⟩
      · intro complete
        rw [all complete]
        rfl
      · rw [List.foldl_cons, next]
        exact phases

/-- What may have been done at a moment of an installation: the first of its steps, and if one was
refused, the first of the steps of a flush behind them. -/
def Course (p : Policy) (done : List Step) : Prop :=
  ∃ before after, done = before ++ after ∧ before <+: (installSteps p).map Prod.snd ∧
    after <+: [.clear, .keep]

theorem told_installSteps (p : Policy) : Told (installSteps p) := by
  intro entry h
  obtain ⟨c, _, h⟩ := List.mem_flatMap.mp h
  exact ⟨c, h⟩

theorem Installs.moment {p : Policy} (installs : Installs a p f recorded) :
    ∀ front m back, recorded = front ++ m :: back →
      ∃ done, Course p done ∧ m.filter = f.afterAll done ∧
        (front ++ [m]).foldl Phase.next .untouched = done.foldl Phase.after .untouched := by
  obtain ⟨ok, before, after, f', run, rfl, rest⟩ := installs
  intro front m back split
  have told := told_installSteps p
  have behind : ∀ more, front = before ++ more → after = more ++ m :: back →
      ∃ done, Course p done ∧ m.filter = f.afterAll done ∧
        (front ++ [m]).foldl Phase.next .untouched = done.foldl Phase.after .untouched := by
    rintro more rfl later
    cases ok with
    | true =>
        cases rest
        simp at later
    | false =>
        obtain ⟨ok', f'', run'⟩ := rest
        obtain ⟨done, first, -, rfl, phases⟩ := run.final told .untouched
        have told' : Told (stepsOf .flush) := fun entry h => ⟨.flush, h⟩
        obtain ⟨done', first', filter, phases'⟩ :=
          run'.moment told' (done.foldl Phase.after .untouched) more m back later
        refine ⟨done ++ done', ⟨done, done', rfl, first, first'⟩, ?_, ?_⟩
        · rw [filter, Filter.afterAll_append]
        · rw [List.append_assoc, List.foldl_append, phases, phases', List.foldl_append]
  rcases List.append_eq_append_iff.mp split with ⟨more, front_eq, later⟩ | ⟨more, rfl, later⟩
  · exact behind more front_eq later
  · cases more with
    | nil => exact behind [] (by simp) later.symm
    | cons first more =>
        cases later
        obtain ⟨done, first, filter, phases⟩ := run.moment told .untouched front m more rfl
        exact ⟨done, ⟨done, [], by simp, first, List.nil_prefix⟩, filter, phases⟩

/-- What holds at the start, after every step, and so at the end of steps. -/
def Throughout (holds : Phase → Filter → Prop) : Phase → Filter → List Step → Prop
  | phase, f, [] => holds phase f
  | phase, f, s :: rest => holds phase f ∧ Throughout holds (phase.after s) (f.after s) rest

variable {holds : Phase → Filter → Prop} {phase : Phase} {steps : List Step}

theorem Throughout.reaches (h : Throughout holds phase f steps) {done : List Step}
    (first : done <+: steps) : holds (done.foldl Phase.after phase) (f.afterAll done) := by
  induction done generalizing phase f steps with
  | nil =>
      cases steps with
      | nil => exact h
      | cons s rest => exact h.1
  | cons s done ih =>
      cases steps with
      | nil => simp at first
      | cons s' rest =>
          obtain ⟨rfl, more⟩ := List.cons_prefix_cons.mp first
          exact ih h.2 more

theorem Throughout.append {later : List Step} (h : Throughout holds phase f steps)
    (h' : Throughout holds (steps.foldl Phase.after phase) (f.afterAll steps) later) :
    Throughout holds phase f (steps ++ later) := by
  induction steps generalizing phase f with
  | nil => exact h'
  | cons s rest ih => exact ⟨h.1, ih h.2 h'⟩

/-- Steps that bring no rule and take none away. -/
def Quiet (steps : List Step) : Prop :=
  ∀ s ∈ steps, s = .keep ∨ ∃ set enabled, s = .switch set enabled

theorem Quiet.phase_eq (quiet : Quiet steps) : steps.foldl Phase.after phase = phase := by
  induction steps generalizing phase with
  | nil => rfl
  | cons s rest ih =>
      obtain ⟨here, rest_⟩ := List.forall_mem_cons.mp quiet
      rcases here with rfl | ⟨set, enabled, rfl⟩
      · exact ih rest_
      · exact ih rest_

theorem Quiet.rules_eq (quiet : Quiet steps) : (f.afterAll steps).rules = f.rules := by
  induction steps generalizing f with
  | nil => rfl
  | cons s rest ih =>
      obtain ⟨here, rest_⟩ := List.forall_mem_cons.mp quiet
      rw [Filter.afterAll_cons, ih rest_]
      rcases here with rfl | ⟨set, enabled, rfl⟩ <;> rfl

/-- A filter that holds some of the rules of a program and lets nothing in that the program keeps
out. -/
structure Filled (p : Program) (f : Filter) : Prop where
  first : f.rules <+: p.installOrder
  nonempty : f.rules ≠ []
  always : ∀ set, set ∉ toggleableSets → f.on set = true
  within : ∀ set, f.on set = true → switchedOn p.setStates set = true

/-- What the phase of an installation says about the filter. -/
def Stands (p : Program) (start : Filter) : Phase → Filter → Prop
  | .untouched, f => f = start
  | .cleared, f => f.rules = []
  | .filled, f => Filled p f

variable {p : Program} {start : Filter}

theorem throughout_cleared (quiet : Quiet steps) (empty : f.rules = []) :
    Throughout (Stands p start) .cleared f steps := by
  induction steps generalizing f with
  | nil => exact empty
  | cons s rest ih =>
      obtain ⟨here, rest_⟩ := List.forall_mem_cons.mp quiet
      refine ⟨empty, ?_⟩
      rcases here with rfl | ⟨set, enabled, rfl⟩
      · exact ih rest_ empty
      · exact ih rest_ empty

theorem throughout_added (always : ∀ set, set ∉ toggleableSets → f.on set = true)
    (within : ∀ set, f.on set = true → switchedOn p.setStates set = true) {later : List Rule}
    (split : f.rules ++ later = p.installOrder) (stands : Stands p start phase f) :
    Throughout (Stands p start) phase f (later.map .add) := by
  induction later generalizing f phase with
  | nil => exact stands
  | cons r later ih =>
      have split' : (f.after (.add r)).rules ++ later = p.installOrder := by
        rw [← split]
        simp [Filter.after]
      refine ⟨stands, ih always within split' ?_⟩
      exact ⟨⟨later, split'⟩, by simp [Filter.after], always, within⟩

theorem throughout_enabled {states : List SetState}
    (enabled : ∀ s ∈ states, switchedOn p.setStates s.set = true) (filled : Filled p f) :
    Throughout (Stands p start) .filled f (states.map fun s => .switch s.set true) := by
  induction states generalizing f with
  | nil => exact filled
  | cons s rest ih =>
      rw [List.forall_mem_cons] at enabled
      refine ⟨filled, ih enabled.2 ⟨filled.first, filled.nonempty, ?_, ?_⟩⟩
      · intro set outside
        simp [Filter.after, filled.always set outside]
      · intro set on
        by_cases same : set = s.set
        · rw [same, enabled.1]
        · exact filled.within set (by simpa [Filter.after, same] using on)

theorem on_disabled (f : Filter) (states : List SetState) (set : Int) :
    (f.afterAll (states.map fun s => .switch s.set false)).on set =
      (f.on set && !(states.map (·.set)).contains set) := by
  induction states generalizing f with
  | nil => simp [Filter.afterAll]
  | cons s rest ih =>
      rw [List.map_cons, Filter.afterAll_cons, ih]
      by_cases same : set = s.set <;> simp [Filter.after, same]

theorem afterAll_keep {α : Type} (f : Filter) (xs : List α) :
    f.afterAll (xs.map fun _ => .keep) = f := by
  induction xs with
  | nil => rfl
  | cons x rest ih => exact ih

theorem phase_added {rules : List Rule} (nonempty : rules ≠ []) :
    (rules.map Step.add).foldl Phase.after phase = .filled := by
  induction rules generalizing phase with
  | nil => exact absurd rfl nonempty
  | cons r rest ih =>
      cases rest with
      | nil => rfl
      | cons next rest => exact ih (by simp)

/-- The steps that prepare a filter for the rules of a program, once it is cleared. -/
def preparation (p : Program) : List Step :=
  .keep :: p.pipes.map (fun _ => .keep) ++ p.queues.map (fun _ => .keep)
    ++ p.setStates.map fun s => .switch s.set false

theorem quiet_preparation (p : Program) : Quiet (preparation p) := by
  intro s hs
  simp only [preparation, List.mem_append, List.mem_cons, List.mem_map] at hs
  rcases hs with ((rfl | ⟨_, _, rfl⟩) | ⟨_, _, rfl⟩) | ⟨state, _, rfl⟩
  · exact Or.inl rfl
  · exact Or.inl rfl
  · exact Or.inl rfl
  · exact Or.inr ⟨_, _, rfl⟩

theorem on_preparation (f : Filter) (p : Program) (set : Int) :
    (f.afterAll (preparation p)).on set =
      (f.on set && !(p.setStates.map (·.set)).contains set) := by
  unfold preparation
  rw [Filter.afterAll_append, on_disabled, Filter.afterAll_append, afterAll_keep,
    Filter.afterAll_cons, afterAll_keep]
  rfl

/-- The steps of an installation: everything is removed, then pipes, queues and sets are prepared,
then the rules go in, and at the end sets are switched on. -/
theorem map_snd_installSteps (p : Policy) :
    (installSteps p).map Prod.snd =
      .clear :: preparation p.program ++ p.program.installOrder.map .add
        ++ (p.program.setStates.filter (·.enabled)).map fun s => .switch s.set true := by
  simp only [installSteps, Installation.calls, stepsOf, flushCommands, preparation,
    List.flatMap_append, List.flatMap_map, List.map_append, List.flatMap_singleton,
    List.map_cons, List.map_nil, List.map_map, List.zip_cons_cons, List.zip_nil_right, ← List.map_eq_flatMap]
  rfl

variable {r : Registry}

theorem installOrder_ne_nil (h : r.Indexed) (o : Options) (sysctls : List Sysctl) :
    (Policy.assemble r sysctls (Policy.rules r o)).program.installOrder ≠ [] := by
  obtain ⟨init, last, split, -⟩ := Policy.closing_eq_append_rejectAll (o := o) h
  rw [Policy.installOrder_assemble, split]
  simp

theorem throughout_install (h : r.Indexed) (o : Options) (sysctls : List Sysctl)
    (always : ∀ set, set ∉ toggleableSets → start.on set = true) :
    Throughout (Stands (Policy.assemble r sysctls (Policy.rules r o)).program start) .untouched
      start ((installSteps (Policy.assemble r sysctls (Policy.rules r o))).map Prod.snd) := by
  rw [map_snd_installSteps]
  generalize hp : (Policy.assemble r sysctls (Policy.rules r o)).program = p
  have states : p.setStates = toggleableSets.map fun set => { set, enabled := 0 < r.size } := by
    rw [← hp]
    rfl
  have nonempty : p.installOrder ≠ [] := hp ▸ installOrder_ne_nil h o sysctls
  have quiet := quiet_preparation p
  have phase_eq : (Step.clear :: preparation p).foldl Phase.after .untouched = .cleared :=
    quiet.phase_eq
  have rules_eq : (start.afterAll (.clear :: preparation p)).rules = [] := quiet.rules_eq
  have on_eq (set : Int) : (start.afterAll (.clear :: preparation p)).on set =
      (start.on set && onMeanwhile set) := by
    rw [Filter.afterAll_cons, on_preparation, states, List.map_map]
    rfl
  have cleared : Throughout (Stands p start) .untouched start (.clear :: preparation p) :=
    ⟨rfl, throughout_cleared quiet rfl⟩
  have added : Throughout (Stands p start) .cleared (start.afterAll (.clear :: preparation p))
      (p.installOrder.map .add) := by
    refine throughout_added ?_ ?_ ?_ rules_eq
    · intro set outside
      simp [on_eq, always set outside, onMeanwhile, outside]
    · intro set on
      rw [on_eq, Bool.and_eq_true] at on
      refine Evaluation.switchedOn_of_onMeanwhile ?_ on.2
      rw [states, List.forall_mem_map]
      exact fun set mem => mem
    · rw [rules_eq]
      rfl
  have filled : Filled p ((start.afterAll (.clear :: preparation p)).afterAll
      (p.installOrder.map .add)) := by
    have stands := added.reaches (List.prefix_refl _)
    rwa [phase_added nonempty] at stands
  refine (cleared.append ?_).append ?_
  · rw [phase_eq]
    exact added
  · rw [List.foldl_append, phase_eq, phase_added nonempty, Filter.afterAll_append]
    refine throughout_enabled ?_ filled
    intro s hs
    obtain ⟨mem, on⟩ := List.mem_filter.mp hs
    rw [states] at mem ⊢
    obtain ⟨set, _, rfl⟩ := List.mem_map.mp mem
    have some_ : 0 < r.size := by simpa using on
    simp [switchedOn, some_]

theorem Stands.flushed (stands : Stands p start phase f) {done : List Step}
    (first : done <+: [.clear, .keep]) :
    Stands p start (done.foldl Phase.after phase) (f.afterAll done) := by
  cases done with
  | nil => exact stands
  | cons s rest =>
      obtain ⟨rfl, more⟩ := List.cons_prefix_cons.mp first
      have quiet : Quiet rest := by
        intro s hs
        exact Or.inl (List.mem_singleton.mp (more.subset hs))
      rw [List.foldl_cons, quiet.phase_eq]
      exact quiet.rules_eq

theorem Course.stands (h : r.Indexed) (o : Options) (sysctls : List Sysctl)
    (always : ∀ set, set ∉ toggleableSets → start.on set = true) {done : List Step}
    (course : Course (Policy.assemble r sysctls (Policy.rules r o)) done) :
    Stands (Policy.assemble r sysctls (Policy.rules r o)).program start
      (done.foldl Phase.after .untouched) (start.afterAll done) := by
  obtain ⟨before, after, rfl, first, first'⟩ := course
  rw [List.foldl_append, Filter.afterAll_append]
  exact ((throughout_install h o sysctls always).reaches first).flushed first'

/-- The filter accepts no packet that the program drops. -/
def NoLaxer (f : Filter) (p : Program) : Prop :=
  ∀ holds : Match → Bool, holds {} = true → f.accepts holds = true → programAccepts holds p = true

theorem Filled.noLaxer (h : r.Indexed) (o : Options) (sysctls : List Sysctl)
    (filled : Filled (Policy.assemble r sysctls (Policy.rules r o)).program f) :
    NoLaxer f (Policy.assemble r sysctls (Policy.rules r o)).program := by
  intro holds empty accepted
  have first := filled.first
  rw [Policy.installOrder_assemble] at first
  have whole := Evaluation.accepts_of_accepts_partial h empty filled.nonempty first
    (filled.always _ (by decide)) accepted
  refine Evaluation.accepts_rules_mono h filled.within ?_ whole
  intro set _ off
  refine Decidable.of_not_not fun outside => ?_
  rw [filled.always set outside] at off
  cases off

theorem accepts_of_empty (empty : f.rules = []) (holds : Match → Bool) :
    f.accepts holds = true := by
  unfold Filter.accepts
  rw [empty, Evaluation.accepts_nil]

theorem not_noLaxer_of_empty (h : r.Indexed) (o : Options) (sysctls : List Sysctl)
    (empty : f.rules = []) :
    ¬ NoLaxer f (Policy.assemble r sysctls (Policy.rules r o)).program := by
  intro noLaxer
  obtain ⟨holds, plain, dropped⟩ := Evaluation.exists_not_accepted h o
    (switchedOn (Policy.assemble r sysctls (Policy.rules r o)).program.setStates)
    (by simp [switchedOn, Policy.assemble, toggleableSets, defaultDenySet])
  have accepted := noLaxer holds plain (accepts_of_empty empty holds)
  exact Bool.false_ne_true (dropped.symm.trans accepted)

variable {τ : Type}

def record (view : τ → Filter) (runner : Runner τ) (a : Access) (p : Policy) (t : Terminal τ) :
    List Moment :=
  (Installation.install (engine (watched view runner) a) p
    { t with world := (t.world, []) }).state.world.2

/-- When a filter is open while a policy is installed. Until a flush is carried out the filter is
as it was found. From then on it is no laxer than the policy if, and only if, a rule was added
since the last flush; between a flush and the first rule it accepts every packet. -/
theorem noLaxer_iff_filled {tokens : List String}
    (declared : (Registry.ofTokens tokens).2 = .ok r) (o : Options) (host debugging : Bool) :
    ∃ p, (Policy.compile r o host debugging).result = .ok p ∧
      ∀ (view : τ → Filter) (runner : Runner τ) (a : Access) (t : Terminal τ),
        Obeys runner a view (installSteps p) →
        (∀ set, set ∉ toggleableSets → (view t.world).on set = true) →
        ∀ front m back, record view runner a p t = front ++ m :: back →
          let phase := (front ++ [m]).foldl Phase.next .untouched
          (phase = .untouched → m.filter = view t.world) ∧
            (phase ≠ .untouched → (NoLaxer m.filter p.program ↔ phase = .filled)) ∧
            (phase = .cleared → ∀ holds, m.filter.accepts holds = true) := by
  have indexed := Registry.indexed_of_declared declared
  refine ⟨_, Policy.compile_eq_ok indexed o host debugging, ?_⟩
  intro view runner a t obeys always front m back split
  unfold record at split
  generalize hp : Policy.assemble r (if host then Host.sysctls o else []) (Policy.rules r o) = p
    at split obeys ⊢
  cases dry : a.dryRun with
  | true =>
      rw [install_dryRun _ dry] at split
      simp at split
  | false =>
      obtain ⟨recorded, past, installs⟩ :=
        installs_install dry obeys { t with world := (t.world, []) }
      rw [past, List.nil_append] at split
      obtain ⟨done, course, filter, phases⟩ := installs.moment front m back split
      subst hp
      have stands := course.stands indexed o _ always
      rw [← filter, ← phases] at stands
      cases reached : (front ++ [m]).foldl Phase.next .untouched with
      | untouched =>
          rw [reached] at stands
          have same : m.filter = view t.world := stands
          simp [same]
      | cleared =>
          rw [reached] at stands
          have empty : m.filter.rules = [] := stands
          simp [not_noLaxer_of_empty indexed o _ empty, accepts_of_empty empty]
      | filled =>
          rw [reached] at stands
          have filled : Filled _ m.filter := stands
          simp [filled.noLaxer indexed o]

theorem exists_filled (h : r.Indexed) (o : Options) (sysctls : List Sysctl) {view : τ → Filter}
    {runner : Runner τ} {a : Access} (live : a.dryRun = false)
    (obeys : Obeys runner a view (installSteps (Policy.assemble r sysctls (Policy.rules r o))))
    (willing : ∀ command world, succeeded (runner command world).1 = true) (t : Terminal τ) :
    ∃ front m,
      record view runner a (Policy.assemble r sysctls (Policy.rules r o)) t = front ++ [m] ∧
        (front ++ [m]).foldl Phase.next .untouched = .filled := by
  obtain ⟨recorded, past, f, run⟩ :=
    run_install live obeys willing { t with world := (t.world, []) }
  obtain ⟨done, -, all, -, phases⟩ := run.final (told_installSteps _) .untouched
  rw [all rfl] at phases
  have quiet : Quiet (((Policy.assemble r sysctls (Policy.rules r o)).program.setStates.filter
      (·.enabled)).map fun s => .switch s.set true) := by
    intro s hs
    obtain ⟨state, _, rfl⟩ := List.mem_map.mp hs
    exact Or.inr ⟨_, _, rfl⟩
  rw [map_snd_installSteps, List.foldl_append, List.foldl_append, quiet.phase_eq,
    phase_added (installOrder_ne_nil h o sysctls)] at phases
  rcases List.eq_nil_or_concat recorded with rfl | ⟨front, m, rfl⟩
  · cases phases
  · rw [List.concat_eq_append] at past phases
    exact ⟨front, m, past, phases⟩

theorem noLaxer_of_undisturbed :
    ∃ p, (Policy.compile .lone {} false false).result = .ok p ∧
      ∃ front m,
        record id (simulate p.program fun _ _ => false) {} p
            { world := { rules := [], on := fun _ => true } } = front ++ [m] ∧
          NoLaxer m.filter p.program := by
  have indexed := Registry.indexed_of_declared Registry.declared_lone
  have known := Policy.compile_eq_ok indexed {} false false
  obtain ⟨p, compiled, exposure⟩ :=
    noLaxer_iff_filled Registry.declared_lone {} false false
  rw [compiled, Except.ok.injEq] at known
  subst known
  have obeys := obeys_simulate (p := Policy.assemble .lone [] (Policy.rules .lone {}))
    (Policy.distinct_rules indexed {}) (fun _ _ => false) {}
  obtain ⟨front, m, recorded, filled⟩ := exists_filled indexed {} _ rfl obeys (fun _ _ => rfl)
    { world := { rules := [], on := fun _ => true } }
  have laws := exposure id _ {} _ obeys (fun _ _ => rfl) front m [] recorded
  refine ⟨_, compiled, front, m, recorded, ?_⟩
  rw [filled] at laws
  exact (laws.2.1 (by decide)).mpr rfl

/-- A filter on a system without pipes. -/
def withoutPipes (command : List String) (_ : Filter) : Bool :=
  command.drop 2 = ["-f", "pipe", "flush"]

/-- The flush of the pipes is refused twice here: in the installation and in answer to that. -/
theorem record_withoutPipes (p : Policy) (start : Filter) :
    record id (simulate p.program withoutPipes) {} p { world := start } =
      [ { command := ["/sbin/ipfw", "-q", "-f", "flush"], done := true
          filter := { start with rules := [] } },
        { command := ["/sbin/ipfw", "-q", "-f", "pipe", "flush"], done := false
          filter := { start with rules := [] } },
        { command := ["/sbin/ipfw", "-q", "-f", "flush"], done := true
          filter := { start with rules := [] } },
        { command := ["/sbin/ipfw", "-q", "-f", "pipe", "flush"], done := false
          filter := { start with rules := [] } } ] := rfl

/-- The filter is left open for good. -/
theorem not_noLaxer_withoutPipes :
    ∃ p, (Policy.compile .lone {} false false).result = .ok p ∧
      Obeys (simulate p.program withoutPipes) {} id (installSteps p) ∧
      ∃ front m,
        record id (simulate p.program withoutPipes) {} p
            { world := { rules := [], on := fun _ => true } } = front ++ [m] ∧
          ∃ holds : Match → Bool, holds {} = true ∧ m.filter.accepts holds = true ∧
            programAccepts holds p.program = false := by
  have indexed := Registry.indexed_of_declared Registry.declared_lone
  refine ⟨_, Policy.compile_eq_ok indexed {} false false,
    obeys_simulate (p := Policy.assemble .lone [] (Policy.rules .lone {}))
      (Policy.distinct_rules indexed {}) _ _,
    [_, _, _], _, record_withoutPipes _ _, ?_⟩
  obtain ⟨holds, plain, dropped⟩ := Evaluation.exists_not_accepted indexed {}
    (switchedOn (Policy.assemble .lone [] (Policy.rules .lone {})).program.setStates) (by decide)
  exact ⟨holds, plain, accepts_of_empty rfl holds, dropped⟩

end Firewall.Ipfw

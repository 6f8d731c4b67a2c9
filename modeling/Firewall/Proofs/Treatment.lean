import Firewall.Proofs.PartialInstallation
import Firewall.Proofs.Stopping

/-!
The chain that a compilation sends its rules through. Put together, its stages do what
`Numbering.settle` does at one stroke, with and without the stages that show the program.
-/

namespace Firewall

namespace Chain

variable {is : List Nat} {line : List Stage} {start d d' : Desk} {program : List Rule}
  {soFar : Diagnostics} {stage : String}

/-! ### The desk after each stage -/

/-- A desk on which the rules at the places `is` make up a program, and to which nothing was added
since the start but what is said so far. -/
structure Laid (start d : Desk) (is : List Nat) (program : List Rule) (soFar : Diagnostics) :
    Prop where
  program_eq : is.map d.rule = program
  stealth_eq : d.stealth = start.stealth
  debugging_eq : d.debugging = start.debugging
  stored_eq : d.stored = start.stored
  diagnostics_eq : d.diagnostics = soFar

theorem laid_start (d : Desk) :
    Laid d d (List.range d.rules.length) d.rules d.diagnostics := by
  refine ⟨?_, rfl, rfl, rfl, rfl⟩
  ext j : 1
  by_cases within : j < d.rules.length
  · simp [within, Desk.rule]
  · simp [within]

theorem Laid.shown (h : Laid start d is program soFar) (stage : String) :
    Laid start (d.shown stage is) is program
      (Numbering.note start.debugging soFar stage program) := by
  refine ⟨h.program_eq, h.stealth_eq, h.debugging_eq, h.stored_eq, ?_⟩
  rw [Desk.shown, h.program_eq, h.debugging_eq, h.diagnostics_eq]

theorem Laid.showable (h : Laid start d is program soFar)
    (showable : start.debugging = true → ∀ rule ∈ program, rule.Showable) :
    d.debugging = true → ∀ i ∈ is, (d.rule i).Showable := by
  rw [← h.program_eq, List.forall_mem_map, ← h.debugging_eq] at showable
  exact showable

theorem Laid.checked (h : Laid start d is program soFar) :
    Laid start (d.checked is) is program (Numbering.check soFar program).1 := by
  refine ⟨h.program_eq, h.stealth_eq, h.debugging_eq, h.stored_eq, ?_⟩
  rw [Desk.checked, h.program_eq, h.diagnostics_eq]

theorem Laid.sorted (h : Laid start d is program soFar) :
    Laid start d (d.sorted is) (Numbering.sort program) soFar := by
  refine ⟨?_, h.stealth_eq, h.debugging_eq, h.stored_eq, h.diagnostics_eq⟩
  rw [← h.program_eq]
  exact List.map_mergeSort fun _ _ _ _ => rfl

theorem Desk.foldl_silence_eq (is : List Nat) (d : Desk) :
    is.foldl silence d = { d with rules := (is.foldl silence d).rules } := by
  induction is generalizing d with
  | nil => rfl
  | cons i is ih => rw [List.foldl_cons, ih, silence_eq]

theorem Desk.rule_foldl_silence {is : List Nat} (distinct : is.Nodup) (d : Desk) (j : Nat) :
    (is.foldl silence d).rule j =
      if d.stealth ∧ j ∈ is then (d.rule j).silenced else d.rule j := by
  induction is generalizing d with
  | nil => simp
  | cons i is ih =>
      rw [List.nodup_cons] at distinct
      have stealth : (d.silence i).stealth = d.stealth := by rw [silence_eq]
      rw [List.foldl_cons, ih distinct.2, rule_silence, stealth]
      by_cases here : j = i
      · simp [here, distinct.1]
      · simp [here]

theorem Laid.silence (h : Laid start d is program soFar) (distinct : is.Nodup) :
    Laid start (is.foldl Desk.silence d) is (Numbering.silence start.stealth program) soFar := by
  refine ⟨?_, ?_, ?_, ?_, ?_⟩
  · have each : ∀ j ∈ is, (is.foldl Desk.silence d).rule j =
        if start.stealth then (d.rule j).silenced else d.rule j := by
      intro j hj
      simp [Desk.rule_foldl_silence distinct, hj, h.stealth_eq]
    rw [← h.program_eq, List.map_congr_left each, Numbering.silence]
    cases start.stealth <;> simp
  all_goals rw [Desk.foldl_silence_eq]
  · exact h.stealth_eq
  · exact h.debugging_eq
  · exact h.stored_eq
  · exact h.diagnostics_eq

/-! ### The whole chain -/

/-- A line with the stage behind it that shows what it hands on, where that is asked for. -/
def behind (debugging : Bool) (line : List Stage) : List Stage :=
  if debugging then { kind := .debug } :: line else line

theorem behind_ne_nil {debugging : Bool} (some_ : line ≠ []) : behind debugging line ≠ [] := by
  cases debugging <;> simp [behind, some_]

theorem Opens.behind {debugging : Bool} (h : Opens is line d d')
    (named : line.head?.map (·.name) = some stage) (showing : d'.debugging = debugging)
    (showable : d'.debugging = true → ∀ i ∈ is, (d'.rule i).Showable) :
    Opens is (behind debugging line) d (d'.shown stage is) := by
  cases debugging with
  | false => simpa [Chain.behind, Desk.shown_of_quiet showing] using h
  | true => simpa [Chain.behind] using opens_debug named h.yields showable

theorem Yields.behind {debugging : Bool} (h : Yields line.length keep is line d d')
    (named : line.head?.map (·.name) = some stage) (showing : d'.debugging = debugging)
    (showable : d'.debugging = true → ∀ i ∈ is, (d'.rule i).Showable) :
    Yields (behind debugging line).length keep is (behind debugging line) d
      (d'.shown stage is) := by
  cases debugging with
  | false => simpa [Chain.behind, Desk.shown_of_quiet showing] using h
  | true => simpa [Chain.behind] using (opens_debug named h showable).yields

theorem Fails.behind {fault : Fault} {debugging : Bool} (h : Fails fault line d d') :
    Fails fault (behind debugging line) d d' := by
  cases debugging with
  | false => exact h
  | true => exact h.cons (s := { kind := .debug }) (by decide) rfl rfl

theorem foldl_stored (is : List Nat) (d : Desk) :
    is.foldl (fun d i => { d with stored := d.stored ++ [i] }) d =
      { d with stored := d.stored ++ is } := by
  induction is generalizing d with
  | nil => simp
  | cons i is ih => simp [ih]

/-- A storing stage at the end of a line stores the program that the line hands on. -/
theorem drive_of_laid (opens : Opens is line start d) (laid : Laid start d is program soFar)
    (some_ : line ≠ []) (empty : start.stored = []) {fuel : Nat} (enough : program.length < fuel) :
    ∃ line' last, drive fuel ({ kind := .store } :: line) start = .ended (.ok ()) line' last ∧
      last.program = program ∧ last.diagnostics = soFar := by
  have enough' : is.length < fuel := by simpa [← laid.program_eq] using enough
  obtain ⟨line', driven⟩ := drive_of_yields some_ rfl (opens _) enough'
  rw [foldl_stored] at driven
  refine ⟨line', _, driven, ?_, laid.diagnostics_eq⟩
  rw [Desk.program, laid.stored_eq, empty, List.nil_append]
  exact laid.program_eq

/-- The chain of a compilation without its storing stage, the last stage first. The first one of
all goes by the given name. -/
def treating (name : String) (debugging : Bool) : List Stage :=
  behind debugging ({ kind := .sort } :: behind debugging ({ kind := .check } ::
    behind debugging ({ kind := .silence } :: behind debugging [{ kind := .begin, name }])))

theorem opens_treating (name : String) (stealth : Bool) {debugging : Bool} {emitted : List Rule}
    (known : ∀ rule ∈ emitted, ∀ text, rule.tag ≠ .unknown text)
    (writable : Numbering.Writable debugging emitted) :
    ∃ is d, Opens is (treating name debugging) { rules := emitted, stealth, debugging } d ∧
      Laid { rules := emitted, stealth, debugging } d is
        (Numbering.sort (Numbering.silence stealth emitted))
        (Numbering.said name stealth debugging emitted) := by
  let start : Desk := { rules := emitted, stealth, debugging }
  let is := List.range emitted.length
  let first := behind debugging [{ kind := .begin, name }]
  let second := behind debugging ({ kind := .silence } :: first)
  let third := behind debugging ({ kind := .check } :: second)
  have showable : debugging = true → ∀ rule ∈ emitted, rule.Showable :=
    fun debugs rule hr => (writable rule hr).2 debugs
  have showable' : debugging = true → ∀ rule ∈ Numbering.silence stealth emitted, rule.Showable :=
    fun debugs => (Numbering.forall_mem_silence_iff (fun _ => Rule.showable_silenced_iff) _).mpr
      (showable debugs)
  have begun := (laid_start start).shown name
  have silenced := begun.silence List.nodup_range
  have silent := silenced.shown Kind.silence.name
  have checked := silent.checked.shown Kind.check.name
  have emits : Opens is [{ kind := .begin, name }] start start := opens_begin (d := start)
  have begins : Opens is first start _ :=
    emits.behind rfl begun.debugging_eq ((laid_start start).showable showable)
  -- The answers are withheld one by one, while the next stage takes the rules.
  have silences : Yields second.length keep is second start _ :=
    Yields.behind (begins.silence (behind_ne_nil (by simp))) rfl silenced.debugging_eq
      (silenced.showable showable')
  have checks : Opens is third start _ :=
    (opens_check (behind_ne_nil (by simp)) silences (by
      rw [silent.program_eq]
      exact (Numbering.check_silence stealth _).mpr (writable.checkable known))).behind rfl
        silent.checked.debugging_eq (silent.checked.showable showable')
  exact ⟨_, _, (opens_sort (behind_ne_nil (by simp)) checks.yields).behind rfl
    checked.debugging_eq (checked.sorted.showable fun debugs rule hr =>
      showable' debugs rule ((Numbering.sort_perm _).mem_iff.mp hr)),
    checked.sorted.shown Kind.sort.name⟩

/-- Rules of which one cannot be shown stop the stage that is to show them first. -/
theorem fails_begun (name : String) (start : Desk) (fresh : start.debugging = true)
    (long : ∃ rule ∈ start.rules, ¬ rule.Showable) :
    ∃ d, Fails (.stopped .longNumber) (behind true [{ kind := .begin, name }]) start d ∧
      d.stored = start.stored := by
  have emits : Opens _ [{ kind := .begin, name }] start start := opens_begin
  have long : ∃ i ∈ List.range start.rules.length, ¬ (start.rule i).Showable := by
    obtain ⟨rule, hr, long⟩ := long
    rw [← (laid_start start).program_eq] at hr
    obtain ⟨i, hi, rfl⟩ := List.mem_map.mp hr
    exact ⟨i, hi, long⟩
  obtain ⟨before, stepped⟩ := exists_step_debug_stopped "" rfl emits.yields fresh long
  exact ⟨_, fails_of_step rfl stepped, rfl⟩

/-- Rules of which one cannot be checked stop the stage that is to check them. -/
theorem fails_checked (name : String) (start : Desk)
    (known : ∀ rule ∈ start.rules, ∀ text, rule.tag ≠ .unknown text)
    (long : ∃ rule ∈ start.rules, ¬ rule.Checkable) :
    ∃ d, Fails (.stopped .longNumber)
        [{ kind := .check }, { kind := .silence }, { kind := .begin, name }] start d ∧
      d.stored = start.stored := by
  have emits : Opens _ [{ kind := .begin, name }] start start := opens_begin
  let line : List Stage := [{ kind := .silence }, { kind := .begin, name }]
  have silences : Yields line.length keep _ line start _ := emits.silence (by simp)
  have silent := (laid_start start).silence List.nodup_range
  have stopped := Numbering.check_silence_of_long known long start.stealth start.diagnostics
  rw [← silent.program_eq, ← silent.diagnostics_eq] at stopped
  obtain ⟨before, -, stepped⟩ :=
    exists_step_check_stopped Kind.check.name (by simp [line]) silences stopped
  exact ⟨_, fails_of_step rfl stepped, silent.stored_eq⟩

/-- Where something that is to be written cannot be, the chain is stopped before it has handed on a
rule. -/
theorem fails_treating (name : String) (stealth : Bool) {debugging : Bool} {emitted : List Rule}
    (known : ∀ rule ∈ emitted, ∀ text, rule.tag ≠ .unknown text)
    (long : ¬ Numbering.Writable debugging emitted) :
    ∃ d, Fails (.stopped .longNumber) (treating name debugging)
        { rules := emitted, stealth, debugging } d ∧ d.stored = [] := by
  simp only [Numbering.Writable, not_forall] at long
  obtain ⟨rule, hr, long⟩ := long
  cases debugging with
  | true =>
      have long : ¬ rule.Showable := fun shown => long ⟨shown.checkable, fun _ => shown⟩
      obtain ⟨d, begins, stored⟩ :=
        fails_begun name { rules := emitted, stealth, debugging := true } rfl ⟨rule, hr, long⟩
      have silences : Fails _ (behind true ({ kind := .silence } :: _)) _ d :=
        (begins.cons (by decide) rfl rfl).behind
      have checks : Fails _ (behind true ({ kind := .check } :: _)) _ d :=
        (silences.cons (by decide) rfl rfl).behind
      exact ⟨d, (checks.cons (by decide) rfl rfl).behind, stored⟩
  | false =>
      have long : ¬ rule.Checkable := fun checked => long ⟨checked, nofun⟩
      obtain ⟨d, checks, stored⟩ :=
        fails_checked name { rules := emitted, stealth, debugging := false } known ⟨rule, hr, long⟩
      exact ⟨d, checks.cons (by decide) rfl rfl, stored⟩

/-- The chain of a compilation, whose first stage goes by the given name. -/
def treatment (name : String) (debugging : Bool) : List Stage :=
  (assemble debugging standard).modifyHead fun s => { s with name }

theorem treatment_reverse (name : String) (debugging : Bool) :
    (treatment name debugging).reverse = { kind := .store } :: treating name debugging := by
  cases debugging <;> rfl

/-- The chain is at its end after one step for each rule and one more, and has stored the rules in
the order of evaluation. -/
theorem run_treatment (name : String) (stealth : Bool) {debugging : Bool} {emitted : List Rule}
    (known : ∀ rule ∈ emitted, ∀ text, rule.tag ≠ .unknown text)
    (writable : Numbering.Writable debugging emitted) {fuel : Nat}
    (enough : emitted.length < fuel) :
    ∃ line desk, run fuel (treatment name debugging) { rules := emitted, stealth, debugging } =
        .ended (.ok ()) line desk ∧
      desk.program = Numbering.sort (Numbering.silence stealth emitted) ∧
      desk.diagnostics = Numbering.said name stealth debugging emitted := by
  obtain ⟨is, d, opens, laid⟩ := opens_treating name stealth known writable
  rw [run, treatment_reverse]
  refine drive_of_laid opens laid (behind_ne_nil (by simp)) rfl ?_
  rw [(Numbering.sort_perm _).length_eq]
  cases stealth <;> simpa [Numbering.silence] using enough

/-- The chain is stopped at its first step where a number that is to be written is too long. -/
theorem run_treatment_of_long (name : String) (stealth : Bool) {debugging : Bool}
    {emitted : List Rule} (known : ∀ rule ∈ emitted, ∀ text, rule.tag ≠ .unknown text)
    (long : ¬ Numbering.Writable debugging emitted) {fuel : Nat} (enough : 0 < fuel) :
    ∃ line desk, run fuel (treatment name debugging) { rules := emitted, stealth, debugging } =
        .ended (.error (.stopped .longNumber)) line desk ∧ desk.program = [] := by
  obtain ⟨d, fails, stored⟩ := fails_treating name stealth known long
  obtain ⟨line, stepped⟩ := fails.exists_step (s := { kind := .store }) (by decide) rfl
  obtain ⟨fuel, rfl⟩ := Nat.exists_eq_succ_of_ne_zero (Nat.ne_of_gt enough)
  refine ⟨line, d, ?_, by rw [Desk.program, stored, List.map_nil]⟩
  rw [run, treatment_reverse]
  exact drive_of_fault stepped

end Chain

theorem Purpose.last_le_rejectAll (p : Purpose) : p.band.last ≤ Purpose.rejectAll.band.base :=
  (by decide : ∀ p ∈ all, p.band.last ≤ Purpose.rejectAll.band.base) p p.mem_all

namespace Policy

open Firewall.Numbering (Ascending InBand)

variable {r : Registry}

theorem inBand_rules (h : r.Indexed) (o : Options) : ∀ rule ∈ rules r o, InBand rule := by
  intro rule hr
  obtain ⟨d, hd, rfl⟩ := mem_rules.mp hr
  exact (fits_drafts h o d hd).inBand o.stealth

theorem getLast?_rules (h : r.Indexed) (o : Options) :
    (rules r o).getLast? = some ((rejectAll o).settled o.stealth) := by
  obtain ⟨init, split⟩ := (ascending_rules h o).exists_append_last
    (mem_rules.mpr ⟨_, rejectAll_mem, rfl⟩) fun rule hr => by
      obtain ⟨p, bears⟩ := bears_of_mem h hr
      rw [rejectAll_number]
      exact Int.le_trans bears.le_last p.last_le_rejectAll
  rw [split, List.getLast?_concat]

/-- Every registry compiles: the numbers of its program go up, each of them lies in the band of
its purpose, and the last rule rejects whatever comes to it. The chain of stages that the rules
are sent through ends with that program and with nothing to object to. -/
theorem exists_numbered_program {tokens : List String}
    (declared : (Registry.ofTokens tokens).2 = .ok r) (o : Options) (host debugging : Bool) :
    ∃ p emitted, (compile r o host debugging).result = .ok p ∧
      Ascending p.program.rules ∧ (∀ rule ∈ p.program.rules, InBand rule) ∧
      (∃ last, p.program.rules.getLast? = some last ∧ last.number = 30300 ∧
        last.action = .reject ∧ last.what = {}) ∧
      Draft.placeAll (Ruleset.drafts r o) = .ok emitted ∧
      ∀ fuel, emitted.length < fuel → ∃ line desk,
        Chain.run fuel (Chain.treatment "Begin compilation" debugging)
            { rules := emitted, stealth := o.stealth, debugging } = .ended (.ok ()) line desk ∧
          desk.program = p.program.rules ∧ desk.diagnostics.errors = [] ∧
          desk.diagnostics.aborted = false := by
  have indexed := Registry.indexed_of_declared declared
  have known : ∀ rule ∈ (Ruleset.drafts r o).map Draft.numbered, ∀ text,
      rule.tag ≠ .unknown text := by
    simp
  have writable : Numbering.Writable debugging ((Ruleset.drafts r o).map Draft.numbered) :=
    fun rule hr => ⟨(showable_drafts indexed o rule hr).checkable, fun _ =>
      showable_drafts indexed o rule hr⟩
  obtain ⟨-, settled, running, silent⟩ := settle_drafts indexed o debugging
  rw [Numbering.settle_eq o.stealth known writable] at settled running silent
  refine ⟨_, _, compile_eq_ok indexed o host debugging, ascending_rules indexed o,
    inBand_rules indexed o, ⟨_, getLast?_rules indexed o, rejectAll_number, ?_, ?_⟩,
    Draft.placeAll_of_fits (fits_drafts indexed o), ?_⟩
  · simp [rejectAll]
  · simp [rejectAll]
  · intro fuel enough
    obtain ⟨line, desk, ended, program, diagnostics⟩ :=
      Chain.run_treatment "Begin compilation" o.stealth known writable enough
    exact ⟨line, desk, ended, program.trans settled, diagnostics ▸ silent, diagnostics ▸ running⟩

theorem exists_numbered_program_home :
    ∃ p emitted, (compile .home { stealth := true } true true).result = .ok p ∧
      emitted.length = 64 ∧ Ascending p.program.rules ∧
      ∃ line desk, Chain.run 100 (Chain.treatment "Begin compilation" true)
          { rules := emitted, stealth := true, debugging := true } = .ended (.ok ()) line desk ∧
        desk.program = p.program.rules := by
  obtain ⟨p, emitted, compiled, ascending, -, -, placed, treated⟩ :=
    exists_numbered_program Registry.declared_home { stealth := true } true true
  have length : emitted.length = 64 := by
    have known := Draft.placeAll_of_fits
      (fits_drafts (Registry.indexed_of_declared Registry.declared_home) { stealth := true })
    rw [known, Except.ok.injEq] at placed
    rw [← placed, List.length_map]
    decide +kernel
  obtain ⟨line, desk, ended, program, -⟩ := treated 100 (by omega)
  exact ⟨p, emitted, compiled, length, ascending, line, desk, ended, program⟩

end Policy
end Firewall

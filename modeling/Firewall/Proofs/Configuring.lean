import Firewall.Proofs.Deploying

/-!
Configurations of the host. A command that ends badly is reported and the next one is run; a command
that cannot be run at all ends the configuration, and nothing is reported of it.
-/

namespace Firewall

variable {τ : Type}

/-- A command that was tried, and what came of it. -/
structure Attempt where
  command : List String
  result : Except SystemFault CommandResult

namespace Attempt

def written (a : Attempt) : String := Text.ShellWord.join a.command

/-- The command was run, however it ended. -/
def Ran (a : Attempt) : Prop := ∃ r, a.result = .ok r

def failed (a : Attempt) : Bool := !Ipfw.succeeded a.result

/-- A warning about a command. If the command was run, it says what the command said. -/
def Warned (a : Attempt) (text : String) : Prop :=
  match a.result with
  | .ok r => text = a.written ++ ": " ++ Text.strip r.complaint
  | .error _ => ∃ reason, text = a.written ++ ": " ++ reason

theorem not_ran_iff (a : Attempt) : ¬ a.Ran ↔ ∃ fault, a.result = .error fault := by
  cases result : a.result <;> simp [Ran, result]

/-- Attempts up to the first command that could not be run. -/
theorem exists_first_fault {tried : List Attempt} (h : ¬ ∀ a ∈ tried, a.Ran) :
    ∃ front a back fault, tried = front ++ a :: back ∧ (∀ x ∈ front, x.Ran) ∧
      a.result = .error fault := by
  induction tried with
  | nil => simp at h
  | cons a rest ih =>
      by_cases ran : a.Ran
      · obtain ⟨front, stopped, back, fault, rfl, all, result⟩ := ih fun later =>
          h (List.forall_mem_cons.mpr ⟨ran, later⟩)
        exact ⟨a :: front, stopped, back, fault, rfl, List.forall_mem_cons.mpr ⟨ran, all⟩, result⟩
      · obtain ⟨fault, result⟩ := a.not_ran_iff.mp ran
        exact ⟨[], a, rest, fault, rfl, by simp, result⟩

end Attempt

/-- Every one of the commands tried, whatever came of those before it. -/
def attempts (runner : Runner τ) : List (List String) → τ → List Attempt × τ
  | [], world => ([], world)
  | command :: rest, world =>
    let (result, world) := runner command world
    let (tried, world) := attempts runner rest world
    ({ command, result } :: tried, world)

theorem map_command_attempts (runner : Runner τ) (commands : List (List String)) (world : τ) :
    (attempts runner commands world).1.map (·.command) = commands := by
  induction commands generalizing world with
  | nil => rfl
  | cons command rest ih => rw [attempts, List.map_cons, ih]

/-- Attempts that are cut in two come from commands that are. -/
theorem exists_attempts_eq_append {runner : Runner τ} {commands : List (List String)} {world : τ}
    {front back : List Attempt} {a : Attempt}
    (h : (attempts runner commands world).1 = front ++ a :: back) :
    ∃ before after, commands = before ++ a.command :: after ∧
      (attempts runner before world).1 = front ∧
      a.result = (runner a.command (attempts runner before world).2).1 := by
  induction commands generalizing world front with
  | nil => simp [attempts] at h
  | cons command rest ih =>
      cases front with
      | nil =>
          cases h
          exact ⟨[], rest, rfl, rfl, rfl⟩
      | cons first front =>
          rw [attempts, List.cons_append, List.cons.injEq] at h
          obtain ⟨rfl, h⟩ := h
          obtain ⟨before, after, rfl, tried, result⟩ := ih h
          exact ⟨command :: before, after, rfl, congrArg (_ :: ·) tried, result⟩

namespace Deployment

/-- One warning for each command that failed, in their order, and nothing else. -/
structure Reports (tried : List Attempt) (b b' : Bench τ) : Prop where
  warnings : ∃ texts, b'.warnings = b.warnings ++ texts ∧
    List.Forall₂ Attempt.Warned (tried.filter (·.failed)) texts
  allWarnings : b'.allWarnings =
    b.allWarnings ++ (tried.filter (·.failed)).map fun a => a.written ++ " failed"

variable {u : Setup τ} {b b' b'' : Bench τ} {p : Policy} {tried tried' : List Attempt}

theorem Reports.refl (b : Bench τ) : Reports [] b b :=
  ⟨⟨[], by simp, .nil⟩, by simp⟩

theorem Reports.trans (h : Reports tried b b') (h' : Reports tried' b' b'') :
    Reports (tried ++ tried') b b'' := by
  obtain ⟨texts, own, each⟩ := h.warnings
  obtain ⟨texts', own', each'⟩ := h'.warnings
  refine ⟨⟨texts ++ texts', by rw [own', own, List.append_assoc], ?_⟩, ?_⟩
  · rw [List.filter_append]
    exact List.rel_append each each'
  · rw [h'.allWarnings, h.allWarnings, List.filter_append, List.map_append, List.append_assoc]

/-- A command that was run is reported if it failed, and the configuration goes on. -/
theorem runHostCommands_cons (runner : Runner τ) (command : List String)
    (rest : List (List String)) (b : Bench τ) {r : CommandResult}
    (ran : (runner command b.terminal.world).1 = .ok r) :
    ∃ b', runHostCommands runner (command :: rest) b = runHostCommands runner rest b' ∧
      b'.terminal.world = (runner command b.terminal.world).2 ∧
      b'.terminal.commands = b.terminal.commands ++ [command] ∧
      Reports [{ command, result := .ok r }] b b' := by
  rcases carried : runner command b.terminal.world with ⟨result, world⟩
  rw [carried] at ran
  subst ran
  simp only [runHostCommands, Terminal.run, carried]
  split <;> rename_i status
  · refine ⟨_, rfl, rfl, rfl, ⟨⟨[], by simp, ?_⟩, ?_⟩⟩
    · simp [Attempt.failed, Ipfw.succeeded, status]
    · simp [Attempt.failed, Ipfw.succeeded, status]
  · refine ⟨_, rfl, rfl, rfl, ⟨⟨_, rfl, ?_⟩, ?_⟩⟩
    · simp [Attempt.failed, Ipfw.succeeded, status, Attempt.Warned, Attempt.written]
    · simp [Attempt.failed, Ipfw.succeeded, status, Attempt.written]

/-- As long as the commands can be run, all of them are, and those that fail are reported. -/
theorem runHostCommands_append (runner : Runner τ) (front back : List (List String)) (b : Bench τ)
    (ran : ∀ a ∈ (attempts runner front b.terminal.world).1, a.Ran) :
    ∃ b', runHostCommands runner (front ++ back) b = runHostCommands runner back b' ∧
      b'.terminal.world = (attempts runner front b.terminal.world).2 ∧
      b'.terminal.commands = b.terminal.commands ++ front ∧
      Reports (attempts runner front b.terminal.world).1 b b' := by
  induction front generalizing b with
  | nil => exact ⟨b, rfl, rfl, (List.append_nil _).symm, .refl b⟩
  | cons command rest ih =>
      obtain ⟨⟨r, result⟩, later⟩ := List.forall_mem_cons.mp ran
      obtain ⟨b₁, step, world, commands, reports⟩ :=
        runHostCommands_cons runner command (rest ++ back) b result
      rw [← world] at later
      obtain ⟨b₂, steps, world', commands', reports'⟩ := ih b₁ later
      have whole := reports.trans reports'
      rw [world] at whole world'
      refine ⟨b₂, step.trans steps, world', ?_, ?_⟩
      · rw [commands', commands, List.append_assoc, List.singleton_append]
      · rw [attempts]
        dsimp only at result ⊢
        rw [result]
        exact whole

theorem runHostCommands_of_error (runner : Runner τ) (command : List String)
    (rest : List (List String)) (b : Bench τ) {fault : SystemFault}
    (stopped : (runner command b.terminal.world).1 = .error fault) :
    ∃ b', runHostCommands runner (command :: rest) b = (.error (.system fault), b') ∧
      b'.terminal.commands = b.terminal.commands ++ [command] ∧ Reports [] b b' := by
  rcases carried : runner command b.terminal.world with ⟨result, world⟩
  rw [carried] at stopped
  subst stopped
  simp only [runHostCommands, Terminal.run, carried]
  exact ⟨_, rfl, rfl, ⟨⟨[], by simp, .nil⟩, by simp⟩⟩

/-- A configuration of the host returns, runs the command of every parameter and of every service
once and in this order, and reports those that failed, exactly if each of them can be run. The first
one that cannot be run is the last one of all, and its fault is the answer. -/
theorem configureHost_reports_iff {tokens : List String} {b₀ : Bench τ}
    (compiled : (compile u tokens b₀).1 = .ok p) (b : Bench τ) :
    ∃ services, p.services.mapM Host.serviceCommand = .ok services ∧
      let commands := p.sysctls.map Host.sysctlCommand ++ services
      let tried := (attempts u.runner commands b.terminal.world).1
      let after := configureHost u p b
      ((after.1 = .ok () ∧ after.2.terminal.commands = b.terminal.commands ++ commands ∧
          Reports tried b after.2) ↔ ∀ a ∈ tried, a.Ran) ∧
      ∀ front a back fault, tried = front ++ a :: back → (∀ x ∈ front, x.Ran) →
        a.result = .error fault →
        after.1 = .error (.system fault) ∧
          after.2.terminal.commands =
            b.terminal.commands ++ (front ++ [a]).map (·.command) ∧
          Reports front b after.2 := by
  obtain ⟨commands, known⟩ := exists_hostCommands compiled
  have runs : configureHost u p b = runHostCommands u.runner commands b := by
    rw [configureHost, known]
  obtain ⟨services, asked, made⟩ := Interface.bind_eq_ok_iff.mp known
  cases made
  refine ⟨services, asked, ?_⟩
  generalize p.sysctls.map Host.sysctlCommand ++ services = commands at runs ⊢
  intro commands tried after
  have stops : ∀ front a back fault, tried = front ++ a :: back → (∀ x ∈ front, x.Ran) →
      a.result = .error fault → after.1 = .error (.system fault) ∧
        after.2.terminal.commands = b.terminal.commands ++ (front ++ [a]).map (·.command) ∧
        Reports front b after.2 := by
    intro front a back fault cut all stopped
    obtain ⟨before, later, rfl, rfl, result⟩ := exists_attempts_eq_append cut
    obtain ⟨b₁, steps, world, handed, reports⟩ :=
      runHostCommands_append u.runner before (a.command :: later) b all
    rw [stopped, ← world] at result
    obtain ⟨b₂, stops, handed', reports'⟩ :=
      runHostCommands_of_error u.runner a.command later b₁ result.symm
    have ended : after = (.error (.system fault), b₂) := runs.trans (steps.trans stops)
    rw [ended]
    refine ⟨rfl, ?_, ?_⟩
    · rw [handed', handed, List.map_append, map_command_attempts, List.append_assoc]
      rfl
    · simpa using reports.trans reports'
  refine ⟨⟨fun configures => ?_, fun all => ?_⟩, stops⟩
  · by_contra faulty
    obtain ⟨front, a, back, fault, cut, ran, result⟩ := Attempt.exists_first_fault faulty
    have stopped := (stops front a back fault cut ran result).1
    rw [configures.1] at stopped
    cases stopped
  · obtain ⟨b₁, steps, -, handed, reports⟩ := runHostCommands_append u.runner commands [] b all
    rw [List.append_nil] at steps
    have ended : after = (.ok (), b₁) := runs.trans steps
    rw [ended]
    exact ⟨rfl, handed, reports⟩

theorem compile_lone (u : Setup Unit) :
    (compile u ["en0"] { terminal := { world := () } }).1 =
      .ok (Policy.assemble .lone (if u.host then Host.sysctls u.options else [])
        (Policy.rules .lone u.options)) :=
  compile_of_result Registry.declared_lone
    (Policy.compile_eq_ok (Registry.indexed_of_declared Registry.declared_lone) _ _ _) _

/-- Where no command ends well each of the 28 parameters and the service is warned about. -/
theorem configureHost_reports_hopeless :
    ∃ p, (compile hopeless ["en0"] { terminal := { world := () } }).1 = .ok p ∧
      ∀ b : Bench Unit, (configureHost hopeless p b).1 = .ok () ∧
        (configureHost hopeless p b).2.allWarnings.length = b.allWarnings.length + 29 := by
  refine ⟨_, compile_lone hopeless, fun b => ?_⟩
  obtain ⟨services, asked, reports, -⟩ := configureHost_reports_iff (compile_lone hopeless) b
  cases asked
  have each (commands : List (List String)) :
      (attempts hopeless.runner commands b.terminal.world).1 =
        commands.map fun command => { command, result := .ok { status := 1 } } := by
    induction commands with
    | nil => rfl
    | cons command rest ih => exact congrArg (_ :: ·) ih
  rw [each] at reports
  obtain ⟨answered, -, reported⟩ := reports.mpr (List.forall_mem_map.mpr fun _ _ => ⟨_, rfl⟩)
  refine ⟨answered, ?_⟩
  rw [reported.allWarnings, List.length_append, List.length_map]
  rfl

/-- A host without a command for its kernel parameters. -/
def unequipped : Setup Unit :=
  let runner : Runner Unit := fun command world =>
    (if command.head? = some "sysctl" then
      .error { number := some 2, reason := "No such file or directory" } else .ok {}, world)
  { gateway with engine := Ipfw.engine runner {}, options := {}, runner }

/-- A command that is missing ends the configuration at the first parameter: the fault escapes, it
is reported nowhere, and the service is not switched. -/
theorem not_configureHost_reports_unequipped :
    ∃ p services, (compile unequipped ["en0"] { terminal := { world := () } }).1 = .ok p ∧
      p.services.mapM Host.serviceCommand = .ok services ∧ services.length = 1 ∧
      let b : Bench Unit := { terminal := { world := () } }
      let commands := p.sysctls.map Host.sysctlCommand ++ services
      let after := configureHost unequipped p b
      ¬ (after.1 = .ok () ∧ after.2.terminal.commands = commands ∧
        Reports (attempts unequipped.runner commands ()).1 b after.2) ∧
      after.2.terminal.commands = [["sysctl", "-w", "net.inet.ip.fw.verbose=0"]] ∧
      after.2.warnings = [] := by
  refine ⟨_, _, compile_lone unequipped, rfl, rfl, ?_, ?_, ?_⟩
  · rintro ⟨answered, -⟩
    cases answered
  · decide +kernel
  · decide +kernel

end Deployment
end Firewall

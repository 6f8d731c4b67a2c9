import Firewall.Proofs.Scripting

/-!
The phases of a deployment. Declarations are read and compiled first; then a script is written, or
the filter is installed and after it the host is configured. What a terminal was handed, and how
each command ended, tells how far a deployment came.
-/

namespace Firewall

/-- A command that was run, and whether it ended well. -/
structure Execution where
  command : List String
  done : Bool
deriving DecidableEq, Repr

namespace Execution

def succeeded (command : List String) : Execution := { command, done := true }

def failed (command : List String) : Execution := { command, done := false }

/-- A command for the filter. -/
def OfFilter (e : Execution) : Prop := e.command.head? = some Ipfw.defaultExecutable

/-- A command that sets a kernel parameter or switches a service. -/
def OfHost (e : Execution) : Prop :=
  e.command.head? = some "sysctl" ∨ e.command.head? = some "launchctl"

theorem OfFilter.not_ofHost {e : Execution} (h : e.OfFilter) : ¬ e.OfHost := by
  unfold OfFilter at h
  simp [OfHost, h, Ipfw.defaultExecutable]

end Execution

/-- Commands that are run one after the other up to the first that fails; the truth value says
that none of them did. -/
inductive Tried : List (List String) → Bool → List Execution → Prop
  | nil : Tried [] true []
  | done {command : List String} {rest : List (List String)} {ok : Bool} {log : List Execution} :
      Tried rest ok log → Tried (command :: rest) ok (.succeeded command :: log)
  | failed {command : List String} {rest : List (List String)} :
      Tried (command :: rest) false [.failed command]

theorem Tried.eq_of_ok {commands : List (List String)} {log : List Execution}
    (h : Tried commands true log) : log = commands.map .succeeded := by
  induction commands generalizing log with
  | nil =>
      cases h
      rfl
  | cons command rest ih =>
      cases h with
      | done tried => rw [ih tried, List.map_cons]

theorem Tried.subset {commands : List (List String)} {ok : Bool} {log : List Execution}
    (h : Tried commands ok log) : log.map (·.command) ⊆ commands := by
  induction h with
  | nil => exact List.Subset.refl _
  | done _ ih => exact List.cons_subset_cons _ ih
  | failed => simp [Execution.failed]

theorem Tried.exists_failed {commands : List (List String)} {log : List Execution}
    (h : Tried commands false log) : ∃ e ∈ log, e.done = false := by
  induction commands generalizing log with
  | nil => cases h
  | cons command rest ih =>
      cases h with
      | done tried =>
          obtain ⟨e, he, failed⟩ := ih tried
          exact ⟨e, List.mem_cons_of_mem _ he, failed⟩
      | failed => exact ⟨_, List.mem_cons_self .., rfl⟩

namespace Terminal

variable {τ : Type} {runner : Runner τ} {t t' t'' : Terminal τ} {log log' : List Execution}

/-- What a runner makes of commands that it is handed one after the other. -/
inductive Ran (runner : Runner τ) : τ → List Execution → τ → Prop
  | nil (world : τ) : Ran runner world [] world
  | cons {world world' world'' : τ} {command : List String}
      {result : Except SystemFault CommandResult} {log : List Execution} :
      runner command world = (result, world') → Ran runner world' log world'' →
      Ran runner world ({ command, done := Ipfw.succeeded result } :: log) world''

theorem Ran.trans {world world' world'' : τ} (h : Ran runner world log world')
    (h' : Ran runner world' log' world'') : Ran runner world (log ++ log') world'' := by
  induction h with
  | nil => exact h'
  | cons ran _ ih => exact .cons ran (ih h')

/-- The commands that a terminal was handed on the way to another, and how they ended. -/
structure Handed (runner : Runner τ) (t : Terminal τ) (log : List Execution) (t' : Terminal τ) :
    Prop where
  commands : t'.commands = t.commands ++ log.map (·.command)
  ran : Ran runner t.world log t'.world

theorem Handed.refl (runner : Runner τ) (t : Terminal τ) : Handed runner t [] t :=
  ⟨(List.append_nil _).symm, .nil _⟩

theorem Handed.trans (h : Handed runner t log t') (h' : Handed runner t' log' t'') :
    Handed runner t (log ++ log') t'' := by
  refine ⟨?_, h.ran.trans h'.ran⟩
  rw [h'.commands, h.commands, List.append_assoc, List.map_append]

theorem handed_run (runner : Runner τ) (command : List String) (t : Terminal τ) :
    Handed runner t [{ command, done := Ipfw.succeeded (t.run runner command).1 }]
      (t.run runner command).2 :=
  ⟨rfl, .cons rfl (.nil _)⟩

end Terminal

/-! ### Installations -/

namespace Ipfw

open Terminal (Handed)

variable {τ : Type} {runner : Runner τ} {a : Access}

theorem handed_modify (runner : Runner τ) (live : a.dryRun = false) (words : List String)
    (t : Terminal τ) :
    ∃ done, Handed runner t [{ command := commandOf a words, done }] (modify runner a words t).2 ∧
      Answered done (modify runner a words t).1 := by
  have handed := Terminal.handed_run runner (commandOf a words)
    (t.log .debug ("Running " ++ Text.ShellWord.join (commandOf a words)))
  rcases ran : (t.log .debug ("Running " ++ Text.ShellWord.join (commandOf a words))).run runner
    (commandOf a words) with ⟨result, t'⟩
  rw [ran] at handed
  refine ⟨succeeded result, ?_⟩
  unfold commandOf at ran
  simp only [modify, live, execute, ran]
  cases result with
  | error fault => exact ⟨⟨handed.commands, handed.ran⟩, _, rfl⟩
  | ok r =>
      by_cases status : r.status = 0
      · simp only [status, if_true]
        exact ⟨⟨handed.commands, handed.ran⟩, by simp [Answered, succeeded, status]⟩
      · simp only [status, if_false]
        exact ⟨⟨handed.commands, handed.ran⟩, by simp [Answered, succeeded, status]⟩

theorem tried_modifyAll (runner : Runner τ) (live : a.dryRun = false)
    (commands : List (List String)) (t : Terminal τ) :
    ∃ ok log, Tried (commands.map (commandOf a)) ok log ∧
      Handed runner t log (modifyAll runner a commands t).2 ∧
      Answered ok (modifyAll runner a commands t).1 := by
  induction commands generalizing t with
  | nil => exact ⟨true, [], .nil, .refl runner t, rfl⟩
  | cons words rest ih =>
      obtain ⟨done, handed, answered⟩ := handed_modify runner live words t
      rcases modified : modify runner a words t with ⟨answer, t'⟩
      rw [modified] at handed answered
      cases done with
      | true =>
          cases answered
          obtain ⟨ok, log, tried, later, outcome⟩ := ih t'
          simp only [modifyAll, modified]
          exact ⟨ok, _, .done tried, handed.trans later, outcome⟩
      | false =>
          obtain ⟨text, rfl⟩ := answered
          simp only [modifyAll, modified]
          exact ⟨false, _, .failed, handed, text, rfl⟩

theorem handed_dryRun (runner : Runner τ) (dry : a.dryRun = true) (commands : List (List String))
    (t : Terminal τ) :
    ∃ t', modifyAll runner a commands t = (.ok (), t') ∧ Handed runner t [] t' := by
  obtain ⟨t', finished, handed, -⟩ := printed_of_dryRun runner dry commands t
  have world : t'.world = t.world := by
    simpa [finished] using (modifyAll_dryRun runner dry commands t).2
  exact ⟨t', finished, by rw [handed]; exact (List.append_nil _).symm, world ▸ .nil _⟩

variable (runner) in
/-- An installation runs its commands up to the first that fails, which a flush follows. -/
theorem tried_install (live : a.dryRun = false) (p : Policy) (t : Terminal τ) :
    let outcome := Installation.install (engine runner a) p t
    let all := (Installation.commands p).map (commandOf a)
    (outcome.answer = .ok () ∧ Handed runner t (all.map .succeeded) outcome.state) ∨
    ∃ text tried ok flushed, outcome.answer = .error (.rejected text) ∧
      Tried all false tried ∧ Tried (flushCommands.map (commandOf a)) ok flushed ∧
      Handed runner t (tried ++ flushed) outcome.state := by
  obtain ⟨ok, log, tried, handed, answered⟩ :=
    tried_modifyAll runner live (Installation.commands p) t
  dsimp only
  rw [Installation.commands, ← performAll_engine] at handed answered
  unfold Installation.install
  rcases performed : (engine runner a).performAll (Installation.calls p) t with ⟨answer, t'⟩
  rw [performed] at handed answered
  cases ok with
  | true =>
      cases answered
      rw [tried.eq_of_ok] at handed
      exact .inl ⟨rfl, handed⟩
  | false =>
      obtain ⟨text, rfl⟩ := answered
      let reported := Installation.report (engine runner a)
        ("Installation failed, flushing: " ++ text) t'
      obtain ⟨ok', flushed, flushing, later, answered'⟩ :=
        tried_modifyAll runner live flushCommands reported
      have noted : Handed runner t (log ++ flushed) (modifyAll runner a flushCommands reported).2 :=
        handed.trans ⟨later.commands, later.ran⟩
      refine .inr ⟨text, log, ok', flushed, ?_⟩
      have recovery : (engine runner a).perform .flush reported =
        modifyAll runner a flushCommands reported := rfl
      rcases flushes : modifyAll runner a flushCommands reported with ⟨answer', t''⟩
      rw [flushes] at noted answered' recovery
      simp only [reported] at recovery
      simp only [recovery]
      cases ok' with
      | true =>
          cases answered'
          exact ⟨rfl, tried, flushing, noted⟩
      | false =>
          obtain ⟨again, rfl⟩ := answered'
          exact ⟨rfl, tried, flushing, ⟨noted.commands, noted.ran⟩⟩

end Ipfw

/-! ### Deployments -/

namespace Host

theorem ofHost_serviceCommand {t : ServiceToggle} {command : List String}
    (known : serviceCommand t = .ok command) (done : Bool) :
    Execution.OfHost { command, done } := by
  unfold serviceCommand at known
  split at known
  · cases known
  · cases known
    split <;> exact .inr rfl

end Host

namespace Deployment

open Terminal (Handed)

variable {τ : Type} {u : Setup τ} {b : Bench τ} {p : Policy}

theorem ofHost_of_mem_hostCommands {commands : List (List String)}
    (known : hostCommands p = .ok commands) :
    ∀ e : Execution, e.command ∈ commands → e.OfHost := by
  rintro ⟨command, done⟩ h
  obtain ⟨services, asked, known⟩ := Interface.bind_eq_ok_iff.mp known
  cases known
  rcases List.mem_append.mp h with parameter | service
  · obtain ⟨s, -, rfl⟩ := List.mem_map.mp parameter
    exact .inl rfl
  · obtain ⟨t, known⟩ := exists_of_mem_mapM asked service
    exact Host.ofHost_serviceCommand known done

/-- Commands for the host are run to the end, unless one cannot be run at all. -/
theorem handed_runHostCommands (runner : Runner τ) (commands : List (List String)) (b : Bench τ) :
    ∃ log rest, commands = log.map (·.command) ++ rest ∧
      Handed runner b.terminal log (runHostCommands runner commands b).2.terminal ∧
      (((runHostCommands runner commands b).1 = .ok () ∧ rest = []) ∨
        ∃ fault, (runHostCommands runner commands b).1 = .error (.system fault)) := by
  induction commands generalizing b with
  | nil => exact ⟨[], [], rfl, .refl runner b.terminal, .inl ⟨rfl, rfl⟩⟩
  | cons command rest ih =>
      have handed := Terminal.handed_run runner command b.terminal
      rcases ran : b.terminal.run runner command with ⟨result, t⟩
      rw [ran] at handed
      simp only [runHostCommands, ran]
      cases result with
      | error fault => exact ⟨_, rest, rfl, handed, .inr ⟨fault, rfl⟩⟩
      | ok r =>
          dsimp only
          split
          · obtain ⟨log, left, split, later, ended⟩ := ih { b with terminal := t }
            exact ⟨_, left, by rw [split]; rfl, handed.trans later, ended⟩
          · let written := Text.ShellWord.join command
            let warning := written ++ ": " ++ Text.strip r.complaint
            obtain ⟨log, left, split, later, ended⟩ := ih
              { b with
                terminal := t.log .warning warning
                warnings := b.warnings ++ [warning]
                allWarnings := b.allWarnings ++ [written ++ " failed"] }
            exact ⟨_, left, by rw [split]; rfl, handed.trans ⟨later.commands, later.ran⟩, ended⟩

theorem handed_compile (u : Setup τ) (tokens : List String) (b : Bench τ) :
    Handed u.runner b.terminal [] (compile u tokens b).2.terminal ∧
      (compile u tokens b).2.files = b.files := by
  unfold compile
  rcases Registry.ofTokens tokens with ⟨notices, cause | r⟩
  · exact ⟨⟨(List.append_nil _).symm, .nil _⟩, rfl⟩
  · dsimp only
    cases (Policy.compile r u.options u.host (1 < u.verbosity)).result with
    | error fault => exact ⟨⟨(List.append_nil _).symm, .nil _⟩, rfl⟩
    | ok p => exact ⟨⟨(List.append_nil _).symm, .nil _⟩, rfl⟩

theorem handed_inform (u : Setup τ) (text : String) (b : Bench τ) :
    Handed u.runner b.terminal [] (inform u text b).terminal := by
  unfold inform
  split
  · exact .refl u.runner b.terminal
  · exact ⟨(List.append_nil _).symm, .nil _⟩

theorem handed_writeOutput (u : Setup τ) (output text : String) (b : Bench τ) :
    Handed u.runner b.terminal [] (writeOutput u output text b).2.terminal := by
  unfold writeOutput
  dsimp only
  split
  · exact .refl u.runner b.terminal
  · rename_i files _
    exact handed_inform u _ { b with files }

/-- The policy of declared interfaces. -/
theorem exists_registry_of_compiled {tokens : List String}
    (compiled : (compile u tokens b).1 = .ok p) :
    ∃ r, (Registry.ofTokens tokens).2 = .ok r ∧
      p = Policy.assemble r (if u.host then Host.sysctls u.options else [])
        (Policy.rules r u.options) := by
  unfold compile at compiled
  rcases declared : Registry.ofTokens tokens with ⟨notices, cause | r⟩
  · simp [declared] at compiled
  · rw [declared] at compiled
    dsimp only at compiled
    have registered : (Registry.ofTokens tokens).2 = .ok r := by rw [declared]
    have policy := Policy.compile_eq_ok (Registry.indexed_of_declared registered) u.options u.host
      (1 < u.verbosity)
    rw [policy] at compiled
    cases compiled
    exact ⟨r, rfl, rfl⟩

/-- The services of a policy are known ones. -/
theorem exists_hostCommands {tokens : List String} (compiled : (compile u tokens b).1 = .ok p) :
    ∃ commands, hostCommands p = .ok commands := by
  obtain ⟨r, -, rfl⟩ := exists_registry_of_compiled compiled
  exact ⟨_, rfl⟩

/-- The commands that install a policy, all of them well ended. -/
def installed (p : Policy) : List Execution :=
  (Installation.commands p).map fun words =>
    .succeeded (Ipfw.defaultExecutable :: "-q" :: words)

/-- What is run once a policy is to be installed, and how that ends. -/
inductive Phases (p : Policy) : List Execution → Except DeployFault Policy → Prop
  /-- A command for the filter fails, and a flush follows. -/
  | refused {tried flushed : List Execution} {ok : Bool} {text : String} :
      Tried ((installed p).map (·.command)) false tried →
      Tried (Ipfw.flushCommands.map (Ipfw.commandOf {})) ok flushed →
      Phases p (tried ++ flushed) (.error (.engine (.rejected text)))
  /-- The filter is installed, and the host is configured. -/
  | configured {hosted : List Execution} :
      hostCommands p = .ok (hosted.map (·.command)) →
      Phases p (installed p ++ hosted) (.ok p)
  /-- The filter is installed, and a command for the host cannot be run. -/
  | interrupted {hosted : List Execution} {rest : List (List String)} {fault : SystemFault} :
      hostCommands p = .ok (hosted.map (·.command) ++ rest) →
      Phases p (installed p ++ hosted) (.error (.system fault))

theorem commands_installed (p : Policy) :
    (installed p).map (·.command) = (Installation.commands p).map (Ipfw.commandOf {}) := by
  rw [installed, List.map_map]
  rfl

theorem ofFilter_of_mem_installed {e : Execution} (h : e ∈ installed p) :
    e.OfFilter ∧ e.done = true := by
  obtain ⟨words, -, rfl⟩ := List.mem_map.mp h
  exact ⟨rfl, rfl⟩

theorem ofFilter_of_tried {commands : List (List String)} {ok : Bool} {log : List Execution}
    (tried : Tried (commands.map (Ipfw.commandOf {})) ok log) : ∀ e ∈ log, e.OfFilter := by
  intro e he
  obtain ⟨words, -, same⟩ := List.mem_map.mp (tried.subset (List.mem_map_of_mem he))
  rw [Execution.OfFilter, ← same]
  rfl

namespace Phases

variable {log : List Execution} {answer : Except DeployFault Policy}

/-- The host is left alone until every command that installs the policy has ended well. -/
theorem installed_prefix (h : Phases p log answer) {front back : List Execution} {e : Execution}
    (split : log = front ++ e :: back) (host : e.OfHost) : installed p <+: front := by
  have behind (hosted : List Execution) (split : installed p ++ hosted = front ++ e :: back) :
      installed p <+: front := by
    rcases List.append_eq_append_iff.mp split with ⟨more, front_eq, -⟩ | ⟨more, whole, rest⟩
    · exact ⟨more, front_eq.symm⟩
    · cases more with
      | nil => exact ⟨[], by simpa using whole⟩
      | cons first more =>
          obtain ⟨rfl, -⟩ := List.cons_eq_cons.mp rest
          have among : e ∈ installed p := whole ▸ by simp
          exact absurd host (ofFilter_of_mem_installed among).1.not_ofHost
  cases h with
  | refused tried flushing =>
      rw [commands_installed] at tried
      have among : e ∈ _ := split ▸ List.mem_append_right front (List.mem_cons_self ..)
      rcases List.mem_append.mp among with first | last
      · exact absurd host (ofFilter_of_tried tried e first).not_ofHost
      · exact absurd host (ofFilter_of_tried flushing e last).not_ofHost
  | configured _ => exact behind _ split
  | interrupted _ => exact behind _ split

/-- Where a command for the filter fails, nothing is run for the host. -/
theorem refused_of_failed (h : Phases p log answer) {e : Execution} (he : e ∈ log)
    (filter : e.OfFilter) (failed : e.done = false) :
    (∀ e ∈ log, ¬ e.OfHost) ∧ ∃ text, answer = .error (.engine (.rejected text)) := by
  have among {hosted : List Execution} {commands : List (List String)}
      (known : hostCommands p = .ok commands) (inside : hosted.map (·.command) ⊆ commands)
      (he : e ∈ installed p ++ hosted) : False := by
    rcases List.mem_append.mp he with first | last
    · simp [(ofFilter_of_mem_installed first).2] at failed
    · exact filter.not_ofHost
        (ofHost_of_mem_hostCommands known e (inside (List.mem_map_of_mem last)))
  cases h with
  | refused tried flushing =>
      rw [commands_installed] at tried
      exact ⟨List.forall_mem_append.mpr ⟨fun e he => (ofFilter_of_tried tried e he).not_ofHost,
        fun e he => (ofFilter_of_tried flushing e he).not_ofHost⟩, _, rfl⟩
  | configured known => exact (among known (List.Subset.refl _) he).elim
  | interrupted known => exact (among known (List.subset_append_left _ _) he).elim

end Phases

/-! ### Runs -/

variable {tokens : List String} {b' b'' : Bench τ}

/-- Over the engine that runs ipfw an installation runs all its commands, or it runs them up to the
first that fails, which a flush follows. -/
theorem handed_install (own : u.engine = Ipfw.engine u.runner {}) (p : Policy) (b : Bench τ) :
    ∃ b', (install u p b = (.ok (), b') ∧ Handed u.runner b.terminal (installed p) b'.terminal) ∨
      ∃ text tried ok flushed, install u p b = (.error (.engine (.rejected text)), b') ∧
        Tried ((installed p).map (·.command)) false tried ∧
        Tried (Ipfw.flushCommands.map (Ipfw.commandOf {})) ok flushed ∧
        Handed u.runner b.terminal (tried ++ flushed) b'.terminal := by
  have live : ({} : Ipfw.Access).dryRun = false := rfl
  have course := Ipfw.tried_install u.runner live p b.terminal
  rw [← own] at course
  refine ⟨(install u p b).2, ?_⟩
  rcases course with ⟨answered, handed⟩ | ⟨text, tried, ok, flushed, answered, first, last, handed⟩
  · refine .inl ⟨by rw [install, answered]; rfl, ?_⟩
    rwa [List.map_map] at handed
  · refine .inr ⟨text, tried, ok, flushed, by rw [install, answered]; rfl, ?_, last, handed⟩
    rwa [commands_installed]

theorem run_of_refused {fault : DeployFault} (compiled : compile u tokens b = (.ok p, b'))
    (refused : install u p b' = (.error fault, b'')) :
    run u tokens "" b = (.error fault, b'') := by
  simp only [run, compiled, refused]
  rfl

theorem run_of_installed (compiled : compile u tokens b = (.ok p, b'))
    (installs : install u p b' = (.ok (), b'')) (live : u.options.debug = false) :
    run u tokens "" b =
      ((configureHost u p b'').1.map fun () => p, (configureHost u p b'').2) := by
  simp only [run, compiled, installs, live]
  rcases configureHost u p b'' with ⟨_ | _, _⟩
  · rfl
  · rfl

/-- Once a policy is compiled, no output is named and debugging is off, a deployment goes through
its phases. -/
theorem phases_run (own : u.engine = Ipfw.engine u.runner {})
    (compiled : (compile u tokens b).1 = .ok p) (live : u.options.debug = false) :
    ∃ log, Handed u.runner b.terminal log (run u tokens "" b).2.terminal ∧
      Phases p log (run u tokens "" b).1 := by
  obtain ⟨handed, -⟩ := handed_compile u tokens b
  obtain ⟨commands, known⟩ := exists_hostCommands compiled
  rcases compiling : compile u tokens b with ⟨answer, b'⟩
  rw [compiling] at handed compiled
  cases compiled
  obtain ⟨b'', ⟨installs, installing⟩ |
      ⟨text, tried, ok, flushed, refuses, first, last, failing⟩⟩ := handed_install own p b'
  · obtain ⟨hosted, rest, split, hosting, ended⟩ := handed_runHostCommands u.runner commands b''
    have whole := (handed.trans installing).trans hosting
    have configures : configureHost u p b'' = runHostCommands u.runner commands b'' := by
      rw [configureHost, known]
    rw [run_of_installed compiling installs live, configures]
    refine ⟨installed p ++ hosted, whole, ?_⟩
    rw [split] at known
    rcases ended with ⟨finished, rfl⟩ | ⟨fault, escaped⟩
    · rw [finished]
      exact .configured (by rwa [List.append_nil] at known)
    · rw [escaped]
      exact .interrupted known
  · rw [run_of_refused compiling refuses]
    exact ⟨tried ++ flushed, handed.trans failing, .refused first last⟩

theorem handed_run_of_output (tokens : List String) {output : String} (named : output ≠ "")
    (b : Bench τ) : Handed u.runner b.terminal [] (run u tokens output b).2.terminal := by
  have some_ : (!output.isEmpty) = true := by simpa using named
  obtain ⟨handed, -⟩ := handed_compile u tokens b
  rcases compiling : compile u tokens b with ⟨_ | p, b'⟩
  · rw [compiling] at handed
    simpa only [run, compiling] using handed
  · rw [compiling] at handed
    simp only [run, compiling, some_, if_true]
    cases renderScript u.stamp u.template p tokens with
    | error fault => exact handed
    | ok text =>
        have written := handed.trans (handed_writeOutput u output text b')
        dsimp only
        rcases writing : writeOutput u output text b' with ⟨_ | _, b''⟩
        · rwa [writing] at written
        · rwa [writing] at written

theorem handed_run_of_debug (own : u.engine = Ipfw.engine u.runner { dryRun := true })
    (debugging : u.options.debug = true) (tokens : List String) (b : Bench τ) :
    Handed u.runner b.terminal [] (run u tokens "" b).2.terminal := by
  obtain ⟨handed, -⟩ := handed_compile u tokens b
  rcases compiling : compile u tokens b with ⟨_ | p, b'⟩
  · rw [compiling] at handed
    simpa only [run, compiling] using handed
  · rw [compiling] at handed
    obtain ⟨t, printed, idle⟩ := Ipfw.handed_dryRun (a := { dryRun := true }) u.runner rfl
      (Installation.commands p) b'.terminal
    have installs : install u p b' = (.ok (), { b' with terminal := t }) := by
      simp [install, own, Ipfw.install_of_modifyAll printed, Except.mapError]
    simp only [run, compiling, installs, debugging]
    exact (handed.trans idle).trans (handed_inform u _ { b' with terminal := t })

/-- A deployment keeps its phases apart. Where declarations cannot be read or compiled, nothing is
run and nothing is written; for a script and for debugging nothing is run; and otherwise the host
is left alone until every command for the filter has ended well. -/
theorem run_apart (own : u.engine = Ipfw.engine u.runner { dryRun := u.options.debug })
    (tokens : List String) (output : String) (b : Bench τ) :
    ∃ log, Handed u.runner b.terminal log (run u tokens output b).2.terminal ∧
      (∀ fault, (compile u tokens b).1 = .error fault →
        (run u tokens output b).1 = .error fault ∧ log = [] ∧
          (run u tokens output b).2.files = b.files) ∧
      (output ≠ "" → log = []) ∧ (u.options.debug = true → log = []) ∧
      ∀ p, (compile u tokens b).1 = .ok p → output = "" → u.options.debug = false →
        Phases p log (run u tokens output b).1 ∧
        (∀ (front back : List Execution) (e : Execution), log = front ++ e :: back → e.OfHost →
          installed p <+: front) ∧
        ((∃ e ∈ log, e.OfFilter ∧ e.done = false) →
          (∀ e ∈ log, ¬ e.OfHost) ∧
            ∃ text, (run u tokens output b).1 = .error (.engine (.rejected text))) := by
  obtain ⟨handed, unwritten⟩ := handed_compile u tokens b
  rcases compiling : compile u tokens b with ⟨fault | p, b'⟩
  · rw [compiling] at handed unwritten
    have stopped : run u tokens output b = (.error fault, b') := by rw [run, compiling]
    rw [stopped]
    refine ⟨[], handed, ?_, fun _ => rfl, fun _ => rfl, nofun⟩
    rintro _ ⟨⟩
    exact ⟨rfl, rfl, unwritten⟩
  · have compiled (fault : DeployFault) :
        (Except.ok p : Except DeployFault Policy) ≠ .error fault := by simp
    by_cases named : output = ""
    · subst named
      cases debugging : u.options.debug with
      | true =>
          rw [debugging] at own
          exact ⟨[], handed_run_of_debug own debugging tokens b,
            fun fault failed => absurd failed (compiled fault), fun _ => rfl, fun _ => rfl,
            fun _ _ _ live => absurd live Bool.true_eq_false.mp⟩
      | false =>
          rw [debugging] at own
          obtain ⟨log, whole, phases⟩ := phases_run own (by rw [compiling]) debugging
          refine ⟨log, whole, fun fault failed => absurd failed (compiled fault),
            fun unnamed => absurd rfl unnamed, fun debugs => absurd debugs Bool.false_ne_true, ?_⟩
          rintro _ ⟨⟩ - -
          exact ⟨phases, fun _ _ _ => phases.installed_prefix,
            fun ⟨_, he, filter, failed⟩ => phases.refused_of_failed he filter failed⟩
    · exact ⟨[], handed_run_of_output tokens named b,
        fun fault failed => absurd failed (compiled fault), fun _ => rfl, fun _ => rfl,
        fun _ _ unnamed => absurd unnamed named⟩

/-- A host on which no command ends well. -/
def hopeless : Setup Unit :=
  let runner : Runner Unit := fun _ world => (.ok { status := 1 }, world)
  { gateway with engine := Ipfw.engine runner {}, runner }

/-- Where the filter cannot be installed, forwarding is not switched on. -/
theorem run_apart_hopeless :
    let outcome := run hopeless ["en0"] "" { terminal := { world := () } }
    (∃ text, outcome.1 = .error (.engine (.rejected text))) ∧
      ∀ command ∈ outcome.2.terminal.commands,
        command.head? ≠ some "sysctl" ∧ command.head? ≠ some "launchctl" := by
  have compiled := compile_of_result (u := hopeless) Registry.declared_lone
    (Policy.compile_eq_ok (Registry.indexed_of_declared Registry.declared_lone) _ _ _)
    { terminal := { world := () } }
  obtain ⟨log, handed, -, -, -, live⟩ :=
    run_apart (u := hopeless) rfl ["en0"] "" { terminal := { world := () } }
  obtain ⟨phases, -, refused⟩ := live _ compiled rfl rfl
  have failed : ∃ e ∈ log, e.OfFilter ∧ e.done = false := by
    cases phases with
    | refused first _ =>
        obtain ⟨e, he, failed⟩ := first.exists_failed
        rw [commands_installed] at first
        exact ⟨e, List.mem_append_left _ he, ofFilter_of_tried first e he, failed⟩
  obtain ⟨unhosted, text, answered⟩ := refused failed
  refine ⟨⟨text, answered⟩, ?_⟩
  rw [handed.commands, List.nil_append, List.forall_mem_map]
  exact fun e he => not_or.mp (unhosted e he)

end Deployment
end Firewall

import Firewall.Proofs.Spelling
import Firewall.Proofs.Watching

/-!
The commands that install a policy. An engine that accepts them runs all of them, a dry run prints
them, and a script whose fields stand on one line each holds them, all in the same order.
-/

namespace Firewall

open Text

/-! ### The commands of an installation -/

namespace Installation

/-- The words of the commands that install a policy, in their order. -/
def commands (p : Policy) : List (List String) := (calls p).flatMap Ipfw.commandsOf

theorem commands_eq (p : Policy) : commands p =
    Ipfw.flushCommands ++ p.program.pipes.map Ipfw.pipeWords
      ++ p.program.queues.map Ipfw.queueWords
      ++ p.program.setStates.map (fun s => Ipfw.setWords s.set false)
      ++ p.program.installOrder.map Ipfw.ruleWords
      ++ (p.program.setStates.filter (·.enabled)).map fun s => Ipfw.setWords s.set true := by
  simp only [commands, calls, List.flatMap_append, List.flatMap_map, List.flatMap_singleton,
    Ipfw.commandsOf, ← List.map_eq_flatMap]

theorem ruleWords_mem_commands {p : Policy} {rule : Rule} (h : rule ∈ p.program.rules) :
    Ipfw.ruleWords rule ∈ commands p := by
  rw [commands_eq]
  refine List.mem_append_left _ (List.mem_append_right _ ?_)
  exact List.mem_map_of_mem (p.program.installOrder_perm.mem_iff.mpr h)

/-- What holds of the words of every kind of command holds of the commands of an installation. -/
theorem forall_mem_commands {p : Policy} {P : List String → Prop}
    (flush : ∀ words ∈ Ipfw.flushCommands, P words)
    (pipe : ∀ pipe ∈ p.program.pipes, P (Ipfw.pipeWords pipe))
    (queue : ∀ queue, P (Ipfw.queueWords queue))
    (rule : ∀ rule ∈ p.program.rules, P (Ipfw.ruleWords rule))
    (set : ∀ set enabled, P (Ipfw.setWords set enabled)) : ∀ words ∈ commands p, P words := by
  simp only [commands_eq, List.forall_mem_append, List.forall_mem_map]
  exact ⟨⟨⟨⟨⟨flush, pipe⟩, fun q _ => queue q⟩, fun s _ => set s.set false⟩,
    fun r hr => rule r (p.program.installOrder_perm.mem_iff.mp hr)⟩, fun s _ => set s.set true⟩

theorem ne_nil_of_mem_commands {p : Policy} : ∀ words ∈ commands p, words ≠ [] :=
  forall_mem_commands (by decide) (fun _ _ => List.cons_ne_nil _ _) (fun _ => List.cons_ne_nil _ _)
    (fun _ _ => List.cons_ne_nil _ _) fun _ _ => List.cons_ne_nil _ _

end Installation

/-! ### Commands that are run, and commands that are printed -/

namespace Ipfw

variable {τ : Type} {runner : Runner τ} {a : Access}

theorem modify_of_willing (live : a.dryRun = false)
    (willing : ∀ command world, succeeded (runner command world).1 = true)
    (words : List String) (t : Terminal τ) :
    ∃ t', modify runner a words t = (.ok (), t') ∧
      t'.commands = t.commands ++ [commandOf a words] := by
  have done := willing (commandOf a words) t.world
  rcases ran : runner (commandOf a words) t.world with ⟨_ | r, world⟩
  · rw [ran] at done
    cases done
  · rw [ran] at done
    have status : r.status = 0 := of_decide_eq_true done
    unfold commandOf at ran
    simp only [modify, live, execute, Terminal.run, Terminal.log, Terminal.note, ran, status]
    exact ⟨_, rfl, rfl⟩

/-- A runner that succeeds is handed the commands of an installation, one after the other. -/
theorem commands_of_willing (live : a.dryRun = false)
    (willing : ∀ command world, succeeded (runner command world).1 = true)
    (commands : List (List String)) (t : Terminal τ) :
    ∃ t', modifyAll runner a commands t = (.ok (), t') ∧
      t'.commands = t.commands ++ commands.map (commandOf a) := by
  induction commands generalizing t with
  | nil => exact ⟨t, rfl, (List.append_nil _).symm⟩
  | cons words rest ih =>
      obtain ⟨t', modified, handed⟩ := modify_of_willing live willing words t
      obtain ⟨t'', finished, later⟩ := ih t'
      refine ⟨t'', by rw [modifyAll, modified]; exact finished, ?_⟩
      rw [later, handed, List.append_assoc, List.map_cons, List.singleton_append]

/-- A dry run prints the commands of an installation, and runs none. -/
theorem printed_of_dryRun (runner : Runner τ) (dry : a.dryRun = true)
    (commands : List (List String)) (t : Terminal τ) :
    ∃ t', modifyAll runner a commands t = (.ok (), t') ∧ t'.commands = t.commands ∧
      t'.notices = t.notices ++
        commands.map fun words => .printed (ShellWord.join ("ipfw" :: "-q" :: words)) := by
  induction commands generalizing t with
  | nil => exact ⟨t, rfl, rfl, (List.append_nil _).symm⟩
  | cons words rest ih =>
      obtain ⟨t', finished, handed, later⟩ :=
        ih (t.note (.printed (ShellWord.join ("ipfw" :: "-q" :: words))))
      refine ⟨t', ?_, handed, ?_⟩
      · simp only [modifyAll, modify, dry, if_true]
        exact finished
      · rw [later, Terminal.note, List.append_assoc, List.map_cons, List.singleton_append]

theorem install_of_modifyAll {p : Policy} {t t' : Terminal τ}
    (finished : modifyAll runner a (Installation.commands p) t = (.ok (), t')) :
    Installation.install (engine runner a) p t = { answer := .ok (), state := t' } := by
  rw [Installation.commands, ← performAll_engine] at finished
  rw [Installation.install, finished]

theorem join_printed {words : List String} (some_ : words ≠ []) :
    ShellWord.join ("ipfw" :: "-q" :: words) = "ipfw -q " ++ ShellWord.join words := by
  obtain ⟨first, rest, rfl⟩ := List.exists_cons_of_ne_nil some_
  have lead : ShellWord.quote "ipfw" ++ " " ++ (ShellWord.quote "-q" ++ " ") = "ipfw -q " := by
    decide
  rw [← lead]
  simp only [ShellWord.join, List.map_cons, String.intercalate_cons_cons, String.append_assoc]

theorem printedLines_map {α : Type} (f : α → String) (xs : List α) :
    Notice.printedLines (xs.map fun x => .printed (f x)) = xs.map f := by
  rw [Notice.printedLines, List.filterMap_map]
  change xs.filterMap (some ∘ f) = _
  rw [List.filterMap_eq_map]

/-- The lines of a dry run give its commands back. -/
theorem linesAfter_printed {commands : List (List String)}
    (worded : ∀ words ∈ commands, words ≠ [])
    (plain : ∀ words ∈ commands, ∀ w ∈ words, Unbroken w) :
    linesAfter "ipfw -q " (unlines (Notice.printedLines
        (commands.map fun words => .printed (ShellWord.join ("ipfw" :: "-q" :: words))))) =
      commands.map ShellWord.join := by
  have led : (commands.map fun words => ShellWord.join ("ipfw" :: "-q" :: words)) =
      (commands.map ShellWord.join).map ("ipfw -q " ++ ·) := by
    rw [List.map_map]
    exact List.map_congr_left fun words h => join_printed (worded words h)
  have said : ∀ l ∈ (commands.map ShellWord.join).map ("ipfw -q " ++ ·), Unbroken l := by
    simp only [List.forall_mem_map, unbroken_append]
    exact fun words h => ⟨by decide, ShellWord.unbroken_join (plain words h)⟩
  rw [printedLines_map, led, linesAfter_unlines said, filterMap_after?_map]

end Ipfw

/-! ### Scripts -/

namespace Script

/-- The commands of a script for the filter, in their order. -/
def commands (s : Script) : List String :=
  s.flush ++ s.pipes ++ s.queues ++ s.disableSets ++ s.rules ++ s.enableSets

/-- What stands before a command for the filter. -/
def lead : String := "\"$IPFW\" -q "

/-- A line that is not a command for the filter. -/
def Aside (l : String) : Prop := Unbroken l ∧ l.toList.head? ≠ some '"'

instance (l : String) : Decidable (Aside l) := inferInstanceAs (Decidable (_ ∧ _))

theorem aside_append {first rest : String} (h : Aside first) (some_ : first ≠ "")
    (unbroken : Unbroken rest) : Aside (first ++ rest) := by
  refine ⟨unbroken_append.mpr ⟨h.1, unbroken⟩, ?_⟩
  cases chars : first.toList with
  | nil => exact absurd (String.toList_inj.mp chars) some_
  | cons c more => simpa [chars] using h.2

theorem aside_join {first : String} {rest : List String} (bare : ShellWord.quote first = first)
    (h : Aside first) (unbroken : ∀ w ∈ rest, Unbroken w) :
    Aside (ShellWord.join (first :: rest)) := by
  cases rest with
  | nil => simpa [ShellWord.join, bare] using h
  | cons next rest =>
      have later : Unbroken (" " ++ ShellWord.join (next :: rest)) :=
        unbroken_append.mpr ⟨by decide, ShellWord.unbroken_join unbroken⟩
      have some_ : first ≠ "" := by
        rintro rfl
        exact absurd bare (by decide)
      rw [ShellWord.join, List.map_cons, List.map_cons, String.intercalate_cons_cons, bare,
        String.append_assoc]
      exact aside_append h some_ later

/-- The fields of a script stand on one line each, and commands for the host look like none for
the filter. -/
structure Legible (s : Script) : Prop where
  version : Unbroken s.version
  time : Unbroken s.stamp.time
  user : Unbroken s.stamp.user
  args : Unbroken s.args
  warnings : ∀ w ∈ s.warnings, Unbroken w
  commands : ∀ c ∈ s.commands, Unbroken c
  sysctls : ∀ entry ∈ s.sysctls, Aside entry.1 ∧ Unbroken entry.2
  services : ∀ c ∈ s.services, Aside c

variable {s : Script}

theorem Legible.headLines (h : s.Legible) : ∀ l ∈ s.headLines, Aside l := by
  have args : Unbroken (if s.args.isEmpty then "(none)" else s.args) := by
    split
    · decide
    · exact h.args
  have made : Aside ("# Generated " ++ s.stamp.time ++ " by " ++ s.stamp.user) := by
    rw [String.append_assoc, String.append_assoc]
    exact aside_append (by decide) (by decide)
      (unbroken_append.mpr ⟨h.time, unbroken_append.mpr ⟨by decide, h.user⟩⟩)
  simp only [Script.headLines, List.forall_mem_append, List.forall_mem_map, List.forall_mem_cons]
  exact ⟨⟨by decide, by decide, by decide, by decide,
    aside_append (by decide) (by decide) h.version, by decide, made, by decide,
    aside_append (by decide) (by decide) args, List.forall_mem_nil _⟩,
    fun w hw => aside_append (by decide) (by decide) (h.warnings w hw)⟩

theorem Legible.sysctlLines (h : s.Legible) : ∀ l ∈ s.sysctlLines, Aside l := by
  rw [Script.sysctlLines, List.forall_mem_flatMap]
  rintro ⟨command, comment⟩ hentry
  obtain ⟨said, noted⟩ := h.sysctls _ hentry
  dsimp only
  split
  · exact List.forall_mem_singleton.mpr said
  · exact List.forall_mem_cons.mpr
      ⟨aside_append (by decide) (by decide) noted, List.forall_mem_singleton.mpr said⟩

/-- Lines that hold the given commands for the filter, and no others. -/
def Holds (ls cs : List String) : Prop :=
  (∀ l ∈ ls, Unbroken l) ∧ ls.filterMap (after? lead) = cs

variable {ls ls' cs cs' : List String}

theorem Holds.linesAfter_eq (h : Holds ls cs) : linesAfter lead (unlines ls) = cs :=
  (linesAfter_unlines h.1).trans h.2

theorem Holds.append (h : Holds ls cs) (h' : Holds ls' cs') : Holds (ls ++ ls') (cs ++ cs') :=
  ⟨List.forall_mem_append.mpr ⟨h.1, h'.1⟩, by rw [List.filterMap_append, h.2, h'.2]⟩

theorem holds_asides (asides : ∀ l ∈ ls, Aside l) : Holds ls [] :=
  ⟨fun l hl => (asides l hl).1,
    List.filterMap_eq_nil_iff.mpr fun l hl => after?_eq_none rfl (asides l hl).2⟩

theorem Holds.asides (h : Holds ls cs) (asides : ∀ l ∈ ls', Aside l) : Holds (ls ++ ls') cs := by
  simpa using h.append (holds_asides asides)

theorem Holds.commands (h : Holds ls cs) (unbroken : ∀ c ∈ cs', Unbroken c) :
    Holds (ls ++ cs'.map filterLine) (cs ++ cs') := by
  refine h.append ⟨?_, filterMap_after?_map lead cs'⟩
  rw [List.forall_mem_map]
  exact fun c hc => unbroken_append.mpr ⟨by decide, unbroken c hc⟩

theorem Holds.section_ (h : Holds ls cs) {title : List String} (titled : ∀ l ∈ title, Aside l)
    (unbroken : ∀ c ∈ cs', Unbroken c) :
    Holds (ls ++ section? title (cs'.map filterLine)) (cs ++ cs') := by
  unfold section?
  split
  · rename_i empty
    obtain rfl : cs' = [] := by simpa using empty
    simpa using h
  · rw [← List.append_assoc]
    exact (h.asides (List.forall_mem_cons.mpr ⟨by decide, titled⟩)).commands unbroken

theorem Legible.services_section (h : s.Legible) : ∀ l ∈ section? [] s.services, Aside l := by
  unfold section?
  split
  · exact List.forall_mem_nil _
  · exact List.forall_mem_cons.mpr ⟨by decide, h.services⟩

/-- A script holds its commands, in their order. -/
theorem Legible.holds (h : s.Legible) : Holds (s.headLines ++ s.bodyLines) s.commands := by
  have parts := h.commands
  simp only [Script.commands, List.forall_mem_append] at parts
  obtain ⟨⟨⟨⟨⟨flush, pipes⟩, queues⟩, disabled⟩, rules⟩, enabled⟩ := parts
  have logger : Aside ("logger \"firewall installed: " ++ s.args ++ "\"") := by
    rw [String.append_assoc]
    exact aside_append (by decide) (by decide) (unbroken_append.mpr ⟨h.args, by decide⟩)
  refine (holds_asides h.headLines).append ?_
  -- The body is taken apart from its end.
  refine Holds.asides ?_
    (List.forall_mem_cons.mpr ⟨by decide, List.forall_mem_singleton.mpr logger⟩)
  refine Holds.asides ?_ h.services_section
  refine Holds.section_ ?_ (List.forall_mem_nil _) enabled
  refine Holds.commands ?_ rules
  refine Holds.asides ?_ (by decide)
  refine Holds.commands ?_ disabled
  refine Holds.asides ?_ (by decide)
  refine Holds.section_ ?_ (by decide) queues
  refine Holds.commands ?_ pipes
  refine Holds.asides ?_ (by decide)
  refine Holds.asides ?_ h.sysctlLines
  refine Holds.asides ?_ (by decide)
  exact (holds_asides (by decide)).commands flush

end Script

/-! ### The script of a policy -/

namespace Policy

open Script (Aside)

variable {r : Registry} {o : Options}

theorem unbroken_rules (named : ∀ i ∈ r.interfaces, Unbroken i.name) (unbroken : o.Unbroken) :
    ∀ rule ∈ rules r o, ∀ t ∈ rule.texts, Unbroken t := by
  intro rule hrule
  obtain ⟨d, hd, rfl⟩ := mem_rules.mp hrule
  rw [Draft.texts_settled]
  exact Ruleset.unbroken_drafts named unbroken d hd

theorem unbroken_pipes (spelled : ∀ i ∈ r.interfaces, i.Unbroken) (sysctls : List Sysctl)
    (rs : List Rule) : ∀ pipe ∈ (assemble r sysctls rs).program.pipes,
      ∀ rate ∈ pipe.bandwidth, Unbroken rate := by
  refine List.forall_mem_append.mpr ⟨by decide, ?_⟩
  rw [List.forall_mem_flatMap]
  intro s hs
  obtain ⟨i, hi, allocated⟩ := List.mem_filterMap.mp hs
  obtain ⟨rates, said, rfl⟩ := Option.map_eq_some_iff.mp allocated
  obtain ⟨inbound, outbound⟩ := (spelled i hi).rates rates said
  simp only [InterfaceShaping.pipes, Shaping.allocate, List.forall_mem_cons, Option.mem_def,
    Option.some.injEq, forall_eq']
  exact ⟨inbound, outbound, List.forall_mem_nil _⟩

theorem unbroken_warnings (named : ∀ i ∈ r.interfaces, Unbroken i.name) :
    ∀ w ∈ allWarnings r, Unbroken w := by
  have unserved (wanted : HostKinds → Bool) {label : String} (said : Unbroken label) :
      ∀ w ∈ unservedWarnings r wanted label, Unbroken w := by
    rw [unservedWarnings, List.forall_mem_map]
    intro i hi
    simp only [unbroken_append, named i (List.mem_filter.mp hi).1, said, unbroken_intCast]
    decide
  exact List.forall_mem_append.mpr ⟨unserved _ (by decide), unserved _ (by decide)⟩

theorem unbroken_sysctls (o : Options) : ∀ s ∈ Host.sysctls o,
    Unbroken s.name ∧ Unbroken s.value.shown ∧ Unbroken s.comment := by
  have base : ∀ s ∈ Host.baseSysctls,
      Unbroken s.name ∧ Unbroken s.value.shown ∧ Unbroken s.comment := by
    have shown (n : Int) : Unbroken (Setting.number n).shown := unbroken_intCast n
    simp only [Host.baseSysctls, Host.set, List.forall_mem_cons, shown, true_and]
    and_intros
    all_goals first | exact unbroken_ofList rfl | exact List.forall_mem_nil _
  refine List.forall_mem_append.mpr ⟨List.forall_mem_append.mpr ⟨base, ?_⟩, ?_⟩
  · cases o.blackhole <;> decide
  · cases o.router.isSome <;> decide

theorem aside_sysctls (o : Options) : ∀ s ∈ Host.sysctls o,
    Aside (ShellWord.join (Host.sysctlCommand s)) ∧ Unbroken s.comment := by
  intro s hs
  obtain ⟨name, value, comment⟩ := unbroken_sysctls o s hs
  refine ⟨Script.aside_join (by decide) (by decide) ?_, comment⟩
  simp only [List.forall_mem_cons, unbroken_append]
  exact ⟨by decide, ⟨⟨name, by decide⟩, value⟩, List.forall_mem_nil _⟩

theorem aside_services {t : ServiceToggle} {command : List String}
    (known : Host.serviceCommand t = .ok command) : Aside (ShellWord.join command) := by
  unfold Host.serviceCommand at known
  split at known
  · cases known
  · rename_i plist listed
    have path : Unbroken plist := by
      unfold Host.plist? at listed
      split at listed
      · cases listed
        decide
      · cases listed
    cases known
    split
    · refine Script.aside_join (by decide) (by decide) ?_
      simp only [List.forall_mem_cons]
      exact ⟨by decide, by decide, path, List.forall_mem_nil _⟩
    · refine Script.aside_join (by decide) (by decide) ?_
      simp only [List.forall_mem_cons]
      exact ⟨by decide, path, List.forall_mem_nil _⟩

theorem unbroken_commands (spelled : ∀ i ∈ r.interfaces, i.Unbroken) (unbroken : o.Unbroken)
    (sysctls : List Sysctl) : ∀ words ∈ Installation.commands (assemble r sysctls (rules r o)),
      ∀ w ∈ words, Unbroken w := by
  refine Installation.forall_mem_commands (by decide) ?_ Ipfw.unbroken_queueWords ?_
    Ipfw.unbroken_setWords
  · exact fun pipe hpipe => Ipfw.unbroken_pipeWords (unbroken_pipes spelled _ _ pipe hpipe)
  · exact fun rule hrule => Ipfw.unbroken_ruleWords
      (unbroken_rules (fun i hi => (spelled i hi).name) unbroken rule hrule)

end Policy

namespace Script

variable {s : Script} {stamp : Stamp} {p : Policy} {args : List String}

theorem commands_ofPolicy (made : ofPolicy stamp p args = .ok s) :
    s.commands = (Installation.commands p).map ShellWord.join := by
  obtain ⟨services, -, made⟩ := Interface.bind_eq_ok_iff.mp made
  cases made
  simp only [commands, joinAll, Installation.commands_eq, List.map_append, List.map_map]

theorem legible_ofPolicy (made : ofPolicy stamp p args = .ok s) (time : Unbroken stamp.time)
    (user : Unbroken stamp.user) (plain : ∀ w ∈ args, Unbroken w)
    (warnings : ∀ w ∈ p.warnings, Unbroken w)
    (worded : ∀ words ∈ Installation.commands p, ∀ w ∈ words, Unbroken w)
    (sysctls : ∀ s ∈ p.sysctls,
      Aside (ShellWord.join (Host.sysctlCommand s)) ∧ Unbroken s.comment) : s.Legible := by
  have commands : ∀ c ∈ s.commands, Unbroken c := by
    rw [commands_ofPolicy made, List.forall_mem_map]
    exact fun words h => ShellWord.unbroken_join (worded words h)
  obtain ⟨services, known, made⟩ := Interface.bind_eq_ok_iff.mp made
  cases made
  refine ⟨(by decide : Unbroken release), time, user, ShellWord.unbroken_join plain, warnings,
    commands, ?_, ?_⟩
  · exact List.forall_mem_map.mpr sysctls
  · refine List.forall_mem_map.mpr fun command h => ?_
    obtain ⟨t, asked⟩ := exists_of_mem_mapM known h
    exact Policy.aside_services asked

end Script

/-! ### Deployments -/

namespace Deployment

variable {τ : Type} {tokens : List String} {r : Registry} {u : Setup τ}

theorem compile_of_result (declared : (Registry.ofTokens tokens).2 = .ok r) {p : Policy}
    (compiled : (Policy.compile r u.options u.host (1 < u.verbosity)).result = .ok p)
    (b : Bench τ) : (compile u tokens b).1 = .ok p := by
  rcases registry : Registry.ofTokens tokens with ⟨notices, result⟩
  rw [registry] at declared
  cases declared
  rw [compile, registry]
  simp only [compiled]

/-- A gateway with an opened range of ports, whose host carries out every command. -/
def gateway : Setup Unit where
  options :=
    { blackhole := true
      router := some { external := "en1", client := "en0", network := ⟨3232235520, 16⟩ }
      ports := { publicTcp := ["22", "8000-8010"] } }
  engine := Ipfw.engine (fun _ world => (.ok {}, world)) {}
  runner _ world := (.ok {}, world)
  stamp := { time := "2012-05-01 12:00", user := "root" }

end Deployment
end Firewall

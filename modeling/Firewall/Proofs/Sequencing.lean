import Firewall.Proofs.Deploying
import Firewall.Proofs.Heading
import Firewall.Proofs.Quoting

/-!
The order of the commands for the filter and for the host. A deployment leaves the host alone until
the filter is installed. A script sets the kernel parameters as soon as it has flushed the filter,
and adds pipes and rules after that.
-/

namespace Firewall

open Text

/-- Things in order, of which none with one property stands before one with another. -/
theorem pairwise_not_of_append {α : Type} {P Q : α → Prop} {front back : List α}
    (first : ∀ a ∈ front, ¬ P a) (last : ∀ a ∈ back, ¬ Q a) :
    (front ++ back).Pairwise fun a b => P a → ¬ Q b := by
  refine List.pairwise_append.mpr ⟨?_, ?_, fun a ha _ _ h => absurd h (first a ha)⟩
  · exact List.pairwise_of_forall_mem_list fun a ha _ _ h => absurd h (first a ha)
  · exact List.pairwise_of_forall_mem_list fun _ _ b hb _ => last b hb

theorem Installation.drop_commands (p : Policy) :
    (commands p).drop Ipfw.flushCommands.length =
      p.program.pipes.map Ipfw.pipeWords ++ p.program.queues.map Ipfw.queueWords
        ++ p.program.setStates.map (fun s => Ipfw.setWords s.set false)
        ++ p.program.installOrder.map Ipfw.ruleWords
        ++ (p.program.setStates.filter (·.enabled)).map fun s => Ipfw.setWords s.set true := by
  simp only [commands_eq, List.append_assoc, List.drop_left]

/-- What one part of a list holds stands before what the next part holds. -/
theorem pair_sublist {α : Type} {front early late back : List α} {a b : α} (ha : a ∈ early)
    (hb : b ∈ late) : [a, b].Sublist (front ++ early ++ late ++ back) := by
  have pair : ([a] ++ [b]).Sublist (front ++ early ++ late) :=
    (List.singleton_sublist.mpr (List.mem_append_right front ha)).append
      (List.singleton_sublist.mpr hb)
  exact pair.trans (List.sublist_append_left _ back)

/-! ### The commands of a script -/

namespace Text

theorem flatMap_splitAll (c : Char) (cs : List Char) :
    (Address.splitAll c cs).flatMap (· ++ [c]) = cs ++ [c] := by
  induction cs with
  | nil => rfl
  | cons x rest ih =>
      rw [Address.splitAll]
      split
      · rename_i same
        rw [List.flatMap_cons, ih, same]
        rfl
      · obtain ⟨part, more, split⟩ :=
          List.exists_cons_of_ne_nil (Address.splitAll_ne_nil c rest)
        rw [split, List.flatMap_cons] at ih
        rw [split]
        simpa using ih

theorem flatMap_shellLines (ls : List String) :
    (ls.flatMap shellLines).flatMap (· ++ ['\n']) = (unlines ls).toList := by
  induction ls with
  | nil => rfl
  | cons l rest ih =>
      rw [List.flatMap_cons, List.flatMap_append, ih, shellLines, flatMap_splitAll]
      simp [unlines, String.toList_join]

namespace ShellWord

/-- A command line begins with its first word, if that needs no quotes. -/
theorem join_cons_cons {first : String} (bare : quote first = first) (next : String)
    (rest : List String) : join (first :: next :: rest) = first ++ " " ++ join (next :: rest) := by
  simp only [join, List.map_cons, String.intercalate_cons_cons, bare]

theorem double_not_mem_join {words : List String}
    (free : ∀ w ∈ words, '\'' ∉ w.toList ∧ '"' ∉ w.toList) : '"' ∉ (join words).toList := by
  intro hc
  rcases mem_intercalate hc with blank | ⟨_, listed, hc⟩
  · exact absurd blank (by decide)
  · obtain ⟨w, hw, rfl⟩ := List.mem_map.mp listed
    obtain ⟨single, double⟩ := free w hw
    unfold quote at hc
    split at hc
    · exact absurd hc (by decide)
    · split at hc
      · exact double hc
      · rw [String.toList_ofList] at hc
        simp only [List.cons_append, List.mem_cons, List.mem_append, List.mem_flatMap,
          List.not_mem_nil, or_false] at hc
        rcases hc with quote | ⟨d, hd, escaped⟩ | quote
        · exact absurd quote (by decide)
        · have plain : d ≠ '\'' := fun same => single (same ▸ hd)
          rw [escape, if_neg plain, List.mem_singleton] at escaped
          exact double (escaped ▸ hd)
        · exact absurd quote (by decide)

end ShellWord
end Text

namespace Script

/-- What stands behind the first command of a script. -/
def body (text : String) : List Char :=
  text.toList.drop ((heading text ++ [setting.toList]).flatMap (· ++ ['\n'])).length

/-- The commands of a script behind the first one, in their order. -/
def commandsOf (text : String) : List String :=
  ((commandLines .gap (body text)).map String.ofList).filter fun l => ¬ Remark l.toList

/-- A command for the filter. -/
def OfFilter (l : String) : Prop := lead.toList <+: l.toList

instance (l : String) : Decidable (OfFilter l) := inferInstanceAs (Decidable (_ <+: _))

/-- A command that sets a kernel parameter or switches a service. -/
def OfHost (l : String) : Prop :=
  "sysctl ".toList <+: l.toList ∨ "launchctl ".toList <+: l.toList

instance (l : String) : Decidable (OfHost l) := inferInstanceAs (Decidable (_ ∨ _))

/-- Commands of which none for the host stands before one for the filter. -/
def HostLast (commands : List String) : Prop :=
  commands.Pairwise fun a b => OfHost a → ¬ OfFilter b

instance (commands : List String) : Decidable (HostLast commands) :=
  inferInstanceAs (Decidable (List.Pairwise _ commands))

variable {s : Script} {ls ls' cs cs' : List String} {l : String}

theorem Headed.body_render (h : s.Headed) {rest : List String}
    (begins : s.bodyLines = "" :: setting :: rest) : body s.render = (unlines rest).toList := by
  have above : (heading s.render ++ [setting.toList]).flatMap (· ++ ['\n']) =
      (unlines (s.headLines ++ ["", setting])).toList := by
    rw [h.heading_render.2, ← flatMap_shellLines, List.flatMap_append]
    simp [shellLines, Address.splitAll, flatMap_splitAll]
  have whole : s.render.toList =
      (unlines (s.headLines ++ ["", setting])).toList ++ (unlines rest).toList := by
    rw [render, begins, ← String.toList_append, ← unlines_append]
    simp
  rw [body, above, whole, List.drop_left]

theorem not_remark_of_head? {l : List Char} {c : Char} (first : l.head? = some c) (sign : c ≠ '#') :
    ¬ Remark l := by
  rintro (rfl | comment)
  · cases first
  · exact sign (Option.some.inj (first.symm.trans comment))

/-- Whole lines that hold the given commands, and no others. -/
structure Spells (ls cs : List String) : Prop where
  whole : ∀ l ∈ ls, Whole l
  filter_eq : (ls.filter fun l => ¬ Remark l.toList) = cs

theorem Spells.append (h : Spells ls cs) (h' : Spells ls' cs') :
    Spells (ls ++ ls') (cs ++ cs') :=
  ⟨List.forall_mem_append.mpr ⟨h.whole, h'.whole⟩, by
    rw [List.filter_append, h.filter_eq, h'.filter_eq]⟩

theorem spells_remarks (h : ∀ l ∈ ls, Whole l ∧ Remark l.toList) : Spells ls [] :=
  ⟨fun l hl => (h l hl).1, List.filter_eq_nil_iff.mpr fun l hl => by simp [(h l hl).2]⟩

theorem spells_commands (h : ∀ l ∈ ls, Whole l ∧ ¬ Remark l.toList) : Spells ls ls :=
  ⟨fun l hl => (h l hl).1, List.filter_eq_self.mpr fun l hl => by simp [(h l hl).2]⟩

theorem Spells.section_ (title : Spells ls' []) (h : Spells ls cs) :
    Spells (section? ls' ls) cs := by
  unfold section?
  split
  · rename_i empty
    rw [List.isEmpty_iff.mp empty] at h
    exact h
  · have blank : Spells [""] [] := spells_remarks (by decide)
    exact blank.append (title.append h)

/-- The commands behind the first one of a script are those that its lines hold. -/
theorem Headed.commandsOf_render (h : s.Headed) (spells : Spells s.bodyLines (setting :: cs)) :
    commandsOf s.render = cs := by
  obtain ⟨rest, begins⟩ : ∃ rest, s.bodyLines = "" :: setting :: rest := ⟨_, rfl⟩
  obtain ⟨whole, held⟩ := spells
  rw [begins, List.forall_mem_cons, List.forall_mem_cons] at whole
  have kept : ("" :: setting :: rest).filter (fun l => ¬ Remark l.toList) =
      setting :: rest.filter fun l => ¬ Remark l.toList := by
    rw [List.filter_cons_of_neg (by decide), List.filter_cons_of_pos (by decide)]
  rw [begins, kept, List.cons.injEq] at held
  rw [commandsOf, h.body_render begins, commandLines_unlines whole.2.2, ← held.2,
    List.map_append, List.map_map, List.filter_append]
  simp [Function.comp_def, Remark]

/-! ### The commands of the script of a policy -/

theorem spells_filterLines (commands : List (List String)) :
    Spells ((joinAll commands).map filterLine) ((joinAll commands).map filterLine) := by
  refine spells_commands ?_
  rw [joinAll, List.map_map, List.forall_mem_map]
  intro words _
  have led : Mode.gap.through? lead.toList = some .gap := by decide
  refine ⟨whole_append_join led words, not_remark_of_head? (c := '"') ?_ (by decide)⟩
  simp [filterLine]

theorem ofHost_sysctl (s : Sysctl) : OfHost (ShellWord.join (Host.sysctlCommand s)) := by
  have bare : ShellWord.quote "sysctl" = "sysctl" := by decide
  rw [OfHost, Host.sysctlCommand, ShellWord.join_cons_cons bare, String.toList_append]
  exact .inl (List.prefix_append _ _)

theorem ofHost_service {t : ServiceToggle} {command : List String}
    (known : Host.serviceCommand t = .ok command) : OfHost (ShellWord.join command) := by
  have bare : ShellWord.quote "launchctl" = "launchctl" := by decide
  unfold Host.serviceCommand at known
  split at known
  · cases known
  · cases known
    split <;> rw [OfHost, ShellWord.join_cons_cons bare, String.toList_append] <;>
      exact .inr (List.prefix_append _ _)

theorem OfHost.not_remark (h : OfHost l) : ¬ Remark l.toList := by
  obtain ⟨rest, split⟩ | ⟨rest, split⟩ := h
  · exact not_remark_of_head? (c := 's') (by simp [← split]) (by decide)
  · exact not_remark_of_head? (c := 'l') (by simp [← split]) (by decide)

theorem spells_sysctls {sysctls : List Sysctl} (free : ∀ s ∈ sysctls, '\n' ∉ s.comment.toList) :
    Spells ((sysctls.map fun s => (ShellWord.join (Host.sysctlCommand s), s.comment)).flatMap
        fun (command, comment) =>
          if comment.isEmpty then [command] else ["# " ++ comment, command])
      (sysctls.map fun s => ShellWord.join (Host.sysctlCommand s)) := by
  induction sysctls with
  | nil => exact spells_remarks (List.forall_mem_nil _)
  | cons s rest ih =>
      rw [List.forall_mem_cons] at free
      have own : Spells [ShellWord.join (Host.sysctlCommand s)]
          [ShellWord.join (Host.sysctlCommand s)] :=
        spells_commands (List.forall_mem_singleton.mpr
          ⟨whole_join _, (ofHost_sysctl s).not_remark⟩)
      rw [List.map_cons, List.map_cons, List.flatMap_cons]
      rw [← List.singleton_append]
      refine Spells.append ?_ (ih free.2)
      dsimp only
      split
      · exact own
      · have remark : Spells ["# " ++ s.comment] [] :=
          spells_remarks (List.forall_mem_singleton.mpr
            ⟨whole_comment free.1, .inr (by simp)⟩)
        exact remark.append own

variable {stamp : Stamp} {p : Policy} {args : List String}

/-- The lines of a script, from its first command on, hold what flushes the filter, the commands for
the kernel parameters, the other ones for the filter, and those for the services. -/
theorem spells_ofPolicy (made : ofPolicy stamp p args = .ok s)
    (free : ∀ s ∈ p.sysctls, '\n' ∉ s.comment.toList) (quotable : '"' ∉ s.args.toList) :
    ∃ services, p.services.mapM Host.serviceCommand = .ok services ∧
      Spells s.bodyLines ([setting] ++ (joinAll Ipfw.flushCommands).map filterLine
        ++ p.sysctls.map (fun s => ShellWord.join (Host.sysctlCommand s))
        ++ (joinAll ((Installation.commands p).drop Ipfw.flushCommands.length)).map filterLine
        ++ joinAll services ++ ["logger \"firewall installed: " ++ s.args ++ "\""]) := by
  obtain ⟨services, asked, made⟩ := Interface.bind_eq_ok_iff.mp made
  cases made
  refine ⟨services, asked, ?_⟩
  have begins : Spells ["", setting, "",
      "# Remove any rules previously defined and flush the dynamic tables"] [setting] :=
    ⟨by decide, by decide⟩
  have blank : Spells [""] [] := spells_remarks (by decide)
  have pipes : Spells ["", "# Pipes"] [] := spells_remarks (by decide)
  have queues : Spells ["# Queues"] [] := spells_remarks (by decide)
  have disabling : Spells ["", "# Keep toggleable sets off while the rules go in"] [] :=
    spells_remarks (by decide)
  have rules : Spells ["", "# Rules, default-deny set first"] [] := spells_remarks (by decide)
  have switched : Spells (joinAll services) (joinAll services) := by
    refine spells_commands (List.forall_mem_map.mpr fun command h => ?_)
    obtain ⟨t, known⟩ := exists_of_mem_mapM asked h
    exact ⟨whole_join command, (ofHost_service known).not_remark⟩
  have logs : Spells ["", "logger \"firewall installed: " ++ ShellWord.join args ++ "\""]
      ["logger \"firewall installed: " ++ ShellWord.join args ++ "\""] := by
    refine blank.append (spells_commands (List.forall_mem_singleton.mpr
      ⟨whole_between (by decide) quotable, ?_⟩))
    exact not_remark_of_head? (c := 'l') (by simp) (by decide)
  have none_ : Spells [] [] := spells_remarks (List.forall_mem_nil _)
  have whole := begins.append (spells_filterLines Ipfw.flushCommands)
    |>.append blank |>.append (spells_sysctls free)
    |>.append pipes |>.append (spells_filterLines (p.program.pipes.map Ipfw.pipeWords))
    |>.append (queues.section_ (spells_filterLines (p.program.queues.map Ipfw.queueWords)))
    |>.append disabling
    |>.append (spells_filterLines (p.program.setStates.map fun s => Ipfw.setWords s.set false))
    |>.append rules |>.append (spells_filterLines (p.program.installOrder.map Ipfw.ruleWords))
    |>.append (none_.section_ (spells_filterLines
      ((p.program.setStates.filter (·.enabled)).map fun s => Ipfw.setWords s.set true)))
    |>.append (none_.section_ switched) |>.append logs
  rw [Installation.drop_commands]
  simpa only [bodyLines, setting, sysctlLines, joinAll, List.map_append, List.append_nil,
    List.append_assoc] using whole

/-! ### Commands for the host, and commands for the filter -/

theorem ofFilter_filterLine (words : String) : OfFilter (filterLine words) := by
  rw [OfFilter, filterLine, String.toList_append]
  exact List.prefix_append _ _

theorem OfFilter.not_ofHost (h : OfFilter l) : ¬ OfHost l := by
  obtain ⟨rest, split⟩ := h
  rw [OfHost, ← split]
  rintro (⟨rest', split'⟩ | ⟨rest', split'⟩)
  · simp [lead] at split'
  · simp [lead] at split'

theorem not_ofHost_filterLines (commands : List (List String)) :
    ∀ l ∈ (joinAll commands).map filterLine, ¬ OfHost l :=
  List.forall_mem_map.mpr fun words _ => (ofFilter_filterLine words).not_ofHost

theorem not_ofFilter_logger (said : String) :
    ¬ OfFilter ("logger \"firewall installed: " ++ said ++ "\"") := by
  rintro ⟨rest, split⟩
  simp [lead] at split

/-- Host commands between two parts of the commands for the filter are before the second one. -/
theorem hostLast_iff {flush others : List (List String)} {parameters services : List String}
    {logger : String} (some_ : others ≠ []) (parameter : ∀ l ∈ parameters, OfHost l)
    (service : ∀ l ∈ services, OfHost l) (logs : ¬ OfFilter logger) :
    HostLast ((joinAll flush).map filterLine ++ parameters ++ (joinAll others).map filterLine
      ++ services ++ [logger]) ↔ parameters = [] := by
  constructor
  · intro last
    by_contra early
    obtain ⟨l, hl⟩ := List.exists_mem_of_ne_nil _ early
    obtain ⟨words, hwords⟩ := List.exists_mem_of_ne_nil _ some_
    have filters : filterLine (ShellWord.join words) ∈ (joinAll others).map filterLine :=
      List.mem_map_of_mem (List.mem_map_of_mem hwords)
    rw [HostLast, List.append_assoc] at last
    have apart := List.pairwise_pair.mp (last.sublist (pair_sublist hl filters))
    exact apart (parameter l hl) (ofFilter_filterLine _)
  · rintro rfl
    rw [List.append_nil, List.append_assoc]
    refine pairwise_not_of_append ?_ ?_
    · exact List.forall_mem_append.mpr
        ⟨not_ofHost_filterLines flush, not_ofHost_filterLines others⟩
    · refine List.forall_mem_append.mpr ⟨fun l hl filter => ?_, List.forall_mem_singleton.mpr logs⟩
      exact filter.not_ofHost (service l hl)

end Script

/-! ### The order of a deployment and of its script -/

namespace Deployment

open Terminal (Handed)

variable {τ : Type} {u : Setup τ} {b : Bench τ} {p : Policy} {tokens : List String}
  {log : List Execution} {answer : Except DeployFault Policy}

theorem Phases.hostLast (h : Phases p log answer) :
    log.Pairwise fun e e' => e.OfHost → ¬ e'.OfFilter := by
  have behind {hosted : List Execution} {commands : List (List String)}
      (known : hostCommands p = .ok commands) (inside : hosted.map (·.command) ⊆ commands) :
      (installed p ++ hosted).Pairwise fun e e' => e.OfHost → ¬ e'.OfFilter := by
    refine pairwise_not_of_append (fun e he => (ofFilter_of_mem_installed he).1.not_ofHost) ?_
    exact fun e he filter => filter.not_ofHost
      (ofHost_of_mem_hostCommands known e (inside (List.mem_map_of_mem he)))
  cases h with
  | @refused tried flushed _ _ trying flushing =>
      rw [commands_installed] at trying
      have filters : ∀ e ∈ tried ++ flushed, ¬ Execution.OfHost e := List.forall_mem_append.mpr
        ⟨fun e he => (ofFilter_of_tried trying e he).not_ofHost,
          fun e he => (ofFilter_of_tried flushing e he).not_ofHost⟩
      exact List.pairwise_of_forall_mem_list fun e he _ _ host => absurd host (filters e he)
  | configured known => exact behind known (List.Subset.refl _)
  | interrupted known => exact behind known (List.subset_append_left _ _)

/-- A deployment runs no command for the filter once it has run one for the host. -/
theorem exists_hostLast_run (own : u.engine = Ipfw.engine u.runner { dryRun := u.options.debug })
    (compiled : (compile u tokens b).1 = .ok p) :
    ∃ log, Handed u.runner b.terminal log (run u tokens "" b).2.terminal ∧
      log.Pairwise fun e e' => e.OfHost → ¬ e'.OfFilter := by
  cases debugging : u.options.debug with
  | true =>
      rw [debugging] at own
      exact ⟨[], handed_run_of_debug own debugging tokens b, .nil⟩
  | false =>
      rw [debugging] at own
      obtain ⟨log, handed, phases⟩ := phases_run own compiled debugging
      exact ⟨log, handed, phases.hostLast⟩

theorem exists_commandsOf_script {r : Registry} (declared : (Registry.ofTokens tokens).2 = .ok r)
    {stamp : Stamp} (time : '\n' ∉ stamp.time.toList) (user : '\n' ∉ stamp.user.toList)
    {o : Options} {host : Bool}
    (assembled : p = Policy.assemble r (if host then Host.sysctls o else []) (Policy.rules r o)) :
    ∃ text services, renderScript stamp none p tokens = .ok text ∧
      p.services.mapM Host.serviceCommand = .ok services ∧
      Script.setting.toList ∈ shellLines text ∧
      Script.commandsOf text = (Script.joinAll Ipfw.flushCommands).map Script.filterLine
        ++ Script.joinAll (p.sysctls.map Host.sysctlCommand)
        ++ (Script.joinAll ((Installation.commands p).drop Ipfw.flushCommands.length)).map
          Script.filterLine
        ++ Script.joinAll services
        ++ ["logger \"firewall installed: " ++ ShellWord.join tokens ++ "\""] := by
  subst assembled
  obtain ⟨s, made⟩ : ∃ s, Script.ofPolicy stamp
      (Policy.assemble r (if host then Host.sysctls o else []) (Policy.rules r o)) tokens = .ok s :=
    ⟨_, rfl⟩
  obtain ⟨headed, args⟩ := headed_ofPolicy declared time user _ _ made
  have free : ∀ s ∈ if host then Host.sysctls o else [], '\n' ∉ s.comment.toList := by
    cases host
    · exact List.forall_mem_nil _
    · intro s hs feed
      exact absurd ((Policy.unbroken_sysctls o s hs).2.2 _ feed) (by decide)
  have quotable : '"' ∉ s.args.toList := by
    rw [args]
    refine ShellWord.double_not_mem_join fun token listed => ⟨fun quote => ?_, fun quote => ?_⟩
    all_goals
      exact absurd (Registry.isTokenChar_of_declared declared token listed _ quote) (by decide)
  obtain ⟨services, asked, spells⟩ := Script.spells_ofPolicy made free quotable
  refine ⟨s.render, services, by rw [renderScript, made], asked, headed.heading_render.1, ?_⟩
  simp only [List.append_assoc, List.singleton_append] at spells
  rw [headed.commandsOf_render spells, args]
  simp only [Script.joinAll, List.map_map, List.append_assoc]
  rfl

/-- A script flushes the filter, sets the kernel parameters and adds what the filter holds, in this
order, and switches services last. So its host commands are behind the ones for the filter only
where the policy sets no parameters, that is where the host is not to be configured. The deployment
itself has them last always. -/
theorem hostLast_script_iff (own : u.engine = Ipfw.engine u.runner { dryRun := u.options.debug })
    (compiled : (compile u tokens b).1 = .ok p) (time : '\n' ∉ u.stamp.time.toList)
    (user : '\n' ∉ u.stamp.user.toList) :
    ∃ text services log, renderScript u.stamp none p tokens = .ok text ∧
      p.services.mapM Host.serviceCommand = .ok services ∧
      Script.setting.toList ∈ shellLines text ∧
      Script.commandsOf text = (Script.joinAll Ipfw.flushCommands).map Script.filterLine
        ++ Script.joinAll (p.sysctls.map Host.sysctlCommand)
        ++ (Script.joinAll ((Installation.commands p).drop Ipfw.flushCommands.length)).map
          Script.filterLine
        ++ Script.joinAll services
        ++ ["logger \"firewall installed: " ++ ShellWord.join tokens ++ "\""] ∧
      (Script.HostLast (Script.commandsOf text) ↔ u.host = false) ∧
      Handed u.runner b.terminal log (run u tokens "" b).2.terminal ∧
      log.Pairwise fun e e' => e.OfHost → ¬ e'.OfFilter := by
  obtain ⟨r, declared, assembled⟩ := exists_registry_of_compiled compiled
  obtain ⟨text, services, rendered, asked, begins, commands⟩ :=
    exists_commandsOf_script declared time user assembled
  obtain ⟨log, handed, last⟩ := exists_hostLast_run own compiled
  refine ⟨text, services, log, rendered, asked, begins, commands, ?_, handed, last⟩
  have pipe : (Installation.commands p).drop Ipfw.flushCommands.length ≠ [] := by
    rw [Installation.drop_commands, assembled]
    simp [Policy.assemble, Policy.baselinePipes]
  rw [commands, Script.hostLast_iff pipe]
  · rw [assembled]
    cases u.host with
    | false => exact iff_of_true rfl rfl
    | true => exact iff_of_false (by simp [Script.joinAll, Policy.assemble, Host.sysctls]) (by simp)
  · rw [Script.joinAll, List.map_map]
    exact List.forall_mem_map.mpr fun s _ => Script.ofHost_sysctl s
  · refine List.forall_mem_map.mpr fun command h => ?_
    obtain ⟨t, known⟩ := exists_of_mem_mapM asked h
    exact Script.ofHost_service known
  · exact Script.not_ofFilter_logger _

/-- With the host left out, the script of the gateway has no early host command; with the host, its
deployment has none either. -/
theorem hostLast_script_gateway :
    let tokens := ["en0+mac::192.168.0.0/16", "en1\x7b504,120\x7d"]
    let b : Bench Unit := { terminal := { world := () } }
    (∃ p text, (Policy.compile .home gateway.options false false).result = .ok p ∧
      renderScript gateway.stamp none p tokens = .ok text ∧
      Script.HostLast (Script.commandsOf text)) ∧
    ∃ log, Handed gateway.runner b.terminal log (run gateway tokens "" b).2.terminal ∧
      log.Pairwise fun e e' => e.OfHost → ¬ e'.OfFilter := by
  intro tokens b
  obtain ⟨time, user⟩ : '\n' ∉ gateway.stamp.time.toList ∧ '\n' ∉ gateway.stamp.user.toList := by
    decide
  have declared : (Registry.ofTokens tokens).2 = .ok .home := Registry.declared_home
  have policy (host : Bool) := Policy.compile_eq_ok
    (Registry.indexed_of_declared declared) gateway.options host false
  constructor
  · have compiled := compile_of_result (u := { gateway with host := false }) declared
      (policy false) b
    obtain ⟨text, _, _, rendered, -, -, -, last, -⟩ := hostLast_script_iff rfl compiled time user
    exact ⟨_, text, policy false, rendered, last.mpr rfl⟩
  · have compiled := compile_of_result (u := gateway) declared (policy true) b
    obtain ⟨_, _, log, -, -, -, -, -, handed, last⟩ := hostLast_script_iff rfl compiled time user
    exact ⟨log, handed, last⟩

/-- The script of the gateway switches forwarding on while the filter is flushed, before there is a
pipe, let alone a rule. -/
theorem not_hostLast_script_gateway :
    ∃ p text, (Policy.compile .home gateway.options true false).result = .ok p ∧
      renderScript gateway.stamp none p ["en0+mac::192.168.0.0/16", "en1\x7b504,120\x7d"] =
        .ok text ∧
      ["sysctl -w net.inet.ip.forwarding=1",
        "\"$IPFW\" -q pipe 300 config bw 64Kbit/s queue 5"].Sublist (Script.commandsOf text) ∧
      ¬ Script.HostLast (Script.commandsOf text) := by
  obtain ⟨time, user⟩ : '\n' ∉ gateway.stamp.time.toList ∧ '\n' ∉ gateway.stamp.user.toList := by
    decide
  have declared := Registry.declared_home
  have policy := Policy.compile_eq_ok (Registry.indexed_of_declared declared) gateway.options true
    false
  have assembled : Policy.assemble .home (Host.sysctls gateway.options)
      (Policy.rules .home gateway.options) = Policy.assemble .home
        (if true then Host.sysctls gateway.options else []) (Policy.rules .home gateway.options) :=
    rfl
  obtain ⟨text, services, rendered, -, -, commands⟩ :=
    exists_commandsOf_script declared time user assembled
  have forwarding : "sysctl -w net.inet.ip.forwarding=1" ∈
      Script.joinAll ((Host.sysctls gateway.options).map Host.sysctlCommand) := by
    refine List.mem_map.mpr ⟨["sysctl", "-w", "net.inet.ip.forwarding=1"], ?_, by decide⟩
    exact List.mem_map.mpr ⟨Host.set "net.inet.ip.forwarding" 1,
      List.mem_append_right _ (List.mem_singleton.mpr rfl), rfl⟩
  have pipe : "\"$IPFW\" -q pipe 300 config bw 64Kbit/s queue 5" ∈
      (Script.joinAll ((Installation.commands (Policy.assemble .home (Host.sysctls gateway.options)
        (Policy.rules .home gateway.options))).drop Ipfw.flushCommands.length)).map
          Script.filterLine := by
    rw [Installation.drop_commands]
    exact List.mem_cons_self
  have early : ["sysctl -w net.inet.ip.forwarding=1",
      "\"$IPFW\" -q pipe 300 config bw 64Kbit/s queue 5"].Sublist (Script.commandsOf text) := by
    rw [commands, List.append_assoc]
    exact pair_sublist forwarding pipe
  refine ⟨_, text, policy, rendered, early, fun last => ?_⟩
  have apart := List.pairwise_pair.mp (last.sublist early)
  exact apart (by decide) (by decide)

end Deployment
end Firewall

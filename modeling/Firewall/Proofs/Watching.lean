import Firewall.Evaluation
import Firewall.Installation
import Firewall.Ipfw.Engine

/-!
The filter while commands change it. Every command that carries out a call means one step of the
filter; what a runner makes of a command, the filter after it tells. Watching a run records every
command with its outcome and with the filter that it left behind.
-/

namespace Firewall

/-- The rules of a filter in the order in which they were added, and the sets that are on. The rule
behind all others, which accepts everything, is no part of it. -/
structure Filter where
  rules : List Rule
  on : Int → Bool

namespace Filter

def accepts (f : Filter) (holds : Match → Bool) : Bool := Evaluation.accepts holds f.on f.rules

end Filter

inductive Step
  /-- Removes all rules; the sets stay as they are. -/
  | clear
  /-- Changes pipes or queues and leaves the rules alone. -/
  | keep
  | switch (set : Int) (enabled : Bool)
  | add (r : Rule)
deriving DecidableEq, Repr

namespace Filter

def after (f : Filter) : Step → Filter
  | .clear => { f with rules := [] }
  | .keep => f
  | .switch set enabled => { f with on := fun s => if s = set then enabled else f.on s }
  | .add r => { f with rules := f.rules ++ [r] }

def afterAll (f : Filter) (steps : List Step) : Filter := steps.foldl after f

theorem afterAll_append (f : Filter) (a b : List Step) :
    f.afterAll (a ++ b) = (f.afterAll a).afterAll b :=
  List.foldl_append

theorem afterAll_cons (f : Filter) (s : Step) (rest : List Step) :
    f.afterAll (s :: rest) = (f.after s).afterAll rest := rfl

end Filter

namespace Ipfw

variable {τ : Type}

/-- The commands of a call, each with the step that it means. -/
def stepsOf : Engine.Call → List (List String × Step)
  | .flush => flushCommands.zip [.clear, .keep]
  | .configurePipe p => [(pipeWords p, .keep)]
  | .configureQueue q => [(queueWords q, .keep)]
  | .setEnabled set enabled => [(setWords set enabled, .switch set enabled)]
  | .install p => p.installOrder.map fun r => (ruleWords r, .add r)

theorem map_fst_stepsOf (c : Engine.Call) : (stepsOf c).map Prod.fst = commandsOf c := by
  cases c with
  | install p => simp [stepsOf, commandsOf]
  | flush | configurePipe _ | configureQueue _ | setEnabled _ _ => rfl

def commandOf (a : Access) (words : List String) : List String := a.executable :: "-q" :: words

def succeeded : Except SystemFault CommandResult → Bool
  | .ok r => r.status = 0
  | .error _ => false

/-- The filter obeys commands: one that ends well does its step, any other does nothing. -/
def Obeys (runner : Runner τ) (a : Access) (view : τ → Filter)
    (table : List (List String × Step)) : Prop :=
  ∀ entry ∈ table, ∀ world : τ,
    let (result, world') := runner (commandOf a entry.1) world
    view world' = if succeeded result then (view world).after entry.2 else view world

structure Moment where
  command : List String
  done : Bool
  filter : Filter

/-- A runner that keeps a record of what it does. -/
def watched (view : τ → Filter) (runner : Runner τ) : Runner (τ × List Moment) :=
  fun command (world, past) =>
    let (result, world) := runner command world
    (result, world, past ++ [{ command, done := succeeded result, filter := view world }])

/-- How far the filter is: as it was found, without rules, or with rules that were added. -/
inductive Phase
  | untouched
  | cleared
  | filled
deriving DecidableEq, Repr

namespace Phase

/-- Only a flush that ended well removes rules, and only an addition that ended well brings one. -/
def next (phase : Phase) (m : Moment) : Phase :=
  if !m.done then phase
  else match m.command.drop 2 with
    | ["-f", "flush"] => cleared
    | "add" :: _ => filled
    | _ => phase

def after (phase : Phase) : Step → Phase
  | .clear => cleared
  | .add _ => filled
  | .keep | .switch _ _ => phase

theorem next_of_mem (phase : Phase) {a : Access} {c : Engine.Call}
    {entry : List String × Step} (h : entry ∈ stepsOf c) (filter : Filter) :
    phase.next { command := commandOf a entry.1, done := true, filter } =
      phase.after entry.2 := by
  cases c with
  | flush =>
      simp only [stepsOf, flushCommands, List.zip_cons_cons, List.zip_nil_right, List.mem_cons,
        List.not_mem_nil, or_false] at h
      rcases h with rfl | rfl <;> rfl
  | configurePipe p =>
      rw [List.mem_singleton.mp h]
      rfl
  | configureQueue q =>
      rw [List.mem_singleton.mp h]
      rfl
  | setEnabled set enabled =>
      rw [List.mem_singleton.mp h]
      rfl
  | install p =>
      obtain ⟨r, _, rfl⟩ := List.mem_map.mp h
      rfl

end Phase

/-! ### Watching changes nothing -/

def unwatched (t : Terminal (τ × List Moment)) : Terminal τ := { t with world := t.world.1 }

theorem modify_unwatched (view : τ → Filter) (runner : Runner τ) (a : Access)
    (words : List String) (t : Terminal (τ × List Moment)) :
    (modify (watched view runner) a words t).map id unwatched =
      modify runner a words (unwatched t) := by
  cases dry : a.dryRun with
  | true => simp [modify, dry, unwatched, Terminal.note]
  | false =>
      rcases ran : runner (commandOf a words) t.world.1 with ⟨result, world⟩
      unfold commandOf at ran
      simp only [modify, dry, execute, Terminal.run, Terminal.log, Terminal.note, watched,
        unwatched, ran]
      cases result with
      | error fault => rfl
      | ok r => by_cases status : r.status = 0 <;> simp [status, unwatched]

theorem modifyAll_unwatched (view : τ → Filter) (runner : Runner τ) (a : Access)
    (commands : List (List String)) (t : Terminal (τ × List Moment)) :
    (modifyAll (watched view runner) a commands t).map id unwatched =
      modifyAll runner a commands (unwatched t) := by
  induction commands generalizing t with
  | nil => rfl
  | cons words rest ih =>
      rw [modifyAll, modifyAll, ← modify_unwatched]
      rcases modify (watched view runner) a words t with ⟨_ | _, t'⟩
      · rfl
      · exact ih t'

/-- A run of commands up to the first that is refused: whether all of them were done, what was
recorded, and the filter in the end. -/
inductive Run (a : Access) : Filter → List (List String × Step) → Bool → List Moment → Filter → Prop
  | nil (f : Filter) : Run a f [] true [] f
  | done {f f' : Filter} {words : List String} {s : Step} {rest : List (List String × Step)}
      {ok : Bool} {moments : List Moment} : Run a (f.after s) rest ok moments f' →
      Run a f ((words, s) :: rest) ok
        ({ command := commandOf a words, done := true, filter := f.after s } :: moments) f'
  | refused {f : Filter} {words : List String} {s : Step} {rest : List (List String × Step)} :
      Run a f ((words, s) :: rest) false
        [{ command := commandOf a words, done := false, filter := f }] f

def Answered (ok : Bool) (answer : Except EngineFault Unit) : Prop :=
  if ok then answer = .ok () else ∃ text, answer = .error (.rejected text)

/-- An outcome of commands that is accounted for by a run. -/
def Follows (a : Access) (view : τ → Filter) (table : List (List String × Step))
    (t : Terminal (τ × List Moment))
    (outcome : Except EngineFault Unit × Terminal (τ × List Moment)) : Prop :=
  ∃ ok moments, Run a (view t.world.1) table ok moments (view outcome.2.world.1) ∧
    outcome.2.world.2 = t.world.2 ++ moments ∧ Answered ok outcome.1

variable {runner : Runner τ} {a : Access} {view : τ → Filter} {table : List (List String × Step)}

theorem modify_watched (runner : Runner τ) (view : τ → Filter) (live : a.dryRun = false)
    (words : List String) (t : Terminal (τ × List Moment)) :
    let (result, world) := runner (commandOf a words) t.world.1
    let (answer, t') := modify (watched view runner) a words t
    t'.world = (world, t.world.2 ++
        [{ command := commandOf a words, done := succeeded result, filter := view world }]) ∧
      Answered (succeeded result) answer := by
  rcases ran : runner (commandOf a words) t.world.1 with ⟨result, world⟩
  unfold commandOf at ran
  simp only [modify, live, execute, Terminal.run, Terminal.log, Terminal.note, watched, commandOf]
  cases result with
  | error fault => simp [ran, succeeded, Answered]
  | ok r =>
      by_cases status : r.status = 0
      · simp [ran, succeeded, status, Answered]
      · simp [ran, succeeded, status, Answered]

/-- Commands that are carried out one after the other make a run. -/
theorem follows_modifyAll (live : a.dryRun = false) (obeys : Obeys runner a view table)
    (t : Terminal (τ × List Moment)) :
    Follows a view table t (modifyAll (watched view runner) a (table.map Prod.fst) t) := by
  induction table generalizing t with
  | nil => exact ⟨true, [], .nil _, by simp [modifyAll], rfl⟩
  | cons entry rest ih =>
      obtain ⟨words, s⟩ := entry
      have effect := obeys _ List.mem_cons_self t.world.1
      have left := modify_watched runner view live words t
      rcases ran : runner (commandOf a words) t.world.1 with ⟨result, world⟩
      rcases modified : modify (watched view runner) a words t with ⟨answer, t'⟩
      simp only [ran, modified] at effect left
      obtain ⟨world_eq, answered⟩ := left
      simp only [List.map_cons, modifyAll, modified]
      cases done : succeeded result with
      | true =>
          simp only [done, if_true] at effect answered world_eq
          cases answered
          obtain ⟨ok, moments, run, past, outcome⟩ :=
            ih (fun entry h => obeys entry (List.mem_cons_of_mem _ h)) t'
          rw [world_eq] at run past
          refine ⟨ok, _, .done (effect ▸ run), ?_, outcome⟩
          rw [past, effect, List.append_assoc]
          rfl
      | false =>
          simp only [done, Bool.false_eq_true, if_false] at effect answered world_eq
          obtain ⟨text, rfl⟩ := answered
          have refused : Run a (view t.world.1) ((words, s) :: rest) false
              [{ command := commandOf a words, done := false, filter := view t.world.1 }]
              (view t'.world.1) := by
            rw [world_eq, effect]
            exact .refused
          refine ⟨false, _, refused, ?_, text, rfl⟩
          rw [world_eq, effect]

theorem modifyAll_of_willing (view : τ → Filter) (live : a.dryRun = false)
    (willing : ∀ command world, succeeded (runner command world).1 = true)
    (commands : List (List String)) (t : Terminal (τ × List Moment)) :
    (modifyAll (watched view runner) a commands t).1 = .ok () := by
  induction commands generalizing t with
  | nil => rfl
  | cons words rest ih =>
      have left := modify_watched runner view live words t
      have done := willing (commandOf a words) t.world.1
      rcases ran : runner (commandOf a words) t.world.1 with ⟨result, world⟩
      rcases modified : modify (watched view runner) a words t with ⟨answer, t'⟩
      rw [ran] at done
      simp only [ran, modified, done] at left
      obtain ⟨_, answered⟩ := left
      cases answered
      simp only [modifyAll, modified]
      exact ih t'

theorem modifyAll_append (runner : Runner τ) (a : Access) (xs ys : List (List String))
    (t : Terminal τ) :
    modifyAll runner a (xs ++ ys) t =
      match modifyAll runner a xs t with
      | (.ok (), t) => modifyAll runner a ys t
      | (.error fault, t) => (.error fault, t) := by
  induction xs generalizing t with
  | nil => rfl
  | cons words rest ih =>
      simp only [List.cons_append, modifyAll]
      split
      · exact ih _
      · rfl

theorem performAll_engine (runner : Runner τ) (a : Access) (calls : List Engine.Call)
    (t : Terminal τ) :
    (engine runner a).performAll calls t = modifyAll runner a (calls.flatMap commandsOf) t := by
  induction calls generalizing t with
  | nil => rfl
  | cons c rest ih =>
      have performed : (engine runner a).perform c t = modifyAll runner a (commandsOf c) t := rfl
      rw [List.flatMap_cons, modifyAll_append, Engine.performAll, performed]
      rcases modifyAll runner a (commandsOf c) t with ⟨_ | _, t'⟩
      · rfl
      · exact ih t'

theorem performAll_unwatched (view : τ → Filter) (runner : Runner τ) (a : Access)
    (calls : List Engine.Call) (t : Terminal (τ × List Moment)) :
    ((engine (watched view runner) a).performAll calls t).map id unwatched =
      (engine runner a).performAll calls (unwatched t) := by
  rw [performAll_engine, performAll_engine, modifyAll_unwatched]

/-- An installation that is watched ends as it does unwatched. -/
theorem install_unwatched (view : τ → Filter) (runner : Runner τ) (a : Access) (p : Policy)
    (t : Terminal (τ × List Moment)) :
    let outcome := Installation.install (engine (watched view runner) a) p t
    Installation.install (engine runner a) p (unwatched t) =
      { answer := outcome.answer, state := unwatched outcome.state, errors := outcome.errors,
        refusals := outcome.refusals } := by
  unfold Installation.install
  rw [← performAll_unwatched view]
  rcases (engine (watched view runner) a).performAll (Installation.calls p) t with
    ⟨(⟨text⟩ | _ | _) | _, t'⟩
  · let failed := "Installation failed, flushing: " ++ text
    have flushed : (engine runner a).perform .flush
          (Installation.report (engine runner a) failed (unwatched t')) =
        ((engine (watched view runner) a).perform .flush
          (Installation.report (engine (watched view runner) a) failed t')).map id unwatched :=
      (modifyAll_unwatched view runner a (commandsOf .flush)
        (Installation.report (engine (watched view runner) a) failed t')).symm
    simp only [Prod.map_apply, id_eq]
    rw [flushed]
    rcases (engine (watched view runner) a).perform .flush
      (Installation.report (engine (watched view runner) a) failed t') with ⟨(⟨_⟩ | _ | _) | _, t''⟩
    · rfl
    · rfl
    · rfl
    · rfl
  · rfl
  · rfl
  · rfl

def installSteps (p : Policy) : List (List String × Step) := (Installation.calls p).flatMap stepsOf

theorem map_fst_installSteps (p : Policy) :
    (installSteps p).map Prod.fst = (Installation.calls p).flatMap commandsOf := by
  unfold installSteps
  rw [List.map_flatMap]
  congr 1
  funext c
  exact map_fst_stepsOf c

/-- What is recorded of an installation: the commands up to the first that is refused, and behind
a refusal those of the flush that answers it. -/
def Installs (a : Access) (p : Policy) (f : Filter) (moments : List Moment) : Prop :=
  ∃ ok before after f', Run a f (installSteps p) ok before f' ∧ moments = before ++ after ∧
    if ok then after = [] else ∃ ok' f'', Run a f' (stepsOf .flush) ok' after f''

theorem stepsOf_flush_subset (p : Policy) : stepsOf .flush ⊆ installSteps p := by
  intro entry h
  exact List.mem_flatMap.mpr ⟨.flush, by simp [Installation.calls], h⟩

theorem installs_install {p : Policy} (live : a.dryRun = false)
    (obeys : Obeys runner a view (installSteps p)) (t : Terminal (τ × List Moment)) :
    ∃ moments,
      (Installation.install (engine (watched view runner) a) p t).state.world.2 =
        t.world.2 ++ moments ∧
      Installs a p (view t.world.1) moments := by
  have follows := follows_modifyAll live obeys t
  rw [map_fst_installSteps, ← performAll_engine] at follows
  obtain ⟨ok, before, run, past, answered⟩ := follows
  unfold Installation.install
  rcases performed : (engine (watched view runner) a).performAll (Installation.calls p) t with
    ⟨answer, t'⟩
  rw [performed] at run past answered
  cases ok with
  | true =>
      cases answered
      exact ⟨before, past, true, before, [], _, run, by simp, rfl⟩
  | false =>
      obtain ⟨text, rfl⟩ := answered
      let failed := "Installation failed, flushing: " ++ text
      obtain ⟨ok', after, run', past', answered'⟩ := follows_modifyAll live
        (fun entry h => obeys entry (stepsOf_flush_subset p h))
        (Installation.report (engine (watched view runner) a) failed t')
      rw [map_fst_stepsOf] at run' past' answered'
      have flushed : (engine (watched view runner) a).perform .flush
          (Installation.report (engine (watched view runner) a) failed t') =
        modifyAll (watched view runner) a (commandsOf .flush)
          (Installation.report (engine (watched view runner) a) failed t') := rfl
      simp only [flushed, failed]
      rcases recovered : modifyAll (watched view runner) a (commandsOf .flush)
        (Installation.report (engine (watched view runner) a) failed t') with ⟨answer', t''⟩
      rw [recovered] at run' past' answered'
      have noted : (Installation.report (engine (watched view runner) a) failed t').world =
        t'.world := rfl
      rw [noted] at run' past'
      have recorded : t''.world.2 = t.world.2 ++ (before ++ after) := by
        rw [past', past, List.append_assoc]
      have installs : Installs a p (view t.world.1) (before ++ after) :=
        ⟨false, before, after, _, run, rfl, ok', _, run'⟩
      cases ok' with
      | true =>
          cases answered'
          exact ⟨_, recorded, installs⟩
      | false =>
          obtain ⟨again, rfl⟩ := answered'
          exact ⟨_, recorded, installs⟩

/-- A filter that carries out every command carries out an installation to its end. -/
theorem run_install {p : Policy} (live : a.dryRun = false)
    (obeys : Obeys runner a view (installSteps p))
    (willing : ∀ command world, succeeded (runner command world).1 = true)
    (t : Terminal (τ × List Moment)) :
    ∃ moments,
      (Installation.install (engine (watched view runner) a) p t).state.world.2 =
        t.world.2 ++ moments ∧
      ∃ f, Run a (view t.world.1) (installSteps p) true moments f := by
  have follows := follows_modifyAll live obeys t
  have done := modifyAll_of_willing view live willing ((installSteps p).map Prod.fst) t
  rw [map_fst_installSteps, ← performAll_engine] at follows done
  obtain ⟨ok, moments, run, past, answered⟩ := follows
  unfold Installation.install
  rcases performed : (engine (watched view runner) a).performAll (Installation.calls p) t with
    ⟨answer, t'⟩
  rw [performed] at run past answered done
  cases done
  cases ok with
  | true => exact ⟨moments, past, _, run⟩
  | false =>
      obtain ⟨text, refused⟩ := answered
      cases refused

theorem modifyAll_dryRun (runner : Runner τ) (dry : a.dryRun = true)
    (commands : List (List String)) (t : Terminal τ) :
    (modifyAll runner a commands t).1 = .ok () ∧
      (modifyAll runner a commands t).2.world = t.world := by
  induction commands generalizing t with
  | nil => exact ⟨rfl, rfl⟩
  | cons words rest ih =>
      simp only [modifyAll, modify, dry, if_true]
      exact ih _

theorem install_dryRun (runner : Runner τ) (dry : a.dryRun = true) (p : Policy) (t : Terminal τ) :
    (Installation.install (engine runner a) p t).state.world = t.world := by
  have nothing := modifyAll_dryRun runner dry ((Installation.calls p).flatMap commandsOf) t
  rw [← performAll_engine] at nothing
  unfold Installation.install
  rcases performed : (engine runner a).performAll (Installation.calls p) t with ⟨answer, t'⟩
  rw [performed] at nothing
  obtain ⟨rfl, world⟩ := nothing
  exact world

end Ipfw
end Firewall

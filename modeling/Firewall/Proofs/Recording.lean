import Firewall.Deployment
import Firewall.Proofs.Settlement

/-!
What an engine is asked for while a policy is installed. Calls are made in one order until one of
them is refused; then one flush follows, and the first refusal is what the installation answers.
-/

namespace Firewall

namespace Engine

/-- A call with what the engine answered. -/
structure Attempt where
  call : Call
  answer : Except EngineFault Unit

def Attempt.made (c : Call) : Attempt := { call := c, answer := .ok () }

variable {σ : Type}

/-- The engine with a record of what it was asked for. -/
def recorded (e : Engine σ) : Engine (σ × List Attempt) where
  perform c s :=
    let (answer, t) := e.perform c s.1
    (answer, t, s.2 ++ [{ call := c, answer }])
  bandwidth id s :=
    let (answer, t) := e.bandwidth id s.1
    (answer, t, s.2)
  note n s := (e.note n s.1, s.2)

/-- Every call succeeds or is rejected with some text. -/
def OnlyRejects (e : Engine σ) : Prop :=
  ∀ (c : Call) (s : σ) (fault : EngineFault), (e.perform c s).1 = .error fault →
    ∃ text, fault = .rejected text

variable {e : Engine σ} {c : Call} {s t : σ} {answer : Except EngineFault Unit}

theorem perform_recorded (performed : e.perform c s = (answer, t)) (record : List Attempt) :
    e.recorded.perform c (s, record) = (answer, t, record ++ [{ call := c, answer }]) := by
  simp [recorded, performed]

/-- Calls are made up to the first one that is refused. -/
theorem performAll_recorded (rejects : e.OnlyRejects) (cs : List Call) (s : σ)
    (record : List Attempt) :
    (∃ t, e.performAll cs s = (.ok (), t) ∧
      e.recorded.performAll cs (s, record) = (.ok (), t, record ++ cs.map .made)) ∨
    ∃ done failed rest text t, cs = done ++ failed :: rest ∧
      e.performAll cs s = (.error (.rejected text), t) ∧
      e.recorded.performAll cs (s, record) = (.error (.rejected text), t,
        record ++ done.map .made ++ [{ call := failed, answer := .error (.rejected text) }]) := by
  induction cs generalizing s record with
  | nil => exact Or.inl ⟨s, rfl, by simp [performAll]⟩
  | cons c cs ih =>
      cases performed : e.perform c s with
      | mk answer t =>
          have kept := perform_recorded performed record
          cases answer with
          | ok =>
              simp only [performAll, performed, kept]
              rcases ih t (record ++ [.made c]) with
                ⟨t', plain, noted⟩ | ⟨done, failed, rest, text, t', split, plain, noted⟩
              · refine Or.inl ⟨t', plain, ?_⟩
                simpa [Attempt.made] using noted
              · refine Or.inr ⟨c :: done, failed, rest, text, t', by rw [split]; rfl, plain, ?_⟩
                simpa [Attempt.made] using noted
          | error fault =>
              obtain ⟨text, rfl⟩ := rejects c s fault (by rw [performed])
              refine Or.inr ⟨[], c, cs, text, t, rfl, ?_, ?_⟩
              · simp [performAll, performed]
              · simp [performAll, kept]

end Engine

namespace Installation

open Engine (Attempt Call)

/-- How calls that are to be made one after the other go: what is attempted, the answer, the errors
that are reported and the refusals that an operator is shown. -/
inductive Course (sequence : List Call) :
    List Attempt → Except EngineFault Unit → List String → List String → Prop
  | completed : Course sequence (sequence.map .made) (.ok ()) [] []
  /-- The refused call is answered by a flush. -/
  | flushed {done : List Call} {failed : Call} {rest : List Call} {text : String}
      (split : sequence = done ++ failed :: rest) :
      Course sequence
        (done.map .made ++ [{ call := failed, answer := .error (.rejected text) },
          { call := .flush, answer := .ok () }])
        (.error (.rejected text)) ["Installation failed, flushing: " ++ text] [text]
  /-- The flush is refused as well. -/
  | stuck {done : List Call} {failed : Call} {rest : List Call} {text again : String}
      (split : sequence = done ++ failed :: rest) :
      Course sequence
        (done.map .made ++ [{ call := failed, answer := .error (.rejected text) },
          { call := .flush, answer := .error (.rejected again) }])
        (.error (.rejected text))
        ["Installation failed, flushing: " ++ text,
          "Flush after failed installation failed: " ++ again] [text]

variable {σ : Type} {e : Engine σ}

theorem report_recorded (text : String) (s : σ × List Attempt) :
    report e.recorded text s = (report e text s.1, s.2) := rfl

theorem course_install (rejects : e.OnlyRejects) (p : Policy) (s : σ) :
    ∃ record, (install e.recorded p (s, [])).state = ((install e p s).state, record) ∧
      Course (calls p) record (install e p s).answer (install e p s).errors
        (install e p s).refusals := by
  rcases Engine.performAll_recorded rejects (calls p) s [] with
    ⟨t, plain, noted⟩ | ⟨done, failed, rest, text, t, split, plain, noted⟩
  · simp only [install, plain, noted]
    exact ⟨_, rfl, .completed⟩
  · simp only [install, plain, noted, report_recorded]
    cases flushed : e.perform .flush (report e ("Installation failed, flushing: " ++ text) t) with
    | mk answer t' =>
        rw [Engine.perform_recorded flushed]
        cases answer with
        | ok => exact ⟨_, rfl, by simpa using Course.flushed split⟩
        | error fault =>
            obtain ⟨again, rfl⟩ := rejects .flush _ fault (by rw [flushed])
            exact ⟨_, rfl, by simpa using Course.stuck split⟩

/-! ### Sets that are switched on -/

variable {p : Policy} {set : Int}

/-- The calls before a set is switched on hold the one that brings the rules in. -/
theorem install_mem_of_calls {front back : List Call}
    (split : calls p = front ++ .setEnabled set true :: back) : .install p.program ∈ front := by
  let before : List Call := [.flush] ++ p.program.pipes.map .configurePipe
    ++ p.program.queues.map .configureQueue ++ p.program.setStates.map (.setEnabled ·.set false)
  let after : List Call := (p.program.setStates.filter (·.enabled)).map (.setEnabled ·.set true)
  have whole : calls p = before ++ .install p.program :: after := by
    simp [calls, before, after]
  have elsewhere : .setEnabled set true ∉ before := by simp [before]
  rw [whole] at split
  rcases List.append_eq_append_iff.mp split with ⟨more, rfl, rest⟩ | ⟨more, front_eq, rest⟩
  · cases more with
    | nil => cases rest
    | cons c more =>
        obtain ⟨rfl, -⟩ := List.cons_eq_cons.mp rest
        simp
  · refine absurd ?_ elsewhere
    cases more with
    | nil => cases rest
    | cons c more =>
        obtain ⟨rfl, -⟩ := List.cons_eq_cons.mp rest
        simp [front_eq]

theorem made_install_mem {done rest : List Call} (split : calls p = done ++ rest)
    {front back : List Attempt} {a : Attempt} (made : done.map .made = front ++ a :: back)
    (enables : a.call = .setEnabled set true) : .made (.install p.program) ∈ front := by
  obtain ⟨front', more, rfl, rfl, more_eq⟩ := List.map_eq_append_iff.mp made
  obtain ⟨c, back', rfl, rfl, -⟩ := List.map_eq_cons_iff.mp more_eq
  have call : c = .setEnabled set true := enables
  rw [call, List.append_assoc] at split
  exact List.mem_map_of_mem (install_mem_of_calls split)

/-- The same where a call was refused after others had been made. -/
theorem made_install_mem_of_refused {done rest : List Call} {failed refused : Attempt}
    (split : calls p = done ++ failed.call :: rest) (flush : refused.call = .flush)
    {front back : List Attempt} {a : Attempt}
    (record : done.map .made ++ [failed, refused] = front ++ a :: back)
    (enables : a.call = .setEnabled set true) : .made (.install p.program) ∈ front := by
  have at_failed (same : a = failed) : .made (.install p.program) ∈ done.map Attempt.made := by
    rw [← same, enables] at split
    exact List.mem_map_of_mem (install_mem_of_calls split)
  rcases List.append_eq_append_iff.mp record with ⟨more, rfl, last⟩ | ⟨more, made, last⟩
  · cases more with
    | nil => exact List.mem_append_left _ (at_failed (List.cons_eq_cons.mp last).1.symm)
    | cons b more =>
        have among : a ∈ [refused] := (List.cons_eq_cons.mp last).2 ▸ by simp
        rw [List.mem_singleton.mp among, flush] at enables
        cases enables
  · cases more with
    | nil =>
        rw [List.append_nil] at made
        exact made ▸ at_failed (List.cons_eq_cons.mp last).1
    | cons b more =>
        rw [← (List.cons_eq_cons.mp last).1] at made
        exact made_install_mem split made enables

/-- No set is switched on before the rules are in. -/
theorem Course.made_install_mem {record : List Attempt} {answer : Except EngineFault Unit}
    {errors refusals : List String} (course : Course (calls p) record answer errors refusals)
    {front back : List Attempt} {a : Attempt} (split : record = front ++ a :: back)
    (enables : a.call = .setEnabled set true) : .made (.install p.program) ∈ front := by
  cases course with
  | completed => exact Installation.made_install_mem (List.append_nil _).symm split enables
  | flushed calls_eq => exact made_install_mem_of_refused calls_eq rfl split enables
  | stuck calls_eq => exact made_install_mem_of_refused calls_eq rfl split enables

end Installation

namespace Deployment

open Engine (Attempt)

variable {τ : Type}

/-- An installation flushes, configures every pipe and every queue, switches every set off that
can be switched, brings the rules in and switches those sets on that are to be, and ends well; or
else one of these calls is refused, a flush follows, and the first refusal is the answer and is
shown to the operator. Sets are only switched on when the rules are in. -/
theorem install_course (u : Setup τ) (rejects : u.engine.OnlyRejects) (p : Policy) (b : Bench τ) :
    ∃ record answer errors refusals,
      (Installation.install u.engine.recorded p (b.terminal, [])).state =
        ((install u p b).2.terminal, record) ∧
      Installation.Course
        ([.flush] ++ p.program.pipes.map .configurePipe ++ p.program.queues.map .configureQueue
          ++ p.program.setStates.map (.setEnabled ·.set false)
          ++ [.install p.program]
          ++ (p.program.setStates.filter (·.enabled)).map (.setEnabled ·.set true))
        record answer errors refusals ∧
      (install u p b).1 = answer.mapError .engine ∧
      (install u p b).2.errors = b.errors ++ errors ∧
      (install u p b).2.allErrors = b.allErrors ++ refusals ∧
      ∀ (front back : List Attempt) (a : Attempt) (set : Int), record = front ++ a :: back →
        a.call = .setEnabled set true → .made (.install p.program) ∈ front := by
  obtain ⟨record, recorded, course⟩ := Installation.course_install rejects p b.terminal
  exact ⟨record, _, _, _, recorded, course, rfl, rfl, rfl,
    fun _ _ _ _ split enables => course.made_install_mem split enables⟩

/-- An engine whose world is the list of its refusals, a call for each of them. -/
def refusing : Engine (Terminal (List (Option String))) where
  perform _ t := match t.world with
    | [] => (.ok (), t)
    | none :: rest => (.ok (), { t with world := rest })
    | some text :: rest => (.error (.rejected text), { t with world := rest })
  bandwidth _ t := (.ok none, t)
  note n t := t.note n

theorem onlyRejects_refusing : refusing.OnlyRejects := by
  intro c t fault refused
  simp only [refusing] at refused
  split at refused
  · cases refused
  · cases refused
  · cases refused
    exact ⟨_, rfl⟩

/-- A shaped uplink: the calls of an installation that ends well, and those of one where the last
queue is refused and so is the flush that follows. The operator is told of the queue. -/
theorem install_course_refusing :
    ∃ p, (Policy.compile .home {} false false).result = .ok p ∧
      let opening : List Engine.Call := .flush :: p.program.pipes.map .configurePipe ++
        [.configureQueue { id := 101, pipe := 201, weight := 7 },
          .configureQueue { id := 201, pipe := 201, weight := 5 },
          .configureQueue { id := 301, pipe := 201, weight := 1 }]
      let closing : List Engine.Call :=
        [.setEnabled 10 false, .setEnabled 11 false, .setEnabled 20 false, .install p.program,
          .setEnabled 10 true, .setEnabled 11 true, .setEnabled 20 true]
      (∃ record, Installation.Course (opening ++ closing) record (.ok ()) [] [] ∧
        record.map (·.call) = opening ++ closing) ∧
      ∃ record errors,
        Installation.Course (opening ++ closing) record (.error (.rejected "no memory")) errors
          ["no memory"] ∧
        record.map (·.call) = opening ++ [.flush] := by
  have indexed := Registry.indexed_of_declared Registry.declared_home
  refine ⟨_, Policy.compile_eq_ok indexed {} false false, ?_⟩
  let p := Policy.assemble .home [] (Policy.rules .home {})
  let u : Setup (List (Option String)) :=
    { options := {}, engine := refusing, runner := fun _ w => (.ok {}, w),
      stamp := { time := "noon", user := "root" } }
  let world := List.replicate 9 none ++ [some "no memory", some "not permitted"]
  constructor
  · obtain ⟨record, answer, errors, refusals, recorded, course, answered, reported, shown, -⟩ :=
      install_course u onlyRejects_refusing p { terminal := { world := [] } }
    have tried : record.map (·.call) = _ := congrArg (·.2.map (·.call)) recorded.symm
    have done : answer = .ok () := by
      cases answer with
      | ok => rfl
      | error fault => cases answered
    have quiet : errors = [] := reported.symm
    have untold : refusals = [] := shown.symm
    rw [done, quiet, untold] at course
    exact ⟨record, course, tried⟩
  · obtain ⟨record, answer, errors, refusals, recorded, course, answered, -, shown, -⟩ :=
      install_course u onlyRejects_refusing p { terminal := { world } }
    have tried : record.map (·.call) = _ := congrArg (·.2.map (·.call)) recorded.symm
    have refused : answer = .error (.rejected "no memory") := by
      cases answer with
      | ok => cases answered
      | error fault =>
          have same := DeployFault.engine.inj (Except.error.inj answered)
          rw [← same]
    have told : refusals = ["no memory"] := shown.symm
    rw [refused, told] at course
    exact ⟨record, errors, course, tried⟩

end Deployment
end Firewall

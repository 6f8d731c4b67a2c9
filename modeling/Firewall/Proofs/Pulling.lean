import Firewall.Proofs.Conserving
import Firewall.Proofs.Writing

/-!
What a line of stages hands on, and to what effect. A stage that takes all rules before it hands
on the first does its work at once; one that hands on rule by rule works between two questions of
the stage behind it, so what a line yields depends on what is done with each rule it has handed
on.
-/

namespace Firewall.Chain

/-! ### What a line hands on -/

/-- A line hands on the rules at the places `is`, to a stage that treats each of them with `use`
before it asks for the next one. -/
inductive Yields (depth : Nat) (use : Desk → Nat → Desk) :
    List Nat → List Stage → Desk → Desk → Prop
  | dry {line line' : List Stage} {d d' : Desk}
      (asked : next depth line d = ⟨.ok none, line', d'⟩) : Yields depth use [] line d d'
  | more {i : Nat} {is : List Nat} {line line' : List Stage} {d d₁ d' : Desk}
      (asked : next depth line d = ⟨.ok (some i), line', d₁⟩)
      (rest : Yields depth use is line' (use d₁ i) d') : Yields depth use (i :: is) line d d'

/-- Lets a rule pass. -/
def keep (d : Desk) (_ : Nat) : Desk := d

/-- A line that is done with its rules when it hands on the first of them: it leaves the desk `d'`
to the stage that asks. -/
def Opens (is : List Nat) (line : List Stage) (d d' : Desk) : Prop :=
  ∀ use, Yields line.length use is line d (is.foldl use d')

variable {depth : Nat} {use : Desk → Nat → Desk} {is : List Nat} {line before : List Stage}
  {d d' : Desk} {s s' : Stage} {name : String}

theorem takeAll_of_yields (h : Yields depth keep is line d d') {fuel : Nat}
    (enough : is.length < fuel) :
    ∃ line', takeAll (next depth) fuel line d = (is, ⟨.ok (), line', d'⟩) := by
  induction h generalizing fuel with
  | dry asked =>
      cases fuel with
      | zero => omega
      | succ fuel => exact ⟨_, by rw [takeAll, asked]⟩
  | more asked rest ih =>
      cases fuel with
      | zero => omega
      | succ fuel =>
          obtain ⟨line', taken⟩ := ih (Nat.lt_of_succ_lt_succ enough)
          rw [keep] at taken
          exact ⟨line', by rw [takeAll, asked]; simp only [taken]⟩

theorem Yields.length_le (h : Yields depth keep is line d d') : is.length ≤ supply line d := by
  obtain ⟨line', taken⟩ := takeAll_of_yields h (Nat.lt_succ_self _)
  have taking := conserves_takeAll (conserving_next depth) (is.length + 1) line d
  rw [taken] at taking
  exact Nat.le_of_add_right_le taking.supply_le

theorem gather_of_yields (fresh : s.spent = false) (empty : s.queue = []) (behind : before ≠ [])
    (h : Yields depth keep is before d d') :
    ∃ before', plan before' = plan before ∧ gather (next depth) s before d =
      ⟨.ok (!is.isEmpty), { s with queue := is, spent := true } :: before', d'⟩ := by
  obtain ⟨before', taken⟩ := takeAll_of_yields h (Nat.lt_succ_of_le h.length_le)
  have taking := conserves_takeAll (conserving_next depth) (supply before d + 1) before d
  rw [taken] at taking
  refine ⟨before', taking.plan_eq, ?_⟩
  rw [gather, taken]
  simp [fresh, empty, behind]

/-! ### One stage at the end of a line -/

theorem ne_nil_of_plan_eq {before' : List Stage} (same : plan before' = plan before)
    (behind : before ≠ []) : before' ≠ [] := by
  rintro rfl
  exact behind (List.map_eq_nil_iff.mp same.symm)

theorem head?_of_plan_eq {before' : List Stage} (same : plan before' = plan before) :
    before'.head?.map (·.name) = before.head?.map (·.name) := by
  simpa [plan, Function.comp_def] using congrArg (·.head?.map Prod.snd) same

/-- A stage in which nothing waits works once, and then hands on what it has got. -/
theorem next_of_step (empty : s.queue = []) {b : Bool} {before' : List Stage}
    (stepped : step (next depth) (s :: before) d = ⟨.ok b, s' :: before', d'⟩)
    (waiting : b = true → s'.queue ≠ []) :
    next (depth + 1) (s :: before) d = handOn (s' :: before') d' := by
  have worked : work (next depth) (supply (s :: before) d + 1) (s :: before) d =
      ⟨.ok (), s' :: before', d'⟩ := by
    rw [work, stepped]
    cases b with
    | false => rfl
    | true =>
        obtain ⟨kind, name, queue, spent⟩ := s'
        cases queue with
        | nil => exact absurd rfl (waiting rfl)
        | cons i rest => simp
  have handed : handOn (s :: before) d = ⟨.ok none, s :: before, d⟩ := by rw [handOn, empty]
  rw [next, handed]
  simp only [worked]

/-- Whether a stage at the end of a line, with nothing waiting in it, does nothing when it is told
to work. -/
def Idle (depth : Nat) (s : Stage) (before : List Stage) : Prop :=
  ∀ d, step (next depth) ({ s with queue := [] } :: before) d =
    ⟨.ok false, { s with queue := [] } :: before, d⟩

theorem idle_of_spent (spent : s.spent = true) (behind : before ≠ [])
    (takesAll : s.kind ∈ [.check, .sort, .debug]) : Idle depth s before := by
  intro d
  obtain ⟨kind, name, queue, spent⟩ := s
  cases spent
  cases kind <;> simp_all [step, gather]

theorem yields_queue (idle : Idle depth s before) (use : Desk → Nat → Desk) (is : List Nat)
    (d : Desk) :
    Yields (depth + 1) use is ({ s with queue := is } :: before) d (is.foldl use d) := by
  induction is generalizing d with
  | nil =>
      have asked : next (depth + 1) ({ s with queue := [] } :: before) d =
          ⟨.ok none, { s with queue := [] } :: before, d⟩ := by
        rw [next_of_step rfl (idle d) (by simp)]
        rfl
      exact .dry asked
  | cons i is ih =>
      exact .more (by simp [next, handOn]) (ih (use d i))

theorem yields_of_step (empty : s.queue = []) {b : Bool} {before' : List Stage}
    (stepped : step (next depth) (s :: before) d = ⟨.ok b, s' :: before', d'⟩)
    (waiting : b = true → s'.queue ≠ []) (idle : Idle depth s' before')
    (use : Desk → Nat → Desk) :
    Yields (depth + 1) use s'.queue (s :: before) d (s'.queue.foldl use d') := by
  have asked := next_of_step empty stepped waiting
  rw [handOn] at asked
  cases queue : s'.queue with
  | nil =>
      rw [queue] at asked
      exact .dry asked
  | cons i rest =>
      rw [queue] at asked
      exact .more asked (yields_queue idle use rest (use d' i))

/-- What a stage that shows the program adds to a desk. -/
def Desk.shown (d : Desk) (stage : String) (is : List Nat) : Desk :=
  { d with diagnostics := Numbering.note d.debugging d.diagnostics stage (is.map d.rule) }

theorem Desk.shown_of_quiet (quiet : d.debugging = false) (stage : String) (is : List Nat) :
    d.shown stage is = d := by
  have same : Numbering.note d.debugging d.diagnostics stage (is.map d.rule) = d.diagnostics := by
    rw [quiet, Numbering.note_false]
  rw [shown, same]

theorem Desk.shown_nil (d : Desk) (stage : String) : d.shown stage [] = d := by
  rw [shown, List.map_nil, Numbering.note_nil]

theorem Desk.display_fst (showing : d.debugging = true) (some_ : is ≠ []) (stage : String) :
    (Numbering.display stage (is.map d.rule) d.diagnostics).1 =
      (d.shown stage is).diagnostics := by
  rw [shown, Numbering.note, showing, if_pos (by simpa using some_)]

theorem Desk.display_snd_eq_none_iff {stage : String} :
    (Numbering.display stage (is.map d.rule) d.diagnostics).2 = none ↔
      ∀ i ∈ is, (d.rule i).Showable := by
  rw [Numbering.display_eq_none_iff, List.forall_mem_map]

/-- The diagnostics that a stage leaves which checks the rules at the places `is`. -/
def Desk.checked (d : Desk) (is : List Nat) : Desk :=
  { d with diagnostics := (Numbering.check d.diagnostics (is.map d.rule)).1 }

def Desk.sorted (d : Desk) (is : List Nat) : List Nat :=
  is.mergeSort fun i j => (d.rule i).number ≤ (d.rule j).number

theorem Opens.yields (h : Opens is line d d') : Yields line.length keep is line d d' := by
  have passed : is.foldl keep d' = d' := by
    clear h
    induction is with
    | nil => rfl
    | cons i is ih => exact ih
  simpa [passed] using h keep

theorem step_begin :
    step (next before.length) ({ kind := .begin, name } :: before) d =
      ⟨.ok (!(List.range d.rules.length).isEmpty),
        { kind := .begin, name, queue := List.range d.rules.length, spent := true } :: before,
        d⟩ := by
  simp [step]

theorem opens_begin :
    Opens (List.range d.rules.length) ({ kind := .begin, name } :: before) d d :=
  yields_of_step rfl step_begin (by simp) (fun _ => rfl)

theorem exists_step_check (name : String) (behind : before ≠ [])
    (h : Yields before.length keep is before d d')
    (known : (Numbering.check d'.diagnostics (is.map d'.rule)).2 = none) :
    ∃ before', plan before' = plan before ∧
      step (next before.length) ({ kind := .check, name } :: before) d =
        ⟨.ok (!is.isEmpty), { kind := .check, name, queue := is, spent := true } :: before',
          d'.checked is⟩ := by
  obtain ⟨before', same, gathered⟩ :=
    gather_of_yields (s := { kind := .check, name }) rfl rfl behind h
  refine ⟨before', same, ?_⟩
  cases is with
  | nil => simp [step, gathered, Desk.checked, Numbering.check, Numbering.checkFrom]
  | cons i rest =>
      have found : Numbering.check d'.diagnostics ((i :: rest).map d'.rule) =
          ((d'.checked (i :: rest)).diagnostics, none) := Prod.ext rfl known
      simp only [step, gathered, List.isEmpty_cons, Bool.not_false]
      rw [found]
      rfl

theorem opens_check (behind : before ≠ []) (h : Yields before.length keep is before d d')
    (known : (Numbering.check d'.diagnostics (is.map d'.rule)).2 = none) :
    Opens is ({ kind := .check, name } :: before) d (d'.checked is) := by
  intro use
  obtain ⟨before', same, stepped⟩ := exists_step_check name behind h known
  exact yields_of_step rfl stepped (by simp)
    (idle_of_spent rfl (ne_nil_of_plan_eq same behind) (by simp)) use

theorem exists_step_sort (name : String) (behind : before ≠ [])
    (h : Yields before.length keep is before d d') :
    ∃ before', plan before' = plan before ∧
      step (next before.length) ({ kind := .sort, name } :: before) d =
        ⟨.ok (!is.isEmpty),
          { kind := .sort, name, queue := d'.sorted is, spent := true } :: before', d'⟩ := by
  obtain ⟨before', same, gathered⟩ :=
    gather_of_yields (s := { kind := .sort, name }) rfl rfl behind h
  refine ⟨before', same, ?_⟩
  cases is with
  | nil => simp [step, gathered, Desk.sorted]
  | cons i rest => simp [step, gathered, Desk.sorted]

theorem opens_sort (behind : before ≠ []) (h : Yields before.length keep is before d d') :
    Opens (d'.sorted is) ({ kind := .sort, name } :: before) d d' := by
  intro use
  obtain ⟨before', same, stepped⟩ := exists_step_sort name behind h
  refine yields_of_step rfl stepped ?_
    (idle_of_spent rfl (ne_nil_of_plan_eq same behind) (by simp)) use
  intro some_ none_
  have : is.length = 0 := by simpa [Desk.sorted] using congrArg List.length none_
  simp_all

theorem exists_step_debug (name : String) {stage : String}
    (named : before.head?.map (·.name) = some stage)
    (h : Yields before.length keep is before d d')
    (showable : d'.debugging = true → ∀ i ∈ is, (d'.rule i).Showable) :
    ∃ before', plan before' = plan before ∧
      step (next before.length) ({ kind := .debug, name } :: before) d =
        ⟨.ok (!is.isEmpty), { kind := .debug, name, queue := is, spent := true } :: before',
          d'.shown stage is⟩ := by
  have behind : before ≠ [] := by
    rintro rfl
    cases named
  obtain ⟨before', same, gathered⟩ :=
    gather_of_yields (s := { kind := .debug, name }) rfl rfl behind h
  have head := (head?_of_plan_eq same).trans named
  refine ⟨before', same, ?_⟩
  cases is with
  | nil => simp [step, gathered, Desk.shown_nil, behind]
  | cons i rest =>
      cases showing : d'.debugging with
      | false => simp [step, gathered, Desk.shown_of_quiet, behind, showing]
      | true =>
          have displayed : Numbering.display stage ((i :: rest).map d'.rule) d'.diagnostics =
              ((d'.shown stage (i :: rest)).diagnostics, none) :=
            Prod.ext (Desk.display_fst showing (List.cons_ne_nil i rest) stage)
              (Desk.display_snd_eq_none_iff.mpr (showable showing))
          simp [-List.map_cons, step, gathered, behind, showing, head, displayed, Desk.shown]

theorem opens_debug {stage : String} (named : before.head?.map (·.name) = some stage)
    (h : Yields before.length keep is before d d')
    (showable : d'.debugging = true → ∀ i ∈ is, (d'.rule i).Showable) :
    Opens is ({ kind := .debug, name } :: before) d (d'.shown stage is) := by
  intro use
  obtain ⟨before', same, stepped⟩ := exists_step_debug name named h showable
  have behind : before ≠ [] := by
    rintro rfl
    cases named
  exact yields_of_step rfl stepped (by simp)
    (idle_of_spent rfl (ne_nil_of_plan_eq same behind) (by simp)) use

theorem yields_silence (behind : before ≠ [])
    (h : Yields depth (fun d i => use (d.silence i) i) is before d d') :
    Yields (depth + 1) use is ({ kind := .silence, name } :: before) d d' := by
  induction h with
  | @dry line line' d d' asked =>
      have stepped : step (next depth) ({ kind := .silence, name } :: line) d =
          ⟨.ok false, { kind := .silence, name } :: line', d'⟩ := by
        simp [step, pull, behind, asked]
      exact .dry (next_of_step rfl stepped (by simp))
  | @more i is line line' d d₁ d' asked rest ih =>
      have stepped : step (next depth) ({ kind := .silence, name } :: line) d =
          ⟨.ok true, { kind := .silence, name, queue := [i] } :: line', d₁.silence i⟩ := by
        simp [step, pull, behind, asked]
      have same := (conserving_next depth line d).plan_eq
      rw [asked] at same
      exact .more (next_of_step rfl stepped (by simp)) (ih (ne_nil_of_plan_eq same behind))

theorem Opens.silence (behind : before ≠ []) (h : Opens is before d d') :
    let line : List Stage := { kind := .silence, name } :: before
    Yields line.length keep is line d (is.foldl Desk.silence d') :=
  yields_silence behind (h _)

theorem drive_of_yields (behind : before ≠ []) (long : before.length = depth)
    (h : Yields depth (fun d i => { d with stored := d.stored ++ [i] }) is before d d')
    {fuel : Nat} (enough : is.length < fuel) :
    ∃ line, drive fuel ({ kind := .store, name } :: before) d = .ended (.ok ()) line d' := by
  induction h generalizing fuel with
  | @dry line line' d d' asked =>
      have stepped : step (next depth) ({ kind := .store, name } :: line) d =
          ⟨.ok false, { kind := .store, name } :: line', d'⟩ := by
        simp [step, pull, behind, asked]
      cases fuel with
      | zero => omega
      | succ fuel => exact ⟨{ kind := .store, name } :: line', by simp [drive, long, stepped]⟩
  | @more i is line line' d d₁ d' asked rest ih =>
      have stepped : step (next depth) ({ kind := .store, name } :: line) d =
          ⟨.ok true, { kind := .store, name } :: line',
            { d₁ with stored := d₁.stored ++ [i] }⟩ := by
        simp [step, pull, behind, asked]
      have same := (conserving_next depth line d).plan_eq
      rw [asked] at same
      have long' : line'.length = depth := by
        rw [← long]
        simpa [plan] using congrArg List.length same
      cases fuel with
      | zero => omega
      | succ fuel =>
          obtain ⟨last, driven⟩ :=
            ih (ne_nil_of_plan_eq same behind) long' (Nat.lt_of_succ_lt_succ enough)
          exact ⟨last, by simpa [drive, long, stepped] using driven⟩

end Firewall.Chain

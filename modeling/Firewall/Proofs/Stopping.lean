import Firewall.Proofs.Pulling

/-!
Lines that are stopped. Where a number that has to be written is too long the stage that was to
write it fails, and with it all stages behind it that have not worked yet: such a line answers the
first question with the fault.
-/

namespace Firewall.Chain

open Firewall.Numbering (Stop)

/-- The stages that hand on what others have. -/
def relays : List Kind := [.silence, .check, .sort, .store, .debug]

/-- A line that answers the first question with a fault, and leaves the desk `d'`. -/
def Fails (fault : Fault) (line : List Stage) (d d' : Desk) : Prop :=
  ∃ line', next line.length line d = ⟨.error fault, line', d'⟩

variable {fault : Fault} {line before : List Stage} {d d' : Desk} {s : Stage} {is : List Nat}
  {stop : Stop} {name stage : String} {fuel : Nat}

theorem Fails.ne_nil (h : Fails fault line d d') : line ≠ [] := by
  rintro rfl
  obtain ⟨line', asked⟩ := h
  cases asked

theorem next_of_fault (empty : s.queue = [])
    (stepped : step (next before.length) (s :: before) d = ⟨.error fault, line, d'⟩) :
    next (before.length + 1) (s :: before) d = ⟨.error fault, line, d'⟩ := by
  have handed : handOn (s :: before) d = ⟨.ok none, s :: before, d⟩ := by rw [handOn, empty]
  have worked : work (next before.length) (supply (s :: before) d + 1) (s :: before) d =
      ⟨.error fault, line, d'⟩ := by
    rw [work, stepped]
  rw [next, handed]
  simp only [worked]

theorem fails_of_step (empty : s.queue = [])
    (stepped : step (next before.length) (s :: before) d = ⟨.error fault, line, d'⟩) :
    Fails fault (s :: before) d d' :=
  ⟨line, next_of_fault empty stepped⟩

/-- A stage that has not worked yet takes over the fault of the stages before it. -/
theorem Fails.exists_step (h : Fails fault before d d') (relay : s.kind ∈ relays)
    (fresh : s.spent = false) :
    ∃ line, step (next before.length) (s :: before) d = ⟨.error fault, line, d'⟩ := by
  have behind := h.ne_nil
  obtain ⟨before', asked⟩ := h
  have pulled : pull (next before.length) before d = ⟨.error fault, before', d'⟩ := by
    simp [pull, behind, asked]
  have gathered : gather (next before.length) s before d =
      ⟨.error fault, { s with queue := s.queue ++ [] } :: before', d'⟩ := by
    rw [gather, takeAll, asked]
    simp [fresh, behind]
  cases kind : s.kind with
  | begin | bare => simp [kind, relays] at relay
  | silence | store => exact ⟨_, by simp only [step, kind, pulled]; rfl⟩
  | check | sort => exact ⟨_, by simp only [step, kind, gathered]; rfl⟩
  | debug => exact ⟨_, by simp only [step, kind, gathered, List.isEmpty_iff, behind, if_false]; rfl⟩

theorem Fails.cons (h : Fails fault before d d') (relay : s.kind ∈ relays)
    (fresh : s.spent = false) (empty : s.queue = []) : Fails fault (s :: before) d d' := by
  obtain ⟨line, stepped⟩ := h.exists_step relay fresh
  exact fails_of_step empty stepped

theorem drive_of_fault
    (stepped : step (next before.length) (s :: before) d = ⟨.error fault, line, d'⟩) :
    drive (fuel + 1) (s :: before) d = .ended (.error fault) line d' := by
  rw [drive, List.length_cons, Nat.add_sub_cancel, stepped]

/-! ### Stages that are stopped -/

theorem exists_step_check_stopped (name : String) (behind : before ≠ [])
    (h : Yields before.length keep is before d d')
    (stopped : (Numbering.check d'.diagnostics (is.map d'.rule)).2 = some stop) :
    ∃ before', plan before' = plan before ∧
      step (next before.length) ({ kind := .check, name } :: before) d =
        ⟨.error (.stopped stop), { kind := .check, name, queue := is, spent := true } :: before',
          d'.checked is⟩ := by
  obtain ⟨before', same, gathered⟩ :=
    gather_of_yields (s := { kind := .check, name }) rfl rfl behind h
  refine ⟨before', same, ?_⟩
  cases is with
  | nil => cases stopped
  | cons i rest =>
      have found : Numbering.check d'.diagnostics ((i :: rest).map d'.rule) =
          ((d'.checked (i :: rest)).diagnostics, some stop) := Prod.ext rfl stopped
      simp only [step, gathered, List.isEmpty_cons, Bool.not_false]
      rw [found]
      rfl

theorem exists_step_debug_stopped (name : String)
    (named : before.head?.map (·.name) = some stage)
    (h : Yields before.length keep is before d d') (showing : d'.debugging = true)
    (long : ∃ i ∈ is, ¬ (d'.rule i).Showable) :
    ∃ before', step (next before.length) ({ kind := .debug, name } :: before) d =
      ⟨.error (.stopped .longNumber),
        { kind := .debug, name, queue := is, spent := true } :: before', d'.shown stage is⟩ := by
  have behind : before ≠ [] := by
    rintro rfl
    cases named
  obtain ⟨before', same, gathered⟩ :=
    gather_of_yields (s := { kind := .debug, name }) rfl rfl behind h
  have head := (head?_of_plan_eq same).trans named
  refine ⟨before', ?_⟩
  obtain ⟨i, hi, long⟩ := long
  have some_ : is ≠ [] := List.ne_nil_of_mem hi
  have displayed : Numbering.display stage (is.map d'.rule) d'.diagnostics =
      ((d'.shown stage is).diagnostics, some .longNumber) := by
    refine Prod.ext (Desk.display_fst showing some_ stage) ?_
    cases stopped : (Numbering.display stage (is.map d'.rule) d'.diagnostics).2 with
    | none => exact absurd (Desk.display_snd_eq_none_iff.mp stopped i hi) long
    | some stop => rw [Numbering.display_eq_some stopped]
  simp [step, gathered, behind, showing, head, displayed, Desk.shown, some_]

end Firewall.Chain

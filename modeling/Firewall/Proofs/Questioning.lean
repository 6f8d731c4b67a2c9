import Mathlib.Data.List.Forall2
import Firewall.Proofs.Draining

/-!
Chains that are asked for rules at any of their stages, in any order. No question makes a rule
disappear or brings it in twice, not even one that is answered with a fault, and a stage that has
once answered that there are no more rules goes on to answer so.
-/

namespace Firewall.Chain

/-- What a chain has answered so far, and what it has become. -/
structure Questioned where
  answers : List (Except Fault (Option Nat))
  stages : List Stage
  desk : Desk

/-- Asks a chain for its next rule at one stage after the other. -/
def askAll : List Nat → List Stage → Desk → Questioned
  | [], stages, d => ⟨[], stages, d⟩
  | i :: rest, stages, d =>
    let o := nextAt stages i d
    let q := askAll rest o.line o.desk
    { q with answers := o.answer :: q.answers }

variable {α : Type} {out : List Nat} {upper line stages : List Stage} {d : Desk}

/-! ### One question -/

theorem Conserves.behind_all {o : Outcome α} (h : Conserves out line d o) (upper : List Stage) :
    Conserves out (upper ++ line) d ⟨o.answer, upper ++ o.line, o.desk⟩ := by
  induction upper with
  | nil => exact h
  | cons s upper ih => exact ih.behind s _

/-- A line that has run dry hands on nothing. -/
theorem Conserves.eq_nil {o : Outcome α} (h : Conserves out line d o) (dry : places line d = []) :
    out = [] := by
  have perm := h.perm
  rw [dry] at perm
  exact (eq_nil_of_perm perm h.follows.stored).1

theorem Sound.of_append (h : Sound d (upper ++ line)) (some_ : line ≠ []) : Sound d line := by
  induction upper with
  | nil => exact h
  | cons s upper ih => exact ih (h.of_cons (List.append_ne_nil_of_right_ne_nil _ some_)).2.1

/-- The stages behind a line stay sound while the line is asked. -/
theorem Sound.replace {o : Outcome α} (h : Sound d (upper ++ line)) (some_ : line ≠ [])
    (kept : Conserves out line d o) (sound : Sound o.desk o.line) :
    Sound o.desk (upper ++ o.line) := by
  induction upper with
  | nil => exact sound
  | cons s upper ih =>
      obtain ⟨kind, before, dry⟩ := h.of_cons (List.append_ne_nil_of_right_ne_nil _ some_)
      exact .behind kind (ih before) ((kept.behind_all upper).dry 0 ∘ dry)

theorem reverse_eq (stages : List Stage) (i : Nat) :
    stages.reverse = (stages.drop (i + 1)).reverse ++ (stages.take (i + 1)).reverse := by
  rw [← List.reverse_append, List.take_append_drop]

theorem drop_reverse_eq (stages : List Stage) (i : Nat) :
    stages.reverse.drop (stages.length - (i + 1)) = (stages.take (i + 1)).reverse := by
  have length : stages.length - (i + 1) = (stages.drop (i + 1)).reverse.length := by simp
  rw [reverse_eq stages i, length, List.drop_left]

theorem conserves_nextAt (stages : List Stage) (i : Nat) (d : Desk) :
    Conserves (handed (nextAt stages i d).answer) stages.reverse d
      ⟨(nextAt stages i d).answer, (nextAt stages i d).line.reverse, (nextAt stages i d).desk⟩ := by
  have kept := (conserving_next (stages.take (i + 1)).reverse.length
    (stages.take (i + 1)).reverse d).behind_all (stages.drop (i + 1)).reverse
  rw [← reverse_eq] at kept
  simpa [nextAt] using kept

theorem nextAt_drains (sound : Sound d stages.reverse) (known : Known d) (some_ : stages ≠ [])
    (i : Nat) :
    let o := nextAt stages i d
    Sound o.desk o.line.reverse ∧
      (o.answer = .ok none → places (o.line.take (i + 1)).reverse o.desk = []) ∧
      ∀ fault, o.answer = .error fault → Stopped (stages.take (i + 1)).reverse d fault := by
  have split := reverse_eq stages i
  have some_' : (stages.take (i + 1)).reverse ≠ [] := by simpa using some_
  have kept := conserving_next (stages.take (i + 1)).reverse.length (stages.take (i + 1)).reverse d
  rw [split] at sound
  have drained := draining_next (stages.take (i + 1)).reverse.length _ d (sound.of_append some_')
    known (Nat.le_refl _)
  rw [nextAt]
  generalize next (stages.take (i + 1)).reverse.length (stages.take (i + 1)).reverse d = o
    at kept drained
  have sound' := sound.replace some_' kept drained.sound
  have length : o.line.length = (stages.take (i + 1)).length := by simpa using kept.length_eq
  have front : (o.line.reverse ++ stages.drop (i + 1)).take (i + 1) = o.line.reverse := by
    rw [List.length_take] at length
    by_cases within : i + 1 ≤ stages.length
    · rw [List.take_append_of_le_length (by simp; omega), List.take_of_length_le (by simp; omega)]
    · rw [List.drop_eq_nil_of_le (by omega), List.append_nil,
        List.take_of_length_le (by simp; omega)]
  refine ⟨by simpa using sound', fun ended => ?_, drained.stopped⟩
  simp only [front, List.reverse_reverse]
  exact drained.dry ended

/-! ### Any number of questions -/

/-- What a question to a chain is answered with: a rule, that there are no more, or that a number is
too long to be written. -/
def Answered (d : Desk) (answer : Except Fault (Option Nat)) : Prop :=
  (∃ next, answer = .ok next) ∨ answer = .error (.stopped .longNumber) ∧ ¬ d.Showable

theorem askAll_run (sound : Sound d stages.reverse) (known : Known d) (some_ : stages ≠ [])
    (questions : List Nat) :
    let q := askAll questions stages d
    (∀ answer ∈ q.answers, Answered d answer) ∧ Sound q.desk q.stages.reverse ∧
      Conserves (q.answers.flatMap handed) stages.reverse d
        ⟨(.ok () : Except Fault Unit), q.stages.reverse, q.desk⟩ := by
  induction questions generalizing stages d with
  | nil => exact ⟨List.forall_mem_nil _, sound, .refl _⟩
  | cons i rest ih =>
      obtain ⟨sound', -, stopped⟩ := nextAt_drains sound known some_ i
      have kept := conserves_nextAt stages i d
      have some_' : (nextAt stages i d).line ≠ [] := by simpa using sound'.ne_nil
      obtain ⟨answered, soundAll, keptAll⟩ := ih sound' (known.follows kept.follows) some_'
      refine ⟨List.forall_mem_cons.mpr ⟨?_, fun answer ha => ?_⟩, soundAll, kept.trans keptAll⟩
      · cases answer : (nextAt stages i d).answer with
        | ok next => exact .inl ⟨next, rfl⟩
        | error fault =>
            have stops := stopped fault answer
            exact .inr ⟨congrArg _ stops.fault_eq, stops.long⟩
      · exact (answered answer ha).imp_right fun ⟨same, long⟩ =>
          ⟨same, fun all => long (all.follows kept.follows)⟩

/-- Where a stage has run dry, none of the rules that are left to others comes back to it. -/
theorem dry_askAll (sound : Sound d stages.reverse) (known : Known d) (some_ : stages ≠ [])
    {i : Nat} (dry : places (stages.take (i + 1)).reverse d = []) (questions : List Nat) :
    let q := askAll questions stages d
    (∀ s ∈ q.stages.take (i + 1), s.queue = []) ∧
      (nextAt q.stages i q.desk).answer = .ok none := by
  intro q
  obtain ⟨-, sound', kept⟩ := askAll_run sound known some_ questions
  have length : q.stages.length = stages.length := by simpa using kept.length_eq
  have some_' : q.stages ≠ [] := by simpa using sound'.ne_nil
  have dry' : places (q.stages.take (i + 1)).reverse q.desk = [] := by
    rw [← drop_reverse_eq, length]
    rw [← drop_reverse_eq] at dry
    exact kept.dry _ dry
  refine ⟨fun s hs => ?_, ?_⟩
  · have here := List.flatMap_eq_nil_iff.mp dry' s (List.mem_reverse.mpr hs)
    exact (List.append_eq_nil_iff.mp here).1
  · obtain ⟨-, -, stopped⟩ := nextAt_drains sound' (known.follows kept.follows) some_' i
    have none_ := (conserving_next (q.stages.take (i + 1)).reverse.length
      (q.stages.take (i + 1)).reverse q.desk).eq_nil dry'
    change handed (nextAt q.stages i q.desk).answer = [] at none_
    cases answer : (nextAt q.stages i q.desk).answer with
    | error fault => exact absurd dry' (stopped fault answer).waiting
    | ok next =>
        rw [answer] at none_
        cases next with
        | none => rfl
        | some j => cases none_

/-! ### A chain from its beginning -/

/-- A chain that has not begun, with its stages' kinds and names. -/
def chain (name : String) (behind : List (Kind × String)) : List Stage :=
  { kind := .begin, name } :: behind.map fun s => { kind := s.1, name := s.2 }

theorem sound_chain (name : String) {behind : List (Kind × String)}
    (relay : ∀ s ∈ behind, s.1 ∈ relays) (d : Desk) : Sound d (chain name behind).reverse := by
  have fresh : ∀ upper : List Stage, (∀ s ∈ upper, s.kind ∈ relays ∧ s.spent = false) →
      Sound d (upper ++ [{ kind := .begin, name }]) := by
    intro upper all
    induction upper with
    | nil => exact .begin rfl
    | cons s upper ih =>
        rw [List.forall_mem_cons] at all
        exact .behind all.1.1 (ih all.2) fun spent => by simp [all.1.2] at spent
  rw [chain, List.reverse_cons]
  refine fresh _ fun s hs => ?_
  obtain ⟨t, ht, rfl⟩ := List.mem_map.mp (List.mem_reverse.mp hs)
  exact ⟨relay t ht, rfl⟩

theorem places_chain (name : String) {behind : List (Kind × String)}
    (relay : ∀ s ∈ behind, s.1 ∈ relays) (d : Desk) :
    places (chain name behind) d = List.range d.rules.length := by
  have empty : places (behind.map fun s => { kind := s.1, name := s.2 }) d = [] := by
    refine List.flatMap_eq_nil_iff.mpr fun s hs => ?_
    obtain ⟨t, ht, rfl⟩ := List.mem_map.mp hs
    have other : t.1 ≠ .begin := fun begins => by simpa [begins, relays] using relay t ht
    simp [Stage.places, other]
  rw [chain, places_cons, empty]
  simp [Stage.places]

theorem places_reverse (stages : List Stage) (d : Desk) :
    (places stages.reverse d).Perm (places stages d) :=
  (List.reverse_perm stages).flatMap_right _

/-- The rule of a chain is the emitted one, its answer withheld perhaps. -/
def Treated (stealth : Bool) (emitted rule : Rule) : Prop :=
  rule = emitted ∨ stealth = true ∧ rule = emitted.silenced

theorem treated_rules {d d' : Desk} (h : d.Follows d') :
    List.Forall₂ (Treated d.stealth) d.rules d'.rules := by
  refine List.forall₂_iff_get.mpr ⟨h.length_eq.symm, fun i within within' => ?_⟩
  have rule := h.rule_eq i
  simpa [Desk.rule, Treated, within, within'] using rule

/-- Whatever stages a chain has behind its first one, and in whatever order they are asked, every
emitted rule was handed on, waits in the chain or is stored, and no rule is there twice; and once a
stage has answered that there are no more rules, the stages up to it are empty and it answers so for
ever. All questions are answered, unless a number of a rule is too long to be written. -/
theorem askAll_chain (name : String) (behind : List (Kind × String))
    (relay : ∀ s ∈ behind, s.1 ∈ relays) (stealth debugging : Bool) {emitted : List Rule}
    (known : ∀ rule ∈ emitted, ∀ text, rule.tag ≠ .unknown text) (questions : List Nat) :
    let q := askAll questions (chain name behind) { rules := emitted, stealth, debugging }
    (∀ answer ∈ q.answers, (∃ next, answer = .ok next) ∨
      answer = .error (.stopped .longNumber) ∧ ∃ rule ∈ emitted, ¬ rule.Showable) ∧
      (q.answers.flatMap handed ++ places q.stages q.desk ++ q.desk.stored).Perm
        (List.range emitted.length) ∧
      List.Forall₂ (Treated stealth) emitted q.desk.rules ∧
      ∀ i, (nextAt q.stages i q.desk).answer = .ok none → ∀ more : List Nat,
        let later := askAll (i :: more) q.stages q.desk
        (∀ s ∈ later.stages.take (i + 1), s.queue = []) ∧
          (nextAt later.stages i later.desk).answer = .ok none := by
  intro q
  let start : Desk := { rules := emitted, stealth, debugging }
  have sound : Sound start (chain name behind).reverse := sound_chain name relay start
  have knows : Known start := known_of_rules known
  obtain ⟨answered, sound', kept⟩ := askAll_run sound knows (by simp [chain]) questions
  refine ⟨fun answer ha => ?_, ?_, treated_rules kept.follows, fun i ended more => ?_⟩
  · refine (answered answer ha).imp_right fun ⟨same, long⟩ => ⟨same, ?_⟩
    rw [Desk.showable_iff] at long
    push Not at long
    exact long
  · have begun := (places_reverse (chain name behind) start).append_right start.stored
    rw [places_chain name relay start] at begun
    have whole := ((places_reverse q.stages q.desk).append_left
      (q.answers.flatMap handed)).append_right q.desk.stored
    simpa [start] using (whole.symm.trans kept.perm).trans begun
  · have some_ : q.stages ≠ [] := by simpa using sound'.ne_nil
    obtain ⟨sound'', dry, -⟩ := nextAt_drains sound' (knows.follows kept.follows) some_ i
    have follows := (conserves_nextAt q.stages i q.desk).follows
    have some_' : (nextAt q.stages i q.desk).line ≠ [] := by simpa using sound''.ne_nil
    simp only [askAll]
    exact dry_askAll sound'' ((knows.follows kept.follows).follows follows) some_' (dry ended) more

def crossing : List Rule :=
  [ { set := 30, number := 30100, action := .reject, what := {}, tag := .known .rejectInUdp },
    { set := 30, number := 30300, action := .reject, what := {}, tag := .known .rejectAll } ]

/-- A chain that is asked in its middle, at its end and before its middle. -/
def crossed : Questioned :=
  askAll [2, 4, 1] (chain "Begin" [(.silence, ""), (.check, ""), (.debug, ""), (.store, "")])
    { rules := crossing, stealth := true, debugging := true }

/-- The first rule is handed on in the middle and the second one stored; then the chain stays
empty. -/
theorem askAll_chain_crossed :
    crossed.answers = [.ok (some 0), .ok none, .ok none] ∧ crossed.desk.stored = [1] ∧
      crossed.desk.rules.map (·.response) = [some .drop, some .drop] ∧
      List.Forall₂ (Treated true) crossing crossed.desk.rules ∧
      ∀ more, let later := askAll (4 :: more) crossed.stages crossed.desk
        (∀ s ∈ later.stages.take 5, s.queue = []) ∧
          (nextAt later.stages 4 later.desk).answer = .ok none := by
  have checked := (Numbering.checkFrom_eq_none_iff [] {} crossing).mp (by decide +kernel)
  obtain ⟨-, -, treated, ends⟩ :=
    askAll_chain "Begin" [(.silence, ""), (.check, ""), (.debug, ""), (.store, "")]
      (by decide) true true (fun rule hr => (checked rule hr).1) [2, 4, 1]
  refine ⟨?_, by decide +kernel, by decide +kernel, treated, ends 4 ?_⟩
  · rfl
  · rfl

end Firewall.Chain

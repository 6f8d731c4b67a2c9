import Firewall.Chain

/-!
What becomes of the rules of a chain. Whatever a line of stages is asked for, every rule that
waited in it waits in it still, was handed on or was stored, and none is there twice; no stage
gives a rule back to the stages before it. So a line runs dry before any of the bounds is reached
that its functions count down.
-/

namespace Firewall

theorem Rule.silenced_silenced (r : Rule) : r.silenced.silenced = r.silenced := by
  by_cases rejects : r.action = .reject <;> simp [silenced, rejects]

namespace Chain

def plan (line : List Stage) : List (Kind × String) := line.map fun s => (s.kind, s.name)

/-- The places of the rules that a stage has yet to hand on, besides those that it takes from
others; a chain begins with `total` rules. -/
def Stage.places (s : Stage) (total : Nat) : List Nat :=
  s.queue ++ if s.kind = .begin ∧ s.spent = false then List.range total else []

/-- The places of the rules that wait in a line. -/
def places (line : List Stage) (d : Desk) : List Nat := line.flatMap (·.places d.rules.length)

/-- A desk later on: the answers of rules may have been withheld, rules stored and objections
recorded. -/
structure Desk.Follows (d d' : Desk) : Prop where
  length_eq : d'.rules.length = d.rules.length
  stealth_eq : d'.stealth = d.stealth
  rule_eq : ∀ i, d'.rule i = d.rule i ∨ d.stealth = true ∧ d'.rule i = (d.rule i).silenced
  stored : d.stored <+: d'.stored

namespace Desk.Follows

variable {d d' d'' : Desk}

theorem refl (d : Desk) : d.Follows d := ⟨rfl, rfl, fun _ => Or.inl rfl, List.prefix_refl _⟩

theorem trans (h : d.Follows d') (h' : d'.Follows d'') : d.Follows d'' where
  length_eq := h'.length_eq.trans h.length_eq
  stealth_eq := h'.stealth_eq.trans h.stealth_eq
  rule_eq i := by
    rcases h'.rule_eq i with same | ⟨stealth, silent⟩
    · rw [same]
      exact h.rule_eq i
    · rw [h.stealth_eq] at stealth
      rw [silent]
      rcases h.rule_eq i with same | ⟨-, silent'⟩
      · exact Or.inr ⟨stealth, by rw [same]⟩
      · exact Or.inr ⟨stealth, by rw [silent', Rule.silenced_silenced]⟩
  stored := h.stored.trans h'.stored

theorem diagnostics (d : Desk) (diagnostics : Diagnostics) : d.Follows { d with diagnostics } :=
  ⟨rfl, rfl, fun _ => Or.inl rfl, List.prefix_refl _⟩

theorem store (d : Desk) (i : Nat) : d.Follows { d with stored := d.stored ++ [i] } :=
  ⟨rfl, rfl, fun _ => Or.inl rfl, List.prefix_append _ _⟩

end Desk.Follows

theorem Desk.rule_silence (d : Desk) (i j : Nat) :
    (d.silence i).rule j = if d.stealth ∧ j = i then (d.rule j).silenced else d.rule j := by
  have blank_ : blank.silenced = blank := rfl
  unfold silence rule
  cases d.stealth with
  | false => simp
  | true =>
      rw [if_pos rfl, List.getD_eq_getElem?_getD, List.getElem?_modify]
      by_cases here : i = j
      · cases found : d.rules[j]? <;> simp [here, found, blank_]
      · simp [here, Ne.symm here]

theorem Desk.silence_rules (d : Desk) (i : Nat) : (d.silence i).rules.length = d.rules.length := by
  unfold silence
  split <;> simp

theorem Desk.silence_eq (d : Desk) (i : Nat) :
    d.silence i = { d with rules := (d.silence i).rules } := by
  unfold silence
  split <;> rfl

theorem Desk.Follows.silence (d : Desk) (i : Nat) : d.Follows (d.silence i) where
  length_eq := Desk.silence_rules d i
  stealth_eq := by rw [Desk.silence_eq]
  rule_eq j := by
    rw [Desk.rule_silence]
    split
    · rename_i silent
      exact Or.inr ⟨silent.1, rfl⟩
    · exact Or.inl rfl
  stored := by
    have same : (d.silence i).stored = d.stored := by rw [Desk.silence_eq]
    exact same ▸ List.prefix_refl _

/-- The rules of a line when it handed on those at the places `out`. -/
structure Conserves {α : Type} (out : List Nat) (line : List Stage) (d : Desk) (o : Outcome α) :
    Prop where
  plan_eq : plan o.line = plan line
  follows : d.Follows o.desk
  perm : (out ++ places o.line o.desk ++ o.desk.stored).Perm (places line d ++ d.stored)
  /-- Stages that have run dry stay so. -/
  dry : ∀ k, places (line.drop k) d = [] → places (o.line.drop k) o.desk = []

/-- The places in an answer. -/
def handed : Except Fault (Option Nat) → List Nat
  | .ok (some i) => [i]
  | _ => []

@[simp] theorem handed_some (i : Nat) : handed (.ok (some i)) = [i] := rfl

/-- A source that hands on what its line has, and no more. -/
def Conserving (source : Source) : Prop :=
  ∀ line d, Conserves (handed (source line d).answer) line d (source line d)

section

variable {α β : Type} {out out' : List Nat} {line before : List Stage} {d d' : Desk} {s s' : Stage}
  {source : Source}

theorem places_cons : places (s :: before) d = s.places d.rules.length ++ places before d := rfl

theorem places_congr (line : List Stage) (h : d'.rules.length = d.rules.length) :
    places line d' = places line d := by
  simp only [places, h]

theorem Conserves.refl (answer : Except Fault α) : Conserves [] line d ⟨answer, line, d⟩ :=
  ⟨rfl, .refl d, .refl _, fun _ => id⟩

theorem Conserves.trans {o : Outcome α} {o' : Outcome β} (first : Conserves out line d o)
    (second : Conserves out' o.line o.desk o') : Conserves (out ++ out') line d o' := by
  refine ⟨second.plan_eq.trans first.plan_eq, first.follows.trans second.follows, ?_,
    fun k => second.dry k ∘ first.dry k⟩
  refine .trans ?_ first.perm
  rw [List.append_assoc, List.append_assoc, List.append_assoc, ← List.append_assoc out']
  exact second.perm.append_left out

theorem supply_eq_length (line : List Stage) (d : Desk) :
    supply line d = (places line d).length := by
  induction line with
  | nil => rfl
  | cons s before ih =>
      have here : (s.places d.rules.length).length =
          s.queue.length + if s.kind = .begin ∧ s.spent = false then d.rules.length else 0 := by
        unfold Stage.places
        split <;> simp
      rw [places_cons, List.length_append, here, ← ih]
      rfl

theorem supply_cons :
    supply (s :: before) d = (s.places d.rules.length).length + supply before d := by
  rw [supply_eq_length, supply_eq_length, places_cons, List.length_append]

theorem supply_congr (line : List Stage) (length : d'.rules.length = d.rules.length) :
    supply line d' = supply line d := by
  rw [supply_eq_length, supply_eq_length, places_congr line length]

theorem Conserves.length_eq {o : Outcome α} (h : Conserves out line d o) :
    o.line.length = line.length := by
  simpa [plan] using congrArg List.length h.plan_eq

/-- A line that hands on a rule has one less to hand on. -/
theorem Conserves.supply_le {o : Outcome α} (h : Conserves out line d o) :
    out.length + supply o.line o.desk ≤ supply line d := by
  have count := h.perm.length_eq
  have := h.follows.stored.length_le
  simp only [List.length_append] at count
  rw [supply_eq_length, supply_eq_length]
  omega

/-- What is recorded or answered besides does not count. -/
theorem Conserves.answering {o : Outcome α} (h : Conserves out line d o) (answer : Except Fault β)
    (diagnostics : Diagnostics) :
    Conserves out line d ⟨answer, o.line, { o.desk with diagnostics }⟩ :=
  ⟨h.plan_eq, h.follows.trans (.diagnostics _ _), h.perm, h.dry⟩

theorem Conserves.answering_same {o : Outcome α} (h : Conserves out line d o)
    (answer : Except Fault β) : Conserves out line d ⟨answer, o.line, o.desk⟩ :=
  h.answering answer o.desk.diagnostics

theorem eq_nil_of_perm {waiting stored stored' : List Nat}
    (perm : (out ++ waiting ++ stored').Perm stored) (grown : stored <+: stored') :
    out = [] ∧ waiting = [] := by
  have count := perm.length_eq
  have := grown.length_le
  simp only [List.length_append] at count
  exact ⟨List.eq_nil_of_length_eq_zero (by omega), List.eq_nil_of_length_eq_zero (by omega)⟩

/-- A stage behind a line may keep what the line handed on, store it or hand it on itself. -/
theorem Conserves.cons {o : Outcome α} (h : Conserves out before d o) (answer : Except Fault β)
    (kind : s'.kind = s.kind) (name : s'.name = s.name) (follows : o.desk.Follows d')
    (perm : (out' ++ s'.places d.rules.length ++ d'.stored).Perm
      (s.places d.rules.length ++ out ++ o.desk.stored)) :
    Conserves out' (s :: before) d ⟨answer, s' :: o.line, d'⟩ := by
  have length := follows.length_eq.trans h.follows.length_eq
  have stored := h.follows.stored.trans follows.stored
  have whole : (out' ++ places (s' :: o.line) d' ++ d'.stored).Perm
      (places (s :: before) d ++ d.stored) := by
    rw [List.perm_iff_count] at perm ⊢
    intro i
    have here := perm i
    have there := h.perm.count_eq i
    rw [← places_congr o.line follows.length_eq] at there
    simp only [places_cons, length, List.count_append] at here there ⊢
    omega
  refine ⟨by simpa [plan, kind, name] using h.plan_eq, h.follows.trans follows, whole, ?_⟩
  rintro (_ | k) none_
  · rw [List.drop_zero] at none_ ⊢
    rw [none_] at whole
    exact (eq_nil_of_perm whole stored).2
  · rw [List.drop_succ_cons] at none_ ⊢
    rw [places_congr _ follows.length_eq]
    exact h.dry k none_

/-- A stage that is not asked keeps what it has. -/
theorem Conserves.behind {o : Outcome α} (h : Conserves out before d o) (s : Stage)
    (answer : Except Fault β) : Conserves out (s :: before) d ⟨answer, s :: o.line, o.desk⟩ :=
  h.cons answer rfl rfl (.refl _) (List.perm_append_comm.append_right _)

theorem Conserves.rearranged {answer : Except Fault α} {queue : List Nat}
    (h : Conserves out line d ⟨answer, s :: before, d'⟩) (perm : queue.Perm s.queue)
    (answer' : Except Fault β) :
    Conserves out line d ⟨answer', { s with queue } :: before, d'⟩ := by
  have same : (places ({ s with queue } :: before) d').Perm (places (s :: before) d') :=
    (perm.append_right _).append_right _
  refine ⟨h.plan_eq, h.follows, (((same.append_left out).append_right _).trans h.perm), ?_⟩
  rintro (_ | k) none_
  · have dry := h.dry 0 none_
    rw [List.drop_zero] at dry ⊢
    rw [dry] at same
    exact same.eq_nil
  · exact h.dry (k + 1) none_

/-! ### The functions of a chain, from the innermost on -/

theorem conserves_takeAll (conserving : Conserving source) (fuel : Nat) (line : List Stage)
    (d : Desk) :
    Conserves (takeAll source fuel line d).1 line d (takeAll source fuel line d).2 := by
  induction fuel generalizing line d with
  | zero => exact .refl _
  | succ fuel ih =>
      have asked := conserving line d
      unfold takeAll
      split <;> rename_i h <;> rw [h] at asked
      · exact asked.answering_same _
      · exact asked.answering_same _
      · exact asked.trans (ih _ _)

theorem conserves_gather (conserving : Conserving source) (other : s.kind ≠ .begin)
    (before : List Stage) (d : Desk) :
    Conserves [] (s :: before) d (gather source s before d) := by
  have kept {o : Outcome Unit} {taken : List Nat} (taking : Conserves taken before d o)
      (answer : Except Fault Bool) (spent : Bool) :
      Conserves [] (s :: before) d
        ⟨answer, { s with queue := s.queue ++ taken, spent } :: o.line, o.desk⟩ := by
    refine taking.cons _ rfl rfl (.refl _) ?_
    simp [Stage.places, other]
  unfold gather
  split
  · exact .refl _
  split
  · exact .refl _
  have taking := conserves_takeAll conserving (supply before d + 1) before d
  split <;> rename_i h <;> rw [h] at taking
  · exact kept taking _ _
  · exact kept taking _ _

theorem conserves_pull (conserving : Conserving source) (before : List Stage) (d : Desk) :
    Conserves (handed (pull source before d).answer) before d (pull source before d) := by
  unfold pull
  split
  · exact .refl _
  · exact conserving before d

theorem conserves_step (conserving : Conserving source) (line : List Stage) (d : Desk) :
    Conserves [] line d (step source line d) := by
  cases line with
  | nil => exact .refl _
  | cons s before =>
      have pulled := conserves_pull conserving before d
      have gathered (other : s.kind ≠ .begin) := conserves_gather conserving other before d
      cases kind : s.kind <;> simp only [step, kind]
      case begin =>
        split
        · exact .refl _
        · rename_i fresh
          refine (Conserves.refl (.ok ())).cons _ kind.symm rfl (.refl _) ?_
          simp [Stage.places, kind, fresh]
      case silence =>
        split <;> rename_i h <;> rw [h] at pulled
        · exact pulled.behind s _
        · exact pulled.behind s _
        · refine pulled.cons _ kind.symm rfl (.silence _ _) ?_
          rw [Desk.silence_eq]
          simp [Stage.places, kind]
      case store =>
        split <;> rename_i h <;> rw [h] at pulled
        · exact pulled.behind s _
        · exact pulled.behind s _
        · refine pulled.cons _ rfl rfl (.store _ _) ?_
          rw [List.nil_append, List.append_assoc]
          exact List.perm_append_comm.append_left _
      case check =>
        have gathered := gathered (by simp [kind])
        split
        · rename_i h
          rw [h] at gathered
          split <;> exact gathered.answering _ _
        · exact gathered
      case sort =>
        have gathered := gathered (by simp [kind])
        split
        · rename_i h
          rw [h] at gathered
          exact gathered.rearranged (List.mergeSort_perm _ _) _
        · exact gathered
      case debug =>
        have gathered := gathered (by simp [kind])
        split
        · exact .refl _
        split
        · rename_i h
          rw [h] at gathered
          split
          · exact gathered.answering_same _
          · split
            · split <;> exact gathered.answering _ _
            · exact gathered.answering_same _
        · exact gathered
      case bare => exact .refl _

theorem conserves_handOn (line : List Stage) (d : Desk) :
    Conserves (handed (handOn line d).answer) line d (handOn line d) := by
  unfold handOn
  split
  · split
    · rename_i h
      refine (Conserves.refl (.ok ())).cons _ rfl rfl (.refl _) ?_
      simp [Stage.places, h]
    · exact .refl _
  · exact .refl _

theorem conserves_work (conserving : Conserving source) (fuel : Nat) (line : List Stage)
    (d : Desk) : Conserves [] line d (work source fuel line d) := by
  induction fuel generalizing line d with
  | zero => exact .refl _
  | succ fuel ih =>
      have stepped := conserves_step conserving line d
      unfold work
      split <;> rename_i h <;> rw [h] at stepped
      · exact stepped.answering_same _
      · exact stepped.answering_same _
      · split
        · exact stepped.trans (ih _ _)
        · exact stepped.answering_same _

/-- A line of any length loses no rule and hands on none twice. -/
theorem conserving_next (depth : Nat) : Conserving (next depth) := by
  induction depth with
  | zero => exact fun _ _ => .refl _
  | succ depth ih =>
      intro line d
      have first := conserves_handOn line d
      unfold next
      split
      · rename_i line₁ d₁ h
        rw [h] at first
        have worked := first.trans (conserves_work ih (supply line₁ d₁ + 1) line₁ d₁)
        split <;> rename_i h <;> rw [h] at worked
        · exact worked.answering_same _
        · exact worked.trans (conserves_handOn _ _)
      · exact first

end

end Chain
end Firewall

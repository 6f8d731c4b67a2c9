import Firewall.Proofs.Treatment

/-!
Lines that run dry. A line which leads back to the stage where a chain begins is only at a loss for
an answer where a number is too long to be written; and where it answers that there are no more
rules, none waits at any of its stages.
-/

namespace Firewall.Chain

/-- A line, the last stage first, that leads back to the stage where the chain begins. What a stage
has taken at once is no longer at the stages before it. -/
inductive Sound (d : Desk) : List Stage → Prop
  | begin {s : Stage} (kind : s.kind = .begin) : Sound d [s]
  | behind {s : Stage} {before : List Stage} (kind : s.kind ∈ relays) (sound : Sound d before)
      (dry : s.spent = true → places before d = []) : Sound d (s :: before)

/-- No rule states a purpose that is not known. -/
def Known (d : Desk) : Prop := ∀ i text, (d.rule i).tag ≠ .unknown text

def Desk.Showable (d : Desk) : Prop := ∀ i, (d.rule i).Showable

/-- What stops a line in which rules wait: not all of them can be shown. -/
structure Stopped (line : List Stage) (d : Desk) (fault : Fault) : Prop where
  fault_eq : fault = .stopped .longNumber
  long : ¬ d.Showable
  waiting : places line d ≠ []

/-- A sound line and its desk, and what has become of them: the line is sound still, and it has run
dry if it has `ended`. -/
structure Drains {α : Type} (ended : Outcome α → Prop) (line : List Stage) (d : Desk)
    (o : Outcome α) : Prop where
  sound : Sound o.desk o.line
  dry : ended o → places o.line o.desk = []
  stopped : ∀ fault, o.answer = .error fault → Stopped line d fault

/-- A source that keeps every line sound, and answers that there are no more rules only when the
line has run dry. -/
def Draining (depth : Nat) (source : Source) : Prop :=
  ∀ line d, Sound d line → Known d → line.length ≤ depth →
    Drains (·.answer = .ok none) line d (source line d)

section

variable {line before : List Stage} {d d' : Desk} {s s' : Stage} {source : Source} {depth : Nat}

theorem known_of_rules (known : ∀ rule ∈ d.rules, ∀ text, rule.tag ≠ .unknown text) : Known d := by
  intro i text
  unfold Desk.rule
  rw [List.getD_eq_getElem?_getD]
  cases found : d.rules[i]? with
  | none => exact Tag.noConfusion
  | some rule => exact known rule (List.mem_of_getElem? found) text

theorem Known.follows (known : Known d) (h : d.Follows d') : Known d' := by
  intro i text
  rcases h.rule_eq i with same | ⟨-, silent⟩
  · rw [same]
    exact known i text
  · rw [silent, Rule.silenced_tag]
    exact known i text

theorem Desk.showable_iff : d.Showable ↔ ∀ rule ∈ d.rules, rule.Showable := by
  have blank_ : blank.Showable :=
    ⟨Text.short_of_bounds (by decide) (by decide), Text.short_of_bounds (by decide) (by decide),
      List.forall_mem_nil _⟩
  constructor
  · intro all rule hr
    obtain ⟨i, found⟩ := List.mem_iff_getElem?.mp hr
    simpa [Desk.rule, found] using all i
  · intro all i
    unfold Desk.rule
    rw [List.getD_eq_getElem?_getD]
    cases found : d.rules[i]? with
    | none => exact blank_
    | some rule => exact all rule (List.mem_of_getElem? found)

theorem Desk.Showable.follows (showable : d.Showable) (h : d.Follows d') : d'.Showable := by
  intro i
  rcases h.rule_eq i with same | ⟨-, silent⟩
  · rw [same]
    exact showable i
  · rw [silent, Rule.showable_silenced_iff]
    exact showable i

theorem Stopped.earlier {α : Type} {out : List Nat} {o : Outcome α} {fault : Fault}
    (h : Stopped o.line o.desk fault) (kept : Conserves out line d o) : Stopped line d fault :=
  ⟨h.fault_eq, fun all => h.long (all.follows kept.follows), fun none_ =>
    h.waiting (kept.dry 0 none_)⟩

theorem Stopped.cons {fault : Fault} (h : Stopped before d fault) (s : Stage) :
    Stopped (s :: before) d fault :=
  ⟨h.fault_eq, h.long, fun none_ => h.waiting (List.append_eq_nil_iff.mp none_).2⟩

/-- A check of known rules is stopped where not all of them can be shown. -/
theorem Known.stopped_of_check (known : Known d) {is : List Nat} {diagnostics : Diagnostics}
    {stop : Numbering.Stop}
    (found : (Numbering.check diagnostics (is.map d.rule)).2 = some stop) :
    stop = .longNumber ∧ ¬ d.Showable := by
  refine ⟨Numbering.checkFrom_eq_some (List.forall_mem_map.mpr fun i _ => known i) found, ?_⟩
  intro all
  have through := (Numbering.checkFrom_eq_none_iff [] diagnostics (is.map d.rule)).mpr
    (List.forall_mem_map.mpr fun i _ => ⟨known i, (all i).checkable⟩)
  cases found.symm.trans through

theorem stopped_of_display {is : List Nat} {stage : String} {stop : Numbering.Stop}
    (found : (Numbering.display stage (is.map d.rule) d.diagnostics).2 = some stop) :
    stop = .longNumber ∧ ¬ d.Showable := by
  refine ⟨Numbering.display_eq_some found, fun all => ?_⟩
  cases found.symm.trans (Desk.display_snd_eq_none_iff.mpr fun i _ => all i)

theorem Sound.ne_nil (h : Sound d line) : line ≠ [] := by cases h <;> simp

theorem Sound.before_ne_nil (h : Sound d (s :: before)) (other : s.kind ≠ .begin) :
    before ≠ [] := by
  cases h with
  | begin kind => exact absurd kind other
  | behind _ sound _ => exact sound.ne_nil

theorem Sound.of_cons (h : Sound d (s :: before)) (some_ : before ≠ []) :
    s.kind ∈ relays ∧ Sound d before ∧ (s.spent = true → places before d = []) := by
  cases h with
  | begin => exact absurd rfl some_
  | behind kind sound dry => exact ⟨kind, sound, dry⟩

theorem Sound.congr (h : Sound d line) (length : d'.rules.length = d.rules.length) :
    Sound d' line := by
  induction h with
  | begin kind => exact .begin kind
  | behind kind _ dry ih =>
      refine .behind kind ih fun spent => ?_
      rw [places_congr _ length]
      exact dry spent

theorem Sound.requeue (h : Sound d (s :: before)) (queue : List Nat) :
    Sound d ({ s with queue } :: before) := by
  cases h with
  | begin kind => exact .begin kind
  | behind kind sound dry => exact .behind kind sound dry

/-! ### The functions of a chain, from the innermost on -/

theorem takeAll_drains (draining : Draining depth source) (conserving : Conserving source)
    {fuel : Nat} (sound : Sound d line) (known : Known d) (short : line.length ≤ depth)
    (enough : supply line d < fuel) :
    Drains (·.answer = .ok ()) line d (takeAll source fuel line d).2 := by
  induction fuel generalizing line d with
  | zero => omega
  | succ fuel ih =>
      have asked := draining line d sound known short
      have kept := conserving line d
      rw [takeAll]
      generalize source line d = o at asked kept
      rcases o with ⟨fault | _ | i, line₁, d₁⟩
      · exact ⟨asked.sound, (fun ended => by cases ended),
          fun _ same => asked.stopped _ (by cases same; rfl)⟩
      · exact ⟨asked.sound, fun _ => asked.dry rfl, fun _ same => by cases same⟩
      · have length : line₁.length = line.length := kept.length_eq
        have less := kept.supply_le
        simp only [handed_some, List.length_singleton] at less
        have rest : Drains (·.answer = .ok ()) line₁ d₁ (takeAll source fuel line₁ d₁).2 :=
          ih asked.sound (known.follows kept.follows) (by omega) (by omega)
        exact ⟨rest.sound, rest.dry, fun fault same => (rest.stopped fault same).earlier kept⟩

/-- What becomes of a stage that takes all rules at once: it has all that the stages before it had,
or it is stopped. -/
inductive Gathers (s : Stage) (before : List Stage) (d : Desk) : Outcome Bool → Prop
  | taken (s' : Stage) {before' : List Stage} {d' : Desk} (kind : s'.kind = s.kind)
      (sound : Sound d' (s' :: before')) (dry : places before' d' = []) :
      Gathers s before d ⟨.ok !s'.queue.isEmpty, s' :: before', d'⟩
  | stopped {fault : Fault} {line : List Stage} {d' : Desk} (sound : Sound d' line)
      (stopped : Stopped (s :: before) d fault) : Gathers s before d ⟨.error fault, line, d'⟩

theorem gathers (draining : Draining depth source) (conserving : Conserving source)
    (sound : Sound d (s :: before)) (other : s.kind ≠ .begin) (known : Known d)
    (short : before.length ≤ depth) (empty : s.queue = []) :
    Gathers s before d (gather source s before d) := by
  cases sound with
  | begin kind => exact absurd kind other
  | behind kind sound dry =>
      cases spent : s.spent with
      | true =>
          have same : gather source s before d = ⟨.ok !s.queue.isEmpty, s :: before, d⟩ := by
            simp [gather, spent, empty]
          rw [same]
          exact .taken s rfl (.behind kind sound dry) (dry spent)
      | false =>
          have taking := takeAll_drains draining conserving sound known short (Nat.lt_succ_self _)
          rw [gather, spent, if_neg Bool.false_ne_true, if_neg (by simpa using sound.ne_nil)]
          generalize takeAll source (supply before d + 1) before d = o at taking
          rcases o with ⟨taken, fault | ⟨⟩, before', d'⟩
          · exact .stopped (.behind kind taking.sound (by simp))
              ((taking.stopped _ rfl).cons s)
          · exact .taken { s with queue := s.queue ++ taken, spent := true } rfl
              (.behind kind taking.sound fun _ => taking.dry rfl) (taking.dry rfl)

theorem places_eq_nil (other : s.kind ≠ .begin) (empty : s.queue = [])
    (dry : places before d = []) : places (s :: before) d = [] := by
  simp [places_cons, Stage.places, other, empty, dry]

theorem places_ne_nil (waiting : s.queue ≠ []) : places (s :: before) d ≠ [] := by
  simp [places_cons, Stage.places, waiting]

/-- What a step comes to at a stage in which nothing waits: the line has run dry, or a rule waits in
the stage, or the stage has stored a rule that is no longer in the line, or it is stopped. -/
inductive Advances (line₀ : List Stage) (d₀ : Desk) : Outcome Bool → Prop
  | dry {line : List Stage} {d : Desk} (sound : Sound d line) (dry : places line d = []) :
      Advances line₀ d₀ ⟨.ok false, line, d⟩
  | waiting {s : Stage} {before : List Stage} {d : Desk} (sound : Sound d (s :: before))
      (waiting : s.queue ≠ []) : Advances line₀ d₀ ⟨.ok true, s :: before, d⟩
  | stored {s : Stage} {before : List Stage} {d : Desk} (sound : Sound d (s :: before))
      (kind : s.kind = .store) (empty : s.queue = [])
      (less : supply (s :: before) d < supply line₀ d₀) :
      Advances line₀ d₀ ⟨.ok true, s :: before, d⟩
  | stopped {fault : Fault} {line : List Stage} {d : Desk} (sound : Sound d line)
      (stopped : Stopped line₀ d₀ fault) : Advances line₀ d₀ ⟨.error fault, line, d⟩

theorem advances_begin (kind : s.kind = .begin) (empty : s.queue = []) :
    Advances [s] d (step source [s] d) := by
  simp only [step, kind]
  cases spent : s.spent with
  | true => exact .dry (.begin kind) (by simp [places, Stage.places, spent, empty])
  | false =>
      rw [if_neg Bool.false_ne_true]
      cases queue : s.queue ++ List.range d.rules.length with
      | nil => exact .dry (.begin rfl) (by simp [places, Stage.places])
      | cons => exact .waiting (.begin rfl) (by simp)

/-- A stage that takes one rule at a time. -/
theorem advances_of_pull (draining : Draining depth source) (conserving : Conserving source)
    (sound : Sound d (s :: before)) (known : Known d) (short : before.length ≤ depth)
    (empty : s.queue = []) (pulls : s.kind = .silence ∨ s.kind = .store) :
    Advances (s :: before) d (step source (s :: before) d) := by
  cases sound with
  | begin kind => rcases pulls with other | other <;> rw [kind] at other <;> cases other
  | behind kind sound dry =>
      have asked := draining before d sound known short
      have kept := conserving before d
      have pulled : pull source before d = source before d := by simp [pull, sound.ne_nil]
      have other : s.kind ≠ .begin := by rcases pulls with h | h <;> simp [h]
      generalize source before d = o at asked kept pulled
      have still : Sound o.desk (s :: o.line) := .behind kind asked.sound (kept.dry 0 ∘ dry)
      rcases o with ⟨fault | _ | i, before', d'⟩
      · have stops := (asked.stopped _ rfl).cons s
        rcases pulls with h | h <;> simp only [step, h, pulled] <;> exact .stopped still stops
      · have stays := places_eq_nil other empty (asked.dry rfl)
        rcases pulls with h | h <;> simp only [step, h, pulled] <;> exact .dry still stays
      · rcases pulls with h | h <;> simp only [step, h, pulled]
        · exact .waiting (Sound.congr (.behind (by simp [relays]) asked.sound (kept.dry 0 ∘ dry))
            (Desk.silence_rules _ _)) (by simp)
        · refine .stored (still.congr rfl) h empty ?_
          have less : 1 + supply before' d' ≤ supply before d := kept.supply_le
          have same : d'.rules.length = d.rules.length := kept.follows.length_eq
          have later : supply before' { d' with stored := d'.stored ++ [i] } =
              supply before' d' := supply_congr before' rfl
          rw [supply_cons, supply_cons, later, same]
          omega

/-- A stage that takes all rules at once. -/
theorem advances_of_gather (draining : Draining depth source) (conserving : Conserving source)
    (sound : Sound d (s :: before)) (known : Known d) (short : before.length ≤ depth)
    (empty : s.queue = []) (takesAll : s.kind ∈ [.check, .sort, .debug]) :
    Advances (s :: before) d (step source (s :: before) d) := by
  have other : s.kind ≠ .begin := by
    rintro kind
    simp [kind] at takesAll
  have taking := gathers draining conserving sound other known short empty
  have kept := conserves_gather conserving other before d
  have some_ : before.isEmpty = false := by simpa using sound.before_ne_nil other
  simp only [List.mem_cons, List.not_mem_nil, or_false] at takesAll
  generalize took : gather source s before d = o at taking kept
  cases taking with
  | stopped sound' stops =>
      rcases takesAll with h | h | h <;> simp only [step, h, took, some_] <;>
        exact .stopped sound' stops
  | @taken s' before' d' kind sound' dry =>
      have known' := known.follows kept.follows
      cases queue : s'.queue with
      | nil =>
          have stays : places (s' :: before') d' = [] := places_eq_nil (kind ▸ other) queue dry
          rw [queue, List.isEmpty_nil, Bool.not_true] at took
          rcases takesAll with h | h | h <;> simp only [step, h, took]
          · exact .dry sound' stays
          · exact .dry sound' stays
          · rw [some_, queue]
            exact .dry sound' stays
      | cons i rest =>
          have waiting : s'.queue ≠ [] := by simp [queue]
          have stops (fault : Fault) (long : fault = .stopped .longNumber ∧ ¬ d'.Showable) :
              Stopped (s :: before) d fault :=
            Stopped.earlier ⟨long.1, long.2, places_ne_nil waiting⟩ kept
          rw [queue, List.isEmpty_cons, Bool.not_false] at took
          rcases takesAll with h | h | h <;> simp only [step, h, took]
          · cases checked : Numbering.check d'.diagnostics (s'.queue.map d'.rule) with
            | mk diagnostics stop =>
                cases stop with
                | none => exact .waiting (sound'.congr rfl) waiting
                | some stop =>
                    obtain ⟨rfl, long⟩ := known'.stopped_of_check (congrArg Prod.snd checked)
                    exact .stopped (sound'.congr rfl) (stops _ ⟨rfl, long⟩)
          · refine .waiting (sound'.requeue _) fun none_ => ?_
            have none_ : s'.queue.length = 0 := by simpa using congrArg List.length none_
            exact waiting (List.eq_nil_of_length_eq_zero none_)
          · rw [some_, List.isEmpty_eq_false_iff.mpr waiting]
            cases d'.debugging with
            | false => exact .waiting sound' waiting
            | true =>
                simp only [if_true, Bool.false_eq_true, if_false]
                generalize (before'.head?.map (·.name)).getD "" = stage
                cases shown : Numbering.display stage (s'.queue.map d'.rule) d'.diagnostics with
                | mk diagnostics stop =>
                    cases stop with
                    | none => exact .waiting (sound'.congr rfl) waiting
                    | some stop =>
                        obtain ⟨rfl, long⟩ := stopped_of_display (congrArg Prod.snd shown)
                        exact .stopped (sound'.congr rfl) (stops _ ⟨rfl, long⟩)

theorem advances_step (draining : Draining depth source) (conserving : Conserving source)
    (sound : Sound d (s :: before)) (known : Known d) (short : before.length ≤ depth)
    (empty : s.queue = []) : Advances (s :: before) d (step source (s :: before) d) := by
  cases sound with
  | begin kind => exact advances_begin kind empty
  | behind kind sound dry =>
      have whole : Sound d (s :: before) := .behind kind sound dry
      cases kind_eq : s.kind with
      | begin | bare => simp [kind_eq, relays] at kind
      | silence | store =>
          exact advances_of_pull draining conserving whole known short empty (by simp [kind_eq])
      | check | sort | debug =>
          exact advances_of_gather draining conserving whole known short empty (by simp [kind_eq])

theorem handOn_of_nil (queue : s.queue = []) :
    handOn (s :: before) d = ⟨.ok none, s :: before, d⟩ := by
  rw [handOn, queue]

theorem handOn_of_cons {i : Nat} {rest : List Nat} (queue : s.queue = i :: rest) :
    handOn (s :: before) d = ⟨.ok (some i), { s with queue := rest } :: before, d⟩ := by
  rw [handOn, queue]

/-- After a stage has worked a rule waits in it, or the line has run dry. -/
theorem work_drains (draining : Draining depth source) (conserving : Conserving source)
    {fuel : Nat} (sound : Sound d (s :: before)) (known : Known d) (short : before.length ≤ depth)
    (empty : s.queue = []) (enough : supply (s :: before) d < fuel) :
    Drains (fun o => o.answer = .ok () ∧ (handOn o.line o.desk).answer = .ok none) (s :: before) d
      (work source fuel (s :: before) d) := by
  induction fuel generalizing s before d with
  | zero => omega
  | succ fuel ih =>
      have kept := conserves_step conserving (s :: before) d
      have advances := advances_step draining conserving sound known short empty
      rw [work]
      generalize step source (s :: before) d = o at kept advances
      cases advances with
      | dry sound dry => exact ⟨sound, fun _ => dry, fun _ same => by cases same⟩
      | stopped sound stopped =>
          exact ⟨sound, (fun ended => by cases ended.1), fun _ same => by cases same; exact stopped⟩
      | @waiting s' before' d' sound waiting =>
          obtain ⟨i, rest, queue⟩ := List.exists_cons_of_ne_nil waiting
          refine ⟨?_, ?_, ?_⟩
          all_goals
            obtain ⟨kind, name, queue, spent⟩ := s'
            cases queue
          · cases kind <;> exact sound
          · cases kind <;> exact fun ended => by cases ended.2
          · cases kind <;> exact fun _ same => by cases same
      | @stored s' before' d' sound kind empty less =>
          have length : before'.length = before.length := Nat.succ.inj kept.length_eq
          obtain ⟨kind', name, queue, spent⟩ := s'
          cases kind
          cases empty
          have rest := ih sound (known.follows kept.follows) (by omega) rfl (by omega)
          exact ⟨rest.sound, rest.dry, fun fault same => (rest.stopped fault same).earlier kept⟩

/-- A line of any length that leads back to the stage where the chain begins runs dry before it
answers that there are no more rules. -/
theorem draining_next (depth : Nat) : Draining depth (next depth) := by
  induction depth with
  | zero =>
      intro line d sound _ short
      exact absurd (List.eq_nil_of_length_eq_zero (by omega)) sound.ne_nil
  | succ depth ih =>
      intro line d sound known short
      obtain ⟨s, before, rfl⟩ := List.exists_cons_of_ne_nil sound.ne_nil
      cases queue : s.queue with
      | cons i rest =>
          rw [next, handOn_of_cons queue]
          exact ⟨sound.requeue rest, (fun ended => by cases ended), fun _ same => by cases same⟩
      | nil =>
          have worked := work_drains ih (conserving_next depth) sound known (by simpa using short)
            queue (Nat.lt_succ_self _)
          rw [next, handOn_of_nil queue]
          dsimp only
          generalize work (next depth) (supply (s :: before) d + 1) (s :: before) d = o at worked
          rcases o with ⟨fault | _, line', d'⟩
          · exact ⟨worked.sound, (fun ended => by cases ended),
              fun _ same => worked.stopped _ (by cases same; rfl)⟩
          · obtain ⟨s', before', rfl⟩ := List.exists_cons_of_ne_nil worked.sound.ne_nil
            dsimp only
            cases queue' : s'.queue with
            | nil =>
                have handed : handOn (s' :: before') d' = ⟨.ok none, s' :: before', d'⟩ :=
                  handOn_of_nil queue'
                rw [handed]
                exact ⟨worked.sound, fun _ => worked.dry ⟨rfl, congrArg _ handed⟩,
                  fun _ same => by cases same⟩
            | cons i rest =>
                rw [handOn_of_cons queue']
                refine ⟨worked.sound.requeue rest, fun ended => ?_, fun _ same => ?_⟩
                · cases ended
                · cases same

end

end Firewall.Chain

import Firewall.Proofs.Questioning

/-!
Chains that come to an end. A chain whose last stage stores the rules, or takes them, is at its end
after one step for each rule and one more. A stage that shows the program has something to do as
long as a rule waits in it: at the end of a chain it goes on for ever, unless no rule comes to it or
a number is too long to be written.
-/

namespace Firewall.Chain

variable {line before : List Stage} {d d' : Desk} {s s' : Stage} {source : Source}
  {depth n m fuel fuel' : Nat} {use : Desk → Nat → Desk}

/-! ### Loops within a chain

The loops that ask other stages are bounded by the number of rules that a line can still hand on.
-/

theorem takeAll_of_enough (conserving : Conserving source) (enough : supply line d < fuel)
    (enough' : supply line d < fuel') :
    takeAll source fuel line d = takeAll source fuel' line d := by
  induction fuel generalizing fuel' line d with
  | zero => omega
  | succ fuel ih =>
      cases fuel' with
      | zero => omega
      | succ fuel' =>
          have kept := conserving line d
          rw [takeAll, takeAll]
          rcases asked : source line d with ⟨fault | _ | i, line₁, d₁⟩
          · rfl
          · rfl
          · rw [asked] at kept
            have less : 1 + supply line₁ d₁ ≤ supply line d := kept.supply_le
            have rest : takeAll source fuel line₁ d₁ = takeAll source fuel' line₁ d₁ :=
              ih (by omega) (by omega)
            simp only [rest]

/-- A storing stage that found a rule has one less before it. -/
theorem supply_lt_of_step (conserving : Conserving source) (kind : s.kind = .store)
    {line' : List Stage} (stepped : step source (s :: before) d = ⟨.ok true, line', d'⟩) :
    supply line' d' < supply (s :: before) d := by
  have kept := conserves_pull conserving before d
  simp only [step, kind] at stepped
  rcases pulled : pull source before d with ⟨fault | _ | i, before', d₁⟩
  all_goals rw [pulled] at stepped kept
  · cases stepped
  · cases stepped
  · cases stepped
    have less : 1 + supply before' d₁ ≤ supply before d := kept.supply_le
    have length : d₁.rules.length = d.rules.length := kept.follows.length_eq
    have same : supply before' { d₁ with stored := d₁.stored ++ [i] } = supply before' d₁ :=
      supply_congr before' rfl
    rw [supply_cons, supply_cons, same, length]
    omega

theorem work_of_enough (conserving : Conserving source) (enough : supply line d < fuel)
    (enough' : supply line d < fuel') : work source fuel line d = work source fuel' line d := by
  induction fuel generalizing fuel' line d with
  | zero => omega
  | succ fuel ih =>
      cases fuel' with
      | zero => omega
      | succ fuel' =>
          have same := (conserves_step conserving line d).plan_eq
          rw [work, work]
          rcases stepped : step source line d with ⟨fault | _ | _, line₁, d₁⟩
          · rfl
          · rfl
          · rw [stepped] at same
            dsimp only
            split
            · rename_i before' _
              cases line with
              | nil => cases same
              | cons s before =>
                  have kind : s.kind = .store := (Prod.ext_iff.mp (List.cons.inj same).1).1.symm
                  have less := supply_lt_of_step conserving kind stepped
                  exact ih (by omega) (by omega)
            · rfl

/-! ### What a line that has not begun hands on -/

/-- The number of rules that come to the end of a line, the last stage first, of which no stage has
worked yet: those that its latest beginning has, and none behind a stage that stores them. -/
inductive Carries (n : Nat) : List Stage → Nat → Prop
  | begin {name : String} {before : List Stage} : Carries n ({ kind := .begin, name } :: before) n
  | store {name : String} {before : List Stage} {m : Nat} (carries : Carries n before m) :
      Carries n ({ kind := .store, name } :: before) 0
  | relay {kind : Kind} {name : String} {before : List Stage} {m : Nat}
      (relays : kind ∈ [.silence, .check, .sort, .debug]) (carries : Carries n before m) :
      Carries n ({ kind, name } :: before) m

theorem Carries.ne_nil (h : Carries n line m) : line ≠ [] := by cases h <;> simp

theorem Carries.le (h : Carries n line m) : m ≤ n := by
  induction h with
  | begin => exact Nat.le_refl _
  | store _ _ => exact Nat.zero_le _
  | relay _ _ ih => exact ih

theorem Carries.le_supply (h : Carries n line m) (total : d.rules.length = n) :
    m ≤ supply line d := by
  induction h with
  | begin =>
      rw [supply_cons]
      simp [Stage.places, total]
  | store _ _ => exact Nat.zero_le _
  | relay _ _ ih =>
      rw [supply_cons]
      omega

theorem follows_foldl (follows : ∀ (d : Desk) (i : Nat), d.Follows (use d i)) (is : List Nat)
    (d : Desk) : d.Follows (is.foldl use d) := by
  induction is generalizing d with
  | nil => exact .refl d
  | cons i is ih => exact (follows d i).trans (ih (use d i))

/-- A storing stage works until nothing comes to it any more. -/
theorem work_of_yields {is : List Nat} (name : String) (behind : before ≠ [])
    (h : Yields depth (fun d i => { d with stored := d.stored ++ [i] }) is before d d')
    (enough : is.length < fuel) :
    ∃ before', work (next depth) fuel ({ kind := .store, name } :: before) d =
      ⟨.ok (), { kind := .store, name } :: before', d'⟩ := by
  induction h generalizing fuel with
  | @dry line line' d d' asked =>
      have stepped : step (next depth) ({ kind := .store, name } :: line) d =
          ⟨.ok false, { kind := .store, name } :: line', d'⟩ := by
        simp [step, pull, behind, asked]
      cases fuel with
      | zero => omega
      | succ fuel => exact ⟨line', by rw [work, stepped]⟩
  | @more i is line line' d d₁ d' asked rest ih =>
      have stepped : step (next depth) ({ kind := .store, name } :: line) d =
          ⟨.ok true, { kind := .store, name } :: line',
            { d₁ with stored := d₁.stored ++ [i] }⟩ := by
        simp [step, pull, behind, asked]
      have same := (conserving_next depth line d).plan_eq
      rw [asked] at same
      cases fuel with
      | zero => omega
      | succ fuel =>
          obtain ⟨last, worked⟩ :=
            ih (ne_nil_of_plan_eq same behind) (Nat.lt_of_succ_lt_succ enough)
          exact ⟨last, by rw [work, stepped]; exact worked⟩

theorem yields_store {is : List Nat} {name : String} (behind : before ≠ [])
    (h : Yields depth (fun d i => { d with stored := d.stored ++ [i] }) is before d d')
    (enough : is.length ≤ supply before d) :
    Yields (depth + 1) use [] ({ kind := .store, name } :: before) d d' := by
  have enough' : is.length < supply ({ kind := .store, name } :: before) d + 1 := by
    rw [supply_cons]
    omega
  obtain ⟨before', worked⟩ := work_of_yields name behind h enough'
  have asked : next (depth + 1) ({ kind := .store, name } :: before) d =
      ⟨.ok none, { kind := .store, name } :: before', d'⟩ := by
    rw [next, handOn_of_nil rfl]
    simp only [worked]
    exact handOn_of_nil rfl
  exact .dry asked

/-- What questions to a line come to: it hands on as many rules as it carries, or a number is too
long to be written. -/
inductive Meets (use : Desk → Nat → Desk) (line : List Stage) (d : Desk) (m : Nat) : Prop
  | yields {is : List Nat} {d' : Desk} (yields : Yields line.length use is line d d')
      (length : is.length = m) (follows : d.Follows d') : Meets use line d m
  | fails {d' : Desk} (fails : Fails (.stopped .longNumber) line d d') (long : ¬ d.Showable) :
      Meets use line d m

theorem Meets.of_fails (h : Fails (.stopped .longNumber) before d d') (long : ¬ d.Showable)
    (relay : s.kind ∈ relays) (fresh : s.spent = false) (empty : s.queue = []) (m : Nat) :
    Meets use (s :: before) d m :=
  .fails (h.cons relay fresh empty) long

theorem meets_check {is : List Nat} (name : String) (known : Known d) (behind : before ≠ [])
    (h : Yields before.length keep is before d d') (kept : d.Follows d')
    (follows : ∀ (d : Desk) (i : Nat), d.Follows (use d i)) :
    Meets use ({ kind := .check, name } :: before) d is.length := by
  cases checked : (Numbering.check d'.diagnostics (is.map d'.rule)).2 with
  | none =>
      exact .yields (opens_check behind h checked use) rfl
        ((kept.trans (.diagnostics _ _)).trans (follows_foldl follows is _))
  | some stop =>
      obtain ⟨rfl, long⟩ := (known.follows kept).stopped_of_check checked
      obtain ⟨before', -, stepped⟩ := exists_step_check_stopped name behind h checked
      exact .fails (fails_of_step rfl stepped) fun all => long (all.follows kept)

theorem meets_debug {is : List Nat} (name : String) (behind : before ≠ [])
    (h : Yields before.length keep is before d d') (kept : d.Follows d')
    (follows : ∀ (d : Desk) (i : Nat), d.Follows (use d i)) :
    Meets use ({ kind := .debug, name } :: before) d is.length := by
  obtain ⟨s, rest, rfl⟩ := List.exists_cons_of_ne_nil behind
  by_cases showable : d'.debugging = true → ∀ i ∈ is, (d'.rule i).Showable
  · exact .yields (opens_debug rfl h showable use) rfl
      ((kept.trans (.diagnostics _ _)).trans (follows_foldl follows is _))
  · push Not at showable
    obtain ⟨before', stepped⟩ := exists_step_debug_stopped name rfl h showable.1 showable.2
    obtain ⟨i, -, long⟩ := showable.2
    exact .fails (fails_of_step rfl stepped) fun all => long (all.follows kept i)

/-- Whatever is done with the rules that a line hands on, it hands on as many as it carries, unless
it is stopped at the first question. -/
theorem meets (use : Desk → Nat → Desk) (h : Carries n line m) (total : d.rules.length = n)
    (known : Known d) (follows : ∀ (d : Desk) (i : Nat), d.Follows (use d i)) :
    Meets use line d m := by
  have passes (d : Desk) (i : Nat) : d.Follows (keep d i) := .refl d
  induction h generalizing d use with
  | begin => exact .yields (opens_begin use) (by simp [total]) (follows_foldl follows _ d)
  | store carries ih =>
      rcases ih _ total known Desk.Follows.store with ⟨yields, length, kept⟩ | ⟨fails, long⟩
      · refine .yields (yields_store carries.ne_nil yields ?_) rfl kept
        rw [length]
        exact carries.le_supply total
      · exact .of_fails fails long (by simp [relays]) rfl rfl _
  | @relay kind name before m takes carries ih =>
      have behind := carries.ne_nil
      have relay : kind ∈ relays := by
        simp only [List.mem_cons, List.not_mem_nil, or_false, relays] at takes ⊢
        tauto
      by_cases silences : kind = .silence
      · subst silences
        rcases ih (fun d i => use (d.silence i) i) total known
          fun d i => (Desk.Follows.silence d i).trans (follows _ i) with
            ⟨yields, length, kept⟩ | ⟨fails, long⟩
        · exact .yields (yields_silence behind yields) length kept
        · exact .of_fails fails long relay rfl rfl _
      · rcases ih keep total known passes with ⟨yields, rfl, kept⟩ | ⟨fails, long⟩
        · simp only [List.mem_cons, List.not_mem_nil, or_false] at takes
          rcases takes with rfl | rfl | rfl | rfl
          · exact absurd rfl silences
          · exact meets_check name known behind yields kept follows
          · refine .yields (opens_sort behind yields use) ?_
              (kept.trans (follows_foldl follows _ _))
            rw [Desk.sorted, List.length_mergeSort]
          · exact meets_debug name behind yields kept follows
        · exact .of_fails fails long relay rfl rfl _

/-! ### The last stage -/

theorem drive_of_idle
    (stepped : step (next before.length) (s :: before) d = ⟨.ok false, line, d'⟩) :
    drive (fuel + 1) (s :: before) d = .ended (.ok ()) line d' := by
  rw [drive, List.length_cons, Nat.add_sub_cancel, stepped]

theorem drive_of_busy
    (stepped : step (next before.length) (s :: before) d = ⟨.ok true, line, d'⟩) :
    drive (fuel + 1) (s :: before) d = drive fuel line d' := by
  rw [drive, List.length_cons, Nat.add_sub_cancel, stepped]

theorem step_of_spent (spent : s.spent = true) (takesOnce : s.kind ∈ [.begin, .check, .sort]) :
    step source (s :: before) d = ⟨.ok false, s :: before, d⟩ := by
  simp only [List.mem_cons, List.not_mem_nil, or_false] at takesOnce
  rcases takesOnce with kind | kind | kind
  all_goals simp [step, gather, kind, spent]

/-- A run that comes to its end, without a fault or at a number that is too long to be written. -/
def Ends (fuel : Nat) (line : List Stage) (d : Desk) : Prop :=
  ∃ answer line' d', drive fuel line d = .ended answer line' d' ∧
    (answer = .ok () ∨ answer = .error (.stopped .longNumber) ∧ ¬ d.Showable)

theorem ends_of_ended (h : ∃ line' d', drive fuel line d = .ended (.ok ()) line' d') :
    Ends fuel line d := by
  obtain ⟨line', d', ended⟩ := h
  exact ⟨_, line', d', ended, .inl rfl⟩

theorem ends_of_fault
    (stepped : step (next before.length) (s :: before) d =
      ⟨.error (.stopped .longNumber), line, d'⟩)
    (long : ¬ d.Showable) (some_ : 0 < fuel) : Ends fuel (s :: before) d := by
  obtain ⟨fuel, rfl⟩ := Nat.exists_eq_succ_of_ne_zero (Nat.ne_of_gt some_)
  exact ⟨_, _, _, drive_of_fault stepped, .inr ⟨rfl, long⟩⟩

theorem ends_of_fails (fails : Fails (.stopped .longNumber) before d d') (long : ¬ d.Showable)
    (relay : s.kind ∈ relays) (fresh : s.spent = false) (some_ : 0 < fuel) :
    Ends fuel (s :: before) d := by
  obtain ⟨line, stepped⟩ := fails.exists_step relay fresh
  exact ends_of_fault stepped long some_

/-- A stage that takes all rules at once has nothing to do after that. -/
theorem ends_of_step {b : Bool}
    (stepped : step (next before.length) (s :: before) d = ⟨.ok b, s' :: line, d'⟩)
    (spent : s'.spent = true) (takesOnce : s'.kind ∈ [.begin, .check, .sort])
    (enough : b.toNat < fuel) : Ends fuel (s :: before) d := by
  obtain ⟨fuel, rfl⟩ := Nat.exists_eq_add_of_lt enough
  cases b with
  | false => exact ⟨_, _, _, drive_of_idle stepped, .inl rfl⟩
  | true =>
      refine ⟨_, s' :: line, d', (drive_of_busy stepped).trans ?_, .inl rfl⟩
      rw [Bool.toNat_true, Nat.add_comm 1 fuel]
      exact drive_of_idle (step_of_spent spent takesOnce)

/-- A stage that takes rules one at a time has something to do once for each of them. -/
theorem exists_ended_of_yields {is : List Nat} (kind : s.kind = .silence) (behind : before ≠ [])
    (long : before.length = depth)
    (h : Yields depth (fun d i => d.silence i) is before d d') (enough : is.length < fuel) :
    ∃ line' d'', drive fuel (s :: before) d = .ended (.ok ()) line' d'' := by
  induction h generalizing s fuel with
  | @dry line line' d d' asked =>
      have stepped : step (next line.length) (s :: line) d = ⟨.ok false, s :: line', d'⟩ := by
        simp [step, kind, pull, behind, long, asked]
      cases fuel with
      | zero => omega
      | succ fuel => exact ⟨_, _, drive_of_idle stepped⟩
  | @more i is line line' d d₁ d' asked rest ih =>
      have stepped : step (next line.length) (s :: line) d =
          ⟨.ok true, { s with queue := s.queue ++ [i] } :: line', d₁.silence i⟩ := by
        simp [step, kind, pull, behind, long, asked]
      have same := (conserving_next depth line d).plan_eq
      rw [asked] at same
      have long' : line'.length = depth := by
        rw [← long]
        simpa [plan] using congrArg List.length same
      cases fuel with
      | zero => omega
      | succ fuel =>
          rw [drive_of_busy stepped]
          exact ih kind (ne_nil_of_plan_eq same behind) long' (Nat.lt_of_succ_lt_succ enough)

/-- A stage in which rules wait to be shown always has something to do. -/
theorem exists_unfinished_of_waiting (kind : s.kind = .debug) (spent : s.spent = true)
    (waiting : s.queue ≠ []) (behind : before ≠ []) (fuel : Nat) (d : Desk)
    (showable : d.debugging = true → ∀ i ∈ s.queue, (d.rule i).Showable) :
    ∃ line d', drive fuel (s :: before) d = .unfinished line d' := by
  induction fuel generalizing d with
  | zero => exact ⟨_, _, rfl⟩
  | succ fuel ih =>
      obtain ⟨diagnostics, stepped⟩ : ∃ diagnostics, step (next before.length) (s :: before) d =
          ⟨.ok true, s :: before, { d with diagnostics }⟩ := by
        cases showing : d.debugging with
        | false =>
            refine ⟨d.diagnostics, ?_⟩
            simp [step, kind, gather, spent, waiting, behind, showing]
            rw [← showing]
        | true =>
            let stage := (before.head?.map (·.name)).getD ""
            have displayed : Numbering.display stage (s.queue.map d.rule) d.diagnostics =
                ((d.shown stage s.queue).diagnostics, none) :=
              Prod.ext (Desk.display_fst showing waiting stage)
                (Desk.display_snd_eq_none_iff.mpr (showable showing))
            refine ⟨(d.shown stage s.queue).diagnostics, ?_⟩
            simp [step, kind, gather, spent, waiting, behind, showing, displayed, stage]
      rw [drive_of_busy stepped]
      exact ih _ showable

theorem ends_of_carries (h : Carries n (s :: before) m) (total : d.rules.length = n)
    (known : Known d) (other : s.kind ≠ .debug) (enough : n < fuel) :
    Ends fuel (s :: before) d := by
  have some_ : 0 < fuel := Nat.zero_lt_of_lt enough
  have one {is : List Nat} (length : is.length < fuel) : (!is.isEmpty).toNat < fuel := by
    cases is with
    | nil => exact some_
    | cons => exact Nat.lt_of_le_of_lt (Nat.succ_le_succ (Nat.zero_le _)) length
  cases h with
  | begin =>
      exact ends_of_step step_begin rfl (by simp) (one (by rwa [List.length_range, total]))
  | store carries =>
      have few := carries.le
      rcases meets _ carries total known Desk.Follows.store with
        ⟨yields, length, -⟩ | ⟨fails, long⟩
      · have short := (length.trans_le few).trans_lt enough
        obtain ⟨line', driven⟩ := drive_of_yields carries.ne_nil rfl yields short
        exact ends_of_ended ⟨line', _, driven⟩
      · exact ends_of_fails fails long (by simp [relays]) rfl some_
  | relay takes carries =>
      have few := carries.le
      have behind := carries.ne_nil
      simp only [List.mem_cons, List.not_mem_nil, or_false] at takes
      rcases takes with rfl | rfl | rfl | rfl
      · rcases meets Desk.silence carries total known Desk.Follows.silence with
          ⟨yields, length, -⟩ | ⟨fails, long⟩
        · have short := (length.trans_le few).trans_lt enough
          exact ends_of_ended (exists_ended_of_yields rfl behind rfl yields short)
        · exact ends_of_fails fails long (by simp [relays]) rfl some_
      · rcases meets keep carries total known fun d _ => .refl d with
          ⟨yields, length, kept⟩ | ⟨fails, long⟩
        · cases checked : (Numbering.check _ (List.map _ _)).2 with
          | none =>
              obtain ⟨before', -, stepped⟩ := exists_step_check _ behind yields checked
              exact ends_of_step stepped rfl (by simp) (one (by omega))
          | some stop =>
              obtain ⟨rfl, long⟩ := (known.follows kept).stopped_of_check checked
              obtain ⟨before', -, stepped⟩ := exists_step_check_stopped _ behind yields checked
              exact ends_of_fault stepped (fun all => long (all.follows kept)) some_
        · exact ends_of_fails fails long (by simp [relays]) rfl some_
      · rcases meets keep carries total known fun d _ => .refl d with
          ⟨yields, length, -⟩ | ⟨fails, long⟩
        · obtain ⟨before', -, stepped⟩ := exists_step_sort _ behind yields
          exact ends_of_step stepped rfl (by simp) (one (by omega))
        · exact ends_of_fails fails long (by simp [relays]) rfl some_
      · exact absurd rfl other

/-- A stage that shows the program ends a chain if no rule comes to it, or one that cannot be shown,
and only then. -/
theorem drive_debug_of_carries (name : String) (h : Carries n before m)
    (total : d.rules.length = n) (known : Known d) :
    (∀ fuel, 0 < fuel → Ends fuel ({ kind := .debug, name } :: before) d) ∧
      (m = 0 ∨ ¬ d.Showable) ∨
    m ≠ 0 ∧ ∀ fuel, ∃ line' d',
      drive fuel ({ kind := .debug, name } :: before) d = .unfinished line' d' := by
  have behind := h.ne_nil
  rcases meets keep h total known fun d _ => .refl d with
    @⟨is, d', yields, rfl, kept⟩ | ⟨fails, long⟩
  · obtain ⟨s, rest, rfl⟩ := List.exists_cons_of_ne_nil behind
    by_cases showable : d'.debugging = true → ∀ i ∈ is, (d'.rule i).Showable
    · obtain ⟨before', same, stepped⟩ := exists_step_debug name rfl yields showable
      cases is with
      | nil =>
          refine .inl ⟨fun fuel some_ => ?_, .inl rfl⟩
          obtain ⟨fuel, rfl⟩ := Nat.exists_eq_succ_of_ne_zero (Nat.ne_of_gt some_)
          exact ⟨_, _, _, drive_of_idle stepped, .inl rfl⟩
      | cons i is =>
          refine .inr ⟨nofun, fun fuel => ?_⟩
          cases fuel with
          | zero => exact ⟨_, _, rfl⟩
          | succ fuel =>
              rw [drive_of_busy stepped]
              exact exists_unfinished_of_waiting rfl rfl (List.cons_ne_nil i is)
                (ne_nil_of_plan_eq same behind) fuel _ showable
    · push Not at showable
      obtain ⟨before', stepped⟩ := exists_step_debug_stopped name rfl yields showable.1 showable.2
      obtain ⟨i, -, long⟩ := showable.2
      have long : ¬ d.Showable := fun all => long (all.follows kept i)
      exact .inl ⟨fun fuel some_ => ends_of_fault stepped long some_, .inr long⟩
  · exact .inl ⟨fun fuel some_ => ends_of_fails fails long (by simp [relays]) rfl some_, .inr long⟩

/-- A line of which no stage has worked yet, with a stage right behind its latest beginning that
shows the rules. -/
inductive Shows : List Stage → Prop
  | begin {name name' : String} {before : List Stage} :
      Shows ({ kind := .debug, name } :: { kind := .begin, name := name' } :: before)
  | behind {kind : Kind} {name : String} {before : List Stage} (relay : kind ∈ relays)
      (shows : Shows before) : Shows ({ kind, name } :: before)

theorem Shows.ne_nil (h : Shows line) : line ≠ [] := by cases h <;> simp

/-- Rules that cannot be shown stop such a line at its first step. -/
theorem Shows.exists_step (h : Shows (s :: before)) (showing : d.debugging = true)
    (long : ¬ d.Showable) : ∃ line d', step (next before.length) (s :: before) d =
      ⟨.error (.stopped .longNumber), line, d'⟩ := by
  generalize line_eq : s :: before = line at h
  induction h generalizing s before with
  | @begin name name' rest =>
      obtain ⟨rfl, rfl⟩ := List.cons.inj line_eq
      rw [Desk.showable_iff] at long
      push Not at long
      obtain ⟨rule, hr, long⟩ := long
      rw [← (laid_start d).program_eq] at hr
      obtain ⟨i, hi, rfl⟩ := List.mem_map.mp hr
      have begun : Opens _ ({ kind := .begin, name := name' } :: rest) d d := opens_begin
      obtain ⟨before', stepped⟩ :=
        exists_step_debug_stopped name rfl begun.yields showing ⟨i, hi, long⟩
      exact ⟨_, _, stepped⟩
  | @behind kind name rest relay shows ih =>
      obtain ⟨rfl, rfl⟩ := List.cons.inj line_eq
      obtain ⟨s', before', rfl⟩ := List.exists_cons_of_ne_nil shows.ne_nil
      have empty : s'.queue = [] := by cases shows <;> rfl
      obtain ⟨line, d', stepped⟩ := ih rfl
      obtain ⟨line, stepped⟩ := (fails_of_step empty stepped).exists_step
        (s := { kind, name }) relay rfl
      exact ⟨line, d', stepped⟩

/-! ### Chains of all kinds -/

/-- Stages under names of their own. -/
def called (names : Nat → String) (stages : List Stage) : List Stage :=
  stages.mapIdx fun i s => { s with name := names i }

def Stage.unnamed (s : Stage) : Stage := { s with name := "" }

theorem map_unnamed_called (names : Nat → String) (stages : List Stage) :
    (called names stages).map Stage.unnamed = stages.map Stage.unnamed := by
  refine List.ext_getElem (by simp [called]) fun i _ _ => ?_
  simp [called, Stage.unnamed]

/-- Lines of stages that differ in their names only. -/
theorem exists_of_unnamed_cons {line' : List Stage}
    (same : line'.map Stage.unnamed = (s :: before).map Stage.unnamed) :
    ∃ name before', line' = { s with name } :: before' ∧
      before'.map Stage.unnamed = before.map Stage.unnamed := by
  obtain ⟨⟨kind, name, queue, spent⟩, before', rfl, here, rest⟩ := List.map_eq_cons_iff.mp same
  simp only [Stage.unnamed, Stage.mk.injEq] at here
  obtain ⟨rfl, -, rfl, rfl⟩ := here
  exact ⟨name, before', rfl, rest⟩

theorem Carries.congr {line' : List Stage} (h : Carries n line m)
    (same : line'.map Stage.unnamed = line.map Stage.unnamed) : Carries n line' m := by
  induction h generalizing line' with
  | begin =>
      obtain ⟨name, before', rfl, -⟩ := exists_of_unnamed_cons same
      exact .begin
  | store _ ih =>
      obtain ⟨name, before', rfl, rest⟩ := exists_of_unnamed_cons same
      exact .store (ih rest)
  | relay relays _ ih =>
      obtain ⟨name, before', rfl, rest⟩ := exists_of_unnamed_cons same
      exact .relay relays (ih rest)

theorem Shows.congr {line' : List Stage} (h : Shows line)
    (same : line'.map Stage.unnamed = line.map Stage.unnamed) : Shows line' := by
  induction h generalizing line' with
  | begin =>
      obtain ⟨name, before', rfl, rest⟩ := exists_of_unnamed_cons same
      obtain ⟨name', before'', rfl, -⟩ := exists_of_unnamed_cons rest
      exact .begin
  | behind relay _ ih =>
      obtain ⟨name, before', rfl, rest⟩ := exists_of_unnamed_cons same
      exact .behind relay (ih rest)

/-- The number of rules that come to the end of a chain, of the `n` it begins with. -/
def carried (n : Nat) (kinds : List Kind) : Nat :=
  if .store ∈ kinds.reverse.takeWhile (· ≠ .begin) then 0 else n

theorem reverse_assemble_concat (debugging : Bool) (kinds : List Kind) (kind : Kind) :
    (assemble debugging (kinds ++ [kind])).reverse =
      if debugging ∧ kind ≠ .store then
        { kind := .debug } :: { kind := kind } :: (assemble debugging kinds).reverse
      else { kind := kind } :: (assemble debugging kinds).reverse := by
  simp only [assemble, List.flatMap_append, List.reverse_append, List.flatMap_singleton]
  split <;> rfl

theorem carried_concat (n : Nat) (kinds : List Kind) (kind : Kind) :
    carried n (kinds ++ [kind]) =
      if kind = .begin then n else if kind = .store then 0 else carried n kinds := by
  rw [carried, List.reverse_append, List.reverse_singleton, List.singleton_append,
    List.takeWhile_cons]
  by_cases begins : kind = .begin
  · simp [begins]
  · by_cases stores : kind = .store
    · simp [stores]
    · simp [begins, stores, Ne.symm stores, carried]

theorem carries_assemble {kinds : List Kind} (packaged : ∀ kind ∈ kinds, kind ∈ standard)
    (begins : kinds.head? = some .begin) (debugging : Bool) (n : Nat) :
    Carries n (assemble debugging kinds).reverse (carried n kinds) := by
  induction kinds using List.reverseRecOn with
  | nil => cases begins
  | append_singleton kinds kind ih =>
      rw [List.forall_mem_append, List.forall_mem_singleton] at packaged
      have whole : Carries n ({ kind := kind } :: (assemble debugging kinds).reverse)
          (carried n (kinds ++ [kind])) := by
        by_cases first : kind = .begin
        · subst first
          rw [carried_concat, if_pos rfl]
          exact .begin
        · have some_ : kinds.head? = some .begin := by
            cases kinds with
            | nil => exact absurd (Option.some.inj begins) first
            | cons => exact begins
          have carries := ih packaged.1 some_
          rw [carried_concat, if_neg first]
          by_cases stores : kind = .store
          · subst stores
            rw [if_pos rfl]
            exact .store carries
          · rw [if_neg stores]
            refine .relay ?_ carries
            have known := packaged.2
            simp only [standard, List.mem_cons, List.not_mem_nil, or_false] at known ⊢
            tauto
      rw [reverse_assemble_concat]
      split
      · exact .relay (by simp) whole
      · exact whole

theorem shows_assemble {kinds : List Kind} (packaged : ∀ kind ∈ kinds, kind ∈ standard)
    (begins : kinds.head? = some .begin) : Shows (assemble true kinds).reverse := by
  induction kinds using List.reverseRecOn with
  | nil => cases begins
  | append_singleton kinds kind ih =>
      rw [List.forall_mem_append, List.forall_mem_singleton] at packaged
      rw [reverse_assemble_concat]
      by_cases first : kind = .begin
      · subst first
        exact .begin
      · have some_ : kinds.head? = some .begin := by
          cases kinds with
          | nil => exact absurd (Option.some.inj begins) first
          | cons => exact begins
        have relay : kind ∈ relays := by
          have known := packaged.2
          simp only [standard, relays, List.mem_cons, List.not_mem_nil, or_false] at known ⊢
          tauto
        have whole : Shows ({ kind := kind } :: (assemble true kinds).reverse) :=
          .behind relay (ih packaged.1 some_)
        split
        · exact .behind (by decide) whole
        · exact whole

theorem carried_eq_zero_iff {emitted : List Rule} {kinds : List Kind} :
    carried emitted.length kinds = 0 ↔
      emitted = [] ∨ .store ∈ kinds.reverse.takeWhile (· ≠ .begin) := by
  unfold carried
  split <;> simp_all

/-- The last stage of a chain shows the program, or nothing is shown there. -/
theorem exists_last {kinds : List Kind} (packaged : ∀ kind ∈ kinds, kind ∈ standard)
    (some_ : kinds ≠ []) (names : Nat → String) (debugging : Bool) :
    ∃ s before, (called names (assemble debugging kinds)).reverse = s :: before ∧
      (s.kind = .debug → debugging = true) ∧
      (s.kind ≠ .debug → debugging = false ∨ .store ∈ kinds.reverse.takeWhile (· ≠ .begin)) := by
  obtain ⟨front, last, rfl⟩ := List.eq_nil_or_concat' kinds |>.resolve_left some_
  have other : last ≠ .debug := by
    rintro rfl
    exact absurd (packaged .debug (by simp)) (by decide)
  have same : (called names (assemble debugging (front ++ [last]))).reverse.map Stage.unnamed =
      (assemble debugging (front ++ [last])).reverse.map Stage.unnamed := by
    rw [List.map_reverse, List.map_reverse, map_unnamed_called]
  rw [reverse_assemble_concat] at same
  split at same <;> rename_i shows
  · obtain ⟨s, before, line_eq, here, -⟩ := List.map_eq_cons_iff.mp same
    have kind : s.kind = .debug := congrArg (·.kind) here
    exact ⟨s, before, line_eq, fun _ => shows.1, fun unlike => absurd kind unlike⟩
  · obtain ⟨s, before, line_eq, here, -⟩ := List.map_eq_cons_iff.mp same
    have kind : s.kind = last := congrArg (·.kind) here
    refine ⟨s, before, line_eq, fun is => absurd (kind.symm.trans is) other, fun _ => ?_⟩
    cases debugging with
    | false => exact .inl rfl
    | true =>
        have stores : last = .store := by simpa using shows
        exact .inr (by simp [stores])

/-! ### Whole runs -/

/-- Nothing is shown behind the last stage, or nothing comes to it: no rule was emitted, or a stage
stores the rules behind the latest beginning. -/
def Settles (debugging : Bool) (emitted : List Rule) (kinds : List Kind) : Prop :=
  debugging = false ∨ emitted = [] ∨ .store ∈ kinds.reverse.takeWhile (· ≠ .begin)

instance (debugging : Bool) (emitted : List Rule) (kinds : List Kind) :
    Decidable (Settles debugging emitted kinds) :=
  inferInstanceAs (Decidable (_ ∨ _ ∨ _))

theorem run_cases {kinds : List Kind} (packaged : ∀ kind ∈ kinds, kind ∈ standard)
    (begins : kinds.head? = some .begin) (names : Nat → String) (debugging : Bool) {d : Desk}
    (known : Known d) :
    let line := (called names (assemble debugging kinds)).reverse
    (∀ fuel, d.rules.length < fuel → Ends fuel line d) ∧
      (Settles debugging d.rules kinds ∨ debugging = true ∧ ¬ d.Showable) ∨
    ¬ Settles debugging d.rules kinds ∧ ∀ fuel, ∃ line' d', drive fuel line d =
      .unfinished line' d' := by
  have some_ : kinds ≠ [] := by
    rintro rfl
    cases begins
  obtain ⟨s, before, line_eq, shows, stores⟩ := exists_last packaged some_ names debugging
  have carries : Carries d.rules.length (s :: before) (carried d.rules.length kinds) := by
    refine (carries_assemble packaged begins debugging d.rules.length).congr ?_
    rw [← line_eq, List.map_reverse, List.map_reverse, map_unnamed_called]
  simp only [line_eq]
  by_cases last : s.kind = .debug
  · obtain ⟨kind, name, queue, spent⟩ := s
    cases last
    cases carries with
    | relay _ carries =>
      rcases drive_debug_of_carries name carries rfl known with
        ⟨ends, none_ | long⟩ | ⟨some_, goesOn⟩
      · exact .inl ⟨fun fuel enough => ends fuel (Nat.zero_lt_of_lt enough),
          .inl (.inr (carried_eq_zero_iff.mp none_))⟩
      · exact .inl ⟨fun fuel enough => ends fuel (Nat.zero_lt_of_lt enough),
          .inr ⟨shows rfl, long⟩⟩
      · refine .inr ⟨?_, goesOn⟩
        rintro (quiet | none')
        · exact Bool.false_ne_true (quiet.symm.trans (shows rfl))
        · exact some_ (carried_eq_zero_iff.mpr none')
  · exact .inl ⟨fun fuel enough => ends_of_carries carries rfl known last enough,
      .inl ((stores last).imp_right .inr)⟩

/-- Rules that are shown from the beginning on end a run if one of them cannot be shown. -/
theorem ends_of_shows {kinds : List Kind} (packaged : ∀ kind ∈ kinds, kind ∈ standard)
    (begins : kinds.head? = some .begin) (names : Nat → String) {d : Desk}
    (showing : d.debugging = true) (long : ¬ d.Showable) :
    Ends 1 (called names (assemble true kinds)).reverse d := by
  have shows : Shows (called names (assemble true kinds)).reverse := by
    refine (shows_assemble packaged begins).congr ?_
    rw [List.map_reverse, List.map_reverse, map_unnamed_called]
  obtain ⟨s, before, line_eq⟩ := List.exists_cons_of_ne_nil shows.ne_nil
  rw [line_eq] at shows ⊢
  obtain ⟨line, d', stepped⟩ := shows.exists_step showing long
  exact ends_of_fault stepped long Nat.one_pos

/-- A chain of any stages, of which the first is one where it begins, comes to its end after a step
for each rule and one more, unless rules are shown behind its last stage: those it shows again and
again. Only a number that is too long to be written ends it before that, where the rules are shown,
or with a fault. The loops within a chain are never cut short by their bounds. -/
theorem run_ends_iff {kinds : List Kind} (packaged : ∀ kind ∈ kinds, kind ∈ standard)
    (begins : kinds.head? = some .begin) (names : Nat → String) (stealth debugging : Bool)
    {emitted : List Rule} (known : ∀ rule ∈ emitted, ∀ text, rule.tag ≠ .unknown text) :
    let stages := called names (assemble debugging kinds)
    let start : Desk := { rules := emitted, stealth, debugging }
    let long := ∃ rule ∈ emitted, ¬ rule.Showable
    ((∃ fuel answer line desk, run fuel stages start = .ended answer line desk) ↔
      Settles debugging emitted kinds ∨ debugging = true ∧ long) ∧
    ((∀ fuel, emitted.length < fuel → ∃ answer line desk,
        run fuel stages start = .ended answer line desk ∧
          (answer = .ok () ∨ answer = .error (.stopped .longNumber) ∧ long)) ∨
      ∀ fuel, ∃ line desk, run fuel stages start = .unfinished line desk) ∧
    ∀ depth line desk fuel, supply line desk < fuel →
      takeAll (next depth) fuel line desk =
        takeAll (next depth) (supply line desk + 1) line desk ∧
      work (next depth) fuel line desk = work (next depth) (supply line desk + 1) line desk := by
  intro stages start long
  have knows : Known start := known_of_rules known
  have long_iff : ¬ start.Showable ↔ long := by
    rw [Desk.showable_iff]
    push Not
    exact Iff.rfl
  rw [← and_assoc, ← long_iff]
  refine ⟨?_, fun depth line desk fuel enough =>
    ⟨takeAll_of_enough (conserving_next depth) enough (Nat.lt_succ_self _),
      work_of_enough (conserving_next depth) enough (Nat.lt_succ_self _)⟩⟩
  rcases run_cases packaged begins names debugging knows with
    ⟨ends, settles⟩ | ⟨unsettled, goesOn⟩
  · obtain ⟨answer, line, desk, ended, -⟩ := ends _ (Nat.lt_succ_self _)
    exact ⟨⟨fun _ => settles, fun _ => ⟨_, answer, line, desk, ended⟩⟩, .inl ends⟩
  · have never (fuel : Nat) {answer : Except Fault Unit} {line : List Stage} {desk : Desk}
        (ended : run fuel stages start = .ended answer line desk) : False := by
      obtain ⟨line', desk', unfinished⟩ := goesOn fuel
      cases ended.symm.trans unfinished
    refine ⟨⟨?_, ?_⟩, .inr goesOn⟩
    · rintro ⟨fuel, answer, line, desk, ended⟩
      exact (never fuel ended).elim
    · rintro (settles | ⟨rfl, long⟩)
      · exact absurd settles unsettled
      · obtain ⟨answer, line, desk, ended, -⟩ := ends_of_shows packaged begins names rfl long
        exact (never 1 ended).elim

/-- Rules that are stored on their way do not come to the end of a chain; those of a later beginning
do. -/
theorem run_ends_stored :
    let start : Desk := { rules := crossing, stealth := true, debugging := true }
    let names (_ : Nat) := "stage"
    (∃ line desk, run 3 (called names (assemble true [.begin, .silence, .store, .sort])) start =
      .ended (.ok ()) line desk) ∧
    ∀ fuel answer line desk,
      run fuel (called names (assemble true [.begin, .store, .begin, .sort])) start ≠
        .ended answer line desk := by
  intro start names
  have checked := (Numbering.checkFrom_eq_none_iff [] {} crossing).mp (by decide +kernel)
  have known := fun rule hr => (checked rule hr).1
  have showable : ¬ ∃ rule ∈ crossing, ¬ rule.Showable := by decide +kernel
  have packaged : ∀ kind ∈ [Kind.begin, .silence, .store, .sort], kind ∈ standard := by decide
  have packaged' : ∀ kind ∈ [Kind.begin, .store, .begin, .sort], kind ∈ standard := by decide
  obtain ⟨ends, course, -⟩ := run_ends_iff packaged rfl names true true known
  obtain ⟨never, -, -⟩ := run_ends_iff packaged' rfl names true true known
  refine ⟨?_, fun fuel answer line desk ended => ?_⟩
  · rcases course with ended | goesOn
    · obtain ⟨answer, line, desk, ended, rfl | ⟨-, long⟩⟩ := ended 3 (by decide)
      · exact ⟨line, desk, ended⟩
      · exact absurd long showable
    · obtain ⟨fuel, answer, line, desk, ended⟩ := ends.mpr (.inl (.inr (.inr (by decide))))
      obtain ⟨line', desk', unfinished⟩ := goesOn fuel
      cases ended.symm.trans unfinished
  · rcases never.mp ⟨fuel, answer, line, desk, ended⟩ with settles | ⟨-, long⟩
    · exact absurd settles (by decide)
    · exact showable long

/-- A chain of one stage that shows a single rule never comes to its end. -/
theorem not_run_ends_shown :
    ¬ ∃ fuel answer line desk, run fuel (assemble true [.begin])
      { rules := crossing.take 1, stealth := false, debugging := true } =
        .ended answer line desk := by
  rintro ⟨fuel, answer, line, desk, ended⟩
  let start : Desk := { rules := crossing.take 1, stealth := false, debugging := true }
  have packaged : ∀ kind ∈ [Kind.begin], kind ∈ standard := by decide
  have checked := (Numbering.checkFrom_eq_none_iff [] {} (crossing.take 1)).mp (by decide +kernel)
  have known : Known start := known_of_rules fun rule hr => (checked rule hr).1
  have showable : start.Showable := Desk.showable_iff.mpr (by decide +kernel)
  rcases run_cases packaged rfl (fun i => if i = 0 then "Begin" else "") true known with
    ⟨-, settles | ⟨-, long⟩⟩ | ⟨-, goesOn⟩
  · exact absurd settles (by decide)
  · exact absurd showable long
  · obtain ⟨line', desk', unfinished⟩ := goesOn fuel
    cases ended.symm.trans unfinished

end Firewall.Chain

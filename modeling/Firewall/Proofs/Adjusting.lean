import Firewall.Proofs.Recording
import Firewall.Proofs.Retuning

/-!
How adjustments of rates end. What can be refused without the filter is refused before a pipe is
configured; then both pipes are configured, the inbound one first. An adjustment by the schedule
looks at the inbound pipe alone: it may be repeated after it went through, but it does not mend an
outbound pipe that the filter refused.
-/

namespace Firewall

namespace Engine

/-- What is answered for a pipe whose rate comes to `rate`. -/
def reading : Option (Except ReadFault Nat) → Except EngineFault (Option Nat)
  | none => .ok none
  | some rate => (rate.map some).mapError .unread

theorem eq_of_reading {rate : Option (Except ReadFault Nat)} {bits : Nat}
    (h : reading rate = .ok (some bits)) : rate = some (.ok bits) := by
  rcases rate with _ | cause | found
  · cases h
  · cases h
  · cases h
    rfl

/-- An engine that keeps the rates of its pipes, whether or not it carries out every call: `rate`
reads what they come to. A call that is refused leaves all pipes as they are. -/
structure Retains {σ : Type} (e : Engine σ) (rate : σ → Int → Option (Except ReadFault Nat)) :
    Prop where
  configured : ∀ {p : Pipe} {s s' : σ}, e.perform (.configurePipe p) s = (.ok (), s') →
    rate s' = Function.update (rate s) p.id (some (Rate.toBits (p.bandwidth.getD Rate.unlimited)))
  refused : ∀ {p : Pipe} {fault : EngineFault} {s s' : σ},
    e.perform (.configurePipe p) s = (.error fault, s') → rate s' = rate s
  answered : ∀ {id : Int} {found : Option Nat} {s s' : σ},
    e.bandwidth id s = (.ok found, s') → reading (rate s id) = .ok found
  bandwidth : ∀ id s, rate (e.bandwidth id s).2 = rate s
  note : ∀ n s, rate (e.note n s) = rate s

/-- An engine that keeps rates and answers every question about them. -/
structure Tells {σ : Type} (e : Engine σ) (rate : σ → Int → Option (Except ReadFault Nat)) : Prop
    extends e.Retains rate where
  answers : ∀ id s, (e.bandwidth id s).1 = reading (rate s id)

/-- An engine that refuses no pipe. -/
def Carries {σ : Type} (e : Engine σ) : Prop :=
  ∀ p s, (e.perform (.configurePipe p) s).1 = .ok ()

/-- Pipes with the rates that they were given; those that are chosen by `refuses` cannot be
configured. -/
def retaining (refuses : Pipe → Bool) : Engine (Int → Option (Except ReadFault Nat)) where
  perform
    | .configurePipe p, s =>
      if refuses p then (.error (.rejected "ipfw: configure_pipe rejected"), s)
      else (.ok (),
        Function.update s p.id (some (Rate.toBits (p.bandwidth.getD Rate.unlimited))))
    | _, s => (.ok (), s)
  bandwidth id s := (reading (s id), s)
  note _ s := s

theorem tells_retaining (refuses : Pipe → Bool) : (retaining refuses).Tells id where
  configured {p s s'} done := by
    cases refused : refuses p with
    | true => simp [retaining, refused] at done
    | false =>
        simp only [retaining, refused] at done
        cases done
        rfl
  refused {p fault s s'} failed := by
    cases refused : refuses p with
    | true =>
        simp only [retaining, refused] at failed
        cases failed
        rfl
    | false => simp [retaining, refused] at failed
  answered answer := congrArg Prod.fst answer
  answers _ _ := rfl
  bandwidth _ _ := rfl
  note _ _ := rfl

theorem carries_retaining : (retaining fun _ => false).Carries := fun _ _ => rfl

theorem Tells.bandwidth_eq {σ : Type} {e : Engine σ}
    {rate : σ → Int → Option (Except ReadFault Nat)} (h : e.Tells rate) {id : Int} {bits : Nat}
    {s : σ} (kept : rate s id = some (.ok bits)) :
    ∃ asked, e.bandwidth id s = (.ok (some bits), asked) ∧ rate asked = rate s := by
  refine ⟨(e.bandwidth id s).2, Prod.ext ?_ rfl, h.bandwidth id s⟩
  rw [h.answers, kept]
  rfl

end Engine

namespace RateAdjuster

open Engine (Attempt)

variable {σ : Type}

/-- The rates in Kbit/s that are asked for: those given, or else those of the profile. -/
def Asks (a : RateAdjuster) (now : TimeOfDay) (inKbps outKbps : Option Int) (rates : Int × Int) :
    Prop :=
  (inKbps = some rates.1 ∧ outKbps = some rates.2) ∨
    (inKbps = none ∧ outKbps = none ∧ ∃ p, a.schedule.profile a.profile = .ok p ∧
      rates = (((p.ratesAt now).1 : Int), ((p.ratesAt now).2 : Int)))

/-- Why nothing is configured. -/
def Refuses (a : RateAdjuster) (e : Engine σ) (now : TimeOfDay) (index : Int)
    (inKbps outKbps : Option Int) (s : σ) : AdjustFault → Prop
  | .oneRate => inKbps.isNone ≠ outKbps.isNone
  | .indexOutside written =>
    Text.decimal? index = some written ∧ ¬ (0 ≤ index ∧ index < maxInterfaces)
  | .noPipe i pipe => i = index ∧ pipe = inboundPipe index ∧ (e.bandwidth pipe s).1 = .ok none
  | .engine fault => (e.bandwidth (inboundPipe index) s).1 = .error fault
  | .unread cause =>
    (∃ unknown, cause = .malformed unknown ∧ inKbps = none ∧
      a.schedule.profile a.profile = .error unknown) ∨
    (cause = .longNumber ∧ Text.decimal? index = none ∧
      ¬ (0 ≤ index ∧ index < maxInterfaces)) ∨
    ∃ rates, a.Asks now inKbps outKbps rates ∧
      (Rate.ofKbps rates.1 = .error cause ∨ Rate.ofKbps rates.2 = .error cause ∨
      (inKbps = none ∧ ∃ inbound, Rate.ofKbps rates.1 = .ok inbound ∧
        Rate.toBits inbound = .error cause))

/-- Two pipes are configured, the second if the first is not refused. -/
inductive Configures (e : Engine σ) (first second : Pipe) (s : σ) :
    Except AdjustFault Bool → List Attempt → σ → Prop
  | both {s' s'' : σ} : e.perform (.configurePipe first) s = (.ok (), s') →
      e.perform (.configurePipe second) s' = (.ok (), s'') →
      Configures e first second s (.ok true)
        [.made (.configurePipe first), .made (.configurePipe second)] s''
  | firstRefused {s' : σ} {fault : EngineFault} :
      e.perform (.configurePipe first) s = (.error fault, s') →
      Configures e first second s (.error (.engine fault))
        [{ call := .configurePipe first, answer := .error fault }] s'
  | secondRefused {s' s'' : σ} {fault : EngineFault} :
      e.perform (.configurePipe first) s = (.ok (), s') →
      e.perform (.configurePipe second) s' = (.error fault, s'') →
      Configures e first second s (.error (.engine fault))
        [.made (.configurePipe first), { call := .configurePipe second, answer := .error fault }]
        s''

/-- How an adjustment goes: its answer, the calls that it makes, and the state that it leaves. -/
inductive Course (a : RateAdjuster) (e : Engine σ) (now : TimeOfDay) (index : Int)
    (inKbps outKbps : Option Int) (s : σ) : Except AdjustFault Bool → List Attempt → σ → Prop
  | refused {fault : AdjustFault} {s' : σ} : a.Refuses e now index inKbps outKbps s fault →
      s' = s ∨ s' = (e.bandwidth (inboundPipe index) s).2 →
      Course a e now index inKbps outKbps s (.error fault) [] s'
  /-- The inbound pipe has the rate of the profile. -/
  | kept {p : Profile} {inbound : String} {bits : Nat} {asked : σ} {n : Notice} :
      inKbps = none → outKbps = none → a.schedule.profile a.profile = .ok p →
      Rate.ofKbps (p.ratesAt now).1 = .ok inbound → Rate.toBits inbound = .ok bits →
      e.bandwidth (inboundPipe index) s = (.ok (some bits), asked) →
      Course a e now index inKbps outKbps s (.ok false) [] (e.note n asked)
  | configured {rates : Int × Int} {inbound outbound : String} {current : Nat} {asked s' : σ}
      {n : Notice} {answer : Except AdjustFault Bool} {record : List Attempt} :
      0 ≤ index → index < maxInterfaces → a.Asks now inKbps outKbps rates →
      Rate.ofKbps rates.1 = .ok inbound → Rate.ofKbps rates.2 = .ok outbound →
      e.bandwidth (inboundPipe index) s = (.ok (some current), asked) →
      (inKbps = none → ∃ bits, Rate.toBits inbound = .ok bits ∧ bits ≠ current) →
      Configures e { id := inboundPipe index, bandwidth := some inbound }
        { id := outboundPipe index, bandwidth := some outbound } (e.note n asked) answer record s' →
      Course a e now index inKbps outKbps s answer record s'

variable {a : RateAdjuster} {e : Engine σ} {now : TimeOfDay} {index : Int}
  {inKbps outKbps : Option Int} {s s' asked : σ}

theorem Asks.exists_profile {rates : Int × Int} (h : a.Asks now none none rates) :
    ∃ p, a.schedule.profile a.profile = .ok p ∧
      rates = (((p.ratesAt now).1 : Int), ((p.ratesAt now).2 : Int)) := by
  rcases h with ⟨given, -⟩ | ⟨-, -, scheduled⟩
  · cases given
  · exact scheduled

/-- Two calls are recorded as they are made. -/
theorem configures_performAll (e : Engine σ) (first second : Pipe) (s : σ) :
    ∃ answer s' record,
      e.performAll [.configurePipe first, .configurePipe second] s = (answer, s') ∧
      e.recorded.performAll [.configurePipe first, .configurePipe second] (s, []) =
        (answer, s', record) ∧
      Configures e first second s ((answer.map fun () => true).mapError .engine) record s' := by
  rcases one : e.perform (.configurePipe first) s with ⟨fault | _, s'⟩
  · have one' : e.recorded.perform (.configurePipe first) (s, []) = (.error fault, s', [_]) :=
      Engine.perform_recorded one []
    exact ⟨.error fault, s', _, by simp only [Engine.performAll, one],
      by simp only [Engine.performAll, one'], .firstRefused one⟩
  · have one' : e.recorded.perform (.configurePipe first) (s, []) =
        (.ok (), s', [.made (.configurePipe first)]) := Engine.perform_recorded one []
    rcases two : e.perform (.configurePipe second) s' with ⟨fault | _, s''⟩
    · have two' := Engine.perform_recorded two [.made (.configurePipe first)]
      exact ⟨.error fault, s'', _, by simp only [Engine.performAll, one, two],
        by simp only [Engine.performAll, one', two']; rfl, .secondRefused one two⟩
    · have two' := Engine.perform_recorded two [.made (.configurePipe first)]
      exact ⟨.ok (), s'', _, by simp only [Engine.performAll, one, two],
        by simp only [Engine.performAll, one', two']; rfl, .both one two⟩

theorem configures_reconfigure {inKbps outKbps : Int} {inbound outbound : String}
    (inSaid : Rate.ofKbps inKbps = .ok inbound) (outSaid : Rate.ofKbps outKbps = .ok outbound)
    (e : Engine σ) (index : Int) (s : σ) :
    ∃ n answer s' record, reconfigure e index inKbps outKbps s = (answer, s') ∧
      reconfigure e.recorded index inKbps outKbps (s, []) = (answer, s', record) ∧
      Configures e { id := inboundPipe index, bandwidth := some inbound }
        { id := outboundPipe index, bandwidth := some outbound } (e.note n s) answer record s' := by
  let n : Notice := .log .info ("Interface " ++ toString index ++ ": in " ++ inbound ++ ", out "
    ++ outbound)
  obtain ⟨answer, s', record, performed, recorded, configures⟩ := configures_performAll e
    { id := inboundPipe index, bandwidth := some inbound }
    { id := outboundPipe index, bandwidth := some outbound } (e.note n s)
  have noted : e.recorded.note n (s, []) = (e.note n s, []) := rfl
  refine ⟨n, _, s', record, ?_, ?_, configures⟩
  · simp only [reconfigure, inSaid, outSaid]
    rw [performed]
    cases answer <;> rfl
  · simp only [reconfigure, inSaid, outSaid]
    rw [noted, recorded]
    cases answer <;> rfl

/-- Rates that were asked for are set, unless one of them is negative or cannot be written. -/
theorem course_reconfigure {rates : Int × Int} {current : Nat} (low : 0 ≤ index)
    (high : index < maxInterfaces) (asks : a.Asks now inKbps outKbps rates)
    (answered : e.bandwidth (inboundPipe index) s = (.ok (some current), asked))
    (changes : ∀ inbound, Rate.ofKbps rates.1 = .ok inbound → inKbps = none →
      ∃ bits, Rate.toBits inbound = .ok bits ∧ bits ≠ current) :
    ∃ answer s' record, reconfigure e index rates.1 rates.2 asked = (answer, s') ∧
      reconfigure e.recorded index rates.1 rates.2 (asked, []) = (answer, s', record) ∧
      Course a e now index inKbps outKbps s answer record s' := by
  cases inSaid : Rate.ofKbps rates.1 with
  | error cause =>
      exact ⟨.error (.unread cause), asked, _, by simp only [reconfigure, inSaid],
        by simp only [reconfigure, inSaid],
        .refused (.inr (.inr ⟨rates, asks, .inl inSaid⟩)) (.inr (by rw [answered]))⟩
  | ok inbound =>
      cases outSaid : Rate.ofKbps rates.2 with
      | error cause =>
          exact ⟨.error (.unread cause), asked, _,
            by simp only [reconfigure, inSaid, outSaid],
            by simp only [reconfigure, inSaid, outSaid],
            .refused (.inr (.inr ⟨rates, asks, .inr (.inl outSaid)⟩)) (.inr (by rw [answered]))⟩
      | ok outbound =>
          obtain ⟨n, answer, s', record, done, recorded, configures⟩ :=
            configures_reconfigure inSaid outSaid e index asked
          exact ⟨answer, s', record, done, recorded, .configured low high asks inSaid outSaid
            answered (changes inbound inSaid) configures⟩

theorem course_follow {current : Nat} (low : 0 ≤ index) (high : index < maxInterfaces)
    (answered : e.bandwidth (inboundPipe index) s = (.ok (some current), asked)) :
    ∃ answer s' record, a.follow e now index current asked = (answer, s') ∧
      a.follow e.recorded now index current (asked, []) = (answer, s', record) ∧
      Course a e now index none none s answer record s' := by
  cases profile : a.schedule.profile a.profile with
  | error unknown =>
      exact ⟨.error (.unread (.malformed unknown)), asked, _, by simp only [follow, profile],
        by simp only [follow, profile],
        .refused (.inl ⟨unknown, rfl, rfl, profile⟩) (.inr (by rw [answered]))⟩
  | ok p =>
      have asks : a.Asks now none none (((p.ratesAt now).1 : Int), ((p.ratesAt now).2 : Int)) :=
        .inr ⟨rfl, rfl, p, profile, rfl⟩
      cases said : Rate.ofKbps (p.ratesAt now).1 with
      | error cause =>
          exact ⟨.error (.unread cause), asked, _, by simp only [follow, profile, said],
            by simp only [follow, profile, said],
            .refused (.inr (.inr ⟨_, asks, .inl said⟩)) (.inr (by rw [answered]))⟩
      | ok inbound =>
          cases read : Rate.toBits inbound with
          | error cause =>
              exact ⟨.error (.unread cause), asked, _, by simp only [follow, profile, said, read],
                by simp only [follow, profile, said, read],
                .refused (.inr (.inr ⟨_, asks, .inr (.inr ⟨rfl, inbound, said, read⟩)⟩))
                  (.inr (by rw [answered]))⟩
          | ok bits =>
              simp only [follow, profile, said, read]
              by_cases same : bits = current
              · subst same
                rw [if_pos rfl, if_pos rfl]
                exact ⟨_, _, _, rfl, rfl, .kept rfl rfl profile said read answered⟩
              · rw [if_neg same, if_neg same]
                refine course_reconfigure low high asks answered fun inbound' said' _ => ?_
                rw [said] at said'
                cases said'
                exact ⟨bits, read, same⟩

theorem refuses_outside (outside : ¬ (0 ≤ index ∧ index < maxInterfaces)) :
    a.Refuses e now index inKbps outKbps s (.outside index) := by
  unfold AdjustFault.outside
  split
  · rename_i unwritten
    exact .inr (.inl ⟨rfl, unwritten, outside⟩)
  · rename_i written said
    exact ⟨said, outside⟩

variable (a e now index inKbps outKbps s) in
/-- Every adjustment takes one of its courses, whether or not it is recorded. -/
theorem course_adjust :
    ∃ answer s' record, a.adjust e now index inKbps outKbps s = (answer, s') ∧
      a.adjust e.recorded now index inKbps outKbps (s, []) = (answer, s', record) ∧
      Course a e now index inKbps outKbps s answer record s' := by
  unfold adjust
  by_cases half : inKbps.isNone = outKbps.isNone
  case neg =>
    have uneven : (inKbps.isNone != outKbps.isNone) = true := bne_iff_ne.mpr half
    rw [if_pos uneven, if_pos uneven]
    exact ⟨.error .oneRate, s, [], rfl, rfl, .refused half (.inl rfl)⟩
  have even : ¬ (inKbps.isNone != outKbps.isNone) = true := by simp [half]
  rw [if_neg even, if_neg even]
  by_cases within : 0 ≤ index ∧ index < maxInterfaces
  case neg =>
    have outside : index < 0 ∨ maxInterfaces ≤ index := by omega
    rw [if_pos outside, if_pos outside]
    exact ⟨.error (.outside index), s, [], rfl, rfl, .refused (refuses_outside within) (.inl rfl)⟩
  obtain ⟨low, high⟩ := within
  have inside : ¬ (index < 0 ∨ maxInterfaces ≤ index) := by omega
  rw [if_neg inside, if_neg inside]
  have recorded : e.recorded.bandwidth (inboundPipe index) (s, []) =
      ((e.bandwidth (inboundPipe index) s).1, (e.bandwidth (inboundPipe index) s).2, []) := rfl
  rw [recorded]
  rcases answered : e.bandwidth (inboundPipe index) s with ⟨fault | _ | current, asked⟩
  · exact ⟨.error (.engine fault), asked, [], rfl, rfl,
      .refused (by rw [Refuses, answered]) (.inr (by rw [answered]))⟩
  · exact ⟨.error (.noPipe index (inboundPipe index)), asked, [], rfl, rfl,
      .refused ⟨rfl, rfl, by rw [answered]⟩ (.inr (by rw [answered]))⟩
  · cases inKbps with
    | none =>
        cases outKbps with
        | none => exact course_follow low high answered
        | some _ => cases half
    | some inKbps =>
        cases outKbps with
        | none => cases half
        | some outKbps =>
            have asks : a.Asks now (some inKbps) (some outKbps) (inKbps, outKbps) :=
              .inl ⟨rfl, rfl⟩
            exact course_reconfigure low high asks answered nofun

/-! ### Adjustments that are repeated -/

section

variable {rate : σ → Int → Option (Except ReadFault Nat)} {p : Profile} {inbound : String}
  {bits current : Nat}

/-- Without rates the pipes are configured if the inbound one has another bandwidth than the
profile's, and only then. -/
theorem adjust_scheduled (low : 0 ≤ index) (high : index < maxInterfaces)
    (profile : a.schedule.profile a.profile = .ok p)
    (said : Rate.ofKbps (p.ratesAt now).1 = .ok inbound) (read : Rate.toBits inbound = .ok bits)
    (answered : e.bandwidth (inboundPipe index) s = (.ok (some current), asked)) :
    ∃ n, a.adjust e now index none none s =
      if bits = current then (.ok false, e.note n asked)
      else reconfigure e index (p.ratesAt now).1 (p.ratesAt now).2 asked := by
  rw [adjust, if_neg (by simp), if_neg (by omega)]
  simp only [answered, follow, profile, said, read]
  exact ⟨_, rfl⟩

theorem inboundPipe_ne_outboundPipe (index : Int) : inboundPipe index ≠ outboundPipe index := by
  simp only [inboundPipe, outboundPipe]
  omega

theorem Configures.eq_ok_of_made {first second : Pipe} {answer : Except AdjustFault Bool}
    {record : List Attempt} (h : Configures e first second s answer record s')
    (made : ∀ attempt ∈ record, attempt.answer = .ok ()) : answer = .ok true := by
  cases h with
  | both => rfl
  | firstRefused => cases made _ (List.mem_singleton_self _)
  | secondRefused => cases made _ (List.mem_cons_of_mem _ (List.mem_singleton_self _))

theorem Configures.made {first second : Pipe} {answer : Except AdjustFault Bool}
    {record : List Attempt} (h : Configures e first second s answer record s')
    (carries : e.Carries) : ∀ attempt ∈ record, attempt.answer = .ok () := by
  cases h with
  | both => simp [Attempt.made]
  | firstRefused one =>
      have carried := carries first s
      rw [one] at carried
      cases carried
  | @secondRefused between _ _ one two =>
      have carried := carries second between
      rw [two] at carried
      cases carried

/-- Both pipes have their rates once they were configured. -/
theorem Configures.rate_eq {inbound outbound : String} {record : List Attempt}
    (retains : e.Retains rate)
    (h : Configures e { id := inboundPipe index, bandwidth := some inbound }
      { id := outboundPipe index, bandwidth := some outbound } s (.ok true) record s') :
    rate s' (inboundPipe index) = some (Rate.toBits inbound) ∧
      rate s' (outboundPipe index) = some (Rate.toBits outbound) := by
  cases h with
  | both one two =>
      rw [retains.configured two, retains.configured one,
        Function.update_of_ne (inboundPipe_ne_outboundPipe index)]
      exact ⟨Function.update_self .., Function.update_self ..⟩

theorem Course.rate_eq {answer : Except AdjustFault Bool} (retains : e.Retains rate)
    (h : Course a e now index inKbps outKbps s answer [] s') : rate s' = rate s := by
  have queried := retains.bandwidth (inboundPipe index) s
  cases h with
  | refused _ left =>
      rcases left with rfl | rfl
      · rfl
      · exact queried
  | kept _ _ _ _ _ answered =>
      rw [retains.note]
      rwa [answered] at queried
  | configured _ _ _ _ _ _ _ configures => nomatch configures

/-- An adjustment that configures nothing leaves every rate as it was, whatever it answers. -/
theorem rate_eq_of_adjust (retains : e.Retains rate) {answer : Except AdjustFault Bool}
    (idle : a.adjust e.recorded now index inKbps outKbps (s, []) = (answer, s', [])) :
    rate s' = rate s := by
  obtain ⟨_, _, _, -, recorded, course⟩ := course_adjust a e now index inKbps outKbps s
  cases idle.symm.trans recorded
  exact course.rate_eq retains

/-- An adjustment by the schedule that went through has nothing left to do. -/
theorem adjust_repeated (tells : e.Tells rate)
    (adjusted : a.adjust e now index none none s = (.ok true, s')) :
    ∃ s'', a.adjust e.recorded now index none none (s', []) = (.ok false, s'', []) ∧
      rate s'' = rate s' := by
  obtain ⟨answer, t, record, plain, -, course⟩ := course_adjust a e now index none none s
  obtain ⟨rfl, rfl⟩ := Prod.mk.inj (adjusted.symm.trans plain)
  cases course with
  | configured low high asks inSaid _ _ changes configures =>
      obtain ⟨p, profile, rfl⟩ := asks.exists_profile
      obtain ⟨bits, read, -⟩ := changes rfl
      obtain ⟨stored, -⟩ := configures.rate_eq tells.toRetains
      rw [read] at stored
      obtain ⟨asked, answered, -⟩ := tells.bandwidth_eq stored
      have answered' : e.recorded.bandwidth (inboundPipe index) (s', []) =
          (.ok (some bits), asked, []) := by
        simp [Engine.recorded, answered]
      obtain ⟨n, again⟩ := adjust_scheduled low high profile inSaid read answered'
      rw [if_pos rfl] at again
      exact ⟨e.note n asked, again, rate_eq_of_adjust tells.toRetains again⟩

end

/-! ### How adjustments end -/

/-- The ways in which an adjustment ends if no pipe is refused: what it answers, and the calls that
it makes. -/
def Ends (a : RateAdjuster) (e : Engine σ) (now : TimeOfDay) (index : Int)
    (inKbps outKbps : Option Int) (s : σ) : Except AdjustFault Bool → List Attempt → Prop
  | .error fault, record => record = [] ∧ a.Refuses e now index inKbps outKbps s fault
  | .ok false, record => record = [] ∧ inKbps = none ∧ outKbps = none ∧
    ∃ p bits, a.schedule.profile a.profile = .ok p ∧ Rate.ComesTo (p.ratesAt now).1 bits ∧
      (e.bandwidth (100 + index) s).1 = .ok (some bits)
  | .ok true, record => 0 ≤ index ∧ index < 10 ∧
    ∃ rates inbound outbound, a.Asks now inKbps outKbps rates ∧
      Rate.ofKbps rates.1 = .ok inbound ∧ Rate.ofKbps rates.2 = .ok outbound ∧
      (inKbps = none → ∀ bits, Rate.ComesTo rates.1 bits →
        (e.bandwidth (100 + index) s).1 ≠ .ok (some bits)) ∧
      record = [.made (.configurePipe { id := 100 + index, bandwidth := some inbound }),
        .made (.configurePipe { id := 200 + index, bandwidth := some outbound })]

theorem Course.ends {answer : Except AdjustFault Bool} {record : List Attempt}
    (h : Course a e now index inKbps outKbps s answer record s')
    (made : ∀ attempt ∈ record, attempt.answer = .ok ()) :
    Ends a e now index inKbps outKbps s answer record := by
  cases h with
  | refused why _ => exact ⟨rfl, why⟩
  | kept inNone outNone profile said read answered =>
      exact ⟨rfl, inNone, outNone, _, _, profile, ⟨_, said, read⟩, congrArg Prod.fst answered⟩
  | configured low high asks inSaid outSaid answered changes configures =>
      cases configures.eq_ok_of_made made
      cases configures
      refine ⟨low, high, _, _, _, asks, inSaid, outSaid, ?_, rfl⟩
      rintro scheduled bits ⟨inbound', said', read'⟩ same
      obtain ⟨bits', read, other⟩ := changes scheduled
      cases inSaid.symm.trans said'
      cases read.symm.trans read'
      cases (congrArg Prod.fst answered).symm.trans same
      exact other rfl

/-- An adjustment is refused before it configures anything, or it finds the inbound bandwidth that
the profile asks for, or it configures both pipes, unless one of these is refused. One by the
schedule that went through may be repeated without effect. -/
theorem adjust_ends (a : RateAdjuster) (e : Engine σ) (now : TimeOfDay) (index : Int)
    (inKbps outKbps : Option Int) (s : σ) :
    ∃ answer s' record, a.adjust e now index inKbps outKbps s = (answer, s') ∧
      a.adjust e.recorded now index inKbps outKbps (s, []) = (answer, s', record) ∧
      ((∀ attempt ∈ record, attempt.answer = .ok ()) →
        Ends a e now index inKbps outKbps s answer record) ∧
      ∀ rate, e.Tells rate → inKbps = none → outKbps = none → answer = .ok true →
        ∃ s'', a.adjust e.recorded now index none none (s', []) = (.ok false, s'', []) ∧
          rate s'' = rate s' := by
  obtain ⟨answer, s', record, plain, recorded, course⟩ :=
    course_adjust a e now index inKbps outKbps s
  refine ⟨answer, s', record, plain, recorded, course.ends, ?_⟩
  rintro rate tells rfl rfl rfl
  exact adjust_repeated tells plain

/-- An office whose interface may receive 512 Kbit/s and send 128 Kbit/s at all times. -/
def office : RateAdjuster :=
  { schedule := ⟨[{ name := "default", inbound := 512, outbound := 128 }]⟩ }

/-- The pipes of the interface at index 1, not limited so far. -/
def uplink (id : Int) : Option (Except ReadFault Nat) :=
  if id = 101 ∨ id = 201 then some (.ok 0) else none

theorem adjust_ends_office :
    ∃ s' record,
      office.adjust (Engine.retaining fun _ => false).recorded (.ofMinutes 600) 1 none none
          (uplink, []) = (.ok true, s', record) ∧
      Ends office (Engine.retaining fun _ => false) (.ofMinutes 600) 1 none none uplink (.ok true)
        record ∧
      ∃ s'', office.adjust (Engine.retaining fun _ => false).recorded (.ofMinutes 600) 1 none none
        (s', []) = (.ok false, s'', []) ∧ s'' = s' := by
  obtain ⟨answer, s', record, plain, recorded, ends, repeated⟩ :=
    adjust_ends office (Engine.retaining fun _ => false) (.ofMinutes 600) 1 none none uplink
  have answered : answer = .ok true := (congrArg Prod.fst plain).symm
  have record_eq : record = [.made (.configurePipe { id := 101, bandwidth := some "512Kbit/s" }),
      .made (.configurePipe { id := 201, bandwidth := some "128Kbit/s" })] :=
    (congrArg (fun outcome => outcome.2.2) recorded).symm
  subst answered
  exact ⟨s', record, recorded, ends (by simp [record_eq, Attempt.made]),
    repeated id (Engine.tells_retaining _) rfl rfl rfl⟩

/-! ### Adjustments after a refusal -/

/-- Once the filter refused to configure a pipe, a repeated adjustment that no pipe is refused to
sets both of them if it was the inbound one that was refused. If it was the outbound one, the
repeated adjustment finds the inbound bandwidth as it should be, and configures nothing. -/
theorem adjust_after_refusal {e' : Engine σ} {rate : σ → Int → Option (Except ReadFault Nat)}
    (retains : e.Retains rate) (tells : e'.Tells rate) (carries : e'.Carries) {pipe : Pipe}
    {fault : EngineFault} {record : List Attempt}
    (failed : a.adjust e.recorded now index none none (s, []) =
      (.error (.engine fault), s', record))
    (refused : record.getLast? = some { call := .configurePipe pipe, answer := .error fault }) :
    ∃ p inbound outbound answer s'', a.schedule.profile a.profile = .ok p ∧
      Rate.ofKbps (p.ratesAt now).1 = .ok inbound ∧ Rate.ofKbps (p.ratesAt now).2 = .ok outbound ∧
      a.adjust e' now index none none s' = (.ok answer, s'') ∧
      rate s'' (100 + index) = some (Rate.toBits inbound) ∧
      ((pipe.id = 100 + index ∧ answer = true ∧
        rate s'' (200 + index) = some (Rate.toBits outbound)) ∨
      (pipe.id = 200 + index ∧ answer = false ∧
        rate s'' (200 + index) = rate s (200 + index))) := by
  obtain ⟨_, _, _, -, recorded, course⟩ := course_adjust a e now index none none s
  cases failed.symm.trans recorded
  cases course with
  | refused _ _ => cases refused
  | @configured _ inbound outbound current asked _ n _ _ low high asks inSaid outSaid answered
      changes configures =>
    obtain ⟨p, profile, rfl⟩ := asks.exists_profile
    obtain ⟨bits, read, other⟩ := changes rfl
    have before : rate (e.note n asked) = rate s := by
      have queried := retains.bandwidth (inboundPipe index) s
      rw [retains.note]
      rwa [answered] at queried
    cases configures with
    | firstRefused one =>
        cases refused
        have same : rate s' = rate s := (retains.refused one).trans before
        -- The inbound pipe has its old rate, which still differs from the profile's.
        have found := Engine.eq_of_reading (retains.answered answered)
        rw [← same] at found
        obtain ⟨asked', answered', kept⟩ := tells.bandwidth_eq found
        obtain ⟨n', again⟩ := adjust_scheduled low high profile inSaid read answered'
        rw [if_neg other] at again
        obtain ⟨_, answer, s'', record, done, -, configures⟩ :=
          configures_reconfigure inSaid outSaid e' index asked'
        cases configures.eq_ok_of_made (configures.made carries)
        obtain ⟨inKept, outKept⟩ := configures.rate_eq tells.toRetains
        exact ⟨p, inbound, outbound, true, s'', profile, inSaid, outSaid, again.trans done, inKept,
          .inl ⟨rfl, rfl, outKept⟩⟩
    | secondRefused one two =>
        cases refused
        have same := retains.refused two
        rw [retains.configured one, before] at same
        have stored : rate s' (inboundPipe index) = some (.ok bits) := by
          rw [same, Function.update_self, ← read]
          rfl
        obtain ⟨asked', answered', kept⟩ := tells.bandwidth_eq stored
        obtain ⟨n', again⟩ := adjust_scheduled low high profile inSaid read answered'
        -- The inbound pipe was configured before the refusal, so nothing is left to do for it.
        rw [if_pos rfl] at again
        have left : rate (e'.note n' asked') = rate s' := by rw [tells.note, kept]
        refine ⟨p, inbound, outbound, false, _, profile, inSaid, outSaid, again, ?_,
          .inr ⟨rfl, rfl, ?_⟩⟩
        · rw [left, read]
          exact stored
        · rw [left, same]
          exact Function.update_of_ne (inboundPipe_ne_outboundPipe index).symm ..

/-- The pipes of the office once the filter refused to configure the outbound one. -/
theorem adjust_after_refusal_outbound :
    ∃ s' s'' record,
      office.adjust (Engine.retaining fun p => p.id = 201).recorded (.ofMinutes 600) 1 none none
        (uplink, []) =
          (.error (.engine (.rejected "ipfw: configure_pipe rejected")), s', record) ∧
      office.adjust (Engine.retaining fun _ => false) (.ofMinutes 600) 1 none none s' =
        (.ok false, s'') ∧
      s'' 101 = some (.ok 512000) ∧ s'' 201 = some (.ok 0) := by
  obtain ⟨s', failed⟩ : ∃ s',
      office.adjust (Engine.retaining fun p => p.id = 201).recorded (.ofMinutes 600) 1 none none
        (uplink, []) =
          (.error (.engine (.rejected "ipfw: configure_pipe rejected")), s',
            [.made (.configurePipe { id := 101, bandwidth := some "512Kbit/s" }),
              { call := .configurePipe { id := 201, bandwidth := some "128Kbit/s" },
                answer := .error (.rejected "ipfw: configure_pipe rejected") }]) := ⟨_, rfl⟩
  obtain ⟨p, inbound, outbound, answer, s'', profile, inSaid, outSaid, again, inKept, outKept⟩ :=
    adjust_after_refusal (Engine.tells_retaining _).toRetains (Engine.tells_retaining _)
      Engine.carries_retaining failed rfl
  cases profile
  cases inSaid
  obtain ⟨one, -⟩ | ⟨-, rfl, outKept⟩ := outKept
  · cases one
  · exact ⟨s', s'', _, failed, again, inKept, outKept⟩

/-- A repeated adjustment does not mend an outbound pipe that was refused: the office goes on to
send without a limit. -/
theorem not_adjust_repairs :
    ¬ ∀ s' fault, office.adjust (Engine.retaining fun p => p.id = 201) (.ofMinutes 600) 1 none none
        uplink = (.error (.engine fault), s') →
      ∃ answer s'',
        office.adjust (Engine.retaining fun _ => false) (.ofMinutes 600) 1 none none s' =
          (.ok answer, s'') ∧
        s'' 101 = some (Rate.toBits "512Kbit/s") ∧ s'' 201 = some (Rate.toBits "128Kbit/s") := by
  intro repairs
  obtain ⟨answer, s'', again, -, sends⟩ := repairs _ _ rfl
  cases again
  cases sends

end RateAdjuster
end Firewall

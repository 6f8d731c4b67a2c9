import Firewall.Proofs.Declaring
import Firewall.Proofs.Showing

/-!
Rules emitted call by call. A call whose index does not fit the band of its purpose leaves the rules
as they are, and every other call adds one rule, in the band of its purpose. The chain of a
compilation objects to the rules exactly when two of the calls that added one had the same purpose
and the same index.
-/

namespace Firewall

open Interface (bind_eq_ok_iff)

namespace Draft

variable {d e : Draft} {rule : Rule} {fault : Band.Fault}

theorem fits_of_place (h : d.place = .ok rule) : d.Fits := by
  obtain ⟨number, numbered, -⟩ := bind_eq_ok_iff.mp h
  unfold Band.number at numbered
  unfold Fits
  cases index : d.index with
  | none =>
      rw [index] at numbered
      split at numbered
      case isTrue => cases numbered
      case isFalse single => exact Bool.eq_false_iff.mpr single
  | some i =>
      rw [index] at numbered
      split at numbered
      case isTrue each =>
        obtain within | outside := em (0 ≤ i ∧ i < maxInterfaces)
        · exact ⟨each, within⟩
        · simp [outside] at numbered
      case isFalse => cases numbered

theorem place_eq_ok_iff : d.place = .ok rule ↔ d.Fits ∧ d.numbered = rule := by
  constructor
  · intro placed
    have fits := fits_of_place placed
    rw [place_of_fits fits] at placed
    exact ⟨fits, Except.ok.inj placed⟩
  · rintro ⟨fits, rfl⟩
    exact place_of_fits fits

theorem Fits.number_eq_iff (hd : d.Fits) (he : e.Fits) :
    d.numbered.number = e.numbered.number ↔ d.purpose = e.purpose ∧ d.index = e.index := by
  constructor
  · intro same
    exact Purpose.eq_of_number hd.number (same ▸ he.number)
  · rintro ⟨purpose, index⟩
    rw [numbered, numbered, purpose, index]

/-! ### One call after another -/

/-- The rule that a call adds, if it adds one. -/
def placed? (d : Draft) : Option Rule := d.place.toOption

/-- A call that emits a rule: its answer, and the rules emitted so far. -/
def emit (d : Draft) (rules : List Rule) : Except Band.Fault Rule × List Rule :=
  match d.place with
  | .ok rule => (.ok rule, rules ++ [rule])
  | .error fault => (.error fault, rules)

/-- Calls one after another: their answers, and the rules that they leave. -/
def emitAll (rules : List Rule) : List Draft → List (Except Band.Fault Rule) × List Rule
  | [] => ([], rules)
  | d :: rest =>
    let (answer, rules) := d.emit rules
    let (answers, rules) := emitAll rules rest
    (answer :: answers, rules)

variable {calls : List Draft}

theorem placed?_eq_some_iff : d.placed? = some rule ↔ d.Fits ∧ d.numbered = rule := by
  rw [← place_eq_ok_iff, placed?]
  cases d.place <;> simp [Except.toOption]

theorem emit_eq (d : Draft) (rules : List Rule) :
    d.emit rules = (d.place, rules ++ d.placed?.toList) := by
  rw [emit, placed?]
  cases d.place <;> simp [Except.toOption]

theorem emitAll_eq (rules : List Rule) (calls : List Draft) :
    emitAll rules calls = (calls.map place, rules ++ calls.filterMap placed?) := by
  induction calls generalizing rules with
  | nil => simp [emitAll]
  | cons d rest ih =>
      simp only [emitAll, emit_eq, ih, List.map_cons, List.filterMap_cons]
      cases d.placed? <;> simp

/-- The rules of a policy are what its drafts emit, where none of the calls fails. -/
theorem emitAll_of_placeAll {rules : List Rule} (h : placeAll calls = .ok rules) :
    emitAll [] calls = (rules.map .ok, rules) := by
  suffices all : calls.map place = rules.map .ok ∧ calls.filterMap placed? = rules by
    rw [emitAll_eq, all.1, all.2, List.nil_append]
  induction calls generalizing rules with
  | nil =>
      cases h
      exact ⟨rfl, rfl⟩
  | cons d rest ih =>
      obtain ⟨rule, placed, h⟩ := bind_eq_ok_iff.mp h
      obtain ⟨others, placed', h⟩ := bind_eq_ok_iff.mp h
      cases h
      obtain ⟨answers, added⟩ := ih placed'
      have own : d.placed? = some rule := placed?_eq_some_iff.mpr (place_eq_ok_iff.mp placed)
      simp [placed, answers, own, added]

theorem mem_filterMap_placed?_iff :
    rule ∈ calls.filterMap placed? ↔ ∃ d ∈ calls, d.Fits ∧ d.numbered = rule := by
  simp only [List.mem_filterMap, placed?_eq_some_iff]

/-! ### Calls that collide -/

/-- Two calls that both add a rule, for the same purpose and the same interface. -/
structure Collides (d e : Draft) : Prop where
  left : ∃ rule, d.place = .ok rule
  right : ∃ rule, e.place = .ok rule
  purpose_eq : d.purpose = e.purpose
  index_eq : d.index = e.index

theorem pairwise_number_ne_iff :
    (calls.filterMap placed?).Pairwise (fun a b => a.number ≠ b.number) ↔
      calls.Pairwise fun d e => ¬ d.Collides e := by
  rw [List.pairwise_filterMap]
  refine iff_of_eq (congrArg (calls.Pairwise ·) ?_)
  funext d e
  refine propext ⟨fun apart collides => ?_, fun apart a ha b hb same => ?_⟩
  · obtain ⟨a, ha⟩ := collides.left
    obtain ⟨b, hb⟩ := collides.right
    obtain ⟨fits, rfl⟩ := place_eq_ok_iff.mp ha
    obtain ⟨fits', rfl⟩ := place_eq_ok_iff.mp hb
    refine apart _ (placed?_eq_some_iff.mpr ⟨fits, rfl⟩) _
      (placed?_eq_some_iff.mpr ⟨fits', rfl⟩) ?_
    exact (fits.number_eq_iff fits').mpr ⟨collides.purpose_eq, collides.index_eq⟩
  · obtain ⟨fits, rfl⟩ := placed?_eq_some_iff.mp ha
    obtain ⟨fits', rfl⟩ := placed?_eq_some_iff.mp hb
    obtain ⟨purpose, index⟩ := (fits.number_eq_iff fits').mp same
    exact apart ⟨⟨_, place_of_fits fits⟩, ⟨_, place_of_fits fits'⟩, purpose, index⟩

end Draft

/-! ### What the check of the numbers objects to -/

namespace Diagnostics

@[simp] theorem aborted_foldl_abortFor (d : Diagnostics) (label : String) (texts : List String) :
    (texts.foldl (·.abortFor label ·) d).aborted = (d.aborted || !texts.isEmpty) := by
  induction texts generalizing d with
  | nil => simp
  | cons text rest ih => rw [List.foldl_cons, ih]; simp [abortFor, abort, error]

end Diagnostics

namespace Numbering

theorem eq_nil_iff_of_faults? {seen : List (Int × String)} {rule : Rule} {p : Purpose}
    {texts : List String} (found : faults? seen rule p = some texts) :
    texts = [] ↔
      p.band.holds rule.set rule.number = true ∧ holder? seen rule.number = none := by
  cases held : p.band.holds rule.set rule.number with
  | true =>
      obtain ⟨number, -, whole⟩ :
          ∃ number, Text.decimal? rule.number = some number ∧ _ = texts := by
        simpa [faults?, held, Option.bind_eq_some_iff] using found
      rw [← whole]
      cases holder? seen rule.number <;> simp
  | false =>
      obtain ⟨place, -, number, -, whole⟩ : ∃ place, misplaced? rule p.band = some place ∧
          ∃ number, Text.decimal? rule.number = some number ∧ _ = texts := by
        simpa [faults?, held, Option.bind_eq_some_iff] using found
      simp [← whole]

theorem holder?_cons_eq_none_iff {seen : List (Int × String)} {n m : Int} {label : String} :
    holder? ((n, label) :: seen) m = none ↔ n ≠ m ∧ holder? seen m = none := by
  unfold holder?
  rw [List.lookup_cons]
  by_cases same : m = n
  · simp [same]
  · simp [beq_eq_false_iff_ne.mpr same, Ne.symm same]

/-- A check objects to nothing where every rule is in its band and none bears the number of a rule
before it. -/
theorem aborted_checkFrom_eq_false_iff {rules : List Rule}
    (checkable : ∀ rule ∈ rules, (∀ text, rule.tag ≠ .unknown text) ∧ rule.Checkable)
    (seen : List (Int × String)) (d : Diagnostics) : (checkFrom seen d rules).1.aborted = false ↔
      d.aborted = false ∧ (∀ rule ∈ rules, InBand rule) ∧
        rules.Pairwise (fun a b => a.number ≠ b.number) ∧
        ∀ rule ∈ rules, holder? seen rule.number = none := by
  induction rules generalizing seen d with
  | nil => simp [checkFrom]
  | cons rule rest ih =>
      rw [List.forall_mem_cons] at checkable
      obtain ⟨label, labelled⟩ :=
        Option.isSome_iff_exists.mp (Rule.isSome_label?_iff.mpr checkable.1.2.number)
      rw [checkFrom]
      cases tag : rule.tag with
      | unknown text => exact absurd tag (checkable.1.1 text)
      | untagged =>
          have outside : ¬ InBand rule := by simp [InBand, tag]
          simp [ih checkable.2, labelled, Diagnostics.abortFor, Diagnostics.abort,
            Diagnostics.error, outside]
      | known p =>
          have inBand : InBand rule ↔ p.band.holds rule.set rule.number = true := by
            simp [InBand, tag]
          have some_ : (faults? seen rule p).isSome :=
            isSome_faults?_iff.mpr ⟨checkable.1.2.number, checkable.1.2.set (by simp [tag])⟩
          obtain ⟨texts, found⟩ := Option.isSome_iff_exists.mp some_
          simp only [found, labelled, ih checkable.2, Diagnostics.aborted_foldl_abortFor,
            Bool.or_eq_false_iff, Bool.not_eq_false', List.isEmpty_iff,
            eq_nil_iff_of_faults? found, holder?_cons_eq_none_iff, List.forall_mem_cons,
            List.pairwise_cons, inBand, forall_and]
          tauto

theorem aborted_check_eq_false_iff {rules : List Rule}
    (checkable : ∀ rule ∈ rules, (∀ text, rule.tag ≠ .unknown text) ∧ rule.Checkable) :
    (check {} rules).1.aborted = false ↔
      (∀ rule ∈ rules, InBand rule) ∧ rules.Pairwise fun a b => a.number ≠ b.number := by
  simp [check, aborted_checkFrom_eq_false_iff checkable, holder?]

end Numbering

/-! ### From the calls to the end of the chain -/

namespace Draft

variable {calls : List Draft}

theorem inBand_of_calls (calls : List Draft) :
    ∀ rule ∈ calls.filterMap placed?, Numbering.InBand rule := by
  intro rule mem
  obtain ⟨d, -, fits, rfl⟩ := mem_filterMap_placed?_iff.mp mem
  exact fits.inBand false

theorem checkable_of_calls (calls : List Draft) : ∀ rule ∈ calls.filterMap placed?,
    (∀ text, rule.tag ≠ .unknown text) ∧ rule.Checkable :=
  fun rule mem => (inBand_of_calls calls rule mem).checkable

/-- What calls have added can be written unless it is shown and a call named a type of message that
is too long. -/
theorem writable_calls_iff (debugging : Bool) (calls : List Draft) :
    Numbering.Writable debugging (calls.filterMap placed?) ↔ (debugging = true →
      ∀ rule ∈ calls.filterMap placed?, ∀ n ∈ rule.what.icmpTypes, Text.Short n) := by
  constructor
  · exact fun writable debugs rule mem => ((writable rule mem).2 debugs).icmpTypes
  · intro short rule mem
    obtain ⟨p, -, held⟩ := inBand_of_calls calls rule mem
    obtain ⟨number, set⟩ := Numbering.short_of_holds held
    exact ⟨⟨number, fun _ => set⟩, fun debugs => ⟨number, set, short debugs rule mem⟩⟩

theorem aborted_check_calls_iff (calls : List Draft) :
    (Numbering.check {} (calls.filterMap placed?)).1.aborted = true ↔
      ∃ d e, [d, e].Sublist calls ∧ d.Collides e := by
  have clear := Numbering.aborted_check_eq_false_iff (checkable_of_calls calls)
  rw [pairwise_number_ne_iff, List.pairwise_iff_forall_sublist] at clear
  rw [← Bool.not_eq_false, clear]
  have inBand := inBand_of_calls calls
  constructor
  · intro collide
    by_contra none_
    push Not at none_
    exact collide ⟨inBand, fun {d e} within => none_ d e within⟩
  · rintro ⟨d, e, within, collides⟩ ⟨-, apart⟩
    exact apart within collides

end Draft

namespace Chain

open Draft (emitAll emitAll_eq)

/-- Every call answers with a rule in the band of its purpose, which it adds, or adds none. Rules
bear one number where their purposes and their indices are the same, and the chain is abandoned
exactly where that is so of two of the calls. It goes through, unless the rules are shown and one of
them names a type of message that is too long to be written. -/
theorem aborted_of_calls_iff (calls : List Draft) :
    (∀ before d after, calls = before ++ d :: after →
        ∃ answer, (emitAll [] calls).1[before.length]? = some answer ∧
          (∀ fault, answer = .error fault →
            (emitAll [] (before ++ [d])).2 = (emitAll [] before).2) ∧
          ∀ rule, answer = .ok rule →
            (emitAll [] (before ++ [d])).2 = (emitAll [] before).2 ++ [rule] ∧
            rule.tag = .known d.purpose ∧ rule.set = d.purpose.band.set ∧
            d.purpose.band.base ≤ rule.number ∧ rule.number ≤ d.purpose.band.last) ∧
      (∀ (d e : Draft) (a b : Rule), d.place = .ok a → e.place = .ok b →
        (a.number = b.number ↔ d.purpose = e.purpose ∧ d.index = e.index)) ∧
      ∀ (name : String) (stealth debugging : Bool) (fuel : Nat),
        (emitAll [] calls).2.length < fuel → ∃ answer line desk,
          run fuel (treatment name debugging)
              { rules := (emitAll [] calls).2, stealth, debugging } = .ended answer line desk ∧
            let short := debugging = true →
              ∀ rule ∈ (emitAll [] calls).2, ∀ n ∈ rule.what.icmpTypes, Text.Short n
            (short → answer = .ok () ∧ (desk.diagnostics.aborted = true ↔
              ∃ d e, [d, e].Sublist calls ∧ d.Collides e)) ∧
            (¬ short → answer = .error (.stopped .longNumber)) := by
  refine ⟨?_, ?_, ?_⟩
  · rintro before d after rfl
    refine ⟨d.place, by simp [emitAll_eq], ?_, ?_⟩
    · intro fault failed
      simp [emitAll_eq, Draft.placed?, failed, Except.toOption]
    · intro rule placed
      obtain ⟨fits, rfl⟩ := Draft.place_eq_ok_iff.mp placed
      refine ⟨?_, rfl, rfl, fits.within⟩
      simp [emitAll_eq, Draft.placed?, placed, Except.toOption]
  · intro d e a b hd he
    obtain ⟨fits, rfl⟩ := Draft.place_eq_ok_iff.mp hd
    obtain ⟨fits', rfl⟩ := Draft.place_eq_ok_iff.mp he
    exact fits.number_eq_iff fits'
  · intro name stealth debugging fuel enough
    simp only [emitAll_eq, List.nil_append] at enough ⊢
    have known := fun rule mem => (Draft.checkable_of_calls calls rule mem).1
    rw [← Draft.writable_calls_iff]
    by_cases writable : Numbering.Writable debugging (calls.filterMap Draft.placed?)
    · obtain ⟨line, desk, ended, -, recorded⟩ :=
        run_treatment name stealth known writable enough
      refine ⟨_, line, desk, ended, fun _ => ⟨rfl, ?_⟩, absurd writable⟩
      have same := Numbering.unsaid_said name stealth debugging (calls.filterMap Draft.placed?)
      rw [← recorded] at same
      have aborted := congrArg Diagnostics.aborted same
      change desk.diagnostics.aborted = (Numbering.check {} _).1.aborted at aborted
      rw [aborted]
      exact Draft.aborted_check_calls_iff calls
    · obtain ⟨line, desk, ended, -⟩ :=
        run_treatment_of_long name stealth known writable (Nat.zero_lt_of_lt enough)
      exact ⟨_, line, desk, ended, (absurd · writable), fun _ => rfl⟩

def callFor (purpose : Purpose) (index : Option Int) : Draft :=
  { purpose, index, action := .allow, what := {} }

/-- Two calls that fail, one for an interface that no band has room for, and three that do not. -/
def straying : List Draft :=
  [callFor .loopback none, callFor .loopback (some 0), callFor .macTcp (some 2),
    callFor .macTcp (some (-1)), callFor .macTcp (some 3)]

theorem aborted_of_calls_straying :
    ((emitAll [] (straying ++ [callFor .macTcp (some 2)])).2.map (·.number) =
        [100, 3102, 3103, 3102]) ∧
      (∃ line desk, run 4 (treatment "Begin" true)
          { rules := (emitAll [] straying).2, stealth := false, debugging := true } =
            .ended (.ok ()) line desk ∧ desk.diagnostics.aborted = false) ∧
      ∃ line desk, run 5 (treatment "Begin" false)
          { rules := (emitAll [] (straying ++ [callFor .macTcp (some 2)])).2, stealth := true,
            debugging := false } = .ended (.ok ()) line desk ∧ desk.diagnostics.aborted = true := by
  refine ⟨by decide +kernel, ?_, ?_⟩
  · obtain ⟨-, -, treated⟩ := aborted_of_calls_iff straying
    obtain ⟨_, line, desk, ended, through, -⟩ :=
      treated "Begin" false true 4 (by decide +kernel)
    obtain ⟨rfl, aborted⟩ := through fun _ => by decide +kernel
    refine ⟨line, desk, ended, Bool.eq_false_iff.mpr fun is => ?_⟩
    obtain ⟨d, e, within, collides⟩ := aborted.mp is
    have apart : straying.Pairwise fun d e => d.purpose ≠ e.purpose ∨ d.index ≠ e.index := by
      decide +kernel
    have differ := List.pairwise_iff_forall_sublist.mp apart within
    exact differ.elim (· collides.purpose_eq) (· collides.index_eq)
  · obtain ⟨-, -, treated⟩ := aborted_of_calls_iff (straying ++ [callFor .macTcp (some 2)])
    obtain ⟨_, line, desk, ended, through, -⟩ :=
      treated "Begin" true false 5 (by decide +kernel)
    obtain ⟨rfl, aborted⟩ := through nofun
    exact ⟨line, desk, ended, aborted.mpr ⟨callFor .macTcp (some 2), callFor .macTcp (some 2),
      by decide +kernel, ⟨⟨_, rfl⟩, ⟨_, rfl⟩, rfl, rfl⟩⟩⟩

end Chain
end Firewall

import Mathlib.Algebra.Group.Nat.Defs
import Firewall.Numbering

/-!
What can be written about rules. A number is written unless it has too many digits; a rule is shown
if all of its numbers are, and checked if the numbers are that an objection to it would give.
-/

namespace Firewall

namespace Text

/-- A number of no more digits than are written. -/
def Short (n : Int) : Prop := n.natAbs < 10 ^ digitLimit

instance : DecidablePred Short :=
  fun n => inferInstanceAs (Decidable (n.natAbs < 10 ^ digitLimit))

variable {n : Int}

theorem length_toDigits_le_iff : (Nat.toDigits 10 n.natAbs).length ≤ digitLimit ↔ Short n :=
  Nat.length_toDigits_le_iff (by decide) (by decide)

theorem decimal?_of_short (short : Short n) : decimal? n = some (toString n) := by
  rw [decimal?, if_pos (length_toDigits_le_iff.mpr short)]

theorem decimal?_eq_none_iff : decimal? n = none ↔ ¬ Short n := by
  rw [decimal?, ← length_toDigits_le_iff]
  split <;> simp_all

theorem isSome_decimal?_iff : (decimal? n).isSome ↔ Short n := by
  rw [← length_toDigits_le_iff, decimal?]
  split <;> simp_all

theorem short_of_lt {k : Nat} (few : k ≤ digitLimit) (h : n.natAbs < 10 ^ k) : Short n :=
  Nat.lt_of_lt_of_le h (Nat.pow_le_pow_right (by decide) few)

theorem short_of_bounds (low : 0 ≤ n) (high : n < 100000) : Short n :=
  short_of_lt (k := 5) (by decide) (by omega)

theorem isSome_mapM_decimal?_iff {ns : List Int} :
    (ns.mapM decimal?).isSome ↔ ∀ n ∈ ns, Short n := by
  induction ns with
  | nil => simp
  | cons n rest ih =>
      rw [List.forall_mem_cons, ← ih, ← isSome_decimal?_iff, List.mapM_cons]
      cases decimal? n <;> cases rest.mapM decimal? <;> simp

end Text

open Text (Short)

namespace Rule

theorem silenced_set (r : Rule) : r.silenced.set = r.set := by unfold silenced; split <;> rfl

theorem silenced_number (r : Rule) : r.silenced.number = r.number := by
  unfold silenced; split <;> rfl

theorem silenced_action (r : Rule) : r.silenced.action = r.action := by
  unfold silenced; split <;> rfl

theorem silenced_what (r : Rule) : r.silenced.what = r.what := by
  unfold silenced; split <;> rfl

theorem silenced_log (r : Rule) : r.silenced.log = r.log := by unfold silenced; split <;> rfl

theorem silenced_target (r : Rule) : r.silenced.target = r.target := by
  unfold silenced; split <;> rfl

theorem silenced_tag (r : Rule) : r.silenced.tag = r.tag := by unfold silenced; split <;> rfl

/-! ### Rules with their numbers -/

/-- A rule that can be shown. -/
structure Showable (r : Rule) : Prop where
  number : Short r.number
  set : Short r.set
  icmpTypes : ∀ n ∈ r.what.icmpTypes, Short n

/-- A rule that an objection can be written to, whatever it is. -/
structure Checkable (r : Rule) : Prop where
  number : Short r.number
  set : r.tag ≠ .untagged → Short r.set

variable {r : Rule}

instance : DecidablePred Showable := fun r =>
  decidable_of_iff (Short r.number ∧ Short r.set ∧ ∀ n ∈ r.what.icmpTypes, Short n)
    ⟨fun h => ⟨h.1, h.2.1, h.2.2⟩, fun h => ⟨h.number, h.set, h.icmpTypes⟩⟩

instance : DecidablePred Checkable := fun r =>
  decidable_of_iff (Short r.number ∧ (r.tag ≠ .untagged → Short r.set))
    ⟨fun h => ⟨h.1, h.2⟩, fun h => ⟨h.number, h.set⟩⟩

theorem Showable.checkable (h : r.Showable) : r.Checkable := ⟨h.number, fun _ => h.set⟩

theorem showable_silenced_iff : r.silenced.Showable ↔ r.Showable := by
  unfold silenced
  split
  · exact ⟨fun h => ⟨h.number, h.set, h.icmpTypes⟩, fun h => ⟨h.number, h.set, h.icmpTypes⟩⟩
  · exact Iff.rfl

theorem checkable_silenced_iff : r.silenced.Checkable ↔ r.Checkable := by
  unfold silenced
  split
  · exact ⟨fun h => ⟨h.number, h.set⟩, fun h => ⟨h.number, h.set⟩⟩
  · exact Iff.rfl

theorem isSome_label?_iff : r.label?.isSome ↔ Short r.number := by
  rw [label?, Option.isSome_map, Text.isSome_decimal?_iff]

theorem isSome_line?_iff : r.line?.isSome ↔ r.Showable := by
  have shown : r.Showable ↔ r.label?.isSome ∧ (Text.decimal? r.set).isSome ∧
      (r.what.icmpTypes.mapM Text.decimal?).isSome := by
    rw [isSome_label?_iff, Text.isSome_decimal?_iff, Text.isSome_mapM_decimal?_iff]
    exact ⟨fun h => ⟨h.number, h.set, h.icmpTypes⟩,
      fun ⟨number, set, types⟩ => ⟨number, set, types⟩⟩
  rw [shown, line?, matchRecord?]
  cases r.label? <;> cases Text.decimal? r.set <;> cases r.what.icmpTypes.mapM Text.decimal? <;>
    simp

end Rule

namespace Numbering

variable {rules : List Rule} {seen : List (Int × String)} {d : Diagnostics} {r : Rule} {p : Purpose}

/-! ### Showing a program -/

theorem lines_eq_none_iff : (lines rules).2 = none ↔ ∀ r ∈ rules, r.Showable := by
  induction rules with
  | nil => simp [lines]
  | cons r rest ih =>
      rw [List.forall_mem_cons, ← ih, ← Rule.isSome_line?_iff, lines]
      cases r.line? <;> simp

theorem lines_eq_some {stop : Stop} (h : (lines rules).2 = some stop) : stop = .longNumber := by
  induction rules with
  | nil => cases h
  | cons r rest ih =>
      rw [lines] at h
      cases line : r.line? with
      | none =>
          rw [line] at h
          exact (Option.some.inj h).symm
      | some text =>
          rw [line] at h
          exact ih h

theorem display_eq_none_iff {stage : String} :
    (display stage rules d).2 = none ↔ ∀ r ∈ rules, r.Showable := lines_eq_none_iff

theorem display_eq_some {stage : String} {stop : Stop} (h : (display stage rules d).2 = some stop) :
    stop = .longNumber := lines_eq_some h

/-! ### Checking it -/

theorem short_of_holds (held : p.band.holds r.set r.number = true) :
    Short r.number ∧ Short r.set := by
  obtain ⟨set, above, below⟩ : r.set = p.band.set ∧ p.band.base ≤ r.number ∧
      r.number ≤ p.band.last := by
    simpa [Band.holds, and_assoc] using held
  obtain ⟨positive, few, first, last⟩ := (by decide : ∀ p ∈ Purpose.all, 0 ≤ p.band.set ∧
    p.band.set < 100000 ∧ 0 ≤ p.band.base ∧ p.band.last < 100000) p p.mem_all
  exact ⟨Text.short_of_bounds (by omega) (by omega), Text.short_of_bounds (by omega) (by omega)⟩

theorem isSome_misplaced?_iff {b : Band} :
    (misplaced? r b).isSome ↔ Short r.number ∧ Short r.set := by
  rw [← Text.isSome_decimal?_iff, ← Text.isSome_decimal?_iff, misplaced?]
  cases Text.decimal? r.number <;> cases Text.decimal? r.set <;> simp

theorem isSome_faults?_iff : (faults? seen r p).isSome ↔ Short r.number ∧ Short r.set := by
  have number := Text.isSome_decimal?_iff (n := r.number)
  have place := isSome_misplaced?_iff (r := r) (b := p.band)
  rw [faults?]
  cases held : p.band.holds r.set r.number with
  | true =>
      obtain ⟨short, short'⟩ := short_of_holds held
      rw [Text.decimal?_of_short short]
      simp [short, short']
  | false =>
      cases named : Text.decimal? r.number <;> cases told : misplaced? r p.band <;> simp_all

/-- A check goes through a program in which all purposes are known and all it has to write can be
written. -/
theorem checkFrom_eq_none_iff (seen : List (Int × String)) (d : Diagnostics) (rules : List Rule) :
    (checkFrom seen d rules).2 = none ↔
      ∀ r ∈ rules, (∀ text, r.tag ≠ .unknown text) ∧ r.Checkable := by
  induction rules generalizing seen d with
  | nil => simp [checkFrom]
  | cons r rest ih =>
      have label := r.isSome_label?_iff
      rw [List.forall_mem_cons, checkFrom]
      cases tag : r.tag with
      | unknown text => simp
      | untagged =>
          have checkable : r.Checkable ↔ Short r.number :=
            ⟨Rule.Checkable.number, fun short => ⟨short, absurd tag⟩⟩
          rw [checkable, ← label]
          cases r.label? <;> simp [ih]
      | known p =>
          have faults : (faults? seen r p).isSome ↔ Short r.number ∧ Short r.set :=
            isSome_faults?_iff
          have checkable : r.Checkable ↔ (faults? seen r p).isSome := by
            rw [faults]
            exact ⟨fun h => ⟨h.number, h.set (by simp [tag])⟩, fun h => ⟨h.1, fun _ => h.2⟩⟩
          rw [checkable]
          cases found : faults? seen r p <;> cases named : r.label? <;> simp_all

theorem checkFrom_eq_some (known : ∀ r ∈ rules, ∀ text, r.tag ≠ .unknown text) {stop : Stop}
    (h : (checkFrom seen d rules).2 = some stop) : stop = .longNumber := by
  induction rules generalizing seen d with
  | nil => cases h
  | cons r rest ih =>
      rw [List.forall_mem_cons] at known
      rw [checkFrom] at h
      split at h
      · rename_i text tag
        exact absurd tag (known.1 text)
      · split at h
        · exact (Option.some.inj h).symm
        · exact ih known.2 h
      · split at h
        · exact ih known.2 h
        · exact (Option.some.inj h).symm

/-! ### Treating it -/

/-- The diagnostics with a program shown in them, where that is asked for. -/
def note (debugging : Bool) (d : Diagnostics) (stage : String) (rules : List Rule) : Diagnostics :=
  if debugging && !rules.isEmpty then (display stage rules d).1 else d

@[simp] theorem note_false (d : Diagnostics) (stage : String) (rules : List Rule) :
    note false d stage rules = d := rfl

@[simp] theorem note_nil (debugging : Bool) (d : Diagnostics) (stage : String) :
    note debugging d stage [] = d := by
  cases debugging <;> rfl

theorem note_eq (debugging : Bool) (d : Diagnostics) (stage : String) (rules : List Rule) :
    note debugging d stage rules =
      { d with notices := (note debugging d stage rules).notices } := by
  unfold note
  split <;> rfl

/-- What is said while a program is treated, by a chain whose first stage goes by the given name. -/
def said (name : String) (stealth debugging : Bool) (emitted : List Rule) : Diagnostics :=
  let silent := silence stealth emitted
  let begun := note debugging {} name emitted
  let d := (check (note debugging begun "stealth responses" silent) silent).1
  note debugging (note debugging d "check rule numbers" silent) "sort by rule number" (sort silent)

theorem forall_mem_silence_iff {P : Rule → Prop} (same : ∀ r : Rule, P r.silenced ↔ P r)
    (stealth : Bool) : (∀ r ∈ silence stealth rules, P r) ↔ ∀ r ∈ rules, P r := by
  cases stealth with
  | false => exact Iff.rfl
  | true => simp [silence, same]

theorem check_silence (stealth : Bool) (d : Diagnostics) :
    (check d (silence stealth rules)).2 = none ↔
      ∀ r ∈ rules, (∀ text, r.tag ≠ .unknown text) ∧ r.Checkable := by
  rw [check, checkFrom_eq_none_iff]
  refine forall_mem_silence_iff (fun r => ?_) stealth
  rw [Rule.silenced_tag, Rule.checkable_silenced_iff]

theorem check_silence_of_long (known : ∀ r ∈ rules, ∀ text, r.tag ≠ .unknown text)
    (long : ∃ r ∈ rules, ¬ r.Checkable) (stealth : Bool) (d : Diagnostics) :
    (check d (silence stealth rules)).2 = some .longNumber := by
  have known' : ∀ r ∈ silence stealth rules, ∀ text, r.tag ≠ .unknown text :=
    (forall_mem_silence_iff (fun r => by rw [Rule.silenced_tag]) stealth).mpr known
  cases stopped : (check d (silence stealth rules)).2 with
  | none =>
      obtain ⟨r, hr, long⟩ := long
      exact absurd ((check_silence stealth d).mp stopped r hr).2 long
  | some stop => rw [checkFrom_eq_some known' stopped]

/-- A program that can be checked and, with debugging on, shown. -/
def Writable (debugging : Bool) (rules : List Rule) : Prop :=
  ∀ r ∈ rules, r.Checkable ∧ (debugging = true → r.Showable)

instance (debugging : Bool) (rules : List Rule) : Decidable (Writable debugging rules) :=
  List.decidableBAll _ _

theorem Writable.checkable {debugging : Bool} (h : Writable debugging rules)
    (known : ∀ r ∈ rules, ∀ text, r.tag ≠ .unknown text) :
    ∀ r ∈ rules, (∀ text, r.tag ≠ .unknown text) ∧ r.Checkable :=
  fun r hr => ⟨known r hr, (h r hr).1⟩

/-- Where all that is written can be written, the treatment goes through. -/
theorem settle_eq (stealth : Bool) {debugging : Bool} {emitted : List Rule}
    (known : ∀ r ∈ emitted, ∀ text, r.tag ≠ .unknown text)
    (writable : Writable debugging emitted) :
    settle stealth debugging emitted =
      { rules := sort (silence stealth emitted),
        diagnostics := said "Begin compilation" stealth debugging emitted, stopped := none } := by
  have shown (stage : String) {rules : List Rule} (d : Diagnostics)
      (showable : debugging = true → ∀ r ∈ rules, r.Showable) :
      (if debugging && !rules.isEmpty then display stage rules d else (d, none)) =
        (note debugging d stage rules, none) := by
    unfold note
    split
    · rename_i wanted
      exact Prod.ext rfl (display_eq_none_iff.mpr (showable (Bool.and_eq_true_iff.mp wanted).1))
    · rfl
  have showable : debugging = true → ∀ r ∈ emitted, r.Showable :=
    fun debugs r hr => (writable r hr).2 debugs
  have silent : debugging = true → ∀ r ∈ silence stealth emitted, r.Showable := fun debugs =>
    (forall_mem_silence_iff (fun _ => Rule.showable_silenced_iff) stealth).mpr (showable debugs)
  have ordered : debugging = true → ∀ r ∈ sort (silence stealth emitted), r.Showable :=
    fun debugs r hr => silent debugs r ((sort_perm _).mem_iff.mp hr)
  have checked (d : Diagnostics) : check d (silence stealth emitted) =
      ((check d (silence stealth emitted)).1, none) :=
    Prod.ext rfl ((check_silence stealth d).mpr (writable.checkable known))
  simp only [settle, inTurn, shown _ _ showable, shown _ _ silent]
  rw [checked]
  simp only [shown _ _ ordered]
  rfl

end Numbering
end Firewall

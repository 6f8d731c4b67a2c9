import Mathlib.Data.List.Nodup
import Mathlib.Data.List.Pairwise
import Mathlib.Data.List.Perm.Subperm
import Firewall.Proofs.Ordering
import Firewall.Proofs.Placement

/-!
Numbers that belong to one owner each. A table is tested by comparing every range with the next one
in the order of their first numbers; no range is empty, so a range that reaches into any later one
reaches into the next, and the test finds every overlap.
-/

namespace Firewall

/-! ### Neighbours in the order of their first numbers -/

section

variable {α : Type} (first last : α → Int)

/-- The first range that begins within its predecessor, with the latter. -/
def intruder? : List α → Option (α × α)
  | lower :: upper :: rest =>
    if first upper ≤ last lower then some (upper, lower) else intruder? (upper :: rest)
  | _ => none

/-- No number is in both ranges. -/
def Disjointed (a b : α) : Prop :=
  ∀ n, first a ≤ n → n ≤ last a → ¬ (first b ≤ n ∧ n ≤ last b)

variable {first last} {xs : List α} {a b : α}

theorem Disjointed.symm (h : Disjointed first last a b) : Disjointed first last b a :=
  fun n lower upper both => h n both.1 both.2 ⟨lower, upper⟩

instance : Std.Symm (Disjointed first last) := ⟨fun _ _ h => h.symm⟩

theorem disjointed_iff_min_lt_max :
    Disjointed first last a b ↔ min (last a) (last b) < max (first a) (first b) := by
  constructor
  · intro apart
    by_contra reaches
    exact apart (max (first a) (first b)) (by omega) (by omega) (by omega)
  · intro behind n _ within both
    omega

instance : DecidableRel (Disjointed first last) := fun _ _ =>
  decidable_of_iff _ disjointed_iff_min_lt_max.symm

/-- Of two ranges that are not empty, the one that begins later begins behind the other one. -/
theorem disjointed_iff (some_ : first b ≤ last b) (order : first a ≤ first b) :
    Disjointed first last a b ↔ last a < first b := by
  rw [disjointed_iff_min_lt_max]
  omega

theorem intruder?_eq_none_iff (some_ : ∀ a ∈ xs, first a ≤ last a)
    (sorted : xs.Pairwise fun a b => first a ≤ first b) :
    intruder? first last xs = none ↔ xs.Pairwise (Disjointed first last) := by
  induction xs with
  | nil => simp [intruder?]
  | cons lower rest ih =>
      cases rest with
      | nil => simp [intruder?]
      | cons upper rest =>
          rw [List.forall_mem_cons] at some_
          rw [List.pairwise_cons] at sorted ⊢
          rw [← ih some_.2 sorted.2, intruder?]
          have upper_mem := List.mem_cons_self (a := upper) (l := rest)
          have next := disjointed_iff (some_.2 upper upper_mem) (sorted.1 upper upper_mem)
          by_cases within : first upper ≤ last lower
          · have meets : ¬ Disjointed first last lower upper := fun apart => by
              have behind := next.mp apart
              omega
            simp [within, meets]
          · -- What begins behind the next range begins behind this one.
            have behind : ∀ b ∈ upper :: rest, Disjointed first last lower b := by
              intro b hb
              refine (disjointed_iff (some_.2 b hb) (sorted.1 b hb)).mpr ?_
              have order : first upper ≤ first b := by
                rcases List.mem_cons.mp hb with rfl | hb
                · exact Int.le_refl _
                · exact (List.pairwise_cons.mp sorted.2).1 b hb
              omega
            rw [if_neg within]
            exact ⟨fun none_ => ⟨behind, none_⟩, fun all => all.2⟩

theorem intruder?_eq_some {upper lower : α} (some_ : ∀ a ∈ xs, first a ≤ last a)
    (sorted : xs.Pairwise fun a b => first a ≤ first b)
    (found : intruder? first last xs = some (upper, lower)) :
    [lower, upper].Sublist xs ∧ ¬ Disjointed first last lower upper := by
  induction xs with
  | nil => cases found
  | cons a rest ih =>
      cases rest with
      | nil => cases found
      | cons b rest =>
          rw [intruder?] at found
          split at found
          · rename_i within
            cases found
            refine ⟨by simp, fun apart => ?_⟩
            have behind := (disjointed_iff (some_ upper (by simp))
              ((List.pairwise_cons.mp sorted).1 upper (by simp))).mp apart
            omega
          · obtain ⟨within, meets⟩ :=
              ih (List.forall_mem_cons.mp some_).2 (List.pairwise_cons.mp sorted).2 found
            exact ⟨within.cons a, meets⟩

/-- The test of a list whose ranges stand in any order. -/
theorem intruder?_mergeSort_eq_none_iff (some_ : ∀ a ∈ xs, first a ≤ last a) :
    intruder? first last (xs.mergeSort fun a b => first a ≤ first b) = none ↔
      xs.Pairwise (Disjointed first last) := by
  have perm := List.mergeSort_perm xs fun a b => first a ≤ first b
  rw [intruder?_eq_none_iff (fun a ha => some_ a (perm.subset ha))
    (pairwise_mergeSort_by first xs)]
  exact perm.pairwise_iff Disjointed.symm

end

/-! ### Bands -/

namespace Band

variable {bands xs : List Band} {a b : Band} {seen : List Purpose} {p : Purpose} {i j : Option Int}
  {n : Int}

theorem firstOverlap?_eq (xs : List Band) : firstOverlap? xs = intruder? base last xs := by
  induction xs with
  | nil => rfl
  | cons lower rest ih =>
      cases rest with
      | nil => rfl
      | cons upper rest => rw [firstOverlap?, intruder?, ih]

theorem firstDuplicate?_eq_none_iff : firstDuplicate? seen xs = none ↔
    (xs.map (·.purpose)).Nodup ∧ ∀ b ∈ xs, b.purpose ∉ seen := by
  induction xs generalizing seen with
  | nil => simp [firstDuplicate?]
  | cons b rest ih =>
      rw [firstDuplicate?, List.map_cons, List.nodup_cons, List.forall_mem_cons]
      by_cases known : b.purpose ∈ seen
      · simp [known]
      · simp only [List.contains_eq_mem, known, decide_false, Bool.false_eq_true, if_false, ih,
          List.mem_cons, not_or, List.mem_map, not_exists, not_and, forall_and]
        tauto

/-- A purpose that is found twice stands at two places. -/
theorem two_le_count_of_firstDuplicate? (found : firstDuplicate? seen xs = some p) :
    2 ≤ seen.count p + (xs.map (·.purpose)).count p := by
  induction xs generalizing seen with
  | nil => cases found
  | cons b rest ih =>
      rw [firstDuplicate?] at found
      split at found
      · rename_i known
        cases found
        have earlier : 0 < seen.count b.purpose := List.count_pos_iff.mpr (by simpa using known)
        rw [List.map_cons, List.count_cons_self]
        omega
      · have later := ih found
        rw [List.map_cons]
        rw [List.count_cons] at later ⊢
        omega

/-- The bands in the order of their numbers. -/
def ordered (bands : List Band) : List Band := bands.mergeSort fun a b => a.base ≤ b.base

theorem ordered_perm (bands : List Band) : (ordered bands).Perm bands :=
  List.mergeSort_perm bands _

theorem firstOverlap?_ordered_eq_none_iff :
    firstOverlap? (ordered bands) = none ↔ bands.Pairwise (Disjointed base last) := by
  rw [firstOverlap?_eq]
  exact intruder?_mergeSort_eq_none_iff fun b _ => b.base_le_last

theorem firstDuplicate?_ordered_eq_none_iff :
    firstDuplicate? [] (ordered bands) = none ↔ (bands.map (·.purpose)).Nodup := by
  rw [firstDuplicate?_eq_none_iff, ((ordered_perm bands).map (·.purpose)).nodup_iff]
  simp

theorem check_eq_ok_iff {table : List Band} : check bands = .ok table ↔
    ordered bands = table ∧ bands.Pairwise (Disjointed base last) ∧
      (bands.map (·.purpose)).Nodup := by
  rw [← firstOverlap?_ordered_eq_none_iff, ← firstDuplicate?_ordered_eq_none_iff, check, ordered]
  cases firstOverlap? (bands.mergeSort fun a b => a.base ≤ b.base) with
  | some found => simp
  | none => cases firstDuplicate? [] (bands.mergeSort fun a b => a.base ≤ b.base) <;> simp

theorem fault_of_check {fault : Fault} (failed : check bands = .error fault) :
    (∃ upper lower, fault = .overlap upper lower ∧ [lower, upper].Subperm bands ∧
        ¬ Disjointed base last lower upper) ∨
      ∃ p, fault = .duplicate p ∧ 2 ≤ (bands.map (·.purpose)).count p := by
  rw [check, ← ordered] at failed
  cases overlap : firstOverlap? (ordered bands) with
  | some found =>
      obtain ⟨upper, lower⟩ := found
      simp only [overlap, Except.error.injEq] at failed
      rw [firstOverlap?_eq] at overlap
      obtain ⟨within, meets⟩ := intruder?_eq_some (fun b _ => b.base_le_last)
        (pairwise_mergeSort_by base bands) overlap
      have among := within.subperm.trans (ordered_perm bands).subperm
      exact .inl ⟨upper, lower, failed.symm, among, meets⟩
  | none =>
      cases duplicate : firstDuplicate? [] (ordered bands) with
      | some p =>
          simp only [overlap, duplicate, Except.error.injEq] at failed
          have twice := two_le_count_of_firstDuplicate? duplicate
          rw [((ordered_perm bands).map (·.purpose)).count_eq] at twice
          exact .inr ⟨p, failed.symm, by simpa using twice⟩
      | none => simp [overlap, duplicate] at failed

/-- The band of a purpose in a table that has no purpose twice. -/
theorem find?_purpose_eq_some_iff {table : List Band} (nodup : (table.map (·.purpose)).Nodup) :
    table.find? (fun b => b.purpose = p) = some b ↔ b ∈ table ∧ b.purpose = p := by
  constructor
  · intro found
    exact ⟨List.mem_of_find?_eq_some found, by simpa using List.find?_some found⟩
  · rintro ⟨hb, rfl⟩
    have some_ : (table.find? fun c => c.purpose = b.purpose).isSome :=
      List.find?_isSome.mpr ⟨b, hb, decide_eq_true rfl⟩
    obtain ⟨c, found⟩ := Option.isSome_iff_exists.mp some_
    have purpose : c.purpose = b.purpose := by simpa using List.find?_some found
    rw [found, List.inj_on_of_nodup_map nodup (List.mem_of_find?_eq_some found) hb purpose]

/-- Bands that share no number and no purpose give no number to two rules. -/
theorem eq_of_number_eq (apart : bands.Pairwise (Disjointed base last)) (ha : a ∈ bands)
    (hb : b ∈ bands) (left : a.number i = .ok n) (right : b.number j = .ok n) : a = b ∧ i = j := by
  have inA := within_of_number left
  have inB := within_of_number right
  have same : a = b := by
    by_contra differ
    exact apart.forall ha hb differ n inA.1 inA.2 inB
  subst same
  exact ⟨rfl, index_eq_of_number left right⟩

end Band

theorem IdRange.firstOverlap?_eq (xs : List IdRange) :
    firstOverlap? xs = intruder? first last xs := by
  induction xs with
  | nil => rfl
  | cons lower rest ih =>
      cases rest with
      | nil => rfl
      | cons upper rest => rw [firstOverlap?, intruder?, ih]

theorem IdRange.check_eq_ok_iff {ranges : List IdRange} (some_ : ∀ r ∈ ranges, r.first ≤ r.last) :
    check ranges = .ok () ↔ ranges.Pairwise (Disjointed first last) := by
  rw [← intruder?_mergeSort_eq_none_iff some_, check, firstOverlap?_eq]
  cases intruder? first last (ranges.mergeSort fun a b => a.first ≤ b.first) <;> simp

namespace Band

/-- Bands are accepted exactly when no number is in two of them and no purpose has two. The table
then holds these bands and no others, each under its purpose, and no number is given to two
purposes or to two indices of one. Any other list is refused for an overlap or a duplicate that it
has. Ranges of identifiers that are not empty are accepted exactly when no identifier is in two of
them. -/
theorem check_separates (bands : List Band) (ranges : List IdRange) :
    ((∃ table, check bands = .ok table) ↔
        bands.Pairwise (Disjointed base last) ∧ (bands.map (·.purpose)).Nodup) ∧
      (∀ table, check bands = .ok table →
        table.Perm bands ∧
        (∀ p b, table.find? (fun b => b.purpose = p) = some b ↔ b ∈ bands ∧ b.purpose = p) ∧
        ∀ a ∈ table, ∀ b ∈ table, ∀ i j n m, a.number i = .ok n → b.number j = .ok m →
          (a.purpose, i) ≠ (b.purpose, j) → n ≠ m) ∧
      (∀ fault, check bands = .error fault →
        (∃ upper lower, fault = .overlap upper lower ∧ [lower, upper].Subperm bands ∧
          ¬ Disjointed base last lower upper) ∨
        ∃ p, fault = .duplicate p ∧ 2 ≤ (bands.map (·.purpose)).count p) ∧
      ((∀ r ∈ ranges, r.first ≤ r.last) →
        (IdRange.check ranges = .ok () ↔
          ranges.Pairwise (Disjointed IdRange.first IdRange.last))) := by
  refine ⟨?_, ?_, fun fault => fault_of_check, IdRange.check_eq_ok_iff⟩
  · simp [check_eq_ok_iff]
  · intro table accepted
    obtain ⟨rfl, apart, nodup⟩ := check_eq_ok_iff.mp accepted
    have perm := ordered_perm bands
    refine ⟨perm, fun p b => ?_, fun a ha b hb i j n m left right differ same => ?_⟩
    · rw [find?_purpose_eq_some_iff ((perm.map (·.purpose)).nodup_iff.mpr nodup), perm.mem_iff]
    · subst same
      obtain ⟨rfl, rfl⟩ :=
        eq_of_number_eq apart (perm.subset ha) (perm.subset hb) left right
      exact differ rfl

/-- Bands that meet without a gap, the last of them first, and one far below them. -/
def meeting : List Band :=
  [⟨3, .macUdp, 3110, false⟩, ⟨3, .macTcp, 3100, true⟩, ⟨0, .loopback, -7, false⟩]

/-- The identifiers of pipes. -/
def pipeIds : List IdRange :=
  [ ⟨"inbound pipe", inboundPipe 0, inboundPipe 9⟩,
    ⟨"outbound pipe", outboundPipe 0, outboundPipe 9⟩,
    ⟨"syn pipe", synPipe, synPipe⟩, ⟨"rst delay pipe", rstDelayPipe, rstDelayPipe⟩,
    ⟨"inbound icmp pipe", icmpInPipe, icmpInPipe⟩,
    ⟨"outbound icmp pipe", icmpOutPipe, icmpOutPipe⟩ ]

theorem check_separates_meeting :
    (∃ table, check meeting = .ok table ∧
        table.find? (fun b => b.purpose = .macTcp) = some ⟨3, .macTcp, 3100, true⟩) ∧
      IdRange.check pipeIds = .ok () := by
  obtain ⟨accepted, held, -, ids⟩ := check_separates meeting pipeIds
  obtain ⟨table, found⟩ := accepted.mpr (by decide)
  exact ⟨⟨table, found, ((held table found).2.1 _ _).mpr (by decide)⟩,
    (ids (by decide)).mpr (by decide)⟩

end Band
end Firewall

import Firewall.Proofs.Listing
import Firewall.Proofs.Retuning
import Firewall.Proofs.Rounding

/-!
Bandwidths in whole numbers. A number and its unit are read however they are spelled, and as long
as the bits per second keep to the whole numbers that doubles have, none of them is lost.
-/

namespace Firewall

/-! ### Blanks around a text -/

namespace Text

variable {p : Char → Bool} {c : Char} {lead core trail : List Char}

/-- What stands before a text goes, and so does the end of what stands behind it, while the text
stays if its own ends are none of it. -/
theorem trimBy_append (before : ∀ c ∈ lead, p c = true) (first : ∃ c ∈ core.head?, p c = false)
    (last : ∃ c ∈ core.getLast?, p c = false) (trail : List Char) :
    trimBy p (lead ++ core ++ trail) = core ++ (trail.reverse.dropWhile p).reverse := by
  obtain ⟨c, head, begins⟩ := first
  obtain ⟨d, final, ends⟩ := last
  have opened : (lead ++ core ++ trail).dropWhile p = core ++ trail := by
    refine (cut_iff.mpr ⟨List.append_assoc .., before, ?_⟩).2
    rw [List.head?_append, Option.mem_def.mp head]
    rintro _ ⟨⟩
    exact begins
  have kept : ∀ c ∈ core.reverse.head?, p c = false := by
    rw [List.head?_reverse, Option.mem_def.mp final]
    rintro _ ⟨⟩
    exact ends
  have closed : core.reverse.takeWhile p = [] ∧ core.reverse.dropWhile p = core.reverse :=
    cut_iff.mpr ⟨rfl, List.forall_mem_nil _, kept⟩
  rw [trimBy, opened, List.reverse_append, List.dropWhile_append, closed.2]
  split
  · rename_i none
    simp [List.isEmpty_iff.mp none]
  · simp

theorem trimBy_surrounded (before : ∀ c ∈ lead, p c = true) (behind : ∀ c ∈ trail, p c = true)
    (first : ∃ c ∈ core.head?, p c = false) (last : ∃ c ∈ core.getLast?, p c = false) :
    trimBy p (lead ++ core ++ trail) = core := by
  have none : trail.reverse.dropWhile p = [] :=
    List.dropWhile_eq_nil_iff.mpr (by simpa using behind)
  rw [trimBy_append before first last, none, List.reverse_nil, List.append_nil]

theorem isDigit_of_isBlank (h : isBlank c = true) : isDigit c = false := by
  rw [← Bool.not_eq_true, isDigit, digit?, List.findSome?_isSome_iff]
  rintro ⟨first, listed, within⟩
  have apart := (by decide : ∀ first ∈ digitZeros, 32 < first ∧
    (first + 10 ≤ 0x85 ∨ 0xa0 < first) ∧ (first + 10 ≤ 0x1680 ∨ 0x1680 < first) ∧
    (first + 10 ≤ 0x2000 ∨ 0x205f < first) ∧ (first + 10 ≤ 0x3000 ∨ 0x3000 < first)) first listed
  split at within
  · simp only [isBlank, Bool.or_eq_true, Bool.and_eq_true, decide_eq_true_eq, beq_iff_eq] at h
    omega
  · cases within

end Text

theorem Ports.decimal_toDigits (n : Nat) : Decimal (Nat.toDigits 10 n) n where
  filled := Nat.toDigits_ne_nil
  ascii _ hc := Nat.isDigit_of_mem_toDigits (by decide) (by decide) hc
  value := Nat.ofDigitChars_ten_toDigits

namespace Rate

open Text

variable {cs digits fraction gap unit : List Char} {c : Char} {thousands n factor : Nat}
  {bytes : Bool}

/-! ### Units -/

def multiples : List (List Char × Nat) :=
  [([], 1), (['K'], 1000), (['k'], 1000), (['M'], 1000000), (['m'], 1000000)]

/-- What is counted, with its bits. -/
def kinds : List (List Char × Nat) :=
  [(['b', 'i', 't'], 1), (['B', 'y', 't', 'e'], 8), (['b', 'y', 't', 'e'], 8)]

def endings : List (List Char) := [['/', 's'], ['s', '/', 's']]

/-- A unit as it is written, and the bits per second that it is. -/
inductive Names : List Char → Nat → Prop
  | bits : Names [] 1
  | unit (multiple kind : List Char × Nat) (ending : List Char) (counted : multiple ∈ multiples)
      (measured : kind ∈ kinds) (ends : ending ∈ endings) :
      Names (multiple.1 ++ kind.1 ++ ending) (multiple.2 * kind.2)

def bitsOf (bytes : Bool) : Nat := if bytes then 8 else 1

theorem multiple_of_multiplier? (h : multiplier? c = some factor) : ([c], factor) ∈ multiples := by
  unfold multiplier? at h
  split at h
  all_goals simp_all [multiples]

/-- The units that are read are those that have a name. -/
theorem unit?_eq_some_iff :
    (∃ thousands bytes, unit? cs = some (thousands, bytes) ∧ factor = thousands * bitsOf bytes) ↔
      Names cs factor := by
  constructor
  · rintro ⟨thousands, bytes, read, rfl⟩
    unfold unit? at read
    extract_lets kind? at read
    have measured {cs : List Char} {bytes : Bool} (h : kind? cs = some bytes) :
        ∃ kind ∈ kinds, ∃ ending ∈ endings, cs = kind.1 ++ ending ∧ kind.2 = bitsOf bytes := by
      simp only [kind?] at h
      split at h
      · split at h
        · rename_i ending
          cases h
          exact ⟨(['b', 'i', 't'], 1), by simp [kinds], _, by simpa [endings, or_comm] using ending,
            rfl, rfl⟩
        · cases h
      · split at h
        · rename_i letter _ spelled
          cases h
          exact ⟨([letter, 'y', 't', 'e'], 8), by simpa [kinds] using spelled.1, _,
            by simpa [endings, or_comm] using spelled.2, rfl, rfl⟩
        · cases h
      · cases h
    split at read
    · cases read
      exact .bits
    · split at read
      · rename_i factor counted
        obtain ⟨_, kind, read⟩ := Option.map_eq_some_iff.mp read
        cases read
        obtain ⟨kind, hkind, ending, hending, rfl, bits⟩ := measured kind
        rw [← bits]
        exact .unit _ _ ending (multiple_of_multiplier? counted) hkind hending
      · obtain ⟨_, kind, read⟩ := Option.map_eq_some_iff.mp read
        cases read
        obtain ⟨kind, hkind, ending, hending, same, bits⟩ := measured kind
        rw [same, ← bits]
        exact .unit ([], 1) _ ending List.mem_cons_self hkind hending
  · intro named
    cases named with
    | bits => exact ⟨1, false, rfl, rfl⟩
    | unit _ _ _ counted measured ends =>
        have table : ∀ multiple ∈ multiples, ∀ kind ∈ kinds, ∀ ending ∈ endings,
            unit? (multiple.1 ++ kind.1 ++ ending) = some (multiple.2, kind.2 == 8) ∧
              kind.2 = bitsOf (kind.2 == 8) := by decide
        obtain ⟨read, bits⟩ := table _ counted _ measured _ ends
        exact ⟨_, _, read, by rw [← bits]⟩

theorem Names.pos (named : Names cs factor) : 0 < factor := by
  cases named with
  | bits => exact Nat.one_pos
  | unit _ _ _ counted measured _ =>
      have table : ∀ multiple ∈ multiples, ∀ kind ∈ kinds, 0 < multiple.2 * kind.2 := by decide
      exact table _ counted _ measured

/-- A unit begins with none of the characters of a number or of what stands behind it, and it does
not end in a blank. -/
theorem Names.ends (named : Names cs factor) :
    (∀ c ∈ cs.head?, isDigit c = false ∧ isBlank c = false ∧ c ≠ '.') ∧
      ∀ c ∈ cs.getLast?, isBlank c = false := by
  cases named with
  | bits => exact ⟨nofun, nofun⟩
  | unit _ _ _ counted measured ends =>
      have table : ∀ multiple ∈ multiples, ∀ kind ∈ kinds, ∀ ending ∈ endings,
          (multiple.1 ++ kind.1 ++ ending).head?.all
            (fun c => !isDigit c && !isBlank c && c ≠ '.') = true ∧
          (multiple.1 ++ kind.1 ++ ending).getLast?.all (!isBlank ·) = true := by decide
      obtain ⟨first, last⟩ := table _ counted _ measured _ ends
      rw [Option.all_eq_true] at first last
      exact ⟨fun c hc => by simpa [and_assoc] using first c hc,
        fun c hc => by simpa using last c hc⟩

/-! ### Numbers with a unit -/

/-- What follows a number ends it. -/
theorem Names.head?_behind (named : Names unit factor) (blank : ∀ c ∈ gap, isBlank c = true) :
    ∀ c ∈ (gap ++ unit).head?, isDigit c = false ∧ c ≠ '.' := by
  cases gap with
  | nil => exact fun c hc => ⟨(named.ends.1 c hc).1, (named.ends.1 c hc).2.2⟩
  | cons b rest =>
      rintro _ ⟨⟩
      have first := blank b List.mem_cons_self
      refine ⟨isDigit_of_isBlank first, ?_⟩
      rintro rfl
      cases first

theorem Names.dropWhile_behind (named : Names unit factor)
    (blank : ∀ c ∈ gap, isBlank c = true) : (gap ++ unit).dropWhile isBlank = unit :=
  (cut_iff.mpr ⟨rfl, blank, fun c hc => (named.ends.1 c hc).2.1⟩).2

theorem reading?_of_whole (filled : digits ≠ []) (all : ∀ c ∈ digits, isDigit c = true)
    (blank : ∀ c ∈ gap, isBlank c = true) (named : Names unit factor) :
    ∃ r, reading? (digits ++ (gap ++ unit)) = some r ∧ r.whole = digits ∧ r.fraction = [] ∧
      r.thousands * bitsOf r.bytes = factor := by
  obtain ⟨thousands, bytes, read, rfl⟩ := unit?_eq_some_iff.mpr named
  obtain ⟨head, tail⟩ := cut_iff.mpr ⟨rfl, all, fun c hc => (named.head?_behind blank c hc).1⟩
  refine ⟨⟨digits, [], thousands, bytes⟩, ?_, rfl, rfl, rfl⟩
  simp only [reading?, head, tail, List.isEmpty_iff, filled, if_false]
  split
  · rename_i point
    have first := named.head?_behind blank '.' (by rw [point]; rfl)
    exact absurd rfl first.2
  · rw [named.dropWhile_behind blank, read]
    rfl

theorem reading?_of_fraction (filled : digits ≠ []) (all : ∀ c ∈ digits, isDigit c = true)
    (filled' : fraction ≠ []) (all' : ∀ c ∈ fraction, isDigit c = true)
    (blank : ∀ c ∈ gap, isBlank c = true) (named : Names unit factor) :
    ∃ r, reading? (digits ++ '.' :: (fraction ++ (gap ++ unit))) = some r ∧ r.whole = digits ∧
      r.fraction = fraction ∧ r.thousands * bitsOf r.bytes = factor := by
  obtain ⟨thousands, bytes, read, rfl⟩ := unit?_eq_some_iff.mpr named
  obtain ⟨head, tail⟩ := cut_append_cons '.' (fraction ++ (gap ++ unit)) all rfl
  obtain ⟨head', tail'⟩ := cut_iff.mpr ⟨rfl, all', fun c hc => (named.head?_behind blank c hc).1⟩
  refine ⟨⟨digits, fraction, thousands, bytes⟩, ?_, rfl, rfl, rfl⟩
  simp only [reading?, head, tail, head', tail', List.isEmpty_iff, filled, filled', if_false,
    named.dropWhile_behind blank, read]
  rfl

/-- Doubles give the bits of a whole number exactly while these are at most `2 ^ 53`. -/
theorem bits?_of_whole {r : Reading}
    (whole : ofDigits (r.whole ++ r.fraction) = n * 10 ^ r.fraction.length)
    (some_ : 0 < r.thousands * bitsOf r.bytes)
    (small : n * (r.thousands * bitsOf r.bytes) ≤ 2 ^ 53) :
    r.bits? = some (n * (r.thousands * bitsOf r.bytes)) := by
  have number : (Binary64.ofDecimal (ofDigits (r.whole ++ r.fraction))
      (-(r.fraction.length : Int))).Is n :=
    Binary64.is_ofDecimal whole ((Nat.le_mul_of_pos_right n some_).trans small)
  rw [← Nat.mul_assoc] at small ⊢
  unfold Reading.bits?
  cases bytes : r.bytes with
  | false =>
      rw [bytes, bitsOf, if_neg (by decide), Nat.mul_one] at small
      have scaled := number.scale small
      simpa [bitsOf] using scaled.round?
  | true =>
      rw [bytes, bitsOf, if_pos rfl] at small
      have first := number.scale ((Nat.le_mul_of_pos_right _ (by decide)).trans small)
      have scaled := first.scale small
      simpa [bitsOf] using scaled.round?

theorem toBits_of_reading? {text : String} {r : Reading}
    (read : reading? (strip text).toList = some r)
    (whole : ofDigits (r.whole ++ r.fraction) = n * 10 ^ r.fraction.length)
    (weight : r.thousands * bitsOf r.bytes = factor) (some_ : 0 < factor)
    (small : n * factor ≤ 2 ^ 53) : toBits text = .ok (n * factor) := by
  subst weight
  simp only [toBits, read, bits?_of_whole whole some_ small]

/-- A text that spells a whole number and its unit, with blanks around them. -/
inductive Spells : String → Nat → Nat → Prop
  | intro (lead gap trail : List Char) {digits unit : List Char} {n factor : Nat}
      (number : Ports.Decimal digits n) (named : Names unit factor)
      (blank : ∀ c ∈ lead ++ gap ++ trail, isBlank c = true) :
      Spells (String.ofList (lead ++ digits ++ gap ++ unit ++ trail)) n factor

/-- What is left of such a text without the blanks at its ends: the number, perhaps blanks, and the
unit. -/
theorem Spells.strip_eq {text : String} (spells : Spells text n factor) :
    ∃ digits gap unit, strip text = String.ofList (digits ++ (gap ++ unit)) ∧
      Ports.Decimal digits n ∧ Names unit factor ∧ ∀ c ∈ gap, isBlank c = true := by
  obtain @⟨lead, gap, trail, digits, unit, _, _, number, named, blank⟩ := spells
  simp only [List.forall_mem_append] at blank
  obtain ⟨d, rest, filled⟩ := List.exists_cons_of_ne_nil number.filled
  have digit : ∀ c ∈ digits, isBlank c = false := fun c hc => isBlank_of_ascii (number.ascii c hc)
  have begins : isBlank d = false := digit d (filled ▸ List.mem_cons_self)
  cases unit with
  | nil =>
      -- The blanks behind the number are at the end of the text, too.
      refine ⟨digits, [], [], ?_, number, named, List.forall_mem_nil _⟩
      obtain ⟨last, ends⟩ := List.getLast?_isSome.mpr number.filled |> Option.isSome_iff_exists.mp
      rw [strip, String.toList_ofList, trim]
      congr 1
      have regroup : lead ++ digits ++ gap ++ [] ++ trail = lead ++ digits ++ (gap ++ trail) := by
        simp
      rw [regroup, trimBy_surrounded blank.1.1 (List.forall_mem_append.mpr ⟨blank.1.2, blank.2⟩)
        ⟨d, by rw [filled]; rfl, begins⟩ ⟨last, ends, digit last (List.mem_of_getLast? ends)⟩]
      simp
  | cons u us =>
      refine ⟨digits, gap, u :: us, ?_, number, named, blank.1.2⟩
      obtain ⟨last, ends⟩ :=
        Option.isSome_iff_exists.mp (List.getLast?_isSome.mpr (List.cons_ne_nil u us))
      rw [strip, String.toList_ofList, trim]
      congr 1
      have regroup : lead ++ digits ++ gap ++ (u :: us) ++ trail =
          lead ++ (digits ++ (gap ++ u :: us)) ++ trail := by
        simp
      rw [regroup, trimBy_surrounded blank.1.1 blank.2 ⟨d, by rw [filled]; rfl, begins⟩
        ⟨last, by simp [List.getLast?_append, ends], named.ends.2 last ends⟩]

theorem Spells.strip {text : String} (spells : Spells text n factor) :
    Spells (Text.strip text) n factor := by
  obtain ⟨digits, gap, unit, stripped, number, named, blank⟩ := spells.strip_eq
  have spelled := Spells.intro [] gap [] number named (by simpa using blank)
  rw [stripped]
  simpa using spelled

theorem Spells.exists_reading {text : String} (spells : Spells text n factor) :
    ∃ r, reading? (Text.strip text).toList = some r ∧
      ofDigits (r.whole ++ r.fraction) = n * 10 ^ r.fraction.length ∧
      r.thousands * bitsOf r.bytes = factor ∧ 0 < factor := by
  obtain ⟨digits, gap, unit, stripped, number, named, blank⟩ := spells.strip_eq
  obtain ⟨r, read, whole, fraction, weight⟩ := reading?_of_whole number.filled
    (fun c hc => isDigit_of_ascii (number.ascii c hc)) blank named
  refine ⟨r, by rw [stripped, String.toList_ofList, read], ?_, weight, named.pos⟩
  rw [whole, fraction, List.append_nil, Ports.ofDigits_of_ascii number.ascii, number.value]
  simp

theorem Spells.toBits {text : String} (spells : Spells text n factor)
    (small : n * factor ≤ 2 ^ 53) : Rate.toBits text = .ok (n * factor) := by
  obtain ⟨r, read, whole, weight, some_⟩ := spells.exists_reading
  exact toBits_of_reading? read whole weight some_ small

theorem comesTo_thousands (small : 1000 * n ≤ 2 ^ 53) : ComesTo n (1000 * n) := by
  rcases Nat.eq_zero_or_pos n with rfl | some_
  · have spells : Spells unlimited 0 1 :=
      .intro [] [] [] (Ports.decimal_toDigits 0) .bits (List.forall_mem_nil _)
    exact ⟨unlimited, rfl, spells.toBits (by decide)⟩
  · have named : Names "Kbit/s".toList 1000 :=
      .unit (['K'], 1000) ("bit".toList, 1) "/s".toList (by decide) (by decide) (by decide)
    have spells := Spells.intro [] [] [] (Ports.decimal_toDigits n) named (List.forall_mem_nil _)
    have short : Text.Short n := Text.short_of_lt (k := 16) (by decide) (by omega)
    refine ⟨toString (n : Int) ++ "Kbit/s", ?_, ?_⟩
    · rw [ofKbps_of_short short, if_neg (by omega)]
    · rw [Nat.mul_comm] at small ⊢
      have written : toString (n : Int) ++ "Kbit/s" =
          String.ofList ([] ++ Nat.toDigits 10 n ++ [] ++ "Kbit/s".toList ++ []) := by
        have number : (toString (n : Int)).toList = Nat.toDigits 10 n := toList_natCast n
        rw [← String.toList_inj, String.toList_append, String.toList_ofList, number]
        simp
      rw [written]
      exact spells.toBits small

/-- A whole number with its unit is read with any blanks and any spelling, and comes to the product
of both as long as that is at most `2 ^ 53`; no other units are read. -/
theorem toBits_of_spells {text : String} (spells : Spells text n factor) :
    (∃ value, parse text = .ok value ∧ (n * factor ≤ 2 ^ 53 →
      toBits text = .ok (n * factor) ∧ toBits value = .ok (n * factor))) ∧
    ∀ cs, (unit? cs).isSome ↔ ∃ factor, Names cs factor := by
  refine ⟨⟨strip text, ?_, fun small => ⟨spells.toBits small, spells.strip.toBits small⟩⟩,
    fun cs => ⟨fun known => ?_, fun ⟨factor, named⟩ => ?_⟩⟩
  · obtain ⟨r, read, -⟩ := spells.exists_reading
    simp only [parse, read, Option.isSome_some, if_true]
  · obtain ⟨⟨thousands, bytes⟩, read⟩ := Option.isSome_iff_exists.mp known
    exact ⟨_, unit?_eq_some_iff.mp ⟨thousands, bytes, read, rfl⟩⟩
  · obtain ⟨thousands, bytes, read, -⟩ := unit?_eq_some_iff.mpr named
    rw [read]
    rfl

/-- The largest number of bytes whose bits doubles still count one by one. -/
theorem toBits_of_spells_bytes :
    ∃ value, parse "\t0001125899906842624  bytes/s\n" = .ok value ∧
      toBits "\t0001125899906842624  bytes/s\n" = .ok (2 ^ 53) ∧ toBits value = .ok (2 ^ 53) := by
  have number : Ports.Decimal "0001125899906842624".toList 1125899906842624 :=
    ⟨by decide, List.all_eq_true.mp rfl, by decide⟩
  have named : Names "bytes/s".toList 8 :=
    .unit ([], 1) ("byte".toList, 8) "s/s".toList (by decide) (by decide) (by decide)
  have spells : Spells "\t0001125899906842624  bytes/s\n" 1125899906842624 8 :=
    .intro ['\t'] [' ', ' '] ['\n'] number named (List.all_eq_true.mp rfl)
  obtain ⟨⟨value, parsed, bits⟩, -⟩ := toBits_of_spells spells
  exact ⟨value, parsed, bits (by decide)⟩

end Rate
end Firewall

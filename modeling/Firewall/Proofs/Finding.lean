import Firewall.Ipfw.PipeListing
import Firewall.Proofs.Gauging

/-!
Pipes found in a listing. Among whatever other lines, a pipe is found by its number and by no part
of it, with the bandwidth that the same number of Kbit/s comes to where it is asked for.
-/

namespace Firewall.Ipfw

open Text

/-! ### Listings -/

/-- A pipe that is listed: its number, and its limit in Kbit/s if it has one. -/
structure PipeEntry where
  id : Nat
  kbps : Option Nat
deriving DecidableEq, Repr

namespace PipeEntry

variable {p : PipeEntry}

def digits (p : PipeEntry) : List Char := Nat.toDigits 10 p.id

def bandwidth (p : PipeEntry) : List Char :=
  match p.kbps with
  | none => "unlimited".toList
  | some n => Nat.toDigits 10 n ++ ".000 Kbit/s".toList

def bits (p : PipeEntry) : Nat := 1000 * p.kbps.getD 0

/-- The number of the pipe has more digits than are read. -/
def Long (p : PipeEntry) : Prop := digitLimit < p.digits.length

instance (p : PipeEntry) : Decidable p.Long := Nat.decLt _ _

/-- Doubles count the bits of the limit one by one. -/
def Small (p : PipeEntry) : Prop := p.bits ≤ 2 ^ 53

instance (p : PipeEntry) : Decidable p.Small := Nat.decLe _ _

/-- A line shows a pipe: its number, with zeros in front of it, a colon, blanks and its bandwidth,
with further text behind. -/
inductive ShownBy (p : PipeEntry) : List Char → Prop
  | intro (lead : List Char) (zeros : Nat) (blanks further : List Char)
      (before : ∀ c ∈ lead, isBlank c = true) (filled : blanks ≠ [])
      (between : ∀ c ∈ blanks, isBlank c = true) :
      ShownBy p
        (lead ++ (List.replicate zeros '0' ++ p.digits ++ ':' :: (blanks ++ p.bandwidth)) ++
          further)

end PipeEntry

/-- A line that does not begin with a number and a colon. -/
def Unnumbered (line : List Char) : Prop :=
  ∀ number rest, trim line = number ++ ':' :: rest → (∀ c ∈ number, isDigit c = true) → number = []

/-- Lines that show pipes, in their order, and others among them. -/
inductive Lists : List (List Char) → List PipeEntry → Prop
  | done : Lists [] []
  | pipe {line : List Char} {ls : List (List Char)} {p : PipeEntry} {ps : List PipeEntry}
      (shown : p.ShownBy line) (rest : Lists ls ps) : Lists (line :: ls) (p :: ps)
  | other {line : List Char} {ls : List (List Char)} {ps : List PipeEntry}
      (unnumbered : Unnumbered line) (rest : Lists ls ps) : Lists (line :: ls) ps

/-! ### Numbers with zeros in front of them -/

theorem head?_toDigits {n : Nat} (some_ : 0 < n) : ∀ c ∈ (Nat.toDigits 10 n).head?, c ≠ '0' := by
  induction n using Nat.strongRecOn with
  | ind n ih =>
      rw [Nat.toDigits_eq_if (by decide)]
      split
      · rintro _ ⟨⟩ zero
        exact some_.ne' (Nat.digitChar_eq_zero.mp zero)
      · rw [List.head?_append_of_ne_nil _ Nat.toDigits_ne_nil]
        exact ih (n / 10) (by omega) (by omega)

theorem withoutZeros_padded (zeros n : Nat) :
    withoutZeros (List.replicate zeros '0' ++ Nat.toDigits 10 n) = Nat.toDigits 10 n := by
  have padding : ∀ c ∈ List.replicate zeros '0', (decide (c = '0')) = true := by
    simp +contextual [List.mem_replicate]
  rcases Nat.eq_zero_or_pos n with rfl | some_
  · have all : ∀ c ∈ List.replicate zeros '0' ++ ['0'], decide (c = '0') = true :=
      List.forall_mem_append.mpr ⟨padding, by simp⟩
    rw [withoutZeros, Nat.toDigits_zero, List.dropWhile_eq_nil_iff.mpr all]
    simp
  · obtain ⟨first, rest, split⟩ := List.exists_cons_of_ne_nil (Ports.decimal_toDigits n).filled
    have stop : ∀ c ∈ (Nat.toDigits 10 n).head?, decide (c = '0') = false :=
      fun c hc => decide_eq_false (head?_toDigits some_ c hc)
    rw [withoutZeros, (cut_iff.mpr ⟨rfl, padding, stop⟩).2, split]

/-! ### Lines -/

namespace PipeEntry

variable {p : PipeEntry} {line : List Char}

theorem decimal_digits (p : PipeEntry) : Ports.Decimal p.digits p.id := Ports.decimal_toDigits p.id

theorem isDigit_padded (zeros : Nat) :
    ∀ c ∈ List.replicate zeros '0' ++ p.digits, c.isDigit = true := by
  rw [List.forall_mem_append]
  exact ⟨by simp +contextual [List.mem_replicate], p.decimal_digits.ascii⟩

/-- The bandwidth as it is found in a line. -/
def rate (p : PipeEntry) : ListedRate :=
  match p.kbps with
  | none => .unlimited
  | some _ => .limited (String.ofList p.bandwidth)

theorem bandwidth_of_limited {n : Nat} (limited : p.kbps = some n) :
    p.bandwidth = Nat.toDigits 10 n ++ '.' :: (['0', '0', '0'] ++ ([' '] ++ "Kbit/s".toList)) := by
  rw [bandwidth, limited]
  rfl

theorem isBlank_last_bandwidth (p : PipeEntry) :
    ∃ c ∈ p.bandwidth.getLast?, isBlank c = false := by
  unfold bandwidth
  split
  · exact ⟨'d', rfl, rfl⟩
  · exact ⟨'s', by rw [List.getLast?_append]; rfl, rfl⟩

theorem leadingRate?_bandwidth {n : Nat} (limited : p.kbps = some n) (further : List Char) :
    leadingRate? (p.bandwidth ++ further) = some p.bandwidth := by
  have shape : p.bandwidth ++ further = (Nat.toDigits 10 n ++ ['.', '0', '0', '0']) ++
      ' ' :: ('K' :: ("bit/s".toList ++ further)) := by
    rw [bandwidth_of_limited limited]
    simp
  have numeral : ∀ c ∈ Nat.toDigits 10 n ++ ['.', '0', '0', '0'],
      (isDigit c || decide (c = '.')) = true := by
    rw [List.forall_mem_append]
    refine ⟨fun c hc => ?_, List.all_eq_true.mp rfl⟩
    rw [isDigit_of_ascii ((Ports.decimal_toDigits n).ascii c hc), Bool.true_or]
  obtain ⟨number, rest⟩ := cut_append_cons ' ' ('K' :: ("bit/s".toList ++ further)) numeral rfl
  rw [leadingRate?, shape]
  simp only [number, rest]
  rw [bandwidth_of_limited limited]
  simp [isBlank, Rate.multiplier?]

theorem exists_digit_bandwidth {n : Nat} (limited : p.kbps = some n) :
    ∃ c rest, p.bandwidth = c :: rest ∧ c.isDigit = true := by
  have number := Ports.decimal_toDigits n
  obtain ⟨c, rest, filled⟩ := List.exists_cons_of_ne_nil number.filled
  rw [bandwidth_of_limited limited, filled]
  exact ⟨c, _, rfl, number.ascii c (filled ▸ List.mem_cons_self)⟩

theorem isBlank_head_bandwidth (p : PipeEntry) :
    ∃ c ∈ p.bandwidth.head?, isBlank c = false := by
  cases limit : p.kbps with
  | none =>
      rw [bandwidth, limit]
      exact ⟨'u', rfl, rfl⟩
  | some n =>
      obtain ⟨c, rest, begins, digit⟩ := exists_digit_bandwidth limit
      exact ⟨c, by rw [begins]; rfl, isBlank_of_ascii digit⟩

theorem not_unlimited {n : Nat} (limited : p.kbps = some n) (further : List Char) :
    ¬"unlimited".toList.isPrefixOf (p.bandwidth ++ further) = true := by
  obtain ⟨c, rest, begins, digit⟩ := exists_digit_bandwidth limited
  rw [begins]
  intro unlimited
  obtain ⟨letter, -⟩ : 'u' = c ∧ _ := by simpa using unlimited
  rw [← letter] at digit
  cases digit

/-- A line that shows a pipe is cut into the digits of its number and, behind the colon, its
bandwidth. -/
theorem ShownBy.trim_eq (shown : p.ShownBy line) :
    ∃ zeros blanks further,
      trim line =
          List.replicate zeros '0' ++ p.digits ++ ':' :: (blanks ++ (p.bandwidth ++ further)) ∧
        blanks ≠ [] ∧ ∀ c ∈ blanks, isBlank c = true := by
  obtain ⟨lead, zeros, blanks, further, before, filled, between⟩ := shown
  refine ⟨zeros, blanks, (further.reverse.dropWhile isBlank).reverse, ?_, filled, between⟩
  obtain ⟨first, more, number⟩ := List.exists_cons_of_ne_nil
    (List.append_ne_nil_of_right_ne_nil (List.replicate zeros '0') p.decimal_digits.filled)
  have digit : first.isDigit = true := isDigit_padded zeros first (number ▸ List.mem_cons_self)
  obtain ⟨last, ends, nonblank⟩ := p.isBlank_last_bandwidth
  rw [trim, trimBy_append before ⟨first, by rw [number]; rfl, isBlank_of_ascii digit⟩
    ⟨last, by simp [List.getLast?_append, List.getLast?_cons, Option.mem_def.mp ends], nonblank⟩]
  simp

theorem listedPipe?_of_shownBy (shown : p.ShownBy line) :
    listedPipe? (trim line) = some { digits := p.digits, rate := p.rate } := by
  obtain ⟨zeros, blanks, further, trimmed, filled, between⟩ := shown.trim_eq
  obtain ⟨head, tail⟩ := cut_append_cons ':' (blanks ++ (p.bandwidth ++ further))
    (fun c hc => isDigit_of_ascii (isDigit_padded (p := p) zeros c hc)) rfl
  have some_ : (List.replicate zeros '0' ++ p.digits).isEmpty = false := by
    simp [p.decimal_digits.filled]
  have number : withoutZeros (List.replicate zeros '0' ++ p.digits) = p.digits :=
    withoutZeros_padded zeros p.id
  have blank : (blanks ++ (p.bandwidth ++ further)).head?.any isBlank = true := by
    obtain ⟨b, rest, rfl⟩ := List.exists_cons_of_ne_nil filled
    exact between b List.mem_cons_self
  have behind :
      (blanks ++ (p.bandwidth ++ further)).dropWhile isBlank = p.bandwidth ++ further := by
    obtain ⟨first, begins, nonblank⟩ := p.isBlank_head_bandwidth
    refine (cut_iff.mpr ⟨rfl, between, ?_⟩).2
    rw [List.head?_append, Option.mem_def.mp begins]
    rintro _ ⟨⟩
    exact nonblank
  simp only [listedPipe?, trimmed, head, tail, some_, number, blank, behind, Bool.not_true,
    Bool.or_false, Bool.false_eq_true, if_false]
  cases limit : p.kbps with
  | none =>
      have unlimited : "unlimited".toList.isPrefixOf (p.bandwidth ++ further) = true := by
        simp [bandwidth, limit]
      rw [if_pos unlimited, rate, limit]
  | some n =>
      rw [if_neg (not_unlimited limit further), leadingRate?_bandwidth limit, rate, limit]
      rfl

theorem toBits_bandwidth {n : Nat} (limited : p.kbps = some n) (small : p.Small) :
    Rate.toBits (String.ofList p.bandwidth) = .ok p.bits := by
  have number := Ports.decimal_toDigits n
  have named : Rate.Names "Kbit/s".toList 1000 :=
    .unit (['K'], 1000) ("bit".toList, 1) "/s".toList (by decide) (by decide) (by decide)
  have zeros : ∀ c ∈ ['0', '0', '0'], c.isDigit = true := List.all_eq_true.mp rfl
  have blank : ∀ c ∈ [' '], isBlank c = true := List.forall_mem_singleton.mpr rfl
  obtain ⟨r, read, whole, fraction, weight⟩ := Rate.reading?_of_fraction number.filled
    (fun c hc => isDigit_of_ascii (number.ascii c hc)) (List.cons_ne_nil _ _)
    (fun c hc => isDigit_of_ascii (zeros c hc)) blank named
  have stripped : strip (String.ofList p.bandwidth) = String.ofList p.bandwidth := by
    have none : ∀ c ∈ ([] : List Char), isBlank c = true := List.forall_mem_nil _
    have spaced := trimBy_surrounded none none p.isBlank_head_bandwidth p.isBlank_last_bandwidth
    rw [List.nil_append, List.append_nil] at spaced
    rw [strip, String.toList_ofList, trim, spaced]
  have bits : p.bits = n * 1000 := by
    rw [bits, limited, Option.getD_some, Nat.mul_comm]
  rw [bits]
  refine Rate.toBits_of_reading? (r := r) ?_ ?_ weight (by decide) ?_
  · rw [stripped, String.toList_ofList, bandwidth_of_limited limited, read]
  · have ascii := List.forall_mem_append.mpr ⟨number.ascii, zeros⟩
    rw [whole, fraction, Ports.ofDigits_of_ascii ascii, Nat.ofDigitChars_append, number.value]
    simp [Nat.ofDigitChars]
    omega
  · rw [← bits]
    exact small

theorem ofDigits_digits (p : PipeEntry) : ofDigits p.digits = p.id :=
  (Ports.ofDigits_of_ascii p.decimal_digits.ascii).trans p.decimal_digits.value

theorem long_iff (p : PipeEntry) : p.Long ↔ digitLimit < p.digits.length := Iff.rfl

end PipeEntry

theorem listedPipe?_of_unnumbered {line : List Char} (unnumbered : Unnumbered line) :
    listedPipe? (trim line) = none := by
  unfold listedPipe?
  simp only
  split
  · rename_i rest colon
    have number := unnumbered ((trim line).takeWhile isDigit) rest
      (by rw [← colon, List.takeWhile_append_dropWhile]) fun c => List.mem_takeWhile_imp
    rw [number]
    rfl
  · rfl

theorem unnumbered_of_head? {line : List Char} {c : Char} (first : (trim line).head? = some c)
    (other : isDigit c = false) : Unnumbered line := by
  rintro (_ | ⟨d, number⟩) rest split digits
  · rfl
  · rw [split] at first
    cases first
    rw [digits c List.mem_cons_self] at other
    cases other

theorem lists_unlines {ls : List String} {ps : List PipeEntry} (unbroken : ∀ l ∈ ls, Unbroken l)
    (listed : Lists (ls.map String.toList) ps) : Lists (lines (unlines ls).toList) ps := by
  rwa [lines_unlines unbroken]

/-! ### Pipes found -/

variable {ls : List (List Char)} {ps : List PipeEntry} {id : Int}

/-- The first pipe that has the number ends the search, and so does one whose number is too long to
be read. -/
theorem bandwidthIn_of_lists (listed : Lists ls ps) (small : ∀ p ∈ ps, p.Small) :
    bandwidthIn id ls = match ps.find? fun p => decide (p.Long ∨ (p.id : Int) = id) with
      | none => .ok none
      | some p => if p.Long then .error (.longNumeral p.digits.length) else .ok (some p.bits) := by
  induction listed with
  | done => rfl
  | other unnumbered _ ih =>
      simp only [bandwidthIn, listedPipe?_of_unnumbered unnumbered]
      exact ih small
  | @pipe line ls p ps shown _ ih =>
      rw [List.forall_mem_cons] at small
      simp only [bandwidthIn, PipeEntry.listedPipe?_of_shownBy shown, p.ofDigits_digits,
        ← p.long_iff]
      by_cases long : p.Long
      · rw [if_pos long, List.find?_cons_of_pos (by simp [long])]
        simp only [if_pos long]
      · rw [if_neg long]
        by_cases same : (p.id : Int) = id
        · rw [if_neg (not_not.mpr same), List.find?_cons_of_pos (by simp [same])]
          simp only [if_neg long]
          cases limit : p.kbps with
          | none => simp [PipeEntry.rate, PipeEntry.bits, limit]
          | some n =>
              simp only [PipeEntry.rate, limit, PipeEntry.toBits_bandwidth limit small.1]
              rfl
        · rw [if_pos same, List.find?_cons_of_neg (by simp [long, same])]
          exact ih small.2

variable {listing : String}

theorem bandwidthOf_of_stop {before after : List PipeEntry} {p : PipeEntry}
    (listed : Lists (lines listing.toList) (before ++ p :: after))
    (small : ∀ q ∈ before ++ p :: after, q.Small) (stops : p.Long ∨ (p.id : Int) = id)
    (passed : ∀ q ∈ before, (q.id : Int) ≠ id ∧ ¬q.Long) :
    bandwidthOf listing id =
      if p.Long then .error (.longNumeral p.digits.length) else .ok (some p.bits) := by
  have first : (before ++ p :: after).find? (fun p => decide (p.Long ∨ (p.id : Int) = id)) =
      some p := by
    rw [List.find?_eq_some_iff_append]
    refine ⟨decide_eq_true stops, before, after, rfl, fun q hq => ?_⟩
    simp [passed q hq]
  rw [bandwidthOf, bandwidthIn_of_lists listed small]
  simp only [first]

theorem bandwidthOf_of_none (listed : Lists (lines listing.toList) ps)
    (small : ∀ p ∈ ps, p.Small) (passed : ∀ p ∈ ps, (p.id : Int) ≠ id ∧ ¬p.Long) :
    bandwidthOf listing id = .ok none := by
  have none : ps.find? (fun p => decide (p.Long ∨ (p.id : Int) = id)) = none := by
    rw [List.find?_eq_none]
    intro p hp
    simp [passed p hp]
  rw [bandwidthOf, bandwidthIn_of_lists listed small]
  simp only [none]

/-- Where the search for a pipe ends, in a list of pipes. -/
theorem exists_stop (id : Int) (ps : List PipeEntry) :
    (∀ p ∈ ps, (p.id : Int) ≠ id ∧ ¬p.Long) ∨
      ∃ before p after, ps = before ++ p :: after ∧ (p.Long ∨ (p.id : Int) = id) ∧
        ∀ q ∈ before, (q.id : Int) ≠ id ∧ ¬q.Long := by
  cases first : ps.find? fun p => decide (p.Long ∨ (p.id : Int) = id) with
  | none =>
      rw [List.find?_eq_none] at first
      exact .inl fun p hp => by simpa [not_or, and_comm] using first p hp
  | some p =>
      obtain ⟨stops, before, after, rfl, passed⟩ := List.find?_eq_some_iff_append.mp first
      exact .inr ⟨before, p, after, rfl, of_decide_eq_true stops,
        fun q hq => by simpa [not_or, and_comm] using passed q hq⟩

theorem bandwidthOf_eq_none_iff (listed : Lists (lines listing.toList) ps)
    (small : ∀ p ∈ ps, p.Small) :
    bandwidthOf listing id = .ok none ↔ ∀ p ∈ ps, (p.id : Int) ≠ id ∧ ¬p.Long := by
  refine ⟨fun none => ?_, bandwidthOf_of_none listed small⟩
  rcases exists_stop id ps with passed | ⟨before, p, after, rfl, stops, passed⟩
  · exact passed
  · rw [bandwidthOf_of_stop listed small stops passed] at none
    split at none <;> cases none

/-- The search fails at the first number that is too long to be read. -/
theorem bandwidthOf_eq_error_iff {fault : ReadFault} (listed : Lists (lines listing.toList) ps)
    (small : ∀ p ∈ ps, p.Small) :
    bandwidthOf listing id = .error fault ↔ ∃ before p after, ps = before ++ p :: after ∧
      (∀ q ∈ before, (q.id : Int) ≠ id ∧ ¬q.Long) ∧ p.Long ∧
        fault = .longNumeral p.digits.length := by
  constructor
  · intro failed
    rcases exists_stop id ps with passed | ⟨before, p, after, rfl, stops, passed⟩
    · rw [bandwidthOf_of_none listed small passed] at failed
      cases failed
    · rw [bandwidthOf_of_stop listed small stops passed] at failed
      split at failed
      · rename_i long
        cases failed
        exact ⟨before, p, after, rfl, passed, long, rfl⟩
      · cases failed
  · rintro ⟨before, p, after, rfl, passed, long, rfl⟩
    rw [bandwidthOf_of_stop listed small (.inl long) passed, if_pos long]

/-- No other pipe has the number, so none that stands before ends the search. -/
theorem bandwidthOf_of_mem {before after : List PipeEntry} {p : PipeEntry}
    (listed : Lists (lines listing.toList) (before ++ p :: after))
    (distinct : ((before ++ p :: after).map (·.id)).Nodup)
    (small : ∀ q ∈ before ++ p :: after, q.Small) (same : (p.id : Int) = id)
    (short : ∀ q ∈ before ++ [p], ¬q.Long) : bandwidthOf listing id = .ok (some p.bits) := by
  have own := short p (List.mem_append_right _ (List.mem_singleton_self p))
  have passed : ∀ q ∈ before, (q.id : Int) ≠ id ∧ ¬q.Long := by
    refine fun q hq => ⟨fun again => ?_, short q (List.mem_append_left _ hq)⟩
    rw [List.map_append, List.map_cons, List.nodup_append] at distinct
    have ids : q.id = p.id := by omega
    exact distinct.2.2 q.id (List.mem_map_of_mem hq) p.id List.mem_cons_self ids
  rw [bandwidthOf_of_stop listed small (.inr same) passed, if_neg own]

/-- A pipe is found by its number, whatever else is listed, unless the number of one that stands
before it, or its own, is too long to be read; its bandwidth is what its limit comes to. -/
theorem bandwidthOf_of_lists (listed : Lists (lines listing.toList) ps)
    (distinct : (ps.map (·.id)).Nodup) (small : ∀ p ∈ ps, p.Small) (id : Int) :
    (∀ before p after, ps = before ++ p :: after → (p.id : Int) = id →
      (∀ q ∈ before ++ [p], ¬q.Long) →
        (p.kbps = none → bandwidthOf listing id = .ok (some 0)) ∧
        ∀ n : Nat, p.kbps = some n → Rate.ComesTo n (1000 * n) ∧
          bandwidthOf listing id = .ok (some (1000 * n))) ∧
    (bandwidthOf listing id = .ok none ↔ ∀ p ∈ ps, (p.id : Int) ≠ id ∧ ¬p.Long) ∧
    ∀ fault, bandwidthOf listing id = .error fault ↔ ∃ before p after, ps = before ++ p :: after ∧
      (∀ q ∈ before, (q.id : Int) ≠ id ∧ ¬q.Long) ∧ p.Long ∧
        fault = .longNumeral p.digits.length := by
  refine ⟨?_, bandwidthOf_eq_none_iff listed small, fun _ => bandwidthOf_eq_error_iff listed small⟩
  rintro before p after rfl same short
  rw [bandwidthOf_of_mem listed distinct small same short]
  refine ⟨fun unlimited => ?_, fun n limited => ?_⟩
  · rw [PipeEntry.bits, unlimited]
    rfl
  · have bits : p.bits = 1000 * n := by rw [PipeEntry.bits, limited, Option.getD_some]
    have bound : p.bits ≤ 2 ^ 53 := small p (by simp)
    rw [bits] at bound ⊢
    exact ⟨Rate.comesTo_thousands bound, rfl⟩

def homeListing : String := unlines [
  "Limiters:",
  "00101: 504.000 Kbit/s    0 ms   50 sl.",
  "00201: 120.000 Kbit/s    0 ms   50 sl.",
  "BKT Prot ___Source IP/port____",
  "  00102:   unlimited    0 ms   50 sl."]

def homePipes : List PipeEntry := [⟨101, some 504⟩, ⟨201, some 120⟩, ⟨102, none⟩]

theorem lists_home : Lists (lines homeListing.toList) homePipes := by
  have shown (p : PipeEntry) (lead blanks : List Char) :=
    PipeEntry.ShownBy.intro (p := p) lead 2 blanks "    0 ms   50 sl.".toList
  have first : PipeEntry.ShownBy ⟨101, some 504⟩
      "00101: 504.000 Kbit/s    0 ms   50 sl.".toList :=
    shown _ [] [' '] (List.forall_mem_nil _) (by decide) (List.forall_mem_singleton.mpr rfl)
  have second : PipeEntry.ShownBy ⟨201, some 120⟩
      "00201: 120.000 Kbit/s    0 ms   50 sl.".toList :=
    shown _ [] [' '] (List.forall_mem_nil _) (by decide) (List.forall_mem_singleton.mpr rfl)
  have third : PipeEntry.ShownBy ⟨102, none⟩
      "  00102:   unlimited    0 ms   50 sl.".toList :=
    shown _ [' ', ' '] [' ', ' ', ' '] (List.all_eq_true.mp rfl) (by decide)
      (List.all_eq_true.mp rfl)
  have heading : Unnumbered "Limiters:".toList := unnumbered_of_head? rfl (by decide)
  have flows : Unnumbered "BKT Prot ___Source IP/port____".toList :=
    unnumbered_of_head? rfl (by decide)
  exact lists_unlines (by decide)
    (.other heading (.pipe first (.pipe second (.other flows (.pipe third .done)))))

/-- Numbers that share digits with another are told apart among other lines. -/
theorem bandwidthOf_of_lists_home :
    bandwidthOf homeListing 201 = .ok (some 120000) ∧
      bandwidthOf homeListing 102 = .ok (some 0) ∧ bandwidthOf homeListing 10 = .ok none := by
  have distinct : (homePipes.map (·.id)).Nodup := by decide
  have small : ∀ p ∈ homePipes, p.Small := by decide
  refine ⟨?_, ?_, ?_⟩
  · have found := (bandwidthOf_of_lists lists_home distinct small 201).1 [⟨101, some 504⟩]
      ⟨201, some 120⟩ [⟨102, none⟩] rfl rfl (by decide)
    exact (found.2 120 rfl).2
  · have found := (bandwidthOf_of_lists lists_home distinct small 102).1
      [⟨101, some 504⟩, ⟨201, some 120⟩] ⟨102, none⟩ [] rfl rfl (by decide)
    exact found.1 rfl
  · exact (bandwidthOf_of_lists lists_home distinct small 10).2.1.mpr (by decide)

/-! ### Numbers that are too long -/

def beyond : PipeEntry := ⟨10 ^ digitLimit, none⟩

theorem long_beyond : beyond.Long := by
  have most : beyond.digits.length ≤ digitLimit ↔ beyond.id < 10 ^ digitLimit :=
    Nat.length_toDigits_le_iff (by decide) (by decide)
  rw [PipeEntry.long_iff, ← not_le, most]
  exact lt_irrefl _

def beyondListing : String :=
  unlines [String.ofList (beyond.digits ++ ": unlimited".toList), "00005: unlimited"]

theorem PipeEntry.shownBy_unlimited {p : PipeEntry} (zeros : Nat) (unlimited : p.kbps = none) :
    p.ShownBy (List.replicate zeros '0' ++ p.digits ++ ": unlimited".toList) := by
  have written := ShownBy.intro (p := p) [] zeros [' '] [] (List.forall_mem_nil _)
    (by decide) (List.forall_mem_singleton.mpr rfl)
  simpa [bandwidth, unlimited] using written

theorem lists_beyond : Lists (lines beyondListing.toList) [beyond, ⟨5, none⟩] := by
  have digits : Unbroken (String.ofList beyond.digits) := by
    intro c hc
    rw [String.toList_ofList] at hc
    exact isLineBreak_of_isDigit (isDigit_of_ascii (beyond.decimal_digits.ascii c hc))
  have unbroken : ∀ l ∈ [String.ofList (beyond.digits ++ ": unlimited".toList),
      "00005: unlimited"], Unbroken l := by
    simp only [List.forall_mem_cons]
    refine ⟨?_, by decide, List.forall_mem_nil _⟩
    rw [String.ofList_append]
    exact unbroken_append.mpr ⟨digits, by decide⟩
  have first : beyond.ShownBy (String.ofList (beyond.digits ++ ": unlimited".toList)).toList := by
    have written := PipeEntry.shownBy_unlimited (p := beyond) 0 rfl
    rw [List.replicate_zero, List.nil_append] at written
    rwa [String.toList_ofList]
  have second : PipeEntry.ShownBy ⟨5, none⟩ "00005: unlimited".toList :=
    PipeEntry.shownBy_unlimited 4 rfl
  exact lists_unlines unbroken (.pipe first (.pipe second .done))

/-- Behind a pipe whose number is too long to be read no other is found. -/
theorem bandwidthOf_beyond :
    Lists (lines beyondListing.toList) [beyond, ⟨5, none⟩] ∧
      ([beyond, ⟨5, none⟩].map (·.id)).Nodup ∧ (∀ p ∈ [beyond, ⟨5, none⟩], p.Small) ∧
      bandwidthOf beyondListing 5 = .error (.longNumeral beyond.digits.length) := by
  have distinct : beyond.id ≠ 5 := by
    have above : digitLimit < beyond.id := Nat.lt_pow_self (by decide)
    have limit : digitLimit = 4300 := rfl
    omega
  have small : ∀ p ∈ [beyond, ⟨5, none⟩], p.Small := by
    simp [PipeEntry.Small, PipeEntry.bits, beyond]
  refine ⟨lists_beyond, by simp [distinct], small, ?_⟩
  exact (bandwidthOf_eq_error_iff lists_beyond small).mpr
    ⟨[], beyond, [⟨5, none⟩], rfl, List.forall_mem_nil _, long_beyond, rfl⟩

end Firewall.Ipfw

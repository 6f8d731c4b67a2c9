import Firewall.CommandLine.SetRate
import Firewall.Proofs.Gauging
import Firewall.Proofs.Parsing
import Firewall.Proofs.Repeating

/-!
Configurations that cannot be read. Whatever a configuration and its schedule hold, the operator is
told what is malformed, but for two faults: a text of ports with a number that is too long to be
read, and a single value in the place of windows.
-/

namespace Firewall

open Text
open Interface (bind_eq_error_iff)

/-! ### Faults that break a reading off -/

section Faults

variable {ε α β : Type} {fault : ReadFault}

/-- Items are read one after the other, up to the first that has a fault. -/
theorem mapM_eq_error_iff {f : α → Except ε β} {xs : List α} {e : ε} :
    xs.mapM f = .error e ↔ ∃ before a after, xs = before ++ a :: after ∧
      (∀ b ∈ before, ∃ c, f b = .ok c) ∧ f a = .error e := by
  have isOk_iff (a : α) : (!(f a).isOk) = false ↔ ∃ c, f a = .ok c := by
    cases f a <;> simp [Except.isOk, Except.toBool]
  constructor
  · intro failed
    cases first : xs.find? fun a => !(f a).isOk with
    | none =>
        obtain ⟨ys, read⟩ := mapM_eq_ok_of_find? first
        rw [read] at failed
        cases failed
    | some a =>
        obtain ⟨stops, before, after, split, passed⟩ := List.find?_eq_some_iff_append.mp first
        refine ⟨before, a, after, split,
          fun b hb => (isOk_iff b).mp (by simpa using passed b hb), ?_⟩
        cases here : f a with
        | ok c => simp [here, Except.isOk, Except.toBool] at stops
        | error other =>
            rw [mapM_eq_error_of_find? first here] at failed
            cases failed
            rfl
  · rintro ⟨before, a, after, rfl, passed, stops⟩
    refine mapM_eq_error_of_find? (List.find?_eq_some_iff_append.mpr
      ⟨by simp [stops, Except.isOk, Except.toBool], before, after, rfl, fun b hb => ?_⟩) stops
    rw [(isOk_iff b).mpr (passed b hb)]
    rfl

/-- A reading breaks off with a fault other than that something is malformed. -/
def Breaks (x : Except ReadFault α) (fault : ReadFault) : Prop :=
  verdict x = .error (some fault)

/-- Something is read, or else found malformed. -/
def Answered (x : Except ReadFault α) : Prop :=
  (∃ a, x = .ok a) ∨ ∃ cause, x = .error (.malformed cause)

variable {x : Except ReadFault α}

@[simp] theorem not_breaks_ok {a : α} : ¬Breaks (.ok a) fault := nofun

@[simp] theorem not_breaks_pure {a : α} :
    ¬Breaks (pure a : Except ReadFault α) fault := nofun

@[simp] theorem not_breaks_malformed {cause : Malformed} :
    ¬Breaks (malformed cause : Except ReadFault α) fault := nofun

@[simp] theorem not_breaks_lift {y : Except Malformed α} : ¬Breaks (Malformed.lift y) fault := by
  cases y <;> nofun

theorem Breaks.eq_error (h : Breaks x fault) : x = .error fault := by
  cases x with
  | ok a => cases h
  | error other => cases other <;> cases h <;> rfl

theorem answered_iff : Answered x ↔ ¬∃ fault, Breaks x fault := by
  cases x with
  | ok a => simp [Answered, Breaks, verdict, Except.mapError]
  | error fault =>
      cases fault <;> simp [Answered, Breaks, verdict, Except.mapError, ReadFault.other]

theorem breaks_bind_iff {f : α → Except ReadFault β} :
    Breaks (x >>= f) fault ↔ Breaks x fault ∨ ∃ a, x = .ok a ∧ Breaks (f a) fault := by
  simp only [Breaks, verdict_bind, bind_eq_error_iff, verdict_eq_ok_iff]

theorem not_breaks_malformed_bind {cause : Malformed} {f : α → Except ReadFault β} :
    ¬Breaks (malformed cause >>= f) fault := nofun

theorem breaks_map_iff {f : α → β} : Breaks (x.map f) fault ↔ Breaks x fault := by
  rw [Breaks, Breaks, verdict_map]
  cases verdict x <;> simp [Except.map]

theorem breaks_mapM_iff {f : β → Except ReadFault α} {xs : List β} :
    Breaks (xs.mapM f) fault ↔ ∃ before b after, xs = before ++ b :: after ∧
      (∀ c ∈ before, ∃ a, f c = .ok a) ∧ Breaks (f b) fault := by
  simp only [Breaks, verdict_mapM, mapM_eq_error_iff, verdict_eq_ok_iff]

end Faults

/-! ### Ports -/

namespace Ports

variable {text : String} {item digits : List Char} {k : Nat} {fault : ReadFault}

/-- An item is one number or two, and the first of them that is not read has too many digits. -/
inductive TooLong : List Char → Nat → Prop
  | first {first : List Char} {last : Option (List Char)}
      (numbers : ∀ digits ∈ first :: last.toList, digits ≠ [] ∧ ∀ c ∈ digits, isDigit c = true)
      (long : digitLimit < first.length) :
      TooLong (first ++ last.elim [] ('-' :: ·)) first.length
  | last {first last : List Char} {n : Nat} (numeral : Numeral first n) (above : 0 < n)
      (below : n ≤ 65535) (filled : last ≠ []) (spelled : ∀ c ∈ last, isDigit c = true)
      (long : digitLimit < last.length) : TooLong (first ++ '-' :: last) last.length

/-- The first item of a text that is no entry has too long a number. -/
def Overlong (text : String) (k : Nat) : Prop :=
  ∃ before item after, items text = before ++ item :: after ∧
    (∀ b ∈ before, Entry Numeral b) ∧ TooLong item k

theorem TooLong.length_lt (long : TooLong item k) : digitLimit < item.length := by
  cases long with
  | first _ long =>
      rw [List.length_append]
      omega
  | last _ _ _ _ _ long =>
      rw [List.length_append, List.length_cons]
      omega

theorem breaks_number_iff :
    Breaks (number text digits) fault ↔
      digitLimit < digits.length ∧ fault = .longNumeral digits.length := by
  unfold number
  split
  · rename_i long
    constructor
    · intro breaks
      cases breaks.eq_error
      exact ⟨long, rfl⟩
    · rintro ⟨-, rfl⟩
      rfl
  · rename_i short
    simp only
    split <;> simp [short]

theorem breaks_check_iff :
    Breaks (check text item) fault ↔ ∃ k, TooLong item k ∧ fault = .longNumeral k := by
  constructor
  · intro breaks
    unfold check at breaks
    simp only at breaks
    split at breaks
    · exact absurd breaks not_breaks_malformed
    · rename_i first parts
      obtain ⟨rfl, numbers⟩ := split?_eq_some_iff.mp parts
      rcases breaks_bind_iff.mp breaks with breaks | ⟨_, -, ⟨⟩⟩
      obtain ⟨long, rfl⟩ := breaks_number_iff.mp breaks
      exact ⟨_, .first numbers long, rfl⟩
    · rename_i first last parts
      obtain ⟨rfl, numbers⟩ := split?_eq_some_iff.mp parts
      rcases breaks_bind_iff.mp breaks with breaks | ⟨low, read, breaks⟩
      · obtain ⟨long, rfl⟩ := breaks_number_iff.mp breaks
        exact ⟨_, .first numbers long, rfl⟩
      · obtain ⟨short, value, above, below⟩ := number_eq_ok_iff.mp read
        obtain ⟨filled, spelled⟩ := numbers first List.mem_cons_self
        obtain ⟨filled', spelled'⟩ := numbers last (by simp)
        rcases breaks_bind_iff.mp breaks with breaks | ⟨high, -, breaks⟩
        · obtain ⟨long, rfl⟩ := breaks_number_iff.mp breaks
          exact ⟨_, .last ⟨filled, spelled, short, value⟩ above below filled' spelled' long, rfl⟩
        · split at breaks <;> cases breaks
  · rintro ⟨k, long, rfl⟩
    cases long with
    | @first first last numbers long =>
        have parts := split?_eq_some_iff.mpr ⟨rfl, numbers⟩
        have breaks : Breaks (number text first) (.longNumeral first.length) :=
          breaks_number_iff.mpr ⟨long, rfl⟩
        unfold check
        simp only [parts]
        cases last with
        | none => exact breaks_bind_iff.mpr (.inl breaks)
        | some digits => exact breaks_bind_iff.mpr (.inl breaks)
    | @last first last n numeral above below filled spelled long =>
        have parts : split? (first ++ '-' :: last) = some (first, some last) :=
          split?_eq_some_iff.mpr ⟨rfl, by
            simpa using ⟨⟨numeral.filled, numeral.spelled⟩, filled, spelled⟩⟩
        have read : number text first = .ok n :=
          number_eq_ok_iff.mpr ⟨numeral.short, numeral.value, above, below⟩
        unfold check
        simp only [parts]
        exact breaks_bind_iff.mpr (.inr ⟨n, read, breaks_bind_iff.mpr
          (.inl (breaks_number_iff.mpr ⟨long, rfl⟩))⟩)

theorem breaks_parse_iff :
    Breaks (parse text) fault ↔ ∃ k, Overlong text k ∧ fault = .longNumeral k := by
  have read (item : List Char) : (∃ port, check text item = .ok port) ↔ Entry Numeral item := by
    simp only [check_eq_ok_iff, exists_and_left, exists_eq, and_true]
  simp only [parse, breaks_mapM_iff, breaks_check_iff, read, Overlong]
  constructor
  · rintro ⟨before, item, after, split, entries, k, long, rfl⟩
    exact ⟨k, ⟨before, item, after, split, entries, long⟩, rfl⟩
  · rintro ⟨k, ⟨before, item, after, split, entries, long⟩, rfl⟩
    exact ⟨before, item, after, split, entries, k, long, rfl⟩

theorem split?_of_stop {c : Char} {rest : List Char} (all : ∀ d ∈ digits, isDigit d = true)
    (stop : isDigit c = false) (hyphen : c = '-' → digits = []) :
    split? (digits ++ c :: rest) = none := by
  obtain ⟨head, tail⟩ := cut_append_cons c rest all stop
  unfold split?
  simp only [head, tail]
  split
  · rfl
  · rename_i filled
    rw [List.isEmpty_iff] at filled
    split
    · rename_i none
      cases none
    · rename_i range
      cases range
      exact absurd (hyphen rfl) filled
    · rfl

/-- A text that goes on with neither a digit, a hyphen, a comma nor a blank behind its first digits
is malformed. -/
theorem not_breaks_parse_of_stop {c : Char} {rest : List Char}
    (all : ∀ d ∈ digits, isDigit d = true) (spelled : text.toList = digits ++ c :: rest)
    (stop : isDigit c = false) (kept : isBlank c = false) (within : c ≠ ',')
    (hyphen : c = '-' → digits = []) : ¬Breaks (parse text) fault := by
  obtain ⟨part, parts, split⟩ :=
    List.exists_cons_of_ne_nil (Address.splitAll_ne_nil ',' text.toList)
  have first : part = digits ++ c :: rest.takeWhile (· ≠ ',') := by
    have cut := Address.headD_splitAll ',' text.toList
    have inside : ∀ d ∈ digits, decide (d ≠ ',') = true := by
      intro d hd
      rw [decide_eq_true_eq]
      rintro rfl
      cases all ',' hd
    rwa [split, List.headD_cons, spelled, List.takeWhile_append_of_pos inside,
      List.takeWhile_cons_of_pos (by simpa using within)] at cut
  have plain : ∀ d ∈ digits ++ [c], isBlank d = false := by
    rw [List.forall_mem_append, List.forall_mem_singleton]
    refine ⟨fun d hd => ?_, kept⟩
    rw [← Bool.not_eq_true]
    intro blank
    exact absurd (all d hd) (by simp [isDigit_of_isBlank blank])
  obtain ⟨rest', trimmed⟩ : ∃ rest', trim part = digits ++ c :: rest' := by
    obtain ⟨d, more, filled⟩ := List.exists_cons_of_ne_nil
      (List.append_ne_nil_of_right_ne_nil digits (List.cons_ne_nil c []))
    have begins : ∃ d ∈ (digits ++ [c]).head?, isBlank d = false :=
      ⟨d, by rw [filled]; rfl, plain d (filled ▸ List.mem_cons_self)⟩
    have ends : ∃ d ∈ (digits ++ [c]).getLast?, isBlank d = false := ⟨c, by simp, kept⟩
    have none : ∀ d ∈ ([] : List Char), isBlank d = true := List.forall_mem_nil _
    have cut := trimBy_append none begins ends (rest.takeWhile (· ≠ ','))
    exact ⟨_, by simpa [first, trim] using cut⟩
  have unread : check text (trim part) = malformed (.port (String.ofList (trim part)) text) := by
    rw [check, trimmed, split?_of_stop all stop hyphen]
  rw [parse, items, split, List.map_cons, List.mapM_cons, unread, breaks_bind_iff]
  rintro (breaks | ⟨_, ⟨⟩, -⟩)
  exact not_breaks_malformed breaks

end Ports

/-! ### Values as texts -/

namespace Binary64

theorem exists_layout {digits : List Char} (ascii : ∀ d ∈ digits, d.isDigit = true) (point : Int) :
    ∃ head c rest, layout digits point = head ++ c :: rest ∧ (∀ d ∈ head, d.isDigit = true) ∧
      (c = '.' ∨ c = 'e') := by
  have taken (n : Nat) : ∀ d ∈ digits.take n, d.isDigit = true :=
    fun d hd => ascii d (List.mem_of_mem_take hd)
  unfold layout
  split
  · split
    · exact ⟨['0'], '.', _, rfl, List.forall_mem_singleton.mpr rfl, .inl rfl⟩
    · split
      · refine ⟨digits ++ List.replicate (point.toNat - digits.length) '0', '.', ['0'], by simp, ?_,
          .inl rfl⟩
        rw [List.forall_mem_append]
        exact ⟨ascii, by simp +contextual [List.mem_replicate]⟩
      · exact ⟨digits.take point.toNat, '.', _, rfl, taken _, .inl rfl⟩
  · simp only
    split
    · exact ⟨digits.take 1, 'e', _, by rw [List.append_nil], taken 1, .inr rfl⟩
    · exact ⟨digits.take 1, '.', _, by rw [List.append_assoc]; rfl, taken 1, .inl rfl⟩

/-- A number in double precision never is written in digits only. -/
theorem exists_text (x : Binary64) :
    ∃ head c rest, x.text.toList = head ++ c :: rest ∧ (∀ d ∈ head, d.isDigit = true) ∧
      (c = '.' ∨ c = 'e' ∨ c = 'i') := by
  unfold text
  split
  · exact ⟨[], 'i', ['n', 'f'], rfl, List.forall_mem_nil _, .inr (.inr rfl)⟩
  · split
    · exact ⟨['0'], '.', ['0'], rfl, List.forall_mem_singleton.mpr rfl, .inl rfl⟩
    · have ascii : ∀ d ∈ significant (Nat.toDigits 10 (shortest x).1), d.isDigit = true := by
        intro d hd
        rw [significant, List.mem_reverse] at hd
        exact (Ports.decimal_toDigits _).ascii d
          (List.mem_reverse.mp ((List.dropWhile_sublist _).subset hd))
      obtain ⟨head, c, rest, spelled, digits, letter⟩ := exists_layout ascii
        ((Nat.toDigits 10 (shortest x).1).length + (shortest x).2)
      exact ⟨head, c, rest, by rw [String.toList_ofList, spelled], digits,
        letter.imp_right .inl⟩

end Binary64

namespace Data

variable {value : Data} {fault : ReadFault}

/-- No whole number in the data is written with more than `4000` digits. -/
inductive Brief : Data → Prop
  | null : Brief .null
  | bool (b : Bool) : Brief (.bool b)
  | integer {n : Int} (digits : (Nat.toDigits 10 n.natAbs).length ≤ 4000) : Brief (.integer n)
  | float (negative : Bool) (size : Binary64) : Brief (.float negative size)
  | text (s : String) : Brief (.text s)
  | sequence {items : List Data} (all : ∀ item ∈ items, Brief item) : Brief (.sequence items)
  | mapping {entries : List (String × Data)} (all : ∀ e ∈ entries, Brief e.2) :
      Brief (.mapping entries)

/-- Read as a list of ports, the value comes to a text with a number that is too long. -/
inductive Overlong : Data → Nat → Prop
  | text {s : String} {k : Nat} (long : Ports.Overlong s k) : Overlong (.text s) k
  | item {before after : List Data} {s : String} {k : Nat}
      (earlier : ∀ item ∈ before, ∃ ports, Ports.parse item.plain = .ok ports)
      (long : Ports.Overlong s k) : Overlong (.sequence (before ++ .text s :: after)) k

theorem overlong_sequence_iff {items : List Data} {k : Nat} :
    (sequence items).Overlong k ↔ ∃ before s after, items = before ++ .text s :: after ∧
      (∀ item ∈ before, ∃ ports, Ports.parse item.plain = .ok ports) ∧ Ports.Overlong s k := by
  constructor
  · intro long
    generalize same : sequence items = value at long
    cases long with
    | text => cases same
    | item earlier long =>
        cases same
        exact ⟨_, _, _, rfl, earlier, long⟩
  · rintro ⟨before, s, after, rfl, earlier, long⟩
    exact .item earlier long

theorem brief_valueAt {entries : List (String × Data)} (brief : ∀ e ∈ entries, Brief e.2)
    (key : String) : (valueAt entries key).Brief := by
  unfold valueAt
  cases found : entries.lookup key with
  | none => exact .null
  | some value =>
      obtain ⟨before, after, rfl, -⟩ := List.lookup_eq_some_iff.mp found
      exact brief (key, value) (by simp)

theorem not_breaks_natCast {n : Nat} (short : (Nat.toDigits 10 n).length ≤ 4000) :
    ¬Breaks (Ports.parse (toString n)) fault := by
  have digit := (Ports.decimal_toDigits n).ascii
  have blank : ∀ c ∈ Nat.toDigits 10 n, Text.isBlank c = false :=
    fun c hc => isBlank_of_ascii (digit c hc)
  have free : ',' ∉ Nat.toDigits 10 n := fun comma => by cases digit ',' comma
  have single : Ports.items (toString n) = [Nat.toDigits 10 n] := by
    rw [Ports.items, toList_natCast, Address.splitAll_of_not_mem free, List.map_singleton, trim,
      trimBy_eq_self (fun c hc => blank c (List.mem_of_mem_head? hc))
        fun c hc => blank c (List.mem_of_getLast? hc)]
  rw [Ports.breaks_parse_iff]
  rintro ⟨k, ⟨before, item, after, split, -, long⟩, -⟩
  have item_eq : item ∈ [Nat.toDigits 10 n] := by
    rw [← single, split]
    simp
  have length := long.length_lt
  rw [List.mem_singleton.mp item_eq, digitLimit] at length
  omega

/-- Only a text breaks the reading of ports off: any other value is too short, or malformed. -/
theorem breaks_parse_plain_iff (brief : value.Brief) :
    Breaks (Ports.parse value.plain) fault ↔
      ∃ s k, value = .text s ∧ Ports.Overlong s k ∧ fault = .longNumeral k := by
  have malformed {c : Char} (first : value.plain.toList.head? = some c) (stop : isDigit c = false)
      (kept : Text.isBlank c = false) (within : c ≠ ',') :
      ¬Breaks (Ports.parse value.plain) fault := by
    obtain ⟨rest, spelled⟩ := List.head?_eq_some_iff.mp first
    have none : ∀ d ∈ ([] : List Char), isDigit d = true := List.forall_mem_nil _
    exact Ports.not_breaks_parse_of_stop none spelled stop kept within fun _ => rfl
  cases brief with
  | text s => simp [plain, Ports.breaks_parse_iff]
  | null => exact iff_of_false (malformed rfl rfl rfl (by decide)) (by simp)
  | bool b =>
      refine iff_of_false ?_ (by simp)
      cases b
      · exact malformed rfl rfl rfl (by decide)
      · exact malformed rfl rfl rfl (by decide)
  | @integer n short =>
      refine iff_of_false ?_ (by simp)
      cases n with
      | ofNat n => exact not_breaks_natCast short
      | negSucc n =>
          exact malformed (congrArg List.head? (toList_negSucc n)) rfl rfl (by decide)
  | float negative size =>
      refine iff_of_false ?_ (by simp)
      cases negative with
      | true => exact malformed (c := '-') (by simp [plain, literal]) rfl rfl (by decide)
      | false =>
          obtain ⟨head, c, rest, spelled, digits, letter⟩ := size.exists_text
          obtain ⟨stop, kept, within, hyphen⟩ :
              isDigit c = false ∧ Text.isBlank c = false ∧ c ≠ ',' ∧ c ≠ '-' := by
            rcases letter with rfl | rfl | rfl <;> decide
          exact Ports.not_breaks_parse_of_stop (fun d hd => isDigit_of_ascii (digits d hd))
            (by simpa [plain, literal] using spelled) stop kept within fun same =>
              absurd same hyphen
  | sequence _ =>
      exact iff_of_false (malformed (c := '[') (by simp [plain, literal]) rfl rfl (by decide))
        (by simp)
  | mapping _ =>
      exact iff_of_false (malformed (c := '\x7b') (by simp [plain, literal]) rfl rfl (by decide))
        (by simp)

/-- A single value that says something: neither a text nor items nor entries. -/
inductive Lone : Data → Prop
  | bool : Lone (.bool true)
  | integer {n : Int} (some_ : n ≠ 0) : Lone (.integer n)
  | float {negative : Bool} {size : Binary64} (some_ : size.isZero = false) :
      Lone (.float negative size)

theorem breaks_itemsOf_iff :
    Breaks (Schedule.itemsOf value) fault ↔ value.Lone ∧ fault = .notItems := by
  have breaks_iff : Breaks (.error .notItems : Except ReadFault (List Data)) fault ↔
      fault = .notItems := by
    constructor
    · rintro ⟨⟩
      rfl
    · rintro rfl
      rfl
  unfold Schedule.itemsOf
  split
  · rename_i blank
    refine iff_of_false not_breaks_ok ?_
    rintro ⟨lone, -⟩
    cases lone <;> simp_all [isBlank]
  · rename_i said
    split
    · exact iff_of_false not_breaks_ok (by rintro ⟨⟨⟩, -⟩)
    · exact iff_of_false not_breaks_ok (by rintro ⟨⟨⟩, -⟩)
    · exact iff_of_false not_breaks_ok (by rintro ⟨⟨⟩, -⟩)
    · rename_i items texts mappings
      have lone : value.Lone := by
        cases value with
        | null => simp [isBlank] at said
        | bool b =>
            obtain rfl : b = true := by simpa [isBlank] using said
            exact .bool
        | integer n => exact .integer (by simpa [isBlank] using said)
        | float negative size => exact .float (by simpa [isBlank] using said)
        | text s => exact absurd rfl (texts s)
        | sequence more => exact absurd rfl (items more)
        | mapping entries => exact absurd rfl (mappings entries)
      rw [breaks_iff, and_iff_right lone]

end Data

/-! ### Configurations -/

namespace Config

variable {source : String} {entries : List (String × Data)} {value : Data} {fault : ReadFault}

theorem breaks_portText_iff (brief : value.Brief) :
    Breaks (Ports.parse (portText value)) fault ↔
      ∃ k, value.Overlong k ∧ fault = .longNumeral k := by
  have single (other : ∀ items, value ≠ .sequence items) (plain : portText value = value.plain) :
      Breaks (Ports.parse (portText value)) fault ↔
        ∃ k, value.Overlong k ∧ fault = .longNumeral k := by
    rw [plain, Data.breaks_parse_plain_iff brief]
    constructor
    · rintro ⟨s, k, rfl, long, rfl⟩
      exact ⟨k, .text long, rfl⟩
    · rintro ⟨k, long, rfl⟩
      cases long with
      | text long => exact ⟨_, k, rfl, long, rfl⟩
      | item => exact absurd rfl (other _)
  cases brief with
  | @sequence items all =>
      by_cases filled : items = []
      · -- An empty sequence is written as the empty text, which is a malformed item.
        subst filled
        refine iff_of_false not_breaks_malformed ?_
        rintro ⟨k, long, -⟩
        obtain ⟨_, _, _, none, -⟩ := Data.overlong_sequence_iff.mp long
        simp at none
      · -- The first item that is not read decides, as if each had been read alone.
        have joined : Breaks (Ports.parse (portText (.sequence items))) fault ↔
            Breaks (items.mapM fun item => Ports.parse item.plain) fault := by
          have texts : items.map Data.plain ≠ [] := by simpa using filled
          have parted := Ports.verdict_parse_commaJoined texts
          rw [List.mapM_map] at parted
          rw [portText, ← Ipfw.commaJoined, Breaks, parted, ← Breaks, breaks_map_iff]
          rfl
        rw [joined, breaks_mapM_iff]
        constructor
        · rintro ⟨before, item, after, rfl, earlier, breaks⟩
          obtain ⟨s, k, rfl, long, rfl⟩ :=
            (Data.breaks_parse_plain_iff (all item (by simp))).mp breaks
          exact ⟨k, .item earlier long, rfl⟩
        · rintro ⟨k, long, rfl⟩
          obtain ⟨before, s, after, rfl, earlier, long⟩ := Data.overlong_sequence_iff.mp long
          exact ⟨before, _, after, rfl, earlier,
            (Data.breaks_parse_plain_iff (.text s)).mpr ⟨s, k, rfl, long, rfl⟩⟩
  | _ => exact single (by rintro items ⟨⟩) rfl

/-- What an entry of the `ports` mapping opens. -/
def readEntry (source : String) (entry : String × Data) :
    Except ReadFault (PortList × List String) :=
  match PortList.ofKey? entry.1 with
  | none => malformed (.unknownPortList source entry.1)
  | some l => (Ports.parse (portText entry.2)).map fun ports => (l, ports)

theorem readPorts_eq (source : String) (ports : OpenPorts) (entries : List (String × Data)) :
    readPorts source ports entries = (entries.mapM (readEntry source)).map fun said =>
      said.foldl (fun ports entry => ports.append entry.1 entry.2) ports := by
  induction entries generalizing ports with
  | nil => rfl
  | cons entry rest ih =>
      rw [readPorts, List.mapM_cons, readEntry]
      cases PortList.ofKey? entry.1 with
      | none => rfl
      | some l =>
          simp only [OpenPorts.addText]
          cases Ports.parse (portText entry.2) with
          | error fault => rfl
          | ok opened =>
              change readPorts source (ports.append l opened) rest = _
              rw [ih]
              cases rest.mapM (readEntry source) <;> rfl

theorem breaks_readEntry_iff {entry : String × Data} (brief : entry.2.Brief) :
    Breaks (readEntry source entry) fault ↔
      (PortList.ofKey? entry.1).isSome ∧ ∃ k, entry.2.Overlong k ∧ fault = .longNumeral k := by
  unfold readEntry
  split
  · rename_i unknown
    simp [unknown]
  · rename_i l known
    rw [breaks_map_iff, breaks_portText_iff brief, known]
    simp

theorem brief_of_portEntries {ports : List (String × Data)} (brief : value.Brief)
    (listed : portEntries source value = .ok ports) : ∀ e ∈ ports, e.2.Brief := by
  unfold portEntries at listed
  split at listed
  · cases listed
    exact List.forall_mem_nil _
  · cases brief <;> cases listed
    assumption

/-- A configuration breaks off at the first entry of `ports` that is not read. -/
theorem breaks_ofEntries_iff (brief : ∀ e ∈ entries, e.2.Brief) :
    Breaks (ofEntries source entries) fault ↔
      unknownKeys keys entries = [] ∧
      (∃ tokens, readInterfaces source (Data.valueAt entries "interfaces") = .ok tokens) ∧
      (∃ router, readRouter (Data.valueAt entries "router") = .ok router) ∧
      ∃ before entry after k,
        portEntries source (Data.valueAt entries "ports") = .ok (before ++ entry :: after) ∧
        (∀ e ∈ before, ∃ said, readEntry source e = .ok said) ∧
        (PortList.ofKey? entry.1).isSome ∧ entry.2.Overlong k ∧ fault = .longNumeral k := by
  unfold ofEntries
  simp only [List.isEmpty_iff]
  split
  · rename_i known
    simp only [breaks_bind_iff, not_breaks_lift, not_breaks_pure, Malformed.lift_eq_ok_iff,
      readPorts_eq, breaks_map_iff, breaks_mapM_iff, and_false, exists_false, or_false, false_or]
    rw [and_iff_right known]
    constructor
    · rintro ⟨tokens, interfaces, router, routed, _, listed, before, entry, after, rfl, earlier,
        breaks⟩
      have brief := brief_of_portEntries (Data.brief_valueAt brief "ports") listed entry (by simp)
      obtain ⟨known, k, long, rfl⟩ := (breaks_readEntry_iff brief).mp breaks
      exact ⟨⟨tokens, interfaces⟩, ⟨router, routed⟩, before, entry, after, k, listed, earlier,
        known, long, rfl⟩
    · rintro ⟨⟨tokens, interfaces⟩, ⟨router, routed⟩, before, entry, after, k, listed, earlier,
        known, long, rfl⟩
      have brief := brief_of_portEntries (Data.brief_valueAt brief "ports") listed entry (by simp)
      exact ⟨tokens, interfaces, router, routed, _, listed, before, entry, after, rfl, earlier,
        (breaks_readEntry_iff brief).mpr ⟨known, k, long, rfl⟩⟩
  · rename_i unknown
    exact iff_of_false not_breaks_malformed_bind fun breaks => unknown breaks.1

end Config

/-! ### Schedules -/

namespace Schedule

variable {name : String} {entries : List (String × Data)} {value : Data} {fault : ReadFault}

theorem breaks_readProfile_iff :
    Breaks (readProfile name value) fault ↔ ∃ entries, value = .mapping entries ∧
      unknownKeys ["default", "windows"] entries = [] ∧
      (∃ rates, readDefault ("schedule." ++ name ++ ".default")
        (Data.valueAt entries "default") = .ok rates) ∧
      (Data.valueAt entries "windows").Lone ∧ fault = .notItems := by
  unfold readProfile
  split
  · rename_i entries
    simp only [List.isEmpty_iff]
    split
    · rename_i known
      simp only [breaks_bind_iff, not_breaks_lift, not_breaks_pure, Malformed.lift_eq_ok_iff,
        Data.breaks_itemsOf_iff, and_false, exists_false, or_false, false_or]
      constructor
      · rintro ⟨rates, read, lone, rfl⟩
        exact ⟨entries, rfl, known, ⟨rates, read⟩, lone, rfl⟩
      · rintro ⟨_, ⟨⟩, -, ⟨rates, read⟩, lone, rfl⟩
        exact ⟨rates, read, lone, rfl⟩
    · rename_i unknown
      refine iff_of_false not_breaks_malformed_bind ?_
      rintro ⟨_, ⟨⟩, known, -⟩
      exact unknown known
  · rename_i other
    refine iff_of_false not_breaks_malformed ?_
    rintro ⟨entries, rfl, -⟩
    exact other entries rfl

theorem readProfiles_eq (entries : List (String × Data)) :
    readProfiles entries = entries.mapM fun e => readProfile e.1 e.2 := by
  induction entries with
  | nil => rfl
  | cons entry rest ih =>
      rw [readProfiles, List.mapM_cons, ih]

theorem breaks_ofEntries_iff :
    Breaks (ofEntries entries) fault ↔ ∃ before e after, entries = before ++ e :: after ∧
      (∀ e ∈ before, ∃ p, readProfile e.1 e.2 = .ok p) ∧ Breaks (readProfile e.1 e.2) fault := by
  unfold ofEntries
  split
  · rename_i empty
    rw [List.isEmpty_iff] at empty
    simp [empty]
  · rw [breaks_map_iff, readProfiles_eq, breaks_mapM_iff]

end Schedule

/-! ### Configurations with their schedules -/

namespace CommandLine.SetRate

variable {source : String} {value : Data} {fault : ReadFault}

/-- A configuration, and the schedule that it holds. -/
def settings (source : String) (value : Data) : Except ReadFault (Config × Schedule) := do
  let config ← Config.ofData source value
  let schedule ← scheduleOf config
  return (config, schedule)

/-- The two ways in which settings break off with a fault that is not reported as malformed: by a
text of ports, and by the windows of a profile. What is read before must be well-formed. -/
inductive Escapes (source : String) : Data → ReadFault → Prop
  | port {entries before after : List (String × Data)} {entry : String × Data} {k : Nat}
      (known : unknownKeys Config.keys entries = [])
      (tokens : ∃ ts, Config.readInterfaces source (Data.valueAt entries "interfaces") = .ok ts)
      (router : ∃ r, Config.readRouter (Data.valueAt entries "router") = .ok r)
      (ports : Config.portEntries source (Data.valueAt entries "ports") =
        .ok (before ++ entry :: after))
      (earlier : ∀ e ∈ before, ∃ said, Config.readEntry source e = .ok said)
      (list : (PortList.ofKey? entry.1).isSome) (long : entry.2.Overlong k) :
      Escapes source (.mapping entries) (.longNumeral k)
  | windows {value : Data} {config : Config} {before after profile : List (String × Data)}
      {name : String} (read : Config.ofData source value = .ok config)
      (schedule : config.schedule = some (before ++ (name, .mapping profile) :: after))
      (earlier : ∀ e ∈ before, ∃ p, Schedule.readProfile e.1 e.2 = .ok p)
      (known : unknownKeys ["default", "windows"] profile = [])
      (rates : ∃ rates, Schedule.readDefault ("schedule." ++ name ++ ".default")
        (Data.valueAt profile "default") = .ok rates)
      (lone : (Data.valueAt profile "windows").Lone) : Escapes source value .notItems

theorem breaks_scheduleOf_iff {config : Config} :
    Breaks (scheduleOf config) fault ↔ ∃ entries, config.schedule = some entries ∧
      Breaks (Schedule.ofEntries entries) fault := by
  unfold scheduleOf
  split
  · rename_i none
    simp [none]
  · rename_i entries given
    simp [given]

theorem breaks_settings_iff (brief : value.Brief) :
    Breaks (settings source value) fault ↔ Escapes source value fault := by
  simp only [settings, breaks_bind_iff, not_breaks_pure, and_false, exists_false, or_false]
  constructor
  · rintro (breaks | ⟨config, read, breaks⟩)
    · cases brief with
      | mapping brief =>
          obtain ⟨known, tokens, router, before, entry, after, k, ports, earlier, list, long,
            rfl⟩ := (Config.breaks_ofEntries_iff brief).mp breaks
          exact .port known tokens router ports earlier list long
      | _ => exact absurd breaks not_breaks_malformed
    · obtain ⟨_, given, breaks⟩ := breaks_scheduleOf_iff.mp breaks
      obtain ⟨before, ⟨name, said⟩, after, rfl, earlier, breaks⟩ :=
        Schedule.breaks_ofEntries_iff.mp breaks
      obtain ⟨profile, rfl, known, rates, lone, rfl⟩ := Schedule.breaks_readProfile_iff.mp breaks
      exact .windows read given earlier known rates lone
  · intro escapes
    cases escapes with
    | port known tokens router ports earlier list long =>
        cases brief with
        | mapping brief =>
            exact .inl ((Config.breaks_ofEntries_iff brief).mpr
              ⟨known, tokens, router, _, _, _, _, ports, earlier, list, long, rfl⟩)
    | windows read schedule earlier known rates lone =>
        refine .inr ⟨_, read, breaks_scheduleOf_iff.mpr ⟨_, schedule,
          Schedule.breaks_ofEntries_iff.mpr ⟨_, _, _, rfl, earlier, ?_⟩⟩⟩
        exact Schedule.breaks_readProfile_iff.mpr ⟨_, rfl, known, rates, lone, rfl⟩

/-- Settings are read, or what is malformed about them is reported, unless a text of ports or the
windows of a profile break the reading off; then the fault is theirs. -/
theorem answered_settings_iff (source : String) (brief : value.Brief) :
    (Answered (settings source value) ↔ ¬∃ fault, Escapes source value fault) ∧
      ∀ fault, Escapes source value fault → settings source value = .error fault := by
  simp only [answered_iff, breaks_settings_iff brief, true_and]
  exact fun fault escapes => ((breaks_settings_iff brief).mpr escapes).eq_error

/-! ### A profile with nothing but windows -/

def office (windows : Data) : Data :=
  .mapping [("schedule", .mapping [("office", .mapping [("windows", windows)])])]

theorem brief_office {windows : Data} (brief : windows.Brief) : (office windows).Brief := by
  have lone {key : String} {value : Data} (brief : value.Brief) :
      (Data.mapping [(key, value)]).Brief := .mapping (List.forall_mem_singleton.mpr brief)
  exact lone (lone (lone brief))

theorem ofData_office (source : String) (windows : Data) :
    Config.ofData source (office windows) =
      .ok { schedule := some [("office", .mapping [("windows", windows)])] } := by
  have known : unknownKeys Config.keys
      [("schedule", .mapping [("office", .mapping [("windows", windows)])])] = [] := by
    simp [unknownKeys, Config.keys]
  rw [office, Config.ofData, Config.ofEntries]
  simp only [known]
  rfl

theorem escapes_office_iff {windows : Data} :
    Escapes source (office windows) fault ↔ windows.Lone ∧ fault = .notItems := by
  constructor
  · intro escapes
    generalize same : office windows = value at escapes
    cases escapes with
    | port known tokens router ports =>
        cases same
        have none : Config.portEntries source (Data.valueAt
            [("schedule", .mapping [("office", .mapping [("windows", windows)])])] "ports") =
          .ok [] := rfl
        rw [none] at ports
        simp at ports
    | windows read schedule earlier known rates lone =>
        rw [← same, ofData_office] at read
        cases read
        rcases List.cons_eq_append_iff.mp (Option.some.inj schedule) with ⟨-, split⟩ | ⟨_, -, split⟩
        · cases split
          exact ⟨lone, rfl⟩
        · simp at split
  · rintro ⟨lone, rfl⟩
    have known : unknownKeys ["default", "windows"] [("windows", windows)] = [] := by
      simp [unknownKeys]
    have profiles : some [("office", Data.mapping [("windows", windows)])] =
        some ([] ++ ("office", .mapping [("windows", windows)]) :: []) := rfl
    exact .windows (ofData_office source windows) profiles (List.forall_mem_nil _) known
      ⟨(0, 0), rfl⟩ lone

/-- Windows that are a text are malformed, for its characters are none; the truth value that stands
for them is not reported. -/
theorem answered_settings_office :
    Answered (settings "config.yml" (office (.text "always"))) ∧
      settings "config.yml" (office (.bool true)) = .error .notItems := by
  obtain ⟨answered, -⟩ :=
    answered_settings_iff "config.yml" (brief_office (.text "always"))
  obtain ⟨-, failed⟩ :=
    answered_settings_iff "config.yml" (brief_office (.bool true))
  refine ⟨answered.mpr ?_, failed _ (escapes_office_iff.mpr ⟨.bool, rfl⟩)⟩
  rintro ⟨fault, escapes⟩
  cases (escapes_office_iff.mp escapes).1

/-- A number in the place of windows breaks the reading off, and nothing is found malformed. -/
theorem not_answered_settings_office :
    (office (.integer 5)).Brief ∧
      settings "config.yml" (office (.integer 5)) = .error .notItems ∧
      ¬Answered (settings "config.yml" (office (.integer 5))) := by
  have brief : (office (.integer 5)).Brief := brief_office (.integer (by decide))
  have breaks : Breaks (settings "config.yml" (office (.integer 5))) .notItems :=
    (breaks_settings_iff brief).mpr (escapes_office_iff.mpr ⟨.integer (by decide), rfl⟩)
  exact ⟨brief, breaks.eq_error, fun answered => answered_iff.mp answered ⟨_, breaks⟩⟩

end CommandLine.SetRate

end Firewall

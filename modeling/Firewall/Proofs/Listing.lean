import Firewall.Proofs.Lettering
import Firewall.Proofs.Meaning

/-!
What a list of ports is. A text lists ports and ranges if its parts between the commas do, without
the blanks around them. Lists are read so, but with the digits of any script, and the ports of a
rule are printed as they were read.
-/

namespace Firewall

open Text
open Interface (bind_eq_ok_iff)

/-! ### Lists of items -/

theorem mapM_eq_ok_iff {ε α β : Type} {f : α → Except ε β} {P : α → Prop} {g : α → β}
    (each : ∀ x y, f x = .ok y ↔ P x ∧ y = g x) {xs : List α} {ys : List β} :
    xs.mapM f = .ok ys ↔ (∀ x ∈ xs, P x) ∧ ys = xs.map g := by
  induction xs generalizing ys with
  | nil => simp [pure, Except.pure, eq_comm]
  | cons x rest ih =>
      simp only [List.mapM_cons, bind_eq_ok_iff, each, ih, List.forall_mem_cons, List.map_cons]
      constructor
      · rintro ⟨_, ⟨first, rfl⟩, _, ⟨later, rfl⟩, ⟨⟩⟩
        exact ⟨⟨first, later⟩, rfl⟩
      · rintro ⟨⟨first, later⟩, rfl⟩
        exact ⟨_, ⟨first, rfl⟩, _, ⟨later, rfl⟩, rfl⟩

theorem Text.toList_intercalate_cons (c : Char) (first : String) (more : List String) :
    ((String.singleton c).intercalate (first :: more)).toList =
      first.toList ++ (more.map String.toList).flatMap (c :: ·) := by
  induction more generalizing first with
  | nil => simp
  | cons next rest ih =>
      rw [String.intercalate_cons_cons, String.toList_append, ih]
      simp

/-! ### Ports and ranges -/

namespace Ports

/-- A port, or the first and the last port of a range, in some spelling of numbers. -/
inductive Entry (spells : List Char → Nat → Prop) : List Char → Prop
  | port {digits : List Char} {n : Nat} (spelled : spells digits n) (above : 0 < n)
      (below : n ≤ 65535) : Entry spells digits
  | range {first last : List Char} {low high : Nat} (spelledFirst : spells first low)
      (spelledLast : spells last high) (above : 0 < low) (ordered : low ≤ high)
      (below : high ≤ 65535) : Entry spells (first ++ '-' :: last)

/-- A decimal number in ASCII digits. -/
structure Decimal (digits : List Char) (n : Nat) : Prop where
  filled : digits ≠ []
  ascii : ∀ c ∈ digits, c.isDigit = true
  value : Nat.ofDigitChars 10 digits 0 = n

/-- A decimal number as it is read: in digits of any script, which are not too many. -/
structure Numeral (digits : List Char) (n : Nat) : Prop where
  filled : digits ≠ []
  spelled : ∀ c ∈ digits, isDigit c = true
  short : digits.length ≤ digitLimit
  value : ofDigits digits = n

/-- A text of entries joined by commas, with blanks around them, and the entries themselves. -/
def Lists (spells : List Char → Nat → Prop) (text : String) (ports : List String) : Prop :=
  ∃ parts : List String, parts ≠ [] ∧ text = Ipfw.commaJoined parts ∧
    (∀ part ∈ parts, ',' ∉ part.toList ∧ Entry spells (strip part).toList) ∧
    ports = parts.map strip

/-- A word of ASCII digits and at most one hyphen. -/
def Ascii (word : String) : Prop :=
  (∀ c ∈ word.toList, c.isDigit = true ∨ c = '-') ∧ word.toList.count '-' ≤ 1

instance (word : String) : Decidable (Ascii word) :=
  decidable_of_iff ((word.toList.all fun c => c.isDigit || c = '-') = true ∧
    word.toList.count '-' ≤ 1) (by simp [Ascii])

/-- A word whose numbers have no more digits than are read. -/
def Short (word : String) : Prop :=
  ∀ run ∈ Address.splitAll '-' word.toList, run.length ≤ digitLimit

instance (word : String) : Decidable (Short word) := List.decidableBAll _ _

variable {spells spells' : List Char → Nat → Prop} {text word : String} {ports : List String}
  {item first digits : List Char} {last : Option (List Char)} {n : Nat}

/-! ### What is read -/

theorem number_eq_ok_iff :
    number text digits = .ok n ↔
      digits.length ≤ digitLimit ∧ ofDigits digits = n ∧ 0 < n ∧ n ≤ 65535 := by
  unfold number
  split
  · rename_i long
    exact iff_of_false nofun fun said => absurd said.1 (Nat.not_le.mpr long)
  · rename_i short
    simp only
    split
    · rename_i within
      constructor
      · rintro ⟨⟩
        exact ⟨Nat.not_lt.mp short, rfl, within⟩
      · rintro ⟨-, rfl, -⟩
        rfl
    · rename_i outside
      refine iff_of_false nofun ?_
      rintro ⟨-, rfl, within⟩
      exact outside within

/-- An item that is taken apart is a number, or two with a hyphen between them. -/
theorem split?_eq_some_iff :
    split? item = some (first, last) ↔
      item = first ++ last.elim [] ('-' :: ·) ∧
        ∀ digits ∈ first :: last.toList, digits ≠ [] ∧ ∀ c ∈ digits, isDigit c = true := by
  constructor
  · intro parts
    obtain ⟨whole, inside, -⟩ := cut_iff.mp
      (⟨rfl, rfl⟩ : item.takeWhile isDigit = _ ∧ item.dropWhile isDigit = _)
    unfold split? at parts
    simp only at parts
    split at parts
    · cases parts
    · rename_i filled
      rw [List.isEmpty_iff] at filled
      split at parts
      · rename_i single
        rw [single] at whole
        cases parts
        exact ⟨whole, List.forall_mem_singleton.mpr ⟨filled, inside⟩⟩
      · rename_i rest range
        rw [range] at whole
        split at parts
        · rename_i bounded
          cases parts
          simp only [Bool.and_eq_true, Bool.not_eq_true', List.isEmpty_eq_false_iff,
            List.all_eq_true] at bounded
          refine ⟨whole, List.forall_mem_cons.mpr ⟨⟨filled, inside⟩, ?_⟩⟩
          exact List.forall_mem_singleton.mpr bounded
        · cases parts
      · cases parts
  · rintro ⟨rfl, numbers⟩
    rw [List.forall_mem_cons] at numbers
    obtain ⟨⟨filled, inside⟩, behind⟩ := numbers
    have stop : ∀ c ∈ (last.elim [] ('-' :: ·)).head?, isDigit c = false := by
      cases last with
      | none => nofun
      | some digits =>
          rintro c ⟨⟩
          rfl
    obtain ⟨head, tail⟩ := cut_iff.mpr ⟨rfl, inside, stop⟩
    unfold split?
    simp only [head, tail, List.isEmpty_iff, filled, if_false]
    cases last with
    | none => rfl
    | some digits =>
        obtain ⟨more, after⟩ := behind digits (List.mem_singleton_self _)
        simp [more, List.all_eq_true.mpr after]

theorem check_eq_ok_iff {port : String} :
    check text item = .ok port ↔ Entry Numeral item ∧ port = String.ofList item := by
  constructor
  · intro checked
    unfold check at checked
    simp only at checked
    split at checked
    · cases checked
    · rename_i first parts
      obtain ⟨rfl, numbers⟩ := split?_eq_some_iff.mp parts
      obtain ⟨n, read, checked⟩ := bind_eq_ok_iff.mp checked
      obtain ⟨short, value, above, below⟩ := number_eq_ok_iff.mp read
      obtain ⟨filled, spelled⟩ := numbers first List.mem_cons_self
      cases checked
      rw [Option.elim_none, List.append_nil]
      exact ⟨.port ⟨filled, spelled, short, value⟩ above below, rfl⟩
    · rename_i first last parts
      obtain ⟨rfl, numbers⟩ := split?_eq_some_iff.mp parts
      obtain ⟨low, readLow, checked⟩ := bind_eq_ok_iff.mp checked
      obtain ⟨high, readHigh, checked⟩ := bind_eq_ok_iff.mp checked
      obtain ⟨short, value, above, -⟩ := number_eq_ok_iff.mp readLow
      obtain ⟨short', value', -, below⟩ := number_eq_ok_iff.mp readHigh
      obtain ⟨filled, spelled⟩ := numbers first List.mem_cons_self
      obtain ⟨filled', spelled'⟩ := numbers last (by simp)
      split at checked
      · cases checked
      · rename_i ordered
        cases checked
        exact ⟨.range ⟨filled, spelled, short, value⟩ ⟨filled', spelled', short', value'⟩ above
          (Nat.not_lt.mp ordered) below, rfl⟩
  · rintro ⟨entry, rfl⟩
    cases entry with
    | @port _ n spelled above below =>
        have parts : split? item = some (item, none) :=
          split?_eq_some_iff.mpr ⟨by simp, by simpa using ⟨spelled.filled, spelled.spelled⟩⟩
        have read : number text item = .ok n :=
          number_eq_ok_iff.mpr ⟨spelled.short, spelled.value, above, below⟩
        rw [check, parts]
        simp only [read]
        rfl
    | @range first last low high spelledFirst spelledLast above ordered below =>
        have parts : split? (first ++ '-' :: last) = some (first, some last) :=
          split?_eq_some_iff.mpr ⟨rfl, by
            simpa using ⟨⟨spelledFirst.filled, spelledFirst.spelled⟩,
              spelledLast.filled, spelledLast.spelled⟩⟩
        have readLow : number text first = .ok low := number_eq_ok_iff.mpr
          ⟨spelledFirst.short, spelledFirst.value, above, ordered.trans below⟩
        have readHigh : number text last = .ok high := number_eq_ok_iff.mpr
          ⟨spelledLast.short, spelledLast.value, above.trans_le ordered, below⟩
        rw [check, parts]
        simp only [readLow, readHigh]
        exact if_neg (Nat.not_lt.mpr ordered)

/-- The parts of a text between its commas. -/
theorem splitAll_eq_map_iff {parts : List String} (filled : parts ≠ []) :
    Address.splitAll ',' text.toList = parts.map String.toList ↔
      text = Ipfw.commaJoined parts ∧ ∀ part ∈ parts, ',' ∉ part.toList := by
  cases parts with
  | nil => exact absurd rfl filled
  | cons first more =>
      rw [List.map_cons, Address.splitAll_eq_cons_iff, ← List.map_cons, List.forall_mem_map,
        ← toList_intercalate_cons, String.toList_inj]
      rfl

/-- The items of a text are what it lists, if they are entries. -/
theorem lists_iff : Lists spells text ports ↔
    (∀ item ∈ items text, Entry spells item) ∧ ports = (items text).map String.ofList := by
  constructor
  · rintro ⟨parts, filled, joined, entries, rfl⟩
    have split := (splitAll_eq_map_iff filled).mpr
      ⟨joined, fun part hpart => (entries part hpart).1⟩
    rw [items, split, List.map_map, List.forall_mem_map, List.map_map]
    refine ⟨fun part hpart => ?_, rfl⟩
    have entry := (entries part hpart).2
    rwa [strip, String.toList_ofList] at entry
  · rintro ⟨entries, rfl⟩
    let parts := (Address.splitAll ',' text.toList).map String.ofList
    have filled : parts ≠ [] := by simpa [parts] using Address.splitAll_ne_nil ',' text.toList
    have split : Address.splitAll ',' text.toList = parts.map String.toList := by
      simp [parts, Function.comp_def]
    obtain ⟨joined, free⟩ := (splitAll_eq_map_iff filled).mp split
    rw [items, split, List.map_map] at entries ⊢
    refine ⟨parts, filled, joined, fun part hpart => ⟨free part hpart, ?_⟩, List.map_map⟩
    rw [strip, String.toList_ofList]
    exact entries _ (List.mem_map_of_mem hpart)

/-- A text is read as a list if it is one, in numbers that are read. -/
theorem parse_eq_ok_iff : parse text = .ok ports ↔ Lists Numeral text ports := by
  rw [parse, mapM_eq_ok_iff fun _ _ => check_eq_ok_iff, lists_iff]

/-! ### ASCII digits -/

theorem ofDigits_of_ascii (h : ∀ c ∈ digits, c.isDigit = true) :
    ofDigits digits = Nat.ofDigitChars 10 digits 0 :=
  List.foldl_ext _ _ _ fun n c hc => by rw [digit?_of_ascii (h c hc)]; rfl

theorem Numeral.hyphen_not_mem (h : Numeral digits n) : '-' ∉ digits :=
  fun hyphen => Bool.noConfusion (h.spelled '-' hyphen)

theorem Decimal.hyphen_not_mem (h : Decimal digits n) : '-' ∉ digits :=
  fun hyphen => Bool.noConfusion (h.ascii '-' hyphen)

theorem Numeral.decimal (h : Numeral digits n) (ascii : ∀ c ∈ digits, c.isDigit = true) :
    Decimal digits n :=
  ⟨h.filled, ascii, (ofDigits_of_ascii ascii).symm.trans h.value⟩

theorem Decimal.numeral (h : Decimal digits n) (short : digits.length ≤ digitLimit) :
    Numeral digits n :=
  ⟨h.filled, fun c hc => isDigit_of_ascii (h.ascii c hc), short,
    (ofDigits_of_ascii h.ascii).trans h.value⟩

theorem splitAll_range {first last : List Char} (free : '-' ∉ first) (free' : '-' ∉ last) :
    Address.splitAll '-' (first ++ '-' :: last) = [first, last] := by
  rw [Address.splitAll_append, Address.splitAll_of_not_mem free, Address.splitAll_of_not_mem free']
  rfl

namespace Entry

/-- The parts of an entry between its hyphens are the numbers that it is of. -/
theorem spelled (free : ∀ digits n, spells digits n → '-' ∉ digits) (entry : Entry spells item) :
    ∀ run ∈ Address.splitAll '-' item, ∃ n, spells run n := by
  cases entry with
  | port spelled =>
      rw [Address.splitAll_of_not_mem (free _ _ spelled)]
      exact List.forall_mem_singleton.mpr ⟨_, spelled⟩
  | range spelledFirst spelledLast =>
      rw [splitAll_range (free _ _ spelledFirst) (free _ _ spelledLast)]
      exact List.forall_mem_cons.mpr
        ⟨⟨_, spelledFirst⟩, List.forall_mem_singleton.mpr ⟨_, spelledLast⟩⟩

theorem imp (free : ∀ digits n, spells digits n → '-' ∉ digits) (entry : Entry spells item)
    (same : ∀ run ∈ Address.splitAll '-' item, ∀ n, spells run n → spells' run n) :
    Entry spells' item := by
  cases entry with
  | port spelled above below =>
      rw [Address.splitAll_of_not_mem (free _ _ spelled)] at same
      exact .port (same _ (List.mem_singleton_self _) _ spelled) above below
  | range spelledFirst spelledLast above ordered below =>
      rw [splitAll_range (free _ _ spelledFirst) (free _ _ spelledLast)] at same
      exact .range (same _ (by simp) _ spelledFirst) (same _ (by simp) _ spelledLast) above
        ordered below

theorem short (entry : Entry Numeral word.toList) : Short word := by
  intro run hrun
  obtain ⟨n, spelled⟩ := entry.spelled (fun _ _ => Numeral.hyphen_not_mem) run hrun
  exact spelled.short

theorem ascii (entry : Entry Decimal item) :
    (∀ c ∈ item, c.isDigit = true ∨ c = '-') ∧ item.count '-' ≤ 1 := by
  cases entry with
  | port spelled =>
      exact ⟨fun c hc => .inl (spelled.ascii c hc),
        (List.count_eq_zero.mpr spelled.hyphen_not_mem).trans_le (Nat.zero_le 1)⟩
  | range spelledFirst spelledLast =>
      rw [List.count_append, List.count_cons_self,
        List.count_eq_zero.mpr spelledFirst.hyphen_not_mem,
        List.count_eq_zero.mpr spelledLast.hyphen_not_mem, List.forall_mem_append,
        List.forall_mem_cons]
      exact ⟨⟨fun c hc => .inl (spelledFirst.ascii c hc), .inr rfl,
        fun c hc => .inl (spelledLast.ascii c hc)⟩, Nat.le_refl 1⟩

end Entry

/-- The entries that are read and are ASCII are the ones in ASCII that are short enough. -/
theorem entry_ascii_iff :
    Entry Numeral word.toList ∧ Ascii word ↔ Entry Decimal word.toList ∧ Short word := by
  constructor
  · rintro ⟨entry, ascii⟩
    refine ⟨entry.imp (fun _ _ => Numeral.hyphen_not_mem) fun run hrun n spelled => ?_, entry.short⟩
    refine spelled.decimal fun c hc => ?_
    have letter := ascii.1 c (Address.splitAll_subset hrun hc)
    exact letter.resolve_right fun hyphen => spelled.hyphen_not_mem (hyphen ▸ hc)
  · rintro ⟨entry, short⟩
    exact ⟨entry.imp (fun _ _ => Decimal.hyphen_not_mem)
      fun run hrun n spelled => spelled.numeral (short run hrun), entry.ascii⟩

theorem Lists.entries (listed : Lists spells text ports) :
    ∀ port ∈ ports, Entry spells port.toList := by
  obtain ⟨entries, rfl⟩ := lists_iff.mp listed
  rw [List.forall_mem_map]
  simpa using entries

theorem Lists.imp (listed : Lists spells text ports)
    (same : ∀ port ∈ ports, Entry spells port.toList → Entry spells' port.toList) :
    Lists spells' text ports := by
  obtain ⟨entries, rfl⟩ := lists_iff.mp listed
  rw [List.forall_mem_map] at same
  simp only [String.toList_ofList] at same
  exact lists_iff.mpr ⟨fun item hitem => same item hitem (entries item hitem), rfl⟩

/-- Lists are read as those of numbers in ASCII digits just where the digits that are read are
ASCII, and the numbers in ASCII digits are read. -/
theorem parse_iff_lists_decimal_iff :
    (∀ ports, parse text = .ok ports ↔ Lists Decimal text ports) ↔
      ∀ ports, (parse text = .ok ports → ∀ port ∈ ports, Ascii port) ∧
        (Lists Decimal text ports → ∀ port ∈ ports, Short port) := by
  constructor
  · intro same ports
    refine ⟨fun parsed port hport => ?_, fun listed port hport => ?_⟩
    · exact (((same ports).mp parsed).entries port hport).ascii
    · exact ((parse_eq_ok_iff.mp ((same ports).mpr listed)).entries port hport).short
  · intro agree ports
    obtain ⟨ascii, short⟩ := agree ports
    constructor
    · intro parsed
      exact (parse_eq_ok_iff.mp parsed).imp fun port hport entry =>
        (entry_ascii_iff.mp ⟨entry, ascii parsed port hport⟩).1
    · intro listed
      exact parse_eq_ok_iff.mpr (listed.imp fun port hport entry =>
        (entry_ascii_iff.mpr ⟨entry, short listed port hport⟩).1)

end Ports

/-! ### Words for ports -/

namespace Ports

theorem Entry.letters (entry : Entry Numeral item) :
    (∀ c ∈ item, isDigit c = true ∨ c = '-') ∧ ∃ c ∈ item.head?, isDigit c = true := by
  have first {cs : List Char} (filled : cs ≠ []) (digits : ∀ c ∈ cs, isDigit c = true)
      (rest : List Char) : ∃ c ∈ (cs ++ rest).head?, isDigit c = true := by
    obtain ⟨c, more, rfl⟩ := List.exists_cons_of_ne_nil filled
    exact ⟨c, rfl, digits c List.mem_cons_self⟩
  cases entry with
  | port spelled =>
      have begins := first spelled.filled spelled.spelled []
      rw [List.append_nil] at begins
      exact ⟨fun c hc => .inl (spelled.spelled c hc), begins⟩
  | range spelledFirst spelledLast =>
      refine ⟨?_, first spelledFirst.filled spelledFirst.spelled _⟩
      rw [List.forall_mem_append, List.forall_mem_cons]
      exact ⟨fun c hc => .inl (spelledFirst.spelled c hc), .inr rfl,
        fun c hc => .inl (spelledLast.spelled c hc)⟩

end Ports

open Ipfw (Plain portWords listed commaJoined keywords)

/-- A port that was read is no word that a command means something by. -/
theorem Ports.Entry.plain {word : String} (entry : Entry Numeral word.toList) : Plain word := by
  obtain ⟨letters, c, first, digit⟩ := entry.letters
  have keyword := (by decide : ∀ w ∈ keywords, w.toList.head?.any isDigit = false)
  refine ⟨?_, fun comma => ?_, fun listed => ?_⟩
  · rintro rfl
    cases first
  · exact (letters ',' comma).elim nofun nofun
  · have undigit := keyword word listed
    rw [Option.mem_def.mp first, Option.any_some, digit] at undigit
    cases undigit

/-- The ports that are printed behind the addresses of a rule are words of ASCII digits and at most
one hyphen. -/
def Rule.AsciiPorts (rule : Rule) : Prop :=
  ∀ e ∈ [rule.what.src, rule.what.dst], ∀ word ∈ portWords e, word ≠ "not" →
    ∀ port ∈ listed word, Ports.Ascii port

theorem Ipfw.forall_mem_portWords_iff {e : Endpoint} {P : String → Prop}
    (plain : ∀ t ∈ e.ports, Plain t) :
    (∀ word ∈ portWords e, word ≠ "not" → ∀ port ∈ listed word, P port) ↔
      ∀ t ∈ e.ports, P t := by
  by_cases filled : e.ports = []
  · simp [portWords, filled]
  · have other : commaJoined e.ports ≠ "not" := fun same =>
      commaJoined_notMem_keywords filled plain (same ▸ by decide)
    have items := listed_commaJoined filled fun t ht => (plain t ht).no_comma
    cases negated : e.portsNegate <;> simp [portWords, flagWord, filled, negated, other, items]

/-! ### Rules with ports -/

def Match.ports (m : Match) : List String := m.src.ports ++ m.dst.ports

theorem Rule.asciiPorts_iff {rule : Rule} (plain : ∀ t ∈ rule.what.ports, Plain t) :
    rule.AsciiPorts ↔ ∀ t ∈ rule.what.ports, Ports.Ascii t := by
  simp only [Match.ports, List.forall_mem_append] at plain ⊢
  simp only [AsciiPorts, List.forall_mem_cons, Ipfw.forall_mem_portWords_iff plain.1,
    Ipfw.forall_mem_portWords_iff plain.2]
  simp

/-- The lists of ports that are opened for an interface. -/
def Interface.openLists (i : Interface) : List PortList :=
  (if i.trusted then [.trustedTcp, .trustedUdp] else [])
    ++ (if i.bounded || i.trusted then [.localTcp, .localUdp] else [])
    ++ [.publicTcp, .publicUdp]

/-- The purpose and the protocol of the rules that open a list. -/
def PortList.opening : PortList → Purpose × String
  | .trustedTcp => (.trustedTcp, "tcp")
  | .trustedUdp => (.trustedUdp, "udp")
  | .localTcp => (.localTcp, "tcp")
  | .localUdp => (.localUdp, "udp")
  | .publicTcp => (.publicTcp, "tcp")
  | .publicUdp => (.publicUdp, "udp")

/-- The ports of a rule are ASCII, and told from the words around them. -/
def Draft.PlainPorts (d : Draft) : Prop := ∀ t ∈ d.what.ports, Plain t ∧ Ports.Ascii t

instance (d : Draft) : Decidable d.PlainPorts := List.decidableBAll _ _

namespace Ruleset

variable {r : Registry} {o : Options} {i : Interface} {d : Draft}

theorem plainPorts_of_flatMap {ds : List Draft}
    (fixed : ∀ t ∈ ds.flatMap (·.what.ports), Plain t ∧ Ports.Ascii t) : ∀ d ∈ ds, d.PlainPorts :=
  fun d hd t ht => fixed t (List.mem_flatMap.mpr ⟨d, hd, ht⟩)

theorem plainPorts_shared : ∀ logAll : Bool, ∀ d ∈ drafts {} { logAll }, d.PlainPorts := by
  decide

theorem plainPorts_router (router : Router) :
    ∀ d ∈ divertRule router :: routingRules router, d.PlainPorts :=
  plainPorts_of_flatMap (List.forall_mem_nil _)

theorem plainPorts_bindKnown (names : List String) :
    (d.bindKnown names).PlainPorts ↔ d.PlainPorts := by
  unfold Draft.bindKnown
  split <;> rfl

theorem plainPorts_forged (names : List String) : ∀ d ∈ forged names, d.PlainPorts := by
  intro d hd
  obtain ⟨-, entry, -, rfl⟩ := mem_forged_iff.mp hd
  exact List.forall_mem_nil _

theorem plainPorts_macRules : ∀ d ∈ macRules o i, d.PlainPorts := by
  have fixed : ∀ t ∈ macTcpPorts ++ macUdpPorts ++ mdnsPorts, Plain t ∧ Ports.Ascii t := by decide
  exact plainPorts_of_flatMap fixed

theorem plainPorts_windowsRules : ∀ d ∈ windowsRules o i, d.PlainPorts := by
  have fixed : ∀ t ∈ windowsTcpPorts ++ windowsUdpPorts, Plain t ∧ Ports.Ascii t := by decide
  exact plainPorts_of_flatMap fixed

theorem plainPorts_shapingOf : ∀ d ∈ shapingOf i, d.PlainPorts := by
  unfold shapingOf
  cases i.rates with
  | none => simp
  | some rates =>
      -- The ports are those of any other plan.
      have fixed : ∀ t ∈ (Shaping.rules (Shaping.allocate { name := "" } ⟨"", ""⟩)).flatMap
          (·.what.ports), Plain t ∧ Ports.Ascii t := by decide
      have own : ∀ d ∈ Shaping.rules (Shaping.allocate i rates), d.PlainPorts :=
        plainPorts_of_flatMap fixed
      simpa using own

theorem openPortsOf_eq : openPortsOf o i =
    i.openLists.flatMap fun l => openTo o i l.opening.1 l.opening.2 (o.ports.get l) := by
  unfold openPortsOf Interface.openLists
  cases i.trusted <;> cases i.bounded <;> simp [PortList.opening, OpenPorts.get]

/-- The ports of an interface's own rule are fixed, or those of a list that is opened for it. -/
theorem ports_portion : ∀ d ∈ portion o i,
    d.PlainPorts ∨ ∃ l ∈ i.openLists, d.what.ports = o.ports.get l := by
  have none : ∀ t ∈ ([] : List String), Plain t ∧ Ports.Ascii t := List.forall_mem_nil _
  refine forall_mem_portion (fun d hd => .inl (plainPorts_macRules d hd))
    (fun d hd => .inl (plainPorts_windowsRules d hd)) (.inl none) (.inl none)
    (fun d hd => .inl (plainPorts_shapingOf d hd)) fun d hd => ?_
  rw [openPortsOf_eq] at hd
  obtain ⟨l, hl, opened⟩ := List.mem_flatMap.mp hd
  obtain ⟨-, rfl⟩ := eq_of_mem_openTo opened
  exact .inr ⟨l, hl, rfl⟩

theorem ports_of_mem_drafts (hd : d ∈ drafts r o) :
    d.PlainPorts ∨ ∃ i ∈ r.interfaces, ∃ l ∈ i.openLists, d.what.ports = o.ports.get l := by
  rcases mem_drafts_iff_scope.mp hd with shared | against | ⟨i, hi, own⟩
  · obtain ⟨e, he, rfl⟩ := List.mem_map.mp shared
    rw [plainPorts_bindKnown]
    rcases mem_shared_or_routed he with fixed | ⟨router, -, routed⟩
    · exact .inl (plainPorts_shared _ e fixed)
    · exact .inl (plainPorts_router router e routed)
  · exact .inl (plainPorts_forged _ d against)
  · exact (ports_portion d own).imp_right fun opened => ⟨i, hi, opened⟩

theorem exists_draft_of_openLists (hi : i ∈ r.interfaces) {l : PortList} (hl : l ∈ i.openLists)
    (filled : o.ports.get l ≠ []) : ∃ d ∈ drafts r o, d.what.ports = o.ports.get l := by
  obtain ⟨d, opened⟩ : ∃ d, d ∈ openTo o i l.opening.1 l.opening.2 (o.ports.get l) := by
    simp [openTo, filled]
  obtain ⟨-, ports⟩ := eq_of_mem_openTo opened
  have own : d ∈ portion o i := by
    rw [portion, openPortsOf_eq]
    exact List.mem_append_right _ (List.mem_flatMap.mpr ⟨l, hl, opened⟩)
  refine ⟨d, mem_drafts_iff_scope.mpr (.inr (.inr ⟨i, hi, own⟩)), ?_⟩
  rw [ports]
  rfl

end Ruleset

namespace Policy

variable {r : Registry} {o : Options}

/-- The rules are printed with ASCII ports just if the lists that are opened are ASCII. -/
theorem asciiPorts_rules_iff (read : o.Read) : (∀ rule ∈ rules r o, rule.AsciiPorts) ↔
    ∀ i ∈ r.interfaces, ∀ l ∈ i.openLists, ∀ port ∈ o.ports.get l, Ports.Ascii port := by
  have entered (l : PortList) : ∀ port ∈ o.ports.get l, Plain port := by
    intro port hport
    obtain ⟨text, ports, parsed, listed⟩ := read.ports l port hport
    exact ((Ports.parse_eq_ok_iff.mp parsed).entries port listed).plain
  have plain {rule : Rule} (hr : rule ∈ rules r o) : ∀ t ∈ rule.what.ports, Plain t := by
    obtain ⟨d, hd, rfl⟩ := mem_rules.mp hr
    rw [Draft.settled_what]
    rcases Ruleset.ports_of_mem_drafts hd with fixed | ⟨_, _, l, _, ports⟩
    · exact fun t ht => (fixed t ht).1
    · rw [ports]
      exact entered l
  constructor
  · intro printed i hi l hl port hport
    obtain ⟨d, hd, ports⟩ := Ruleset.exists_draft_of_openLists hi hl (List.ne_nil_of_mem hport)
    have hr : d.settled o.stealth ∈ rules r o := mem_rules.mpr ⟨d, hd, rfl⟩
    have ascii := (Rule.asciiPorts_iff (plain hr)).mp (printed _ hr)
    rw [Draft.settled_what, ports] at ascii
    exact ascii port hport
  · intro opened rule hr
    rw [Rule.asciiPorts_iff (plain hr)]
    obtain ⟨d, hd, rfl⟩ := mem_rules.mp hr
    rw [Draft.settled_what]
    rcases Ruleset.ports_of_mem_drafts hd with fixed | ⟨i, hi, l, hl, ports⟩
    · exact fun t ht => (fixed t ht).2
    · rw [ports]
      exact opened i hi l hl

end Policy

namespace Ports

/-- Lists of ports and ranges are read, in digits of any script; they are the lists in ASCII digits
for a text whose entries are ASCII and short, and the rules are printed in ASCII if the entries of
the lists that are opened are. -/
theorem reads_any_script (text : String) (tokens : List String) (o : Options)
    (host debugging : Bool) :
    (∀ ports, parse text = .ok ports ↔ Lists Numeral text ports) ∧
    ((∀ ports, parse text = .ok ports ↔ Lists Decimal text ports) ↔
      ∀ ports, (parse text = .ok ports → ∀ port ∈ ports, Ascii port) ∧
        (Lists Decimal text ports → ∀ port ∈ ports, Short port)) ∧
    ∀ r, (Registry.ofTokens tokens).2 = .ok r → o.Read →
      ∃ p, (Policy.compile r o host debugging).result = .ok p ∧
        ((∀ rule ∈ p.program.rules, rule.AsciiPorts) ↔
          ∀ i ∈ r.interfaces, ∀ l ∈ i.openLists, ∀ port ∈ o.ports.get l, Ascii port) := by
  refine ⟨fun ports => parse_eq_ok_iff, parse_iff_lists_decimal_iff, fun r declared read => ?_⟩
  exact ⟨_, Policy.compile_eq_ok (Registry.indexed_of_declared declared) o host debugging,
    Policy.asciiPorts_rules_iff read⟩

/-- Two entries with blanks around them, opened to everyone. -/
theorem reads_any_script_lone :
    Lists Numeral "22 , 8000-8010" ["22", "8000-8010"] ∧
    (∀ ports, parse "22 , 8000-8010" = .ok ports ↔ Lists Decimal "22 , 8000-8010" ports) ∧
    ∃ p, (Policy.compile .lone { ports := { publicTcp := ["22", "8000-8010"] } } false false).result
        = .ok p ∧ ∀ rule ∈ p.program.rules, rule.AsciiPorts := by
  have parsed : parse "22 , 8000-8010" = .ok ["22", "8000-8010"] := by rfl
  have added : ({} : OpenPorts).addText .publicTcp "22 , 8000-8010" =
      .ok { publicTcp := ["22", "8000-8010"] } := by rfl
  obtain ⟨reads, decimal, compile⟩ := reads_any_script "22 , 8000-8010" ["en0"]
    { ports := { publicTcp := ["22", "8000-8010"] } } false false
  refine ⟨(reads _).mp parsed, decimal.mpr fun ports => ⟨?_, ?_⟩, ?_⟩
  · rw [parsed]
    rintro ⟨⟩
    decide
  · intro listed
    rw [(lists_iff.mp listed).2]
    decide
  · obtain ⟨p, compiled, printed⟩ := compile _ Registry.declared_lone
      ⟨nofun, OpenPorts.read_empty.addText added⟩
    exact ⟨p, compiled, printed.mpr (by decide)⟩

/-- Arabic digits are read as a port and printed. -/
theorem not_ascii_arabic :
    parse "\u0662\u0662" = .ok ["\u0662\u0662"] ∧
    ¬ Lists Decimal "\u0662\u0662" ["\u0662\u0662"] ∧
    Options.Read { ports := { publicTcp := ["\u0662\u0662"] } } ∧
    ∃ p, (Policy.compile .lone { ports := { publicTcp := ["\u0662\u0662"] } } false false).result
        = .ok p ∧ ¬ ∀ rule ∈ p.program.rules, rule.AsciiPorts := by
  have parsed : parse "\u0662\u0662" = .ok ["\u0662\u0662"] := by rfl
  have added : ({} : OpenPorts).addText .publicTcp "\u0662\u0662" =
      .ok { publicTcp := ["\u0662\u0662"] } := by rfl
  have arabic : ¬ Ascii "\u0662\u0662" := by decide
  have read : Options.Read { ports := { publicTcp := ["\u0662\u0662"] } } :=
    ⟨nofun, OpenPorts.read_empty.addText added⟩
  refine ⟨parsed, fun listed => ?_, read, _,
    Policy.compile_eq_ok (Registry.indexed_of_declared Registry.declared_lone) _ false false,
    fun printed => ?_⟩
  · exact arabic (listed.entries _ (List.mem_singleton_self _)).ascii
  · exact arabic ((Policy.asciiPorts_rules_iff read).mp printed _ List.mem_cons_self .publicTcp
      (by decide) _ (List.mem_singleton_self _))

end Ports
end Firewall

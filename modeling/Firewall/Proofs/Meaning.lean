import Firewall.Proofs.Matching
import Firewall.Proofs.Wording

/-!
What printed words ask of a packet. They are read without the rule that they were printed for: an
endpoint is a list of addresses and perhaps one of ports, which begins with a digit; the options
behind the endpoints all have to hold, except that of those in braces one is enough. A word before a
list or an option negates it. Read so, the words of a match ask what the match asks.
-/

namespace Firewall.Ipfw

/-! ### Reading words -/

/-- The items of a list in one word. -/
def listed (word : String) : List String := (word.split ',').toList.map (·.copy)

/-- Whether a word is a list of ports. -/
def isPorts (word : String) : Bool := word.toList.head?.any Char.isDigit

/-- Whether words begin with a negation, and the words that it is about. -/
def negation : List String → Bool × List String
  | "not" :: rest => (true, rest)
  | words => (false, words)

/-- Whether the addresses that words begin with hold an address, and the words behind them. -/
def addressesAsk (s : Station) (address : Nat) (words : List String) : Bool × List String :=
  match negation words with
  | (_, []) => (false, [])
  | (negated, word :: rest) => ((listed word).any (s.reads · address) != negated, rest)

/-- Whether the ports that words begin with, if they do, hold a port, and the words behind them. -/
def portsAsk (port : Option Nat) (words : List String) : Bool × List String :=
  match negation words with
  | (_, []) => (true, words)
  | (negated, word :: rest) =>
    if isPorts word then ((port.any fun n => (listed word).any (Ports.covers · n)) != negated, rest)
    else (true, words)

def endpointAsks (s : Station) (address : Nat) (port : Option Nat) (words : List String) :
    Bool × List String :=
  let (source, rest) := addressesAsk s address words
  let (ports, rest) := portsAsk port rest
  (source && ports, rest)

/-- The options that are followed by what they are about. -/
def operators : List String :=
  ["via", "recv", "xmit", "tcpflags", "ipoptions", "icmptypes", "iplen"]

inductive Token
  | negation
  | opening
  | alternative
  | closing
  | option (word : String) (operand : Option String)
deriving DecidableEq

def Token.ofWord : String → Token
  | "not" => .negation
  | "\x7b" => .opening
  | "or" => .alternative
  | "\x7d" => .closing
  | word => .option word none

/-- The tokens of options. -/
def tokens : List String → List Token
  | [] => []
  | [word] => [.ofWord word]
  | word :: operand :: rest =>
    if word ∈ operators then .option word (some operand) :: tokens rest
    else .ofWord word :: tokens (operand :: rest)

def optionAsks (s : Station) (p : Packet) : String → Option String → Bool
  | "in", _ => p.inbound
  | "out", _ => !p.inbound
  | "via", some name => s.bound name p.interface
  | "recv", some name => s.bound name p.arrival
  | "xmit", some name => !p.inbound && s.bound name p.exit
  | "setup", _ => p.opens
  | "established", _ => p.continues
  | "frag", _ => p.fragment
  | "tcpflags", some flags => p.isTcp && (listed flags).all p.flagged
  | "ipoptions", some options => (listed options).all p.options.contains
  | "icmptypes", some types => p.icmpType.any fun type => (listed types).contains (toString type)
  | "iplen", some lengths => (listed lengths).any (Ports.covers · p.length)
  | "verrevpath", _ => p.reversible
  | "keep-state", _ => true
  | _, _ => false

/-- Whether options hold. Within braces it is known of the alternatives before whether one does. -/
def allHold (holds : String → Option String → Bool) : Option Bool → List Token → Bool
  | none, [] => true
  | none, .opening :: rest => allHold holds (some false) rest
  | none, .negation :: .option word operand :: rest =>
    !holds word operand && allHold holds none rest
  | none, .option word operand :: rest => holds word operand && allHold holds none rest
  | some before, .closing :: rest => before && allHold holds none rest
  | some before, .alternative :: rest => allHold holds (some before) rest
  | some before, .negation :: .option word operand :: rest =>
    allHold holds (some (before || !holds word operand)) rest
  | some before, .option word operand :: rest =>
    allHold holds (some (before || holds word operand)) rest
  | _, _ => false

def optionsAsk (s : Station) (p : Packet) (words : List String) : Bool :=
  allHold (optionAsks s p) none (tokens words)

/-- Whether a packet matches words. -/
def asks (s : Station) (p : Packet) : List String → Bool
  | proto :: "from" :: words =>
    match endpointAsks s p.src p.srcPort words with
    | (source, "to" :: words) =>
      let (destination, options) := endpointAsks s p.dst p.dstPort words
      (proto = "all" || proto = p.proto) && source && destination && optionsAsk s p options
    | _ => false
  | _ => false

/-- The words of a rule behind its action: those from the protocol on, which stands before the
first `from`. -/
def matchPart : List String → List String
  | proto :: word :: rest =>
    if word = "from" then proto :: word :: rest else matchPart (word :: rest)
  | _ => []

/-! ### Words that are read as they are meant -/

/-- The lists of a match are told from other words, and their items from each other. -/
structure Worded (m : Match) : Prop where
  src : m.src.Legible
  dst : m.dst.Legible
  ports : ∀ t ∈ m.src.ports ++ m.dst.ports, isPorts t = true
  single : ∀ t ∈ m.tcpFlags ++ m.ipOptions.toList ++ m.ipLength.toList, ',' ∉ t.toList

theorem listed_commaJoined {xs : List String} (filled : xs ≠ [])
    (single : ∀ x ∈ xs, ',' ∉ x.toList) : listed (commaJoined xs) = xs :=
  (String.toList_split_intercalate single).trans (if_neg filled)

theorem listed_single {word : String} (single : ',' ∉ word.toList) : listed word = [word] := by
  have joined : commaJoined [word] = word := by simp [commaJoined]
  have items := listed_commaJoined (List.cons_ne_nil word []) (by simpa using single)
  rwa [joined] at items

/-! ### Endpoints -/

variable {s : Station} {p : Packet} {words rest : List String} {word : String}

theorem negation_of_ne (other : word ≠ "not") (rest : List String) :
    negation (word :: rest) = (false, word :: rest) := by
  unfold negation
  split
  · rename_i same
    exact absurd (List.cons.inj same).1 other
  · rfl

theorem negation_flagWord (other : word ≠ "not") (on : Bool) (rest : List String) :
    negation (flagWord "not" on ++ word :: rest) = (on, word :: rest) := by
  cases on with
  | false => exact negation_of_ne other rest
  | true => rfl

theorem isPorts_commaJoined {xs : List String} (filled : xs ≠ [])
    (ports : ∀ x ∈ xs, isPorts x = true) : isPorts (commaJoined xs) = true := by
  cases xs with
  | nil => exact absurd rfl filled
  | cons x more =>
      have first := ports x List.mem_cons_self
      cases more with
      | nil => simpa [commaJoined] using first
      | cons next more =>
          rw [isPorts, Option.any_eq_true] at first ⊢
          obtain ⟨c, head, digit⟩ := first
          refine ⟨c, ?_, digit⟩
          rw [commaJoined, String.intercalate_cons_cons]
          simp [String.toList_append, List.head?_append, head]

theorem isPorts_of_keyword (keyword : word ∈ keywords) : isPorts word = false :=
  (by decide : ∀ word ∈ keywords, isPorts word = false) word keyword

/-- No ports stand before words that begin with a keyword. -/
theorem portsAsk_of_closed (closed : Closed words) (port : Option Nat) :
    portsAsk port words = (true, words) := by
  unfold portsAsk negation
  split
  · rfl
  · rename_i first rest said
    have keyword : first ∈ keywords := by
      split at said
      · exact closed first rest (.inr (congrArg _ (congrArg Prod.snd said)))
      · exact closed first rest (.inl (congrArg Prod.snd said))
    rw [if_neg (by simp [isPorts_of_keyword keyword])]

theorem portsAsk_portWords {e : Endpoint} (plain : ∀ t ∈ e.ports, Plain t)
    (ports : ∀ t ∈ e.ports, isPorts t = true) (closed : Closed rest) (port : Option Nat) :
    portsAsk port (portWords e ++ rest) =
      (e.ports.isEmpty || (port.any fun n => e.ports.any (Ports.covers · n)) != e.portsNegate,
        rest) := by
  by_cases filled : e.ports = []
  · simp [portWords, filled, portsAsk_of_closed closed]
  · have spoken := commaJoined_notMem_keywords filled plain
    have other : commaJoined e.ports ≠ "not" := fun same => spoken (same ▸ by decide)
    have said : portWords e ++ rest =
        flagWord "not" e.portsNegate ++ commaJoined e.ports :: rest := by
      simp [portWords, filled]
    rw [said, portsAsk, negation_flagWord other]
    simp only [isPorts_commaJoined filled ports,
      listed_commaJoined filled fun t ht => (plain t ht).no_comma]
    simp [filled]

theorem endpointAsks_endpointWords {e : Endpoint} (legible : e.Legible)
    (ports : ∀ t ∈ e.ports, isPorts t = true) (closed : Closed rest) (address : Nat)
    (port : Option Nat) :
    endpointAsks s address port (endpointWords e ++ rest) = (s.endpoint e address port, rest) := by
  have plain := legible.plain
  rw [Endpoint.texts, List.forall_mem_append] at plain
  have spoken := commaJoined_notMem_keywords legible.addressed plain.1
  have other : commaJoined e.addresses ≠ "not" := fun same => spoken (same ▸ by decide)
  have source : addressesAsk s address (endpointWords e ++ rest) =
      ((e.addresses.any (s.reads · address)) != e.negate, portWords e ++ rest) := by
    rw [endpointWords_eq, List.append_assoc, List.cons_append, addressesAsk,
      negation_flagWord other]
    simp only [listed_commaJoined legible.addressed fun t ht => (plain.1 t ht).no_comma]
  rw [endpointAsks, source]
  simp only [portsAsk_portWords plain.2 ports closed, Station.endpoint]

/-! ### Options -/

theorem tokens_cons (plain : word ∉ operators) (rest : List String) :
    tokens (word :: rest) = .ofWord word :: tokens rest := by
  cases rest with
  | nil => rfl
  | cons operand rest => rw [tokens, if_neg plain]

theorem tokens_cons_cons (about : word ∈ operators) (operand : String) (rest : List String) :
    tokens (word :: operand :: rest) = .option word (some operand) :: tokens rest := by
  rw [tokens, if_pos about]

theorem optionsAsk_cons_cons (about : word ∈ operators) (operand : String) (rest : List String) :
    optionsAsk s p (word :: operand :: rest) =
      (optionAsks s p word (some operand) && optionsAsk s p rest) := by
  rw [optionsAsk, tokens_cons_cons about]
  rfl

theorem optionsAsk_cons (plain : word ∉ operators) (token : .ofWord word = Token.option word none)
    (rest : List String) :
    optionsAsk s p (word :: rest) = (optionAsks s p word none && optionsAsk s p rest) := by
  rw [optionsAsk, tokens_cons plain, token]
  rfl

theorem optionsAsk_flagWord (plain : word ∉ operators)
    (token : .ofWord word = Token.option word none) (on : Bool) (rest : List String) :
    optionsAsk s p (flagWord word on ++ rest) =
      ((!on || optionAsks s p word none) && optionsAsk s p rest) := by
  cases on with
  | false => rfl
  | true => exact optionsAsk_cons plain token rest

theorem optionsAsk_optionWords (about : word ∈ operators) (operand : Option String)
    (rest : List String) : optionsAsk s p (optionWords word operand ++ rest) =
      (Packet.asked operand (fun x => optionAsks s p word (some x)) && optionsAsk s p rest) := by
  cases operand with
  | none => rfl
  | some x =>
      rw [optionWords]
      split
      · rename_i empty
        simp [Packet.asked, empty]
      · rename_i said
        simp [Packet.asked, said, optionsAsk_cons_cons about]

theorem optionsAsk_listWords (about : word ∈ operators) (xs rest : List String) :
    optionsAsk s p (listWords word xs ++ rest) =
      ((xs.isEmpty || optionAsks s p word (some (commaJoined xs))) && optionsAsk s p rest) := by
  cases xs with
  | nil => rfl
  | cons x more => exact optionsAsk_cons_cons about _ rest

theorem optionsAsk_directionWords (d : Direction) (rest : List String) :
    optionsAsk s p (directionWords d ++ rest) = (p.directed d && optionsAsk s p rest) := by
  cases d with
  | both => rfl
  | inbound => exact optionsAsk_cons (by decide) rfl rest
  | outbound => exact optionsAsk_cons (by decide) rfl rest

/-- Of several interfaces in braces one is enough. -/
theorem allHold_viaAlternatives {names : List String} (filled : names ≠ []) (before : Bool)
    (rest : List String) :
    allHold (optionAsks s p) (some before) (tokens (viaAlternatives names ++ "\x7d" :: rest)) =
      ((before || names.any (s.bound · p.interface)) && optionsAsk s p rest) := by
  induction names generalizing before with
  | nil => exact absurd rfl filled
  | cons name more ih =>
      cases more with
      | nil =>
          change allHold _ _ (tokens ("via" :: name :: "\x7d" :: rest)) = _
          rw [tokens_cons_cons (by decide), tokens_cons (by decide)]
          simp [allHold, Token.ofWord, optionAsks, optionsAsk]
      | cons next more =>
          rw [viaAlternatives_cons_cons, List.cons_append, List.cons_append, List.cons_append,
            tokens_cons_cons (by decide), tokens_cons (by decide)]
          simp only [allHold, Token.ofWord]
          rw [ih (List.cons_ne_nil _ _)]
          simp [optionAsks, Bool.or_assoc]

theorem optionsAsk_viaWords (names rest : List String) :
    optionsAsk s p (viaWords names ++ rest) =
      ((names.isEmpty || names.any (s.bound · p.interface)) && optionsAsk s p rest) := by
  match names with
  | [] => rfl
  | [name] =>
      exact (optionsAsk_cons_cons (by decide) name rest).trans (by simp [optionAsks])
  | first :: second :: more =>
      rw [viaWords_cons_cons, List.cons_append, List.append_assoc, List.singleton_append,
        optionsAsk, tokens_cons (by decide)]
      exact (allHold_viaAlternatives (List.cons_ne_nil _ _) false rest).trans (by simp)

theorem optionsAsk_notSmallAckWords (on : Bool) (rest : List String) :
    optionsAsk s p ((if on then notSmallAckWords else []) ++ rest) =
      ((!on || p.isTcp && !p.flags.contains "ack" || Ports.covers "81-65535" p.length) &&
        optionsAsk s p rest) := by
  cases on with
  | false => rfl
  | true =>
      rw [if_pos rfl, notSmallAckWords]
      simp only [List.cons_append, List.nil_append, optionsAsk]
      rw [tokens_cons (by decide), tokens_cons_cons (by decide), tokens_cons (by decide),
        tokens_cons_cons (by decide), tokens_cons (by decide)]
      simp only [Token.ofWord, allHold, optionAsks]
      rw [listed_single (by decide), listed_single (by decide)]
      simp [Packet.flagged]

theorem optionsAsk_reversePath (on : Bool) (rest : List String) :
    optionsAsk s p ((if on then ["not", "verrevpath"] else []) ++ rest) =
      ((!on || !p.reversible) && optionsAsk s p rest) := by
  cases on with
  | false => rfl
  | true =>
      rw [if_pos rfl]
      simp only [List.cons_append, List.nil_append, optionsAsk]
      rw [tokens_cons (by decide), tokens_cons (by decide)]
      rfl

/-! ### Matches -/

theorem covers_long (length : Nat) :
    Ports.covers "81-65535" length = (decide (81 ≤ length) && decide (length ≤ 65535)) := rfl

theorem optionAsks_tcpFlags {flags : List String} (single : ∀ t ∈ flags, ',' ∉ t.toList) :
    (flags.isEmpty || optionAsks s p "tcpflags" (some (commaJoined flags))) =
      (flags.isEmpty || p.isTcp && flags.all p.flagged) := by
  cases flags with
  | nil => rfl
  | cons flag more => simp only [optionAsks, listed_commaJoined (List.cons_ne_nil _ _) single]

theorem optionAsks_icmpTypes (types : List Int) :
    ((types.map toString).isEmpty ||
        optionAsks s p "icmptypes" (some (commaJoined (types.map toString)))) =
      (types.isEmpty || p.icmpType.any types.contains) := by
  by_cases filled : types = []
  · rw [filled]
    rfl
  · have single : ∀ t ∈ types.map toString, ',' ∉ t.toList :=
      List.forall_mem_map.mpr fun n _ => no_comma_intCast n
    have among : (fun type => (types.map toString).contains (toString type)) = types.contains := by
      funext type
      rw [Bool.eq_iff_iff, List.contains_iff_mem, List.contains_iff_mem,
        List.mem_map_of_injective fun _ _ => intCast_inj]
    simp only [optionAsks, listed_commaJoined (by simpa using filled) single, among,
      List.isEmpty_map]

theorem asked_congr {word : Option String} {test test' : String → Bool}
    (alike : ∀ t ∈ word.toList, test t = test' t) :
    Packet.asked word test = Packet.asked word test' := by
  cases word with
  | none => rfl
  | some t => simp only [Packet.asked, Option.all_some, alike t (by simp)]

/-- The options of a match ask what is behind its endpoints. -/
theorem optionsAsk_clauseWords {m : Match}
    (single : ∀ t ∈ m.tcpFlags ++ m.ipOptions.toList ++ m.ipLength.toList, ',' ∉ t.toList)
    (short : p.length ≤ 65535) :
    optionsAsk s p (clauseWords m).flatten =
      (p.directed m.direction
        && ((m.via.isEmpty || m.via.any (s.bound · p.interface))
        && (Packet.asked m.recv (s.bound · p.arrival)
        && (Packet.asked m.xmit (fun name => !p.inbound && s.bound name p.exit)
        && ((!m.setup || p.opens)
        && ((!m.established || p.continues)
        && ((!m.frag || p.fragment)
        && ((m.tcpFlags.isEmpty || p.isTcp && m.tcpFlags.all p.flagged)
        && (Packet.asked m.ipOptions p.options.contains
        && ((m.icmpTypes.isEmpty || p.icmpType.any m.icmpTypes.contains)
        && (Packet.asked m.ipLength (Ports.covers · p.length)
        && ((!m.notSmallAck || p.isTcp && !p.flags.contains "ack" || 80 < p.length)
        && (!m.badReversePath || !p.reversible))))))))))))) := by
  simp only [List.forall_mem_append] at single
  obtain ⟨⟨flags, options⟩, lengths⟩ := single
  have optioned : Packet.asked m.ipOptions (fun x => optionAsks s p "ipoptions" (some x)) =
      Packet.asked m.ipOptions p.options.contains := by
    refine asked_congr fun t ht => ?_
    simp [optionAsks, listed_single (options t ht)]
  have long : Packet.asked m.ipLength (fun x => optionAsks s p "iplen" (some x)) =
      Packet.asked m.ipLength (Ports.covers · p.length) := by
    refine asked_congr fun t ht => ?_
    simp [optionAsks, listed_single (lengths t ht)]
  have large : Ports.covers "81-65535" p.length = decide (80 < p.length) := by
    simp [covers_long, short, Nat.lt_iff_add_one_le]
  simp only [clauseWords, List.flatten_cons, List.flatten_nil]
  rw [optionsAsk_directionWords, optionsAsk_viaWords, optionsAsk_optionWords (by decide),
    optionsAsk_optionWords (by decide), optionsAsk_flagWord (by decide) rfl,
    optionsAsk_flagWord (by decide) rfl, optionsAsk_flagWord (by decide) rfl,
    optionsAsk_listWords (by decide), optionAsks_tcpFlags flags, optionsAsk_optionWords (by decide),
    optioned, optionsAsk_listWords (by decide), optionAsks_icmpTypes,
    optionsAsk_optionWords (by decide), long, optionsAsk_notSmallAckWords, large,
    optionsAsk_reversePath, optionsAsk_flagWord (by decide) rfl]
  simp [optionAsks, optionsAsk, tokens, allHold]

/-- The words of a match ask what the match asks: of packets whose length fits its field. -/
theorem asks_matchWords {m : Match} (worded : Worded m) (short : p.length ≤ 65535) :
    asks s p (matchWords m) = p.meets s m := by
  have ports := worded.ports
  rw [List.forall_mem_append] at ports
  rw [matchWords_eq, asks, endpointAsks_endpointWords worded.src ports.1 (closed_to _)]
  simp only [endpointAsks_endpointWords worded.dst ports.2 (closed_clauseWords m),
    optionsAsk_clauseWords worded.single short]
  simp only [Packet.meets, Bool.and_assoc]

/-! ### Rules -/

theorem matchPart_append {front : List String} (free : "from" ∉ front) {proto : String}
    (other : proto ≠ "from") (rest : List String) :
    matchPart (front ++ proto :: "from" :: rest) = proto :: "from" :: rest := by
  induction front with
  | nil => exact if_pos rfl
  | cons word more ih =>
      rw [List.mem_cons, not_or] at free
      have later := ih free.2
      cases more with
      | nil => exact (if_neg other).trans later
      | cons next more =>
          have first : next ≠ "from" := fun same => free.2 (same ▸ List.mem_cons_self)
          exact (if_neg first).trans later

theorem intCast_ne_from (n : Int) : toString n ≠ "from" := by
  intro same
  have letter : 'f' ∈ (toString n).toList := by
    rw [same]
    decide
  rcases Text.minus_or_isDigit_of_mem_intCast letter with minus | digit
  · exact absurd minus (by decide)
  · exact absurd digit (by decide)

/-- The words of a rule behind its action are those of its match. -/
theorem matchPart_ruleWords {r : Rule} (worded : r.action ≠ .checkState)
    (free : "from" ∉ actionWords r) (other : r.what.proto ≠ "from") :
    matchPart (ruleWords r) = matchWords r.what := by
  have front : "from" ∉ "add" :: toString r.number :: "set" :: toString r.set ::
      (actionWords r ++ flagWord "log" r.log) := by
    have log : "from" ∉ flagWord "log" r.log := by
      cases r.log <;> decide
    simp only [List.mem_cons, List.mem_append, not_or]
    exact ⟨by decide, (intCast_ne_from _).symm, by decide, (intCast_ne_from _).symm, free, log⟩
  have whole := matchPart_append front other (endpointWords r.what.src
    ++ "to" :: (endpointWords r.what.dst ++ (clauseWords r.what).flatten))
  rw [← matchWords_eq] at whole
  rw [← whole, ruleWords_eq, if_neg worded]
  simp only [List.cons_append, List.append_assoc]

end Firewall.Ipfw

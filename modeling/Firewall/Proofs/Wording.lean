import Firewall.Proofs.Clauses
import Firewall.Proofs.Spelling

/-!
The words of a rule tell the rule. Two rules in the same words have the same number and set, do the
same with the same packets, and log them alike, where no text of theirs is one of the words that
the command means something by.
-/

namespace Firewall

/-! ### Rules as far as words tell -/

/-- An endpoint with any port does not negate its ports. -/
def Endpoint.normal (e : Endpoint) : Endpoint :=
  { e with portsNegate := e.portsNegate && !e.ports.isEmpty }

def Match.normal (m : Match) : Match := { m with src := m.src.normal, dst := m.dst.normal }

/-- What a rule does and what it answers. To reject without an answer is to deny. -/
def Rule.outcome (r : Rule) : Action × Option Response :=
  match r.action, r.response.getD .drop with
  | .reject, .drop => (.deny, none)
  | .reject, response => (.reject, some response)
  | action, _ => (action, none)

namespace Ipfw

/-- The word for the target of a rule whose action has one. -/
def spokenTarget (r : Rule) : Option String :=
  if r.action ∈ [.skipto, .pipe, .queue, .divert] then some (targetWord r.target) else none

/-- The words that may stand in the place of a protocol, an address or a port. The other words of
a command are told by where they stand. -/
def keywords : List String :=
  ["log", "to", "not", "in", "out", "via", "\x7b", "recv", "xmit", "setup", "established", "frag",
    "tcpflags", "ipoptions", "icmptypes", "iplen", "verrevpath", "keep-state"]

/-- A text that is read as one item of a list of them and as nothing else. -/
structure Plain (s : String) : Prop where
  ne_empty : s ≠ ""
  no_comma : ',' ∉ s.toList
  not_keyword : s ∉ keywords

instance (s : String) : Decidable (Plain s) :=
  decidable_of_iff (s ≠ "" ∧ ',' ∉ s.toList ∧ s ∉ keywords)
    ⟨fun ⟨filled, single, free⟩ => ⟨filled, single, free⟩,
      fun h => ⟨h.ne_empty, h.no_comma, h.not_keyword⟩⟩

end Ipfw

open Ipfw

structure Endpoint.Legible (e : Endpoint) : Prop where
  addressed : e.addresses ≠ []
  plain : ∀ t ∈ e.texts, Plain t

instance (e : Endpoint) : Decidable e.Legible :=
  decidable_of_iff (e.addresses ≠ [] ∧ ∀ t ∈ e.texts, Plain t)
    ⟨fun ⟨addressed, plain⟩ => ⟨addressed, plain⟩, fun h => ⟨h.addressed, h.plain⟩⟩

/-- Both endpoints of a match have addresses, and all its texts are plain. -/
structure Match.Legible (m : Match) : Prop where
  src : m.src.Legible
  dst : m.dst.Legible
  plain : ∀ t ∈ m.marks ++ m.via, Plain t

instance (m : Match) : Decidable m.Legible :=
  decidable_of_iff (m.src.Legible ∧ m.dst.Legible ∧ ∀ t ∈ m.marks ++ m.via, Plain t)
    ⟨fun ⟨src, dst, plain⟩ => ⟨src, dst, plain⟩, fun h => ⟨h.src, h.dst, h.plain⟩⟩

namespace Ipfw

open Text

/-! ### Lists joined by commas -/

theorem commaJoined_inj {xs ys : List String} (filled : xs ≠ []) (filled' : ys ≠ [])
    (single : ∀ x ∈ xs, ',' ∉ x.toList) (single' : ∀ y ∈ ys, ',' ∉ y.toList)
    (same : commaJoined xs = commaJoined ys) : xs = ys := by
  have parts {zs : List String} (filled : zs ≠ []) (single : ∀ z ∈ zs, ',' ∉ z.toList) :
      ((commaJoined zs).split ',').toList.map (·.copy) = zs :=
    (String.toList_split_intercalate single).trans (if_neg filled)
  rw [← parts filled single, same, parts filled' single']

/-- A list in one word that is no list is made of that word. -/
theorem commaJoined_notMem_keywords {xs : List String} (filled : xs ≠ [])
    (plain : ∀ x ∈ xs, Plain x) : commaJoined xs ∉ keywords := by
  intro keyword
  -- The keyword has no comma, so it is split into itself.
  have single := (by decide : ∀ w ∈ keywords, ',' ∉ w.toList) _ keyword
  have same : xs = [commaJoined xs] :=
    commaJoined_inj filled (List.cons_ne_nil _ _) (fun x hx => (plain x hx).no_comma)
      (by simpa using single) (by simp [commaJoined])
  have listed : commaJoined xs ∈ xs := by
    rw [same]
    simp [commaJoined]
  exact (plain _ listed).not_keyword keyword

/-! ### Numbers -/

theorem no_comma_intCast (n : Int) : ',' ∉ (toString n).toList :=
  fun comma => (minus_or_isDigit_of_mem_intCast comma).elim (by decide) (by decide)

theorem natCast_inj {n k : Nat} (same : toString n = toString k) : n = k := by
  have digits : Nat.toDigits 10 n = Nat.toDigits 10 k := by
    rw [← toList_natCast, ← toList_natCast, same]
  rw [← @Nat.ofDigitChars_ten_toDigits n, digits, Nat.ofDigitChars_ten_toDigits]

theorem intCast_inj {n k : Int} (same : toString n = toString k) : n = k := by
  have unsigned (n : Nat) {k : Nat} : toString (Int.ofNat n) ≠ toString (Int.negSucc k) := by
    intro same
    have sign : '-' ∈ (toString n).toList := by
      rw [show toString n = toString (Int.negSucc k) from same, toList_negSucc]
      exact List.mem_cons_self
    exact absurd (isDigit_of_mem_natCast sign) (by decide)
  cases n <;> cases k
  · exact congrArg Int.ofNat (natCast_inj same)
  · exact absurd same (unsigned _)
  · exact absurd same.symm (unsigned _)
  · have digits := congrArg String.toList same
    rw [toList_negSucc, toList_negSucc, List.cons.injEq] at digits
    rw [Nat.succ.inj (natCast_inj (String.toList_injective digits.2))]

/-! ### What follows an endpoint -/

/-- Words that begin with a keyword, after a negation as well. -/
def Closed (words : List String) : Prop :=
  ∀ word rest, words = word :: rest ∨ words = "not" :: word :: rest → word ∈ keywords

theorem closed_nil : Closed [] := by
  rintro _ _ (same | same) <;> cases same

/-- Whether all words that begin with these are closed. -/
def Closing : List String → Bool
  | [] => false
  | first :: more => first ∈ keywords && (first != "not" || more.head?.any (· ∈ keywords))

theorem closed_append {lead : List String} (closing : Closing lead = true) (rest : List String) :
    Closed (lead ++ rest) := by
  match lead with
  | [] => nomatch closing
  | first :: more =>
      simp only [Closing, Bool.and_eq_true, decide_eq_true_eq, Bool.or_eq_true, bne_iff_ne,
        Option.any_eq_true] at closing
      rintro word _ (same | same)
      · obtain ⟨rfl, -⟩ := List.cons.inj same
        exact closing.1
      · obtain ⟨rfl, after⟩ := List.cons.inj same
        obtain ⟨second, listed, keyword⟩ := closing.2.resolve_left (by simp)
        match more with
        | next :: _ =>
            obtain ⟨rfl, -⟩ := List.cons.inj after
            obtain rfl : next = second := by simpa using listed
            exact keyword

theorem closed_to (rest : List String) : Closed ("to" :: rest) :=
  closed_append (by decide : Closing ["to"] = true) rest

/-- A keyword that may be left out is told from a word that is none. -/
theorem flagWord_append_inj {keyword word other : String} {on on' : Bool}
    {rest rest' : List String} (known : keyword ∈ keywords) (free : word ∉ keywords)
    (free' : other ∉ keywords)
    (same : flagWord keyword on ++ word :: rest = flagWord keyword on' ++ other :: rest') :
    on = on' ∧ word = other ∧ rest = rest' := by
  cases on <;> cases on'
  · exact ⟨rfl, List.cons.inj same⟩
  · exact absurd known ((List.cons.inj same).1 ▸ free)
  · exact absurd known ((List.cons.inj same).1 ▸ free')
  · exact ⟨rfl, List.cons.inj (List.cons.inj same).2⟩

def portWords (e : Endpoint) : List String :=
  if e.ports.isEmpty then [] else flagWord "not" e.portsNegate ++ [commaJoined e.ports]

theorem endpointWords_eq (e : Endpoint) :
    endpointWords e = flagWord "not" e.negate ++ commaJoined e.addresses :: portWords e := by
  simp [endpointWords, portWords, flagWord]

/-- Closed words tell whether ports stand before them. -/
theorem not_closed_portWords_append {e : Endpoint} (filled : e.ports ≠ [])
    (plain : ∀ t ∈ e.ports, Plain t) (rest : List String) : ¬Closed (portWords e ++ rest) := by
  intro closed
  refine commaJoined_notMem_keywords filled plain (closed _ rest ?_)
  rw [portWords, if_neg (by simpa using filled)]
  cases e.portsNegate
  · exact .inl rfl
  · exact .inr rfl

theorem portWords_append_inj {e e' : Endpoint} {rest rest' : List String}
    (plain : ∀ t ∈ e.ports, Plain t) (plain' : ∀ t ∈ e'.ports, Plain t) (closed : Closed rest)
    (closed' : Closed rest') (same : portWords e ++ rest = portWords e' ++ rest') :
    e.ports = e'.ports ∧ e.normal.portsNegate = e'.normal.portsNegate ∧ rest = rest' := by
  by_cases filled : e.ports = [] <;> by_cases filled' : e'.ports = []
  · simpa [portWords, Endpoint.normal, filled, filled'] using same
  · refine absurd (?_ : Closed _) (not_closed_portWords_append filled' plain' rest')
    rw [← same, portWords, filled]
    exact closed
  · refine absurd (?_ : Closed _) (not_closed_portWords_append filled plain rest)
    rw [same, portWords, filled']
    exact closed'
  · have free := commaJoined_notMem_keywords filled plain
    have free' := commaJoined_notMem_keywords filled' plain'
    rw [portWords, portWords, if_neg (by simpa using filled), if_neg (by simpa using filled'),
      List.append_assoc, List.append_assoc] at same
    obtain ⟨negated, joined, rests⟩ := flagWord_append_inj (by decide) free free' same
    have ports := commaJoined_inj filled filled' (fun t ht => (plain t ht).no_comma)
      (fun t ht => (plain' t ht).no_comma) joined
    exact ⟨ports, by simp [Endpoint.normal, negated, ports], rests⟩

theorem endpointWords_append_inj {e e' : Endpoint} {rest rest' : List String}
    (legible : e.Legible) (legible' : e'.Legible) (closed : Closed rest) (closed' : Closed rest')
    (same : endpointWords e ++ rest = endpointWords e' ++ rest') :
    e.normal = e'.normal ∧ rest = rest' := by
  obtain ⟨addressed, plain⟩ := legible
  obtain ⟨addressed', plain'⟩ := legible'
  rw [Endpoint.texts, List.forall_mem_append] at plain plain'
  have free := commaJoined_notMem_keywords addressed plain.1
  have free' := commaJoined_notMem_keywords addressed' plain'.1
  rw [endpointWords_eq, endpointWords_eq, List.append_assoc, List.append_assoc] at same
  obtain ⟨negated, joined, tails⟩ := flagWord_append_inj (by decide) free free' same
  have addresses := commaJoined_inj addressed addressed' (fun t ht => (plain.1 t ht).no_comma)
    (fun t ht => (plain'.1 t ht).no_comma) joined
  obtain ⟨ports, portsNegated, rests⟩ :=
    portWords_append_inj plain.2 plain'.2 closed closed' tails
  refine ⟨?_, rests⟩
  rw [Endpoint.normal, Endpoint.mk.injEq]
  exact ⟨addresses, ports, negated, portsNegated⟩

@[simp] theorem endpointWords_normal (e : Endpoint) : endpointWords e.normal = endpointWords e := by
  unfold endpointWords Endpoint.normal
  cases e.ports <;> simp

/-! ### The clauses of a match -/

/-- The interfaces of a match, as alternatives in braces if there are several. -/
def viaClause : Clause where
  leads := [["via"], ["\x7b", "via"]]
  Said words := ∃ names, names ≠ [] ∧ words = viaWords names
  nonempty := by decide
  exists_lead := by
    rintro _ ⟨names, filled, rfl⟩
    match names with
    | [name] => exact ⟨["via"], by decide, [name], rfl⟩
    | name :: next :: rest => exact ⟨["\x7b", "via"], by decide, _, rfl⟩
  prefixFree := by
    rintro _ _ ⟨names, filled, rfl⟩ ⟨others, filled', rfl⟩ before
    rw [prefixFree_viaWords filled filled' before]

def clauses : List Clause :=
  [.choice [["in"], ["out"]] (by decide) (by decide), viaClause, .operand "recv", .operand "xmit",
    .fixed ["setup"] (by decide), .fixed ["established"] (by decide), .fixed ["frag"] (by decide),
    .operand "tcpflags", .operand "ipoptions", .operand "icmptypes", .operand "iplen",
    .fixed notSmallAckWords (by decide), .fixed ["not", "verrevpath"] (by decide),
    .fixed ["keep-state"] (by decide)]

/-- The words of each clause of a match. -/
def clauseWords (m : Match) : List (List String) :=
  [directionWords m.direction, viaWords m.via, optionWords "recv" m.recv,
    optionWords "xmit" m.xmit, flagWord "setup" m.setup, flagWord "established" m.established,
    flagWord "frag" m.frag, listWords "tcpflags" m.tcpFlags, optionWords "ipoptions" m.ipOptions,
    listWords "icmptypes" (m.icmpTypes.map toString), optionWords "iplen" m.ipLength,
    if m.notSmallAck then notSmallAckWords else [],
    if m.badReversePath then ["not", "verrevpath"] else [], flagWord "keep-state" m.keepState]

theorem matchWords_eq (m : Match) :
    matchWords m = m.proto :: "from" :: (endpointWords m.src
      ++ "to" :: (endpointWords m.dst ++ (clauseWords m).flatten)) := by
  unfold matchWords clauseWords
  simp only [List.flatten_cons, List.flatten_nil, List.append_nil, List.append_assoc,
    List.cons_append, List.nil_append]

theorem apart_clauses : (clauses.map Clause.leads).Pairwise Apart := by decide

theorem fits_clauseWords (m : Match) : List.Forall₂ Clause.Fits clauses (clauseWords m) := by
  have direction : directionWords m.direction = [] ∨
      directionWords m.direction ∈ [["in"], ["out"]] := by
    cases m.direction <;> decide
  have via : viaClause.Fits (viaWords m.via) := by
    by_cases none : m.via = []
    · exact .inl (by rw [none]; rfl)
    · exact .inr ⟨m.via, none, rfl⟩
  exact .cons direction <| .cons via <| .cons (Clause.fits_optionWords ..) <|
    .cons (Clause.fits_optionWords ..) <| .cons (Clause.fits_fixed ..) <|
    .cons (Clause.fits_fixed ..) <| .cons (Clause.fits_fixed ..) <|
    .cons (Clause.fits_listWords ..) <| .cons (Clause.fits_optionWords ..) <|
    .cons (Clause.fits_listWords ..) <| .cons (Clause.fits_optionWords ..) <|
    .cons (Clause.fits_fixed ..) <| .cons (Clause.fits_fixed ..) <|
    .cons (Clause.fits_fixed ..) .nil

theorem closed_clauseWords (m : Match) : Closed (clauseWords m).flatten := by
  by_cases said : (clauseWords m).flatten = []
  · rw [said]
    exact closed_nil
  · obtain ⟨c, hc, lead, leads, rest, begins⟩ := exists_lead_flatten (fits_clauseWords m) said
    have closing := (by decide : ∀ c ∈ clauses, ∀ lead ∈ c.leads, Closing lead = true) c hc
    rw [← begins]
    exact closed_append (closing lead leads) rest

/-! ### What clauses tell -/

theorem directionWords_inj {d d' : Direction} (same : directionWords d = directionWords d') :
    d = d' := by
  revert same
  cases d <;> cases d' <;> decide

theorem viaWords_inj {names others : List String} (same : viaWords names = viaWords others) :
    names = others := by
  have said {names : List String} (filled : names ≠ []) : viaWords names ≠ [] := by
    match names with
    | [_] => nofun
    | _ :: _ :: _ => nofun
  by_cases filled : names = [] <;> by_cases filled' : others = []
  · rw [filled, filled']
  · exact absurd (by rw [← same, filled]; rfl) (said filled')
  · exact absurd (by rw [same, filled']; rfl) (said filled)
  · exact prefixFree_viaWords filled filled' (same ▸ List.prefix_rfl)

theorem optionWords_inj {word : String} {about about' : Option String}
    (plain : ∀ t ∈ about.toList, Plain t) (plain' : ∀ t ∈ about'.toList, Plain t)
    (same : optionWords word about = optionWords word about') : about = about' := by
  have some_ne {t : String} (h : Plain t) : optionWords word (some t) = [word, t] :=
    if_neg (by simpa using h.ne_empty)
  match about, about' with
  | none, none => rfl
  | none, some t =>
      rw [some_ne (plain' t (by simp))] at same
      cases same
  | some t, none =>
      rw [some_ne (plain t (by simp))] at same
      cases same
  | some t, some t' =>
      rw [some_ne (plain t (by simp)), some_ne (plain' t' (by simp))] at same
      simpa using same

theorem listWords_inj {word : String} {xs ys : List String} (single : ∀ x ∈ xs, ',' ∉ x.toList)
    (single' : ∀ y ∈ ys, ',' ∉ y.toList) (same : listWords word xs = listWords word ys) :
    xs = ys := by
  match xs, ys with
  | [], [] => rfl
  | [], y :: ys => simp [listWords] at same
  | x :: xs, [] => simp [listWords] at same
  | x :: xs, y :: ys =>
      refine commaJoined_inj (by simp) (by simp) single single' ?_
      simpa [listWords] using same

theorem ite_words_inj {words : List String} (said : words ≠ []) {on on' : Bool}
    (same : (if on then words else []) = if on' then words else []) : on = on' := by
  cases on <;> cases on'
  · rfl
  · exact absurd same.symm said
  · exact absurd same said
  · rfl

/-! ### Matches and actions read back -/

variable {m m' : Match}

theorem matchWords_inj (legible : m.Legible) (legible' : m'.Legible)
    (same : matchWords m = matchWords m') : m.normal = m'.normal := by
  obtain ⟨src, dst, plain⟩ := legible
  obtain ⟨src', dst', plain'⟩ := legible'
  simp only [Match.marks, List.forall_mem_append] at plain plain'
  obtain ⟨⟨⟨⟨⟨-, recv⟩, xmit⟩, tcpFlags⟩, ipOptions⟩, ipLength⟩ := plain.1
  obtain ⟨⟨⟨⟨⟨-, recv'⟩, xmit'⟩, tcpFlags'⟩, ipOptions'⟩, ipLength'⟩ := plain'.1
  rw [matchWords_eq, matchWords_eq, List.cons.injEq, List.cons.injEq] at same
  obtain ⟨proto, -, same⟩ := same
  obtain ⟨sources, same⟩ :=
    endpointWords_append_inj src src' (closed_to _) (closed_to _) same
  obtain ⟨destinations, same⟩ := endpointWords_append_inj dst dst' (closed_clauseWords m)
    (closed_clauseWords m') (List.cons.inj same).2
  -- From here on the words are those of clauses, each of which is known by how it begins.
  have each := flatten_inj apart_clauses (fits_clauseWords m) (fits_clauseWords m') same
  simp only [clauseWords, List.cons.injEq, and_true] at each
  obtain ⟨direction, via, received, sent, setup, established, frag, flags, options, types, length,
    ack, path, state⟩ := each
  have numbers : m.icmpTypes.map toString = m'.icmpTypes.map toString :=
    listWords_inj (List.forall_mem_map.mpr fun n _ => no_comma_intCast n)
      (List.forall_mem_map.mpr fun n _ => no_comma_intCast n) types
  rw [Match.normal, Match.mk.injEq]
  exact ⟨proto, sources, destinations, directionWords_inj direction, viaWords_inj via,
    optionWords_inj recv recv' received, optionWords_inj xmit xmit' sent,
    ite_words_inj (by simp) setup, ite_words_inj (by simp) established,
    ite_words_inj (by simp) frag, ite_words_inj (by simp) state,
    listWords_inj (fun t ht => (tcpFlags t ht).no_comma) (fun t ht => (tcpFlags' t ht).no_comma)
      flags,
    optionWords_inj ipOptions ipOptions' options,
    List.map_injective_iff.mpr (fun _ _ => intCast_inj) numbers,
    optionWords_inj ipLength ipLength' length, ite_words_inj (by decide) ack,
    ite_words_inj (by simp) path⟩

/-- A match tells whether its rule logs. -/
theorem flagWord_matchWords_inj {on on' : Bool} (legible : m.Legible) (legible' : m'.Legible)
    (same : flagWord "log" on ++ matchWords m = flagWord "log" on' ++ matchWords m') :
    on = on' ∧ matchWords m = matchWords m' := by
  have free {m : Match} (legible : m.Legible) : m.proto ∉ keywords :=
    (legible.plain _ (by simp [Match.marks])).not_keyword
  rw [matchWords_eq, matchWords_eq] at same ⊢
  obtain ⟨log, proto, rest⟩ := flagWord_append_inj (by decide) (free legible) (free legible') same
  exact ⟨log, congrArg₂ List.cons proto rest⟩

theorem matchWords_normal (m : Match) : matchWords m.normal = matchWords m := by
  rw [matchWords_eq, matchWords_eq, Match.normal, endpointWords_normal, endpointWords_normal]
  rfl

/-- The outcomes of all rules. -/
def outcomes : List (Action × Option Response) :=
  [(.allow, none), (.deny, none), (.skipto, none), (.pipe, none), (.queue, none),
    (.checkState, none), (.divert, none), (.reject, some .tcpReset),
    (.reject, some .hostUnreachable), (.reject, some .hostProhibited),
    (.reject, some .filterProhibited)]

def outcomeWords : Action × Option Response → List String
  | (action, none) => [action.text]
  | (_, some response) => responseWords response

theorem outcomeWords_prefixFree : ∀ o ∈ outcomes, ∀ o' ∈ outcomes,
    outcomeWords o <+: outcomeWords o' → o = o' := by decide

theorem outcome_mem_outcomes (r : Rule) : r.outcome ∈ outcomes := by
  unfold Rule.outcome
  cases r.action <;> cases r.response.getD .drop <;> decide

theorem actionWords_eq (r : Rule) :
    actionWords r = outcomeWords r.outcome ++ (spokenTarget r).toList := by
  unfold actionWords spokenTarget Rule.outcome
  cases r.action <;> cases r.response.getD .drop <;> rfl

/-- The outcome of a rule tells whether its target is said. -/
theorem isSome_spokenTarget (r : Rule) :
    (spokenTarget r).isSome = decide (r.outcome.1 ∈ [.skipto, .pipe, .queue, .divert]) := by
  unfold spokenTarget Rule.outcome
  cases r.action <;> cases r.response.getD .drop <;> rfl

variable {a b : Rule}

theorem toList_append_inj {word other : Option String} {rest rest' : List String}
    (said : word.isSome = other.isSome) (same : word.toList ++ rest = other.toList ++ rest') :
    word = other ∧ rest = rest' := by
  match word, other with
  | none, none => exact ⟨rfl, same⟩
  | some _, some _ => exact (List.cons.inj same).imp_left (congrArg some)
  | none, some _ | some _, none => cases said

theorem actionWords_append_inj {rest rest' : List String}
    (same : actionWords a ++ rest = actionWords b ++ rest') :
    a.outcome = b.outcome ∧ spokenTarget a = spokenTarget b ∧ rest = rest' := by
  rw [actionWords_eq, actionWords_eq, List.append_assoc, List.append_assoc] at same
  -- Both begin the same words, so one begins the other.
  have outcome : a.outcome = b.outcome := by
    obtain before | after := List.prefix_or_prefix_of_prefix ⟨_, same⟩ (List.prefix_append _ _)
    · exact outcomeWords_prefixFree _ (outcome_mem_outcomes a) _ (outcome_mem_outcomes b) before
    · exact (outcomeWords_prefixFree _ (outcome_mem_outcomes b) _ (outcome_mem_outcomes a)
        after).symm
  rw [outcome] at same
  have targets := List.append_cancel_left same
  have said : (spokenTarget a).isSome = (spokenTarget b).isSome := by
    rw [isSome_spokenTarget, isSome_spokenTarget, outcome]
  exact ⟨outcome, toList_append_inj said targets⟩

theorem outcome_eq_checkState : a.outcome.1 = .checkState ↔ a.action = .checkState := by
  unfold Rule.outcome
  cases a.action <;> cases a.response.getD .drop <;> decide

/-! ### Rules read back -/

theorem ruleWords_eq (r : Rule) :
    ruleWords r = "add" :: toString r.number :: "set" :: toString r.set :: (actionWords r
      ++ if r.action = .checkState then [] else flagWord "log" r.log ++ matchWords r.what) := rfl

/-- Two rules are in the same words exactly if they have the same number, set, outcome and target,
and, unless they check states, log alike and ask the same of a packet. -/
theorem ruleWords_eq_iff (legible : a.what.Legible) (legible' : b.what.Legible) :
    ruleWords a = ruleWords b ↔
      a.number = b.number ∧ a.set = b.set ∧ a.outcome = b.outcome ∧
        spokenTarget a = spokenTarget b ∧
        (a.action ≠ .checkState → a.log = b.log ∧ a.what.normal = b.what.normal) := by
  have checks (outcome : a.outcome = b.outcome) :
      a.action = .checkState ↔ b.action = .checkState := by
    rw [← outcome_eq_checkState, outcome, outcome_eq_checkState]
  rw [ruleWords_eq, ruleWords_eq]
  constructor
  · intro same
    simp only [List.cons.injEq, true_and] at same
    obtain ⟨number, set, same⟩ := same
    obtain ⟨outcome, target, rest⟩ := actionWords_append_inj same
    refine ⟨intCast_inj number, intCast_inj set, outcome, target, fun other => ?_⟩
    rw [if_neg other, if_neg (mt (checks outcome).mpr other)] at rest
    obtain ⟨log, what⟩ := flagWord_matchWords_inj legible legible' rest
    exact ⟨log, matchWords_inj legible legible' what⟩
  · rintro ⟨number, set, outcome, target, rest⟩
    rw [number, set, actionWords_eq, actionWords_eq, outcome, target]
    by_cases check : a.action = .checkState
    · rw [if_pos check, if_pos ((checks outcome).mp check)]
    · obtain ⟨log, what⟩ := rest check
      rw [if_neg check, if_neg (mt (checks outcome).mpr check), log, ← matchWords_normal, what,
        matchWords_normal]

/-- A rule that refuses mail to leave on two interfaces. -/
def mailRefusal : Rule where
  set := 8
  number := 5200
  action := .reject
  what := {
    proto := "tcp", dst := .anyAt ["25", "465"], direction := .outbound, via := ["em0", "em1"],
    setup := true, notSmallAck := true, badReversePath := true }
  log := true
  response := some .drop

/-- Ports that are negated but not there make no difference, nor does a rejection without an
answer. An answer does, and so does each clause. -/
theorem ruleWords_mailRefusal :
    let denial : Rule := { mailRefusal with
      action := .deny, response := none,
      what := { mailRefusal.what with src := { portsNegate := true } } }
    let answer : Rule := { mailRefusal with response := some .tcpReset }
    let open_ : Rule := { mailRefusal with what := { mailRefusal.what with setup := false } }
    mailRefusal.what.Legible ∧ denial.what.Legible ∧ open_.what.Legible ∧
      ruleWords mailRefusal = ruleWords denial ∧ ruleWords mailRefusal ≠ ruleWords answer ∧
      ruleWords mailRefusal ≠ ruleWords open_ := by
  have legible : mailRefusal.what.Legible := by decide
  have legible' : { mailRefusal.what with src := { portsNegate := true } : Match }.Legible := by
    decide
  have legible'' : { mailRefusal.what with setup := false : Match }.Legible := by decide
  refine ⟨legible, legible', legible'', ?_, ?_, ?_⟩
  · exact (ruleWords_eq_iff legible legible').mpr ⟨rfl, rfl, rfl, rfl, fun _ => ⟨rfl, rfl⟩⟩
  · exact (not_congr (ruleWords_eq_iff legible (by exact legible))).mpr (by decide)
  · exact (not_congr (ruleWords_eq_iff legible (by exact legible''))).mpr (by decide)

end Ipfw
end Firewall

import Firewall.CommandLine.Compiler
import Firewall.Proofs.Lettering

/-!
Ports in one list and ports option by option. A configuration joins the items of a list and reads
them at once; a command line reads each text that the option is repeated with, and appends what it
reads. Both find the same entries and stop at the same one.
-/

namespace Firewall

open Text
open Interface (bind_eq_ok_iff)

/-! ### Items read one after the other -/

section Items

variable {ε α β : Type}

theorem mapM_eq_ok_congr {f g : α → Except ε β}
    (same : ∀ a b, f a = .ok b ↔ g a = .ok b) {xs : List α} {ys : List β} :
    xs.mapM f = .ok ys ↔ xs.mapM g = .ok ys := by
  induction xs generalizing ys with
  | nil => rfl
  | cons a rest ih => simp only [List.mapM_cons, bind_eq_ok_iff, same, ih]

theorem mapM_eq_ok_of_find? {f : α → Except ε β} {xs : List α}
    (all : xs.find? (fun a => !(f a).isOk) = none) : ∃ ys, xs.mapM f = .ok ys := by
  induction xs with
  | nil => exact ⟨[], rfl⟩
  | cons a rest ih =>
      rw [List.find?_cons] at all
      cases here : f a with
      | error fault => simp [here, Except.isOk, Except.toBool] at all
      | ok b =>
          simp only [here, Except.isOk, Except.toBool] at all
          obtain ⟨ys, later⟩ := ih all
          exact ⟨b :: ys, by rw [List.mapM_cons, here, later]; rfl⟩

/-- Items are read up to the first that is not, with the fault that it has. -/
theorem mapM_eq_error_of_find? {f : α → Except ε β} {xs : List α} {a : α} {fault : ε}
    (first : xs.find? (fun a => !(f a).isOk) = some a) (stops : f a = .error fault) :
    xs.mapM f = .error fault := by
  induction xs with
  | nil => cases first
  | cons b rest ih =>
      rw [List.mapM_cons]
      cases here : f b with
      | error other =>
          simp only [List.find?_cons, here, Except.isOk, Except.toBool] at first
          cases first
          rw [stops] at here
          cases here
          rfl
      | ok c =>
          simp only [List.find?_cons, here, Except.isOk, Except.toBool] at first
          rw [ih first]
          rfl

theorem mapM_flatMap {γ : Type} (f : β → Except ε γ) (g : α → List β) (xs : List α) :
    (xs.flatMap g).mapM f = (xs.mapM fun a => (g a).mapM f).map List.flatten := by
  induction xs with
  | nil => rfl
  | cons a rest ih =>
      rw [List.flatMap_cons, List.mapM_append, List.mapM_cons, ih]
      cases (g a).mapM f with
      | error fault => rfl
      | ok here => cases rest.mapM fun a => (g a).mapM f <;> rfl

end Items

/-! ### Verdicts -/

/-- The fault, unless it is that something is malformed. -/
def ReadFault.other : ReadFault → Option ReadFault
  | .malformed _ => none
  | fault => some fault

/-- What is read, or why nothing is, but for what exactly is malformed. -/
def verdict {α : Type} (x : Except ReadFault α) : Except (Option ReadFault) α :=
  x.mapError ReadFault.other

section Verdicts

variable {α β : Type} {x : Except ReadFault α}

theorem verdict_eq_ok_iff {a : α} : verdict x = .ok a ↔ x = .ok a := by
  cases x <;> simp [verdict, Except.mapError]

theorem verdict_eq_malformed_iff :
    verdict x = .error none ↔ ∃ cause, x = .error (.malformed cause) := by
  cases x with
  | ok a => simp [verdict, Except.mapError]
  | error fault => cases fault <;> simp [verdict, Except.mapError, ReadFault.other]

theorem verdict_bind (f : α → Except ReadFault β) :
    verdict (x >>= f) = verdict x >>= fun a => verdict (f a) := by
  cases x <;> rfl

theorem verdict_map (f : α → β) : verdict (x.map f) = (verdict x).map f := by
  cases x <;> rfl

theorem verdict_mapM (f : α → Except ReadFault β) (xs : List α) :
    verdict (xs.mapM f) = xs.mapM fun a => verdict (f a) := by
  induction xs with
  | nil => rfl
  | cons a rest ih =>
      rw [List.mapM_cons, List.mapM_cons, verdict_bind]
      congr 1
      funext b
      rw [verdict_bind, ih]
      rfl

end Verdicts

/-! ### Texts joined and taken one by one -/

namespace Ports

variable {texts : List String}

theorem splitAll_commaJoined (filled : texts ≠ []) :
    Address.splitAll ',' (Ipfw.commaJoined texts).toList =
      texts.flatMap fun text => Address.splitAll ',' text.toList := by
  induction texts with
  | nil => exact absurd rfl filled
  | cons first rest ih =>
      cases rest with
      | nil => simp [Ipfw.commaJoined]
      | cons next more =>
          have joined : (Ipfw.commaJoined (first :: next :: more)).toList =
              first.toList ++ ',' :: (Ipfw.commaJoined (next :: more)).toList := by
            simp [Ipfw.commaJoined, String.intercalate_cons_cons]
          rw [joined, Address.splitAll_append, ih (List.cons_ne_nil _ _)]
          rfl

theorem items_commaJoined (filled : texts ≠ []) :
    items (Ipfw.commaJoined texts) = texts.flatMap items := by
  rw [items, splitAll_commaJoined filled, List.map_flatMap]
  rfl

/-- Which list an item is of shows only in what exactly is malformed. -/
theorem verdict_check (text other : String) (item : List Char) :
    verdict (check text item) = verdict (check other item) := by
  have number (digits : List Char) :
      verdict (number text digits) = verdict (number other digits) := by
    unfold number
    split
    · rfl
    · simp only
      split <;> rfl
  unfold check
  simp only
  split
  · rfl
  · rw [verdict_bind, verdict_bind, number]
  · simp only [verdict_bind, number]
    congr 1
    funext low
    congr 1
    funext high
    split <;> rfl

/-- Texts joined by commas are read as they are one by one. -/
theorem verdict_parse_commaJoined (filled : texts ≠ []) :
    verdict (parse (Ipfw.commaJoined texts)) = verdict ((texts.mapM parse).map List.flatten) := by
  have each (text : String) :
      verdict (parse text) = (items text).mapM fun item => verdict (check "" item) := by
    rw [parse, verdict_mapM]
    simp only [verdict_check text ""]
  rw [each, items_commaJoined filled, mapM_flatMap, verdict_map, verdict_mapM]
  simp only [each]

/-- The first of several texts that is not read. -/
def firstUnread (texts : List String) : Option String :=
  texts.find? fun text => !(parse text).isOk

end Ports

/-- Readings that find the same ports, or both find something malformed. -/
def OpenPorts.Agree (x y : Except ReadFault OpenPorts) : Prop :=
  (∃ p, x = .ok p ∧ y = .ok p) ∨
    ∃ cause cause', x = .error (.malformed cause) ∧ y = .error (.malformed cause')

theorem OpenPorts.append_append (p : OpenPorts) (l : PortList) (ports more : List String) :
    (p.append l ports).append l more = p.append l (ports ++ more) := by
  cases l <;> simp [append]

/-! ### A key of a configuration -/

namespace Config

/-- The ports that a configuration opens which holds nothing but a list under a key. -/
def portsOfList (source : String) (l : PortList) (items : List Data) :
    Except ReadFault OpenPorts :=
  (ofData source (.mapping [("ports", .mapping [(l.key, .sequence items)])])).map (·.options.ports)

theorem portsOfList_eq (source : String) (l : PortList) (items : List Data) :
    portsOfList source l items =
      (Ports.parse (Ipfw.commaJoined (items.map Data.plain))).map (({} : OpenPorts).append l) := by
  have known : unknownKeys keys [("ports", .mapping [(l.key, .sequence items)])] = [] := by
    simp [unknownKeys, keys]
  have listed : readPorts source {} [(l.key, .sequence items)] =
      (Ports.parse (Ipfw.commaJoined (items.map Data.plain))).map (({} : OpenPorts).append l) := by
    simp only [readPorts, PortList.ofKey?_key, OpenPorts.addText, portText]
    rw [Ipfw.commaJoined]
    cases Ports.parse (",".intercalate (items.map Data.plain)) <;> rfl
  have given : Malformed.lift (portEntries source
      (Data.valueAt [("ports", .mapping [(l.key, .sequence items)])] "ports")) =
      .ok [(l.key, .sequence items)] := rfl
  rw [portsOfList, ofData, ofEntries]
  simp only [known, given]
  change Except.map _ (readPorts source {} [(l.key, .sequence items)] >>= _) = _
  rw [listed]
  cases Ports.parse (Ipfw.commaJoined (items.map Data.plain)) <;> rfl

end Config

/-! ### An option that is repeated -/

namespace CommandLine

open Grammar (textOf splitEquals)

variable {l : PortList} {texts : List String}

/-- The words that give each text to the option of a list. -/
def flagWords (l : PortList) (texts : List String) : List String :=
  texts.map fun text => l.option ++ "=" ++ text

namespace Compiler

/-- What the option of a list is taken for, with a text attached to it. -/
def flagHit (l : PortList) (text : String) : Hit :=
  { option := { names := [l.option], takesValue := true }, spelling := l.option,
    attached := some text }

theorem toList_flag (l : PortList) (text : String) :
    (l.option ++ "=" ++ text).toList = l.option.toList ++ '=' :: text.toList := by
  simp

theorem splitEquals_flag (l : PortList) (text : String) :
    splitEquals (l.option ++ "=" ++ text) = (l.option.toList, some text) := by
  have free : l.option.toList.all (fun c => decide (c ≠ '=')) = true := by cases l <;> rfl
  obtain ⟨head, tail⟩ := cut_append_cons '=' text.toList (List.all_eq_true.mp free) rfl
  simp only [splitEquals, toList_flag, head, tail, String.ofList_toList]

/-- No option is spelled with an equals sign. -/
theorem hit?_flag (l : PortList) (text : String) :
    grammar.hit? (l.option ++ "=" ++ text) none = none := by
  have spelled : ∀ s ∈ grammar.spellings, '=' ∉ s.1.toList := by decide
  rw [Grammar.hit?, Option.map_eq_none_iff, List.lookup_eq_none_iff]
  intro s hs
  rw [bne_iff_ne]
  intro same
  apply spelled s hs
  rw [← same, toList_flag]
  exact List.mem_append_right _ List.mem_cons_self

theorem classify_flag (l : PortList) (text : String) :
    grammar.classify (l.option ++ "=" ++ text) = .ok (.option (flagHit l text)) := by
  have known : grammar.hit? l.option (some text) = some (flagHit l text) := by cases l <;> rfl
  obtain ⟨rest, dashes⟩ : ∃ rest, l.option.toList = '-' :: '-' :: rest := by
    cases l <;> exact ⟨_, rfl⟩
  have first : (l.option ++ "=" ++ text).toList.head? = some '-' := by simp [dashes]
  have long : (l.option ++ "=" ++ text).toList.length ≠ 1 := by simp [dashes]
  rw [Grammar.classify, if_neg (not_not_intro first), hit?_flag]
  simp only [if_neg long, splitEquals_flag, String.ofList_toList, known, Option.isNone_some,
    Bool.false_eq_true, if_false]

/-- The words that give each text to the option of a list, with what they are taken for. -/
def flagItems (l : PortList) (texts : List String) : List (String × Mark) :=
  texts.map fun text => (l.option ++ "=" ++ text, .option (flagHit l text))

theorem marks_flagWords : grammar.marks (flagWords l texts) = .ok (flagItems l texts) := by
  induction texts with
  | nil => rfl
  | cons text rest ih =>
      have word : l.option ++ "=" ++ text ≠ "--" := by
        intro same
        have equals : '=' ∈ "--".toList := by
          rw [← same, toList_flag]
          exact List.mem_append_right _ List.mem_cons_self
        exact absurd equals (by decide)
      rw [flagWords, List.map_cons, Grammar.marks, if_neg word, classify_flag]
      change (grammar.marks (flagWords l rest) >>= _) = _
      rw [ih]
      rfl

/-- An option with a text attached to it is used up in one turn. -/
theorem takeOption_flag (s : Grammar.State) (text : String) (items : List (String × Mark)) :
    grammar.takeOption
        { s with items := (l.option ++ "=" ++ text, .option (flagHit l text)) :: items } =
      .ok { s with items, events := s.events ++ [.option l.option (textOf text)] } := by
  have filled : (l.option ++ "=" ++ text).length ≠ 0 := by
    rw [← String.length_toList, toList_flag]
    simp
  obtain ⟨n, length⟩ := Nat.exists_eq_succ_of_ne_zero filled
  simp only [Grammar.takeOption, length]
  rfl

/-- A turn in front of an option takes the option. -/
theorem consume_option {s : Grammar.State} {word : String} {h : Hit} {rest : List (String × Mark)}
    (front : s.items = (word, .option h) :: rest) (fuel : Nat) :
    grammar.consume (fuel + 1) s = match grammar.takeOption s with
      | .error fault => (s, some fault)
      | .ok s => grammar.consume fuel s := by
  have plain : Grammar.skipPlain s = s := by
    obtain ⟨items, positionals, events, extras⟩ := s
    cases front
    simp [Grammar.skipPlain, Grammar.isOption]
  have options : s.items.any (fun item => Grammar.isOption item.2) = true := by
    rw [front]
    rfl
  rw [Grammar.consume, if_pos options, plain, front]
  rfl

theorem consume_flagItems (s : Grammar.State) (fuel : Nat) (enough : texts.length < fuel) :
    grammar.consume fuel { s with items := flagItems l texts } =
      ({ s with
         items := []
         events := s.events ++ texts.map fun text => .option l.option (textOf text) }, none) := by
  induction texts generalizing s fuel with
  | nil =>
      obtain ⟨n, rfl⟩ := Nat.exists_eq_add_of_lt enough
      simp [Grammar.consume, flagItems]
  | cons text rest ih =>
      obtain ⟨n, rfl⟩ := Nat.exists_eq_add_of_lt enough
      rw [consume_option rfl, flagItems, List.map_cons, takeOption_flag]
      simp only
      have later := ih { s with events := s.events ++ [.option l.option (textOf text)] }
        ((text :: rest).length + n) (by simp; omega)
      rw [flagItems] at later
      rw [later]
      simp

theorem withOption_flag (l : PortList) (r : Request) (text : Option String) :
    r.withOption l.option text = { r with ports := r.ports ++ [(l, text)] } := by
  cases l <;> rfl

theorem follow_flags (r : Request) (rest : List Event) :
    follow none (texts.map (fun text => .option l.option (textOf text)) ++ rest) r =
      follow none rest { r with ports := r.ports ++ texts.map fun text => (l, textOf text) } := by
  induction texts generalizing r with
  | nil => simp
  | cons text more ih =>
      have turn : follow none (.option l.option (textOf text) ::
          (more.map (fun text => .option l.option (textOf text)) ++ rest)) r =
          follow none (more.map (fun text => .option l.option (textOf text)) ++ rest)
            (r.withOption l.option (textOf text)) := by
        cases l <;> rfl
      rw [List.map_cons, List.cons_append, turn, withOption_flag, ih]
      simp

/-- An option that is repeated asks for each of its texts, in their order. -/
theorem read_flagWords (l : PortList) (texts : List String) :
    read (flagWords l texts) =
      .request { ports := texts.map fun text => (l, textOf text) } := by
  have consumed := @consume_flagItems l texts
    { items := [], positionals := grammar.positionals } _ (Nat.lt_succ_self _)
  have parsed : grammar.parse (flagWords l texts) =
      { events := texts.map (fun text => .option l.option (textOf text)) ++
          [.positional "INTERFACES" []], fault := none } := by
    rw [Grammar.parse, marks_flagWords]
    have length : (flagItems l texts).length = texts.length := by simp [flagItems]
    simp only [length]
    rw [consumed]
    rfl
  rw [read, parsed]
  simp only
  rw [follow_flags]
  rfl

/-- The ports that a request opens over a configuration that says nothing. -/
def Request.openPorts (r : Request) : Except ReadFault OpenPorts :=
  (mergeOptions r {}).map (·.ports)

section Given

/-! What an option gives of a text is the text, or nothing where it is not read anyway. -/

variable {give : String → Option String}

/-- What is read of a text that an option gives. -/
def readGiven (give : String → Option String) (text : String) : Except ReadFault (List String) :=
  match give text with
  | none => .error .noText
  | some given => Ports.parse given

theorem addPorts_texts (p : OpenPorts) (l : PortList) (texts : List String) :
    addPorts p (texts.map fun text => (l, give text)) =
      (texts.mapM (readGiven give)).map fun ports => p.append l ports.flatten := by
  induction texts generalizing p with
  | nil => cases l <;> simp [addPorts, OpenPorts.append, Except.map, pure, Except.pure]
  | cons text rest ih =>
      rw [List.map_cons, List.mapM_cons, readGiven]
      cases give text with
      | none => rfl
      | some given =>
          simp only [addPorts, OpenPorts.addText]
          cases Ports.parse given with
          | error fault => rfl
          | ok ports =>
              change addPorts (p.append l ports) _ = _
              rw [ih]
              cases rest.mapM (readGiven give) with
              | error fault => rfl
              | ok more => exact congrArg Except.ok (p.append_append l ports more.flatten)

theorem portsInOrder_texts (l : PortList) (texts : List String) :
    portsInOrder { ports := texts.map fun text => (l, give text) } =
      texts.map fun text => (l, give text) := by
  cases l <;> simp [portsInOrder, PortList.all, List.filter_map, Function.comp_def]

theorem openPorts_texts (l : PortList) (texts : List String) :
    Request.openPorts { ports := texts.map fun text => (l, give text) } =
      (texts.mapM (readGiven give)).map fun ports => ({} : OpenPorts).append l ports.flatten := by
  rw [← addPorts_texts, Request.openPorts, mergeOptions, portsInOrder_texts]
  cases addPorts {} (texts.map fun text => (l, give text)) <;> rfl

variable (gives : ∀ text, give text = some text ∨
  give text = none ∧ ∀ ports, Ports.parse text ≠ .ok ports)

include gives

theorem readGiven_eq_ok_iff (text : String) (ports : List String) :
    readGiven give text = .ok ports ↔ Ports.parse text = .ok ports := by
  unfold readGiven
  rcases gives text with given | ⟨given, unread⟩
  · rw [given]
  · rw [given]
    exact iff_of_false nofun (unread ports)

theorem isOk_readGiven (text : String) : (readGiven give text).isOk = (Ports.parse text).isOk := by
  have law := readGiven_eq_ok_iff gives text
  cases read : Ports.parse text with
  | ok ports => rw [(law ports).mpr read]
  | error fault =>
      cases said : readGiven give text with
      | ok ports => simp [(law ports).mp said] at read
      | error other => rfl

/-- Texts that are joined and texts that an option gives one by one agree where there is one, and
the first that is not read is given and is malformed. -/
theorem agree_commaJoined_iff (l : PortList) (texts : List String) :
    OpenPorts.Agree ((Ports.parse (Ipfw.commaJoined texts)).map (({} : OpenPorts).append l))
        (Request.openPorts { ports := texts.map fun text => (l, give text) }) ↔
      texts ≠ [] ∧ ∀ text ∈ Ports.firstUnread texts,
        give text = some text ∧ ∃ cause, Ports.parse text = .error (.malformed cause) := by
  rw [openPorts_texts]
  by_cases filled : texts = []
  · subst filled
    have empty : Ports.parse (Ipfw.commaJoined []) = .error (.malformed (.port "" "")) := by rfl
    rw [empty]
    refine iff_of_false ?_ fun given => given.1 rfl
    rintro (⟨_, ⟨⟩, -⟩ | ⟨_, _, -, ⟨⟩⟩)
  have joined := Ports.verdict_parse_commaJoined filled
  have found : Ports.firstUnread texts = texts.find? fun text => !(readGiven give text).isOk := by
    simp only [Ports.firstUnread, isOk_readGiven gives]
  cases first : Ports.firstUnread texts with
  | none =>
      obtain ⟨ports, read⟩ := mapM_eq_ok_of_find? (found.symm.trans first)
      rw [(mapM_eq_ok_congr (readGiven_eq_ok_iff gives)).mp read] at joined
      rw [verdict_eq_ok_iff.mp joined, read]
      exact iff_of_true (.inl ⟨_, rfl, rfl⟩) ⟨filled, nofun⟩
  | some text =>
      obtain ⟨fault, stops⟩ : ∃ fault, Ports.parse text = .error fault := by
        have unread := List.find?_some first
        cases said : Ports.parse text with
        | error fault => exact ⟨fault, rfl⟩
        | ok ports => simp [said, Except.isOk, Except.toBool] at unread
      rw [mapM_eq_error_of_find? first stops] at joined
      rcases gives text with given | ⟨given, -⟩
      · have read : readGiven give text = .error fault := by rw [readGiven, given, ← stops]
        rw [mapM_eq_error_of_find? (found.symm.trans first) read]
        constructor
        · rintro (⟨_, -, ⟨⟩⟩ | ⟨_, cause, -, ⟨⟩⟩)
          exact ⟨filled, fun _ same => by cases same; exact ⟨given, cause, stops⟩⟩
        · rintro ⟨-, agreed⟩
          obtain ⟨-, cause, said⟩ := agreed text rfl
          rw [stops] at said
          cases said
          obtain ⟨other, whole⟩ := verdict_eq_malformed_iff.mp joined
          rw [whole]
          exact .inr ⟨other, cause, rfl, rfl⟩
      · have read : readGiven give text = .error .noText := by rw [readGiven, given]
        rw [mapM_eq_error_of_find? (found.symm.trans first) read]
        refine iff_of_false ?_ fun agreed => ?_
        · rintro (⟨_, -, ⟨⟩⟩ | ⟨_, _, -, ⟨⟩⟩)
        · have known := (agreed.2 text rfl).1
          rw [given] at known
          cases known

end Given

theorem textOf_eq_some_iff {text : String} : textOf text = some text ↔ text ≠ "--" := by
  simp [textOf]

theorem textOf_cases (text : String) : textOf text = some text ∨
    textOf text = none ∧ ∀ ports, Ports.parse text ≠ .ok ports := by
  by_cases ends : text = "--"
  · subst ends
    exact .inr ⟨rfl, nofun⟩
  · exact .inl (textOf_eq_some_iff.mpr ends)

/-- A list under a key and an option that gives its items one by one agree where there is an item,
and the first that is not read is malformed. Behind an equals sign, the item must not be the word
that ends the options either. -/
theorem agree_portsOfList_iff (source : String) (l : PortList) (items : List Data) :
    (OpenPorts.Agree (Config.portsOfList source l items)
        (Request.openPorts { ports := (items.map Data.plain).map fun text => (l, some text) }) ↔
      items ≠ [] ∧ ∀ text ∈ Ports.firstUnread (items.map Data.plain),
        ∃ cause, Ports.parse text = .error (.malformed cause)) ∧
    ∃ r, read (flagWords l (items.map Data.plain)) = .request r ∧
      (OpenPorts.Agree (Config.portsOfList source l items) r.openPorts ↔
        items ≠ [] ∧ ∀ text ∈ Ports.firstUnread (items.map Data.plain),
          text ≠ "--" ∧ ∃ cause, Ports.parse text = .error (.malformed cause)) := by
  rw [Config.portsOfList_eq]
  refine ⟨?_, _, read_flagWords l _, ?_⟩
  · rw [@agree_commaJoined_iff some fun text => .inl rfl, ne_eq, List.map_eq_nil_iff]
    simp only [true_and]
  · rw [agree_commaJoined_iff textOf_cases, ne_eq, List.map_eq_nil_iff]
    simp only [textOf_eq_some_iff]

/-- A number and a list of two entries are opened either way. -/
theorem agree_portsOfList_web :
    OpenPorts.Agree
      (Config.portsOfList "config.yml" .publicTcp [.integer 80, .text "443, 8000-8010"])
      (Request.openPorts
        { ports := [(.publicTcp, some "80"), (.publicTcp, some "443, 8000-8010")] }) := by
  have unread : Ports.firstUnread ["80", "443, 8000-8010"] = none := by rfl
  exact (agree_portsOfList_iff _ _ [.integer 80, .text "443, 8000-8010"]).1.mpr
    ⟨List.cons_ne_nil _ _, fun text first => by cases unread.symm.trans first⟩

/-- An empty list under a key is malformed, while an option that is not given opens nothing. -/
theorem not_agree_portsOfList_empty :
    read (flagWords .publicTcp []) = .request {} ∧
      (∃ cause, Config.portsOfList "config.yml" .publicTcp [] = .error (.malformed cause)) ∧
      Request.openPorts {} = .ok {} ∧
      ¬ OpenPorts.Agree (Config.portsOfList "config.yml" .publicTcp []) (Request.openPorts {}) := by
  have malformed : Config.portsOfList "config.yml" .publicTcp [] =
      .error (.malformed (.port "" "")) := by
    rw [Config.portsOfList_eq]
    rfl
  refine ⟨read_flagWords .publicTcp [], ⟨_, malformed⟩, rfl, ?_⟩
  rw [malformed]
  rintro (⟨_, ⟨⟩, -⟩ | ⟨_, _, -, ⟨⟩⟩)

end Compiler
end CommandLine
end Firewall

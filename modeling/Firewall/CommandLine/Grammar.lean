import Firewall.Text.Numeral
import Firewall.Text.Quoted

/-!
Command lines with options and positional arguments. Long options may be shortened to any text
that begins only one of them, values may be attached to their option, single letters may be put
together, and `--` ends the options.
-/

namespace Firewall.CommandLine

/-- An option: its spellings, and whether a value follows it. -/
structure OptionSpec where
  names : List String
  takesValue : Bool := false
deriving DecidableEq, Repr

/-- An argument that is known by its place; the last one may take any number of words. -/
structure Positional where
  name : String
  many : Bool := false
deriving DecidableEq, Repr

structure Grammar where
  options : List OptionSpec
  positionals : List Positional
deriving DecidableEq, Repr

inductive UsageFault
  | ambiguous (word : String) (candidates : List String)
  | missingValue (option : OptionSpec)
  | ignoredValue (option : OptionSpec) (value : String)
  | required (names : List String)
  | unrecognized (words : List String)
  | notInteger (name value : String)
  | oneRate
deriving DecidableEq, Repr

def OptionSpec.title (o : OptionSpec) : String := "/".intercalate o.names

def UsageFault.message : UsageFault → String
  | .ambiguous word candidates =>
    "ambiguous option: " ++ word ++ " could match " ++ ", ".intercalate candidates
  | .missingValue o => "argument " ++ o.title ++ ": expected one argument"
  | .ignoredValue o value =>
    "argument " ++ o.title ++ ": ignored explicit argument " ++ Text.Quoted.quote value
  | .required names => "the following arguments are required: " ++ ", ".intercalate names
  | .unrecognized words => "unrecognized arguments: " ++ " ".intercalate words
  | .notInteger name value =>
    "argument " ++ name ++ ": invalid int value: " ++ Text.Quoted.quote value
  | .oneRate => "give both inbound and outbound rate, or neither"

inductive Event
  /-- An option, by its first spelling, and the text that it is given, if any. -/
  | option (name : String) (text : Option String)
  | positional (name : String) (words : List String)
deriving DecidableEq, Repr

structure Parsed where
  events : List Event
  fault : Option UsageFault
deriving DecidableEq, Repr

/-! ### Recognition of options -/

/-- A recognised option, with the spelling that it was recognised by and the text attached to it,
behind an equals sign or directly behind a single letter. -/
structure Hit where
  option : OptionSpec
  spelling : String
  attached : Option String := none
deriving DecidableEq, Repr

inductive Mark
  | argument
  | dashes
  | option (h : Hit)
  | unknownOption
deriving DecidableEq, Repr

namespace Grammar

def spellings (g : Grammar) : List (String × OptionSpec) :=
  g.options.flatMap fun o => o.names.map fun name => (name, o)

def hit? (g : Grammar) (spelling : String) (attached : Option String) : Option Hit :=
  (g.spellings.lookup spelling).map fun option => { option, spelling, attached }

/-- The text before the first equals sign, and the text behind it if there is such a sign. -/
def splitEquals (word : String) : List Char × Option String :=
  let behind := match word.toList.dropWhile (· ≠ '=') with
    | [] => none
    | _ :: rest => some (String.ofList rest)
  (word.toList.takeWhile (· ≠ '='), behind)

/-- The options that a word with two dashes may stand for: those that begin with it. -/
def longCandidates (g : Grammar) (word : String) : List Hit :=
  let (start, attached) := splitEquals word
  (g.spellings.filter fun s => start.isPrefixOf s.1.toList).map fun (spelling, option) =>
    { option, spelling, attached }

/-- The options that a word with one dash may stand for: the letter that it begins with, and those
that begin with all of it. -/
def shortCandidates (g : Grammar) (word : String) : List Hit :=
  let cs := word.toList
  g.spellings.filterMap fun (spelling, option) =>
    if spelling.toList = cs.take 2 then
      some { option, spelling, attached := some (String.ofList (cs.drop 2)) }
    else if cs.isPrefixOf spelling.toList then some { option, spelling }
    else none

/-- Whether a word is a negative number, which is an argument and no option. -/
def isNegativeNumber (cs : List Char) : Bool :=
  match cs with
  | '-' :: rest =>
    let rest := if rest.getLast? = some '\n' then rest.dropLast else rest
    match rest.dropWhile Text.isDigit with
    | [] => !rest.isEmpty
    | '.' :: fraction => !fraction.isEmpty && fraction.all Text.isDigit
    | _ => false
  | _ => false

/-- What a word is that stands before the end of the options. -/
def classify (g : Grammar) (word : String) : Except UsageFault Mark :=
  let cs := word.toList
  if cs.head? ≠ some '-' then .ok .argument
  else match g.hit? word none with
    | some h => .ok (.option h)
    | none =>
      if cs.length = 1 then .ok .argument
      else
        let (start, attached) := splitEquals word
        let exact := if attached.isNone then none else g.hit? (String.ofList start) attached
        match exact with
        | some h => .ok (.option h)
        | none =>
          let candidates :=
            if cs[1]? = some '-' then g.longCandidates word else g.shortCandidates word
          match candidates with
          | _ :: _ :: _ => .error (.ambiguous word (candidates.map (·.spelling)))
          | [h] => .ok (.option h)
          | [] =>
            if isNegativeNumber cs || cs.contains ' ' then .ok .argument else .ok .unknownOption

def marks (g : Grammar) : List String → Except UsageFault (List (String × Mark))
  | [] => .ok []
  | word :: rest =>
    if word = "--" then .ok ((word, .dashes) :: rest.map fun w => (w, .argument))
    else do
      let m ← g.classify word
      let ms ← marks g rest
      return (word, m) :: ms

/-! ### Options -/

/-- What an option and the letters put together with it ask for. -/
structure Cluster where
  events : List Event
  /-- Whether the word behind is the value of the last option. -/
  usedNext : Bool := false
deriving DecidableEq, Repr

def titleOf (o : OptionSpec) : String := o.names.headD ""

/-- The text that an attached value gives to its option: none if it is the word that ends the
options. -/
def textOf (attached : String) : Option String := if attached = "--" then none else some attached

/-- Takes an option apart, by at most `fuel` letters; `next` is the word behind, if it can be a
value. Text that is attached to a single letter without a value is further letters, each of which
must be an option. -/
def cluster (g : Grammar) (next : Option String) : Nat → Hit → Except UsageFault Cluster
  | 0, _ => .ok { events := [] }
  | fuel + 1, h =>
    let event (text : Option String) : Event := .option (titleOf h.option) text
    match h.attached with
    | none =>
      if h.option.takesValue then
        match next with
        | some value => .ok { events := [event (some value)], usedNext := true }
        | none => .error (.missingValue h.option)
      else .ok { events := [event none] }
    | some attached =>
      if h.option.takesValue then .ok { events := [event (textOf attached)] }
      else if h.spelling.toList[1]? = some '-' then .error (.ignoredValue h.option attached)
      else match attached.toList with
        | [] => .error (.ignoredValue h.option attached)
        | letter :: rest =>
          let more := if rest.isEmpty then none else some (String.ofList rest)
          match g.hit? (String.ofList ['-', letter]) more with
          | none => .error (.ignoredValue h.option attached)
          | some h => do
            let c ← cluster g next fuel h
            return { c with events := event none :: c.events }

/-! ### Positional arguments -/

def isDashes : Mark → Bool
  | .dashes => true
  | _ => false

def isPlain : Mark → Bool
  | .argument | .dashes => true
  | _ => false

/-- The number of words that a positional argument takes from the front. -/
def taken? (p : Positional) (ms : List Mark) : Option Nat :=
  if p.many then some (ms.takeWhile isPlain).length
  else
    let before := (ms.takeWhile isDashes).length
    match ms.drop before with
    | .argument :: rest => some (before + 1 + (rest.takeWhile isDashes).length)
    | _ => none

/-- The numbers of words that several positional arguments take, all of them or none. -/
def takenAll? : List Positional → List Mark → Option (List Nat)
  | [], _ => some []
  | p :: rest, ms => do
    let n ← taken? p ms
    let ns ← takenAll? rest (ms.drop n)
    return n :: ns

/-- The words of as many positional arguments as find theirs; the others are left. -/
def match? (ps : List Positional) (ms : List Mark) : List Nat :=
  ((List.range ps.length).reverse.findSome? fun i => takenAll? (ps.take (i + 1)) ms).getD []

def positionalEvents : List Positional → List Nat → List String → List Event
  | p :: ps, n :: ns, words =>
    .positional p.name ((words.take n).erase "--") :: positionalEvents ps ns (words.drop n)
  | _, _, _ => []

/-! ### Whole command lines -/

/-- What is left of a command line, and what became of the rest. -/
structure State where
  items : List (String × Mark)
  positionals : List Positional
  events : List Event := []
  extras : List String := []

def isOption : Mark → Bool
  | .option _ | .unknownOption => true
  | _ => false

/-- Gives words from the front to the positional arguments; the answer says how many. -/
def takePositionals (s : State) : State × Nat :=
  let counts := match? s.positionals (s.items.map (·.2))
  let n := counts.foldr (· + ·) 0
  ({ s with
      items := s.items.drop n
      positionals := s.positionals.drop counts.length
      events := s.events ++ positionalEvents s.positionals counts (s.items.map (·.1)) }, n)

def takeOption (g : Grammar) (s : State) : Except UsageFault State :=
  match s.items with
  | (word, .unknownOption) :: rest => .ok { s with items := rest, extras := s.extras ++ [word] }
  | (word, .option h) :: rest => do
    let next := match rest with
      | (value, .argument) :: _ => some value
      | _ => none
    let c ← g.cluster next word.length h
    return { s with
      items := if c.usedNext then rest.drop 1 else rest
      events := s.events ++ c.events }
  | _ => .ok s

/-- Words before the next option that no positional argument takes are left over. -/
def skipPlain (s : State) : State :=
  let plain := s.items.takeWhile fun item => !isOption item.2
  { s with items := s.items.drop plain.length, extras := s.extras ++ plain.map (·.1) }

/-- Options and positional arguments by turns, by at most `fuel` turns. -/
def consume (g : Grammar) : Nat → State → State × Option UsageFault
  | 0, s => (s, none)
  | fuel + 1, s =>
    if s.items.any fun item => isOption item.2 then
      let (s', n) := match s.items with
        | (_, m) :: _ => if isOption m then (s, 0) else takePositionals s
        | [] => (s, 0)
      if 0 < n then consume g fuel s'
      else match takeOption g (skipPlain s) with
        | .error fault => (s, some fault)
        | .ok s => consume g fuel s
    else (s, none)

def parse (g : Grammar) (words : List String) : Parsed :=
  match g.marks words with
  | .error fault => { events := [], fault := some fault }
  | .ok items =>
    match consume g (items.length + 1) { items, positionals := g.positionals } with
    | (s, some fault) => { events := s.events, fault := some fault }
    | (s, none) =>
      let (s, _) := takePositionals s
      let extras := s.extras ++ s.items.map (·.1)
      let fault :=
        if !s.positionals.isEmpty then some (.required (s.positionals.map (·.name)))
        else if !extras.isEmpty then some (.unrecognized extras)
        else none
      { events := s.events, fault }

end Grammar
end Firewall.CommandLine

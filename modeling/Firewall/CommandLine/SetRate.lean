import Firewall.CommandLine.Invocation

/-!
The program that sets the bandwidth of the pipes of a shaped interface, addressed by the index
that the interface was declared with.
-/

namespace Firewall.CommandLine.SetRate

def program : String := "tfw-setrate"

structure Request where
  index : Int := 0
  rates : List Int := []
  config : String := ""
  profile : Option String := none
  debug : Bool := false
  verbosity : Nat := 0
deriving DecidableEq, Repr

def grammar : Grammar where
  options :=
    [ { names := ["-h", "--help"] },
      { names := ["-c", "--config"], takesValue := true },
      { names := ["-p", "--profile"], takesValue := true },
      { names := ["--debug"] },
      { names := ["-v", "--verbose"] },
      { names := ["-V", "--version"] } ]
  positionals := [{ name := "INDEX" }, { name := "KBPS", many := true }]

inductive Reading
  | request (r : Request)
  | version
  | help
  | fault (f : UsageFault)
deriving DecidableEq, Repr

/-- The request with one option more. An option that lacks its text counts as one that is not
given, and so does all that was given for it before. -/
def Request.withOption (r : Request) (name : String) (text : Option String) : Request :=
  match name with
  | "-c" => { r with config := text.getD "" }
  | "-p" => { r with profile := text }
  | "--debug" => { r with debug := true }
  | "-v" => { r with verbosity := r.verbosity + 1 }
  | _ => r

def integers (name : String) : List String → Except UsageFault (List Int)
  | [] => .ok []
  | word :: rest =>
    match Text.wholeNumber? word with
    | none => .error (.notInteger name word)
    | some n => (integers name rest).map (n :: ·)

def Request.withWords (r : Request) (name : String) (words : List String) :
    Except UsageFault Request := do
  let numbers ← integers name words
  return if name = "INDEX" then { r with index := numbers.headD 0 } else { r with rates := numbers }

/-- Follows the steps of a command line up to its fault. Rates come in pairs. -/
def follow (fault : Option UsageFault) : List Event → Request → Reading
  | [], r => match fault with
    | some f => .fault f
    | none => if r.rates.length = 0 ∨ r.rates.length = 2 then .request r else .fault .oneRate
  | .option "-V" _ :: _, _ => .version
  | .option "-h" _ :: _, _ => .help
  | .option name text :: rest, r => follow fault rest (r.withOption name text)
  | .positional name words :: rest, r =>
    match r.withWords name words with
    | .error f => .fault f
    | .ok r => follow fault rest r

def read (words : List String) : Reading :=
  let parsed := grammar.parse words
  follow parsed.fault parsed.events {}

variable {τ : Type}

def failAdjusting (fault : AdjustFault) (verbose : Bool) (b : Deployment.Bench τ) : Outcome τ :=
  let escaped : Outcome τ := { ending := .escaped (.adjust fault), bench := b, verbose }
  match fault with
  | .unread .infiniteRate | .engine (.unread .infiniteRate) | .engine .unsupported => escaped
  | fault => fail fault.message verbose b

def adjust (c : Invocation τ) (r : Request) (schedule : Schedule) (b : Deployment.Bench τ) :
    Outcome τ :=
  let verbose := 0 < r.verbosity
  let adjuster : RateAdjuster :=
    { schedule, profile := RateAdjuster.chooseProfile r.profile c.profile }
  let engine := Ipfw.engine c.runner { dryRun := r.debug }
  match adjuster.adjust engine c.now r.index r.rates[0]? r.rates[1]? b.terminal with
  | (.error fault, terminal) => failAdjusting fault verbose { b with terminal }
  | (.ok _, terminal) => { ending := .exit 0, bench := { b with terminal }, verbose }

/-- The schedule of a configuration; without one all pipes are unlimited. -/
def scheduleOf (config : Config) : Except ReadFault Schedule :=
  match config.schedule with
  | none => .ok .unlimited
  | some entries => Schedule.ofEntries entries

def run (c : Invocation τ) : Outcome τ :=
  let b := c.bench
  match read c.words with
  | .fault f => fail f.message false b
  | .version => showVersion program b
  | .help => { ending := .exit 0, bench := b }
  | .request r =>
    let verbose := 0 < r.verbosity
    if r.config.isEmpty then adjust c r .unlimited b
    else match loadConfig c r.config b with
      | (.error fault, b) => failLoading r.config fault verbose b
      | (.ok config, b) =>
        match scheduleOf config with
        | .error cause => failLoading r.config (.read cause) verbose b
        | .ok schedule => adjust c r schedule b

end Firewall.CommandLine.SetRate

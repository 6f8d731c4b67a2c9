import Firewall.Engine
import Firewall.Rate
import Firewall.Schedule

/-!
Adjustment of the pipes of a shaped interface while the firewall runs. Pipes are found by the
index of the interface alone, with the numbers that they were allocated with.
-/

namespace Firewall

inductive AdjustFault
  | oneRate
  /-- An index as it is written. -/
  | indexOutside (index : String)
  | noPipe (index pipe : Int)
  | unread (cause : ReadFault)
  | engine (fault : EngineFault)

def AdjustFault.message : AdjustFault → String
  | .oneRate => "give both inbound and outbound rate, or neither"
  | .indexOutside index =>
    "interface index " ++ index ++ " outside 0.." ++ toString (maxInterfaces - 1)
  | .noPipe index pipe =>
    "interface " ++ toString index ++ " has no pipe " ++ toString pipe
  | .unread cause => cause.message
  | .engine fault => fault.message

/-- The fault of an index that no interface can have: it is said to be outside if it can be
written. -/
def AdjustFault.outside (index : Int) : AdjustFault :=
  match Text.decimal? index with
  | none => .unread .longNumber
  | some written => .indexOutside written

structure RateAdjuster where
  schedule : Schedule := .unlimited
  profile : String := Schedule.defaultProfile
deriving DecidableEq, Repr

namespace RateAdjuster

/-- The variable of the environment that names a profile. -/
def profileVariable : String := "TRUSTFW_PROFILE"

/-- The profile asked for, or else that of the environment, or else the default one. -/
def chooseProfile (asked environment : Option String) : String :=
  let named (s : Option String) : Option String := s.filter fun s => !s.isEmpty
  (named asked <|> named environment).getD Schedule.defaultProfile

variable {σ : Type}

/-- Configures both pipes of an interface, the inbound one first. -/
def reconfigure (e : Engine σ) (index inKbps outKbps : Int) (s : σ) :
    Except AdjustFault Bool × σ :=
  match Rate.ofKbps inKbps, Rate.ofKbps outKbps with
  | .error cause, _ | _, .error cause => (.error (.unread cause), s)
  | .ok inbound, .ok outbound =>
    let s := e.note (.log .info ("Interface " ++ toString index ++ ": in " ++ inbound ++ ", out "
      ++ outbound)) s
    let calls : List Engine.Call :=
      [.configurePipe { id := inboundPipe index, bandwidth := some inbound },
        .configurePipe { id := outboundPipe index, bandwidth := some outbound }]
    match e.performAll calls s with
    | (.ok (), s) => (.ok true, s)
    | (.error fault, s) => (.error (.engine fault), s)

/-- The rates of a profile at a time of day. They are applied only if the inbound bandwidth has to
change. -/
def follow (a : RateAdjuster) (e : Engine σ) (now : TimeOfDay) (index : Int) (current : Nat)
    (s : σ) : Except AdjustFault Bool × σ :=
  match a.schedule.profile a.profile with
  | .error cause => (.error (.unread (.malformed cause)), s)
  | .ok profile =>
    let (inKbps, outKbps) := profile.ratesAt now
    match Rate.ofKbps inKbps with
    | .error cause => (.error (.unread cause), s)
    | .ok inbound =>
      match Rate.toBits inbound with
      | .error cause => (.error (.unread cause), s)
      | .ok bits =>
        if bits = current then
          (.ok false, e.note (.log .info ("Interface " ++ toString index
            ++ ": inbound rate already " ++ inbound ++ " (profile " ++ profile.name ++ ")")) s)
        else reconfigure e index inKbps outKbps s

/-- Reconfigures the pipes of an interface: with both rates they are applied as they are, without
rates the schedule picks them. The answer says whether the pipes were configured. -/
def adjust (a : RateAdjuster) (e : Engine σ) (now : TimeOfDay) (index : Int)
    (inKbps outKbps : Option Int) (s : σ) : Except AdjustFault Bool × σ :=
  if inKbps.isNone != outKbps.isNone then (.error .oneRate, s)
  else if index < 0 ∨ maxInterfaces ≤ index then (.error (.outside index), s)
  else match e.bandwidth (inboundPipe index) s with
    | (.error fault, s) => (.error (.engine fault), s)
    | (.ok none, s) => (.error (.noPipe index (inboundPipe index)), s)
    | (.ok (some current), s) =>
      match inKbps, outKbps with
      | some inKbps, some outKbps => reconfigure e index inKbps outKbps s
      | _, _ => a.follow e now index current s

end RateAdjuster
end Firewall

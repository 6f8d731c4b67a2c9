import Firewall.Interface
import Firewall.Notice

/-!
The registry of declared interfaces, in the order of their declaration. The index of an interface
is its place in that order, and rule numbers and pipes derive from the index; the same physical
interface may be declared several times with different networks.
-/

namespace Firewall

/-- The items of a list, each where it occurs first. -/
def firstOccurrences {α : Type} [BEq α] (xs : List α) : List α :=
  xs.foldl (fun seen x => if seen.contains x then seen else seen ++ [x]) []

def maxInterfaces : Nat := 10

structure Registry where
  interfaces : List Interface := []
  frozen : Bool := false

inductive RegistryFault
  | frozen
  | tooMany
deriving DecidableEq, Repr

def RegistryFault.message : RegistryFault → String
  | .frozen => "interface registry is frozen"
  | .tooMany => (Malformed.tooManyInterfaces maxInterfaces).message

namespace Registry

def size (r : Registry) : Nat := r.interfaces.length

/-- The names of the declared interfaces, each once. -/
def names (r : Registry) : List String := firstOccurrences (r.interfaces.map (·.name))

/-- The names of the interfaces of one kind, each once. -/
def namesWhere (r : Registry) (p : Interface → Bool) : List String :=
  firstOccurrences ((r.interfaces.filter p).map (·.name))

/-- The interface at a place; negative places count from the end. -/
def get? (r : Registry) (i : Int) : Option Interface :=
  if 0 ≤ i then r.interfaces[i.toNat]?
  else if 0 ≤ i + r.size then r.interfaces[(i + r.size).toNat]?
  else none

/-- The registry with one interface more, which takes the next index. -/
def register (r : Registry) (i : Interface) : Except RegistryFault Registry :=
  if r.frozen then .error .frozen
  else if maxInterfaces ≤ r.size then .error .tooMany
  else .ok { r with interfaces := r.interfaces ++ [{ i with index := r.size }] }

theorem register_frozen {r : Registry} (h : r.frozen = true) (i : Interface) :
    r.register i = .error .frozen := by
  simp [register, h]

theorem size_register {r r' : Registry} {i : Interface} (h : r.register i = .ok r') :
    r'.size = r.size + 1 := by
  unfold register at h
  split at h
  · cases h
  · split at h
    · cases h
    · cases h
      simp [size]

def registration (index : Nat) (i : Interface) : Notice :=
  .log .info ("Configuring interface " ++ toString index ++ ": " ++ i.text)

def freeze (r : Registry) : Registry := { r with frozen := true }

/-- The interfaces that tokens declare; a malformed token anywhere keeps all of them out. -/
def parseAll : List String → Except Malformed (List Interface)
  | [] => .ok []
  | token :: rest => do
    let i ← Interface.parse token
    let more ← parseAll rest
    .ok (i :: more)

def registerAll (r : Registry) : List Interface → List Notice × Except Malformed Registry
  | [] => ([], .ok r)
  | i :: rest =>
    match r.register i with
    | .error _ => ([], .error (.tooManyInterfaces maxInterfaces))
    | .ok r' =>
      let (notices, result) := registerAll r' rest
      (registration r.size i :: notices, result)

def ofTokens (tokens : List String) : List Notice × Except Malformed Registry :=
  match parseAll tokens with
  | .error cause => ([], .error cause)
  | .ok interfaces =>
    let (notices, result) := registerAll {} interfaces
    (notices, result.map freeze)

end Registry
end Firewall

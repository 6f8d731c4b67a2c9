import Firewall.Binary64
import Firewall.Text.Quoted

/-!
Configuration data: nested sequences and mappings over plain values. A mapping keeps the order of
its entries, and no key occurs twice in it.
-/

namespace Firewall

inductive Data
  | null
  | bool (b : Bool)
  | integer (n : Int)
  | float (negative : Bool) (size : Binary64)
  | text (s : String)
  | sequence (items : List Data)
  | mapping (entries : List (String × Data))

namespace Data

/-- Absent, false, zero and empty values say nothing: a setting that holds one keeps its default. -/
def isBlank : Data → Bool
  | .null => true
  | .bool b => !b
  | .integer n => n == 0
  | .float _ size => size.isZero
  | .text s => s.isEmpty
  | .sequence items => items.isEmpty
  | .mapping entries => entries.isEmpty

def boolText (b : Bool) : String := if b then "True" else "False"

mutual

/-- The value as it is quoted in a message: texts stand between quotes. -/
def literal : Data → String
  | .null => "None"
  | .bool b => boolText b
  | .integer n => toString n
  | .float negative size => (if negative then "-" else "") ++ size.text
  | .text s => Text.Quoted.quote s
  | .sequence items => "[" ++ ", ".intercalate (literals items) ++ "]"
  | .mapping entries => "\x7b" ++ ", ".intercalate (entryLiterals entries) ++ "\x7d"

def literals : List Data → List String
  | [] => []
  | item :: rest => literal item :: literals rest

def entryLiterals : List (String × Data) → List String
  | [] => []
  | (key, value) :: rest => (Text.Quoted.quote key ++ ": " ++ literal value) :: entryLiterals rest

end

/-- The value as text: a text stands for itself, any other value for its literal. -/
def plain : Data → String
  | .text s => s
  | value => value.literal

def valueAt (entries : List (String × Data)) (key : String) : Data := (entries.lookup key).getD .null

end Data

/-- The keys of a mapping that are not among `known`, in the order of their characters. -/
def unknownKeys (known : List String) (entries : List (String × Data)) : List String :=
  ((entries.map (·.1)).filter fun key => !known.contains key).mergeSort fun a b => a ≤ b

end Firewall

/-!
Words for a POSIX shell. A word of harmless characters stands bare; any other is put between
single quotes, and a single quote inside it is written as a double-quoted one between two
single-quoted pieces.
-/

namespace Firewall.Text.ShellWord

/-- Characters that mean nothing to a shell. -/
def isBare (c : Char) : Bool := c.isAlphanum || "_@%+=:,./-".toList.contains c

def escape (c : Char) : List Char :=
  if c = '\'' then "'\"'\"'".toList else [c]

def quote (word : String) : String :=
  if word.isEmpty then "''"
  else if word.toList.all isBare then word
  else String.ofList ('\'' :: word.toList.flatMap escape ++ ['\''])

theorem quote_of_bare {word : String} (hne : word ≠ "")
    (h : word.toList.all isBare = true) : quote word = word := by
  simp [quote, hne, h]

/-- One command line: the quoted words, one blank apart. -/
def join (words : List String) : String := " ".intercalate (words.map quote)

end Firewall.Text.ShellWord

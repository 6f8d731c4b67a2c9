import Firewall.Proofs.Lettering
import Firewall.Proofs.Matching
import Firewall.Proofs.Unbroken

/-!
Networks and the texts that stand for them. A network that was read has four octets, at most 32
leading bits and no other bits, and then its text reads as the network again: a packet filter that
is given the text looks at the addresses that were declared.
-/

namespace Firewall

open Interface (bind_eq_ok_iff)

/-! ### Networks that were read -/

namespace Address

variable {text : String} {cs : List Char} {a : Nat}

theorem octet_le (read : octet text cs = .ok a) : a ≤ 255 := by
  simp only [octet] at read
  repeat' split at read
  all_goals cases read
  omega

theorem lt_of_parse (read : parse cs = .ok a) : a < 4294967296 := by
  simp only [parse] at read
  split at read
  · cases read
  · split at read
    · obtain ⟨w, first, read⟩ := bind_eq_ok_iff.mp read
      obtain ⟨x, second, read⟩ := bind_eq_ok_iff.mp read
      obtain ⟨y, third, read⟩ := bind_eq_ok_iff.mp read
      obtain ⟨z, fourth, read⟩ := bind_eq_ok_iff.mp read
      cases read
      have := octet_le first
      have := octet_le second
      have := octet_le third
      have := octet_le fourth
      omega
    · cases read

end Address

namespace Block

variable {cs : List Char} {b : Block} {a l : Nat}

/-- The bits behind the leading ones are zero. -/
structure Canonical (b : Block) : Prop where
  address_lt : b.address < 4294967296
  length_le : b.length ≤ 32
  aligned : b.address / size b.length * size b.length = b.address

theorem size_pos (l : Nat) : 0 < size l := Nat.two_pow_pos _

theorem canonical_containing (small : a < 4294967296) (short : l ≤ 32) :
    (containing a l).Canonical where
  address_lt := Nat.lt_of_le_of_lt (Nat.div_mul_le_self a (size l)) small
  length_le := short
  aligned := by rw [containing, Nat.mul_div_cancel _ (size_pos l)]

theorem length_le_of_lengthOfMask? (found : lengthOfMask? a = some l) : l ≤ 32 := by
  have within {test : Nat → Bool} (first : (List.range 33).find? test = some l) : l ≤ 32 := by
    have := List.mem_range.mp (List.mem_of_find?_eq_some first)
    omega
  unfold lengthOfMask? at found
  split at found
  · rename_i first
    cases found
    exact within first
  · exact within found

theorem length_le_of_parseLength (read : parseLength cs = .ok l) : l ≤ 32 := by
  simp only [parseLength] at read
  split at read
  · rename_i short
    simp only [Bool.and_eq_true, decide_eq_true_eq] at short
    cases read
    exact short.2
  · split at read
    · cases read
    · split at read
      · rename_i found
        cases read
        exact length_le_of_lengthOfMask? found
      · cases read

theorem canonical_of_parse (read : parse cs = .ok b) : b.Canonical := by
  unfold parse at read
  split at read
  · obtain ⟨a, said, read⟩ := bind_eq_ok_iff.mp read
    cases read
    exact canonical_containing (Address.lt_of_parse said) (Nat.le_refl 32)
  · obtain ⟨a, said, read⟩ := bind_eq_ok_iff.mp read
    obtain ⟨l, long, read⟩ := bind_eq_ok_iff.mp read
    cases read
    exact canonical_containing (Address.lt_of_parse said) (length_le_of_parseLength long)
  · cases read

end Block

theorem Network.canonical_of_parse {text : String} {b : Block}
    (read : parse text = .ok (.block b)) : b.Canonical := by
  unfold parse at read
  split at read
  · cases read
  · split at read
    · rename_i said
      cases read
      exact Block.canonical_of_parse said
    · cases read

theorem Interface.canonical_of_parse {token : String} {i : Interface} {b : Block}
    (parsed : parse token = .ok i) (network : i.network = .block b) : b.Canonical := by
  obtain ⟨-, -, -, -, -, networked, -⟩ := parse_eq_ok_iff.mp parsed
  rw [network] at networked
  cases tail : after token with
  | nil => simp [tail, parseNetwork] at networked
  | cons colon rest =>
      cases read : Network.parse (String.ofList (rest.dropWhile (· = ':'))) with
      | error cause => simp [tail, parseNetwork, read, Except.map] at networked
      | ok said =>
          simp only [tail, parseNetwork, read, Except.map, Except.ok.injEq, Prod.mk.injEq]
            at networked
          rw [networked.2] at read
          exact Network.canonical_of_parse read

theorem Registry.canonical_of_declared {tokens : List String} {r : Registry} {i : Interface}
    {b : Block} (declared : (ofTokens tokens).2 = .ok r) (hi : i ∈ r.interfaces)
    (network : i.network = .block b) : b.Canonical := by
  obtain ⟨token, -, said, parsed, same⟩ := exists_token declared hi
  refine Interface.canonical_of_parse parsed ?_
  rw [same] at network
  exact network

/-! ### Texts that are read again -/

namespace Address

variable {a : Nat}

theorem octet_toString (text : String) {n : Nat} (small : n < 256) :
    octet text (toString n).toList = .ok n := by
  have plain : (toString n).toList.all Char.isDigit = true :=
    List.all_eq_true.mpr fun _ => Text.isDigit_of_mem_natCast
  obtain ⟨some_, short, leading, value⟩ := (by decide +kernel : ∀ n < 256,
    (toString n).toList.isEmpty = false ∧ ¬3 < (toString n).toList.length ∧
    ¬((toString n).toList.head? = some '0' ∧ (toString n).toList ≠ ['0']) ∧
    (toString n).toList.foldl (fun n c => 10 * n + (c.toNat - 48)) 0 = n) n small
  simp only [octet, some_, plain, short, leading, value, Bool.not_true, Bool.false_eq_true,
    if_false]
  rw [if_neg (by omega)]

theorem not_mem_toString {c : Char} (other : c.isDigit = false) (n : Nat) :
    c ∉ (toString n).toList := by
  intro hc
  rw [Text.isDigit_of_mem_natCast hc] at other
  cases other

theorem toList_dotted (a : Nat) :
    (dotted a).toList = (toString (a / 16777216 % 256)).toList ++ '.' ::
      ((toString (a / 65536 % 256)).toList ++ '.' :: ((toString (a / 256 % 256)).toList ++ '.' ::
        (toString (a % 256)).toList)) := by
  simp [dotted, String.toList_append]

theorem parse_dotted (small : a < 4294967296) : parse (dotted a).toList = .ok a := by
  have part (n : Nat) : n % 256 < 256 := Nat.mod_lt n (by decide)
  have parts : splitAll '.' (dotted a).toList =
      [(toString (a / 16777216 % 256)).toList, (toString (a / 65536 % 256)).toList,
        (toString (a / 256 % 256)).toList, (toString (a % 256)).toList] := by
    have single (n : Nat) : splitAll '.' (toString n).toList = [(toString n).toList] :=
      splitAll_of_not_mem (not_mem_toString (by decide) n)
    simp only [toList_dotted, splitAll_append, single]
    rfl
  have some_ : (dotted a).toList.isEmpty = false := by
    rw [toList_dotted]
    simp
  simp only [parse, some_, parts, octet_toString _ (part _), Bool.false_eq_true, if_false]
  refine congrArg Except.ok ?_
  omega

end Address

namespace Block

variable {b : Block}

theorem parseLength_toString {l : Nat} (short : l ≤ 32) :
    parseLength (toString l).toList = .ok l :=
  (by decide +kernel : ∀ l < 33, parseLength (toString l).toList = .ok l) l (by omega)

theorem toList_text (b : Block) :
    b.text.toList = (Address.dotted b.address).toList ++ '/' :: (toString b.length).toList := by
  simp [text, String.toList_append]

theorem parse_append_slash {address length : List Char} {a l : Nat}
    (said : Address.parse address = .ok a) (long : parseLength length = .ok l) :
    parse (address ++ '/' :: length) = .ok (containing a l) := by
  have other : ¬(('/' : Char).isDigit = true ∨ '/' = '.') := by decide
  have split : Address.splitAll '/' (address ++ '/' :: length) = [address, length] :=
    Address.splitAll_eq_cons_iff.mpr
      ⟨by simp, by simp [mt (Address.letter_of_parse said '/') other,
        mt (letter_of_parseLength long '/') other]⟩
  simp only [parse, split, said, long]
  rfl

theorem parse_text (canonical : b.Canonical) : parse b.text.toList = .ok b := by
  rw [toList_text, parse_append_slash (Address.parse_dotted canonical.address_lt)
    (parseLength_toString canonical.length_le)]
  exact congrArg Except.ok (congrArg (Block.mk · b.length) canonical.aligned)

/-- No other word is the text of a block. -/
theorem text_ne (b : Block) {word : String} (other : '/' ∉ word.toList) : b.text ≠ word := by
  rintro rfl
  rw [toList_text] at other
  simp at other

end Block

namespace Network

theorem slashForColon_of_not_mem {cs : List Char} (plain : ':' ∉ cs) : slashForColon cs = cs := by
  induction cs with
  | nil => rfl
  | cons c rest ih =>
      rw [List.mem_cons, not_or] at plain
      rw [slashForColon, if_neg (Ne.symm plain.1), ih plain.2]

/-- The text of a network that was read stands for the same network. -/
theorem parse_text {b : Block} (canonical : b.Canonical) : parse b.text = .ok (.block b) := by
  have read := Block.parse_text canonical
  have other : ¬(b.text = "" ∨ b.text = "any") :=
    not_or.mpr ⟨b.text_ne (by decide), b.text_ne (by decide)⟩
  simp only [parse, if_neg other,
    slashForColon_of_not_mem (Block.colon_not_mem_of_parse read), read]

end Network

/-- A filter that is given the text of a network takes it for the addresses of the network. -/
theorem Station.reads_text (s : Station) {b : Block} (canonical : b.Canonical) (a : Nat) :
    s.reads b.text a = b.contains a := by
  have other : b.text ≠ "me" := b.text_ne (by decide)
  simp only [reads, if_neg other, Network.parse_text canonical]

end Firewall

import Mathlib.Algebra.Group.Nat.Defs
import Firewall.Proofs.Canonical

/-!
The notations of a network. A network may be written with a length or with a mask, behind a slash
or behind a colon. All notations of a network give it one text, its normal form, and this text is
read as the network itself.
-/

namespace Firewall

open Address (dotted)

/-! ### Masks -/

namespace Block

variable {a l m : Nat}

/-- The leading `length` of 32 bits are set, and no others. -/
def IsNetmask (m length : Nat) : Prop :=
  ∀ bit, m.testBit bit = decide (32 - length ≤ bit ∧ bit < 32)

theorem mask_eq (short : l ≤ 32) : mask l = 2 ^ (32 - l) * (2 ^ l - 1) := by
  have whole : 2 ^ (32 - l) * 2 ^ l = 2 ^ 32 := by
    rw [← Nat.pow_add, Nat.sub_add_cancel short]
  rw [Nat.mul_sub, whole, Nat.mul_one]
  rfl

theorem testBit_mask (short : l ≤ 32) (bit : Nat) :
    (mask l).testBit bit = decide (32 - l ≤ bit ∧ bit < 32) := by
  have inside (from_ : 32 - l ≤ bit) : bit - (32 - l) < l ↔ bit < 32 := by omega
  rw [mask_eq short, Nat.testBit_two_pow_mul, Nat.testBit_two_pow_sub_one, Bool.decide_and]
  by_cases from_ : 32 - l ≤ bit
  · simp [from_, inside from_]
  · simp [from_]

/-- There is one netmask of each length. -/
theorem isNetmask_iff (short : l ≤ 32) : IsNetmask m l ↔ m = mask l := by
  constructor
  · intro leading
    exact Nat.eq_of_testBit_eq fun bit => (leading bit).trans (testBit_mask short bit).symm
  · rintro rfl
    exact testBit_mask short

theorem mask_lt (l : Nat) : mask l < 4294967296 := Nat.sub_lt (by decide) (size_pos l)

/-- A netmask is told from the complement of one, where it is both. -/
theorem lengthOfMask?_mask (short : l ≤ 32) : lengthOfMask? (mask l) = some l :=
  (by decide +kernel : ∀ l < 33, lengthOfMask? (mask l) = some l) l (by omega)

theorem parseLength_mask (short : l ≤ 32) : parseLength (dotted (mask l)).toList = .ok l := by
  have point : (dotted (mask l)).toList.all Char.isDigit = false := by
    simp [Address.toList_dotted]
  simp only [parseLength, point, Bool.and_false, Bool.false_and, Bool.false_eq_true, if_false,
    Address.parse_dotted (mask_lt l), lengthOfMask?_mask short]

end Block

/-! ### Normal forms -/

namespace Network

variable {address length : List Char} {a l m : Nat}

/-- The word for all networks, or the four numbers of an address and a length, where the bits of
the address behind the length are zero. -/
inductive Normal : String → Prop
  | any : Normal "any"
  | block {w x y z p : Nat} : w ≤ 255 → x ≤ 255 → y ≤ 255 → z ≤ 255 → p ≤ 32 →
      (∀ bit < 32 - p, (((w * 256 + x) * 256 + y) * 256 + z).testBit bit = false) →
      Normal (toString w ++ "." ++ toString x ++ "." ++ toString y ++ "." ++ toString z ++ "/"
        ++ toString p)

theorem normal_text {b : Block} (canonical : b.Canonical) : Normal b.text := by
  have small := canonical.address_lt
  have parts : ((b.address / 16777216 % 256 * 256 + b.address / 65536 % 256) * 256
      + b.address / 256 % 256) * 256 + b.address % 256 = b.address := by omega
  have clear : ∀ bit < 32 - b.length, b.address.testBit bit = false := by
    intro bit behind
    rw [← canonical.aligned, Block.size, Nat.mul_comm, Nat.pow_eq, Nat.testBit_two_pow_mul]
    simp [Nat.not_le.mpr behind]
  unfold Block.text dotted
  refine .block (by omega) (by omega) (by omega) (by omega) canonical.length_le ?_
  rwa [parts]

theorem slashForColon_append_colon (plain : ':' ∉ address) :
    slashForColon (address ++ ':' :: length) = address ++ '/' :: length := by
  induction address with
  | nil => rfl
  | cons c rest ih =>
      obtain ⟨other, plain⟩ := not_or.mp (mt List.mem_cons.mpr plain)
      rw [List.cons_append, slashForColon, if_neg (Ne.symm other), ih plain, List.cons_append]

/-- An address and a length or mask, with a slash or a colon between them. -/
theorem parse_notation {mark : Char} (hmark : mark = '/' ∨ mark = ':')
    (said : Address.parse address = .ok a) (long : Block.parseLength length = .ok l) :
    parse (String.ofList (address ++ mark :: length)) = .ok (.block (Block.containing a l)) := by
  have free : ':' ∉ address ++ '/' :: length :=
    Block.colon_not_mem_of_parse (Block.parse_append_slash said long)
  have slashed : slashForColon (address ++ mark :: length) = address ++ '/' :: length := by
    rcases hmark with rfl | rfl
    · exact slashForColon_of_not_mem free
    · exact slashForColon_append_colon fun mem => free (List.mem_append_left _ mem)
  have word : ¬(String.ofList (address ++ mark :: length) = "" ∨
      String.ofList (address ++ mark :: length) = "any") := by
    have marked : mark ∈ address ++ mark :: length := by simp
    rintro (none_ | any)
    · simp at none_
    · have letters := congrArg String.toList any
      rw [String.toList_ofList] at letters
      rw [letters] at marked
      rcases hmark with rfl | rfl <;> simp at marked
  simp only [parse, if_neg word, String.toList_ofList, slashed,
    Block.parse_append_slash said long]

/-- A network that was read has a text in normal form, which is read as the same network; and an
address gives one network with a length and with the netmask of this length, behind a slash or
behind a colon: the addresses that share so many bits with it. -/
theorem normal_of_parse :
    (∀ text n, parse text = .ok n → Normal n.text ∧ parse n.text = .ok n) ∧
      ∀ a l m, a < 2 ^ 32 → l ≤ 32 → Block.IsNetmask m l →
        ∀ text ∈ [dotted a ++ "/" ++ toString l, dotted a ++ "/" ++ dotted m,
            dotted a ++ ":" ++ dotted m],
          parse text =
            .ok (.block { address := a / 2 ^ (32 - l) * 2 ^ (32 - l), length := l }) := by
  refine ⟨fun text n read => ?_, fun a l m small short leading => ?_⟩
  · cases n with
    | any => exact ⟨.any, rfl⟩
    | block b =>
        have canonical := canonical_of_parse read
        exact ⟨normal_text canonical, parse_text canonical⟩
  · obtain rfl := (Block.isNetmask_iff short).mp leading
    have said : Address.parse (dotted a).toList = .ok a := Address.parse_dotted small
    have spelled (mark : Char) (length : String) : dotted a ++ String.singleton mark ++ length =
        String.ofList ((dotted a).toList ++ mark :: length.toList) := by
      rw [← String.toList_inj]
      simp
    have slash (length : String) := spelled '/' length
    have colon (length : String) := spelled ':' length
    simp only [List.forall_mem_cons, List.not_mem_nil, false_imp_iff, forall_const, and_true]
    refine ⟨?_, ?_, ?_⟩
    · exact slash _ ▸ parse_notation (.inl rfl) said (Block.parseLength_toString short)
    · exact slash _ ▸ parse_notation (.inl rfl) said (Block.parseLength_mask short)
    · exact colon _ ▸ parse_notation (.inr rfl) said (Block.parseLength_mask short)

/-- A host of a network, by the mask of the network; and the length that covers all addresses, the
mask of which is the complement of another, too. -/
theorem normal_of_parse_host :
    (parse "192.168.77.5:255.255.0.0" = .ok (.block { address := 3232235520, length := 16 }) ∧
      Normal "192.168.0.0/16" ∧
      parse "192.168.0.0/16" = .ok (.block { address := 3232235520, length := 16 })) ∧
    (167837955 < 2 ^ 32 ∧ 0 ≤ 32 ∧ Block.IsNetmask 0 0) ∧
      parse "10.1.1.3:0.0.0.0" = .ok (.block { address := 0, length := 0 }) := by
  have read : parse "192.168.77.5:255.255.0.0" =
      .ok (.block { address := 3232235520, length := 16 }) := by rfl
  have zero : Block.IsNetmask 0 0 := (Block.isNetmask_iff (by decide)).mpr rfl
  exact ⟨⟨read, normal_of_parse.1 _ _ read⟩, ⟨by decide, by decide, zero⟩,
    normal_of_parse.2 167837955 0 0 (by decide) (by decide) zero _ (by decide)⟩

end Network
end Firewall

import Firewall.Proofs.Reordering

/-!
Tokens for interfaces that are granted more. A marker goes in before the first colon of a token,
and trust is a pair of colons there; what the token declares besides stays as it was.
-/

namespace Firewall

namespace Text

variable {p : Char → Bool} {cs : List Char}

theorem trimBy_eq_self (first : ∀ c ∈ cs.head?, p c = false)
    (last : ∀ c ∈ cs.getLast?, p c = false) : trimBy p cs = cs := by
  have kept {cs : List Char} (first : ∀ c ∈ cs.head?, p c = false) : cs.dropWhile p = cs := by
    cases cs with
    | nil => rfl
    | cons c rest => simp [first c rfl]
  rw [trimBy, kept first, kept (by simpa using last), List.reverse_reverse]

theorem getLast?_trimBy : ∀ c ∈ (trimBy p cs).getLast?, p c = false := by
  intro c hc
  have law := List.head?_dropWhile_not p (cs.dropWhile p).reverse
  rw [trimBy, List.getLast?_reverse] at hc
  rw [Option.mem_def.mp hc] at law
  exact law

theorem head?_trimBy : ∀ c ∈ (trimBy p cs).head?, p c = false := by
  intro c hc
  have law := List.head?_dropWhile_not p cs
  obtain ⟨rest, split⟩ : trimBy p cs <+: cs.dropWhile p := by
    rw [trimBy, ← List.reverse_suffix, List.reverse_reverse]
    exact List.dropWhile_suffix p
  rw [← split, List.head?_append, Option.mem_def.mp hc] at law
  exact law

end Text

/-! ### What a token says -/

namespace Address

variable {c : Char}

theorem splitAll_append (xs ys : List Char) :
    splitAll c (xs ++ c :: ys) = splitAll c xs ++ splitAll c ys := by
  induction xs with
  | nil => simp [splitAll]
  | cons x rest ih =>
      simp only [List.cons_append, splitAll, ih]
      split
      · rfl
      · cases parts : splitAll c rest with
        | nil => exact absurd parts (splitAll_ne_nil c rest)
        | cons part more => rfl

end Address

namespace Interface

open Text (trim isBlank)

/-- The text of a token before its first colon. -/
def before (token : String) : List Char := (trim token.toList).takeWhile (· ≠ ':')

/-- The text of a token from its first colon on. -/
def after (token : String) : List Char := (trim token.toList).dropWhile (· ≠ ':')

/-- The token with a text put in before its first colon, or at its end. -/
def amended (text token : String) : String :=
  String.ofList (before token ++ text.toList ++ after token)

/-- What a token declares, whatever the words of the faults. -/
def Declares (head tail : List Char) (i : Interface) : Prop :=
  ∃ token name,
    parseName token ((Address.splitAll '+' head).headD []) = .ok (name, i.rates) ∧
    isName name = true ∧ parseMarkers token (Address.splitAll '+' head).tail = .ok i.hosts ∧
    parseNetwork tail = .ok (i.trusted, i.network) ∧
    i.name = String.ofList name ∧ i.index = -1

variable {token token' : String} {cs head tail : List Char} {i : Interface}

theorem bind_eq_ok_iff {ε α β : Type} {x : Except ε α} {f : α → Except ε β} {b : β} :
    x >>= f = .ok b ↔ ∃ a, x = .ok a ∧ f a = .ok b := by
  cases x <;> simp [bind, Except.bind]

theorem parseName_of_ok {said : List Char × Option Rates} (parsed : parseName token cs = .ok said) :
    parseName token' cs = .ok said := by
  unfold parseName at parsed ⊢
  split
  · rename_i braced
    rw [if_pos braced] at parsed
    cases parts : splitRates? cs with
    | none => simp [parts] at parsed
    | some _ => simpa [parts] using parsed
  · rename_i plain
    rwa [if_neg plain] at parsed

theorem parseMarkers_eq_ok_iff {parts : List (List Char)} {hosts : HostKinds} :
    parseMarkers token parts = .ok hosts ↔
      (∀ marker ∈ parts, marker = "mac".toList ∨ marker = "win".toList) ∧
        hosts = { mac := "mac".toList ∈ parts, windows := "win".toList ∈ parts } := by
  induction parts generalizing hosts with
  | nil => simp [parseMarkers, eq_comm]
  | cons marker rest ih =>
      have mapped (f : HostKinds → HostKinds) :
          (parseMarkers token rest).map f = .ok hosts ↔
            ∃ more, parseMarkers token rest = .ok more ∧ hosts = f more := by
        cases parseMarkers token rest <;> simp [Except.map, eq_comm]
      simp only [ih] at mapped
      rw [parseMarkers]
      split
      · rename_i mac
        rw [mapped]
        simp [mac]
      · split
        · rename_i win
          rw [mapped]
          simp [win]
        · rename_i other unknown
          simp only [reduceCtorEq, List.forall_mem_cons, other, unknown, or_self, false_and]

theorem parseMarkers_of_ok {parts : List (List Char)} {hosts : HostKinds}
    (parsed : parseMarkers token parts = .ok hosts) : parseMarkers token' parts = .ok hosts :=
  parseMarkers_eq_ok_iff.mpr (parseMarkers_eq_ok_iff.mp parsed)

theorem parse_eq_ok_iff : parse token = .ok i ↔ Declares (before token) (after token) i := by
  have text : (Text.strip token).toList = trim token.toList := String.toList_ofList
  unfold parse
  simp only [text]
  rw [show (trim token.toList).takeWhile (· ≠ ':') = before token from rfl,
    show (trim token.toList).dropWhile (· ≠ ':') = after token from rfl]
  constructor
  · intro parsed
    obtain ⟨⟨name, rates⟩, named, parsed⟩ := bind_eq_ok_iff.mp parsed
    split at parsed
    · split at parsed <;> cases parsed
    · split at parsed
      · cases parsed
      · rename_i proper
        obtain ⟨hosts, markers, parsed⟩ := bind_eq_ok_iff.mp parsed
        obtain ⟨⟨trusted, network⟩, networked, parsed⟩ := bind_eq_ok_iff.mp parsed
        cases parsed
        exact ⟨_, name, named, by simpa using proper, markers, networked, rfl, rfl⟩
  · rintro ⟨token', name, named, proper, markers, networked, name_eq, index_eq⟩
    have some_ : name.isEmpty = false := by
      cases name with
      | nil => simp [isName, withoutLineFeed] at proper
      | cons => rfl
    refine bind_eq_ok_iff.mpr ⟨_, parseName_of_ok named, ?_⟩
    rw [if_neg (by simpa using some_), if_neg (by simpa using proper)]
    refine bind_eq_ok_iff.mpr ⟨_, parseMarkers_of_ok markers, ?_⟩
    refine bind_eq_ok_iff.mpr ⟨_, networked, ?_⟩
    rw [← name_eq, ← index_eq]
    rfl

/-- The text of a token that declares an interface does not begin with a colon. -/
theorem Declares.head_ne_nil (h : Declares head tail i) : head ≠ [] := by
  rintro rfl
  obtain ⟨token, name, named, proper, -⟩ := h
  have empty : [] = name := congrArg Prod.fst (Except.ok.inj named)
  rw [← empty] at proper
  exact absurd proper (by decide)

/-- A marker at the end of the text before the colon is read like those that stand there. -/
theorem Declares.add_marker (h : Declares head tail i) (marker : List Char)
    (known : marker = "mac".toList ∨ marker = "win".toList) :
    Declares (head ++ '+' :: marker) tail
      { i with
        hosts :=
          { mac := i.hosts.mac || marker = "mac".toList
            windows := i.hosts.windows || marker = "win".toList } } := by
  obtain ⟨token, name, named, proper, markers, rest⟩ := h
  have single : Address.splitAll '+' marker = [marker] := by rcases known with rfl | rfl <;> rfl
  have parts := Address.splitAll_append (c := '+') head marker
  rw [single] at parts
  obtain ⟨first, more, split⟩ := List.exists_cons_of_ne_nil (Address.splitAll_ne_nil '+' head)
  rw [split] at named markers parts
  rw [List.tail_cons, parseMarkers_eq_ok_iff] at markers
  obtain ⟨known_, hosts⟩ := markers
  refine ⟨token, name, by rwa [parts], proper, ?_, rest⟩
  rw [parts, List.cons_append, List.tail_cons, parseMarkers_eq_ok_iff]
  refine ⟨?_, ?_⟩
  · rw [List.forall_mem_append, List.forall_mem_singleton]
    exact ⟨known_, known⟩
  · simp [hosts, eq_comm]

/-- Two more colons before what follows the name make the network a trusted one. -/
theorem Declares.add_trust (h : Declares head tail i) (colon : ∀ c ∈ tail.head?, c = ':') :
    Declares head (':' :: ':' :: tail) { i with trusted := true } := by
  obtain ⟨token, name, named, proper, markers, networked, rest⟩ := h
  refine ⟨token, name, named, proper, markers, ?_, rest⟩
  cases tail with
  | nil =>
      cases i
      cases networked
      rfl
  | cons c tail =>
      cases colon c rfl
      simp only [parseNetwork] at networked ⊢
      rw [List.dropWhile_cons_of_pos (by rfl), List.dropWhile_cons_of_pos (by rfl)]
      cases network : Network.parse (String.ofList (tail.dropWhile (· = ':'))) with
      | error _ => simp [network, Except.map] at networked
      | ok n =>
          simp only [network, Except.map, Except.ok.injEq, Prod.mk.injEq] at networked
          rw [← networked.2]
          rfl

/-! ### Tokens with a mark more -/

/-- What a token may grant its interface. -/
inductive Mark
  | trust
  | mac
  | windows
deriving DecidableEq, Repr

namespace Mark

def text : Mark → String
  | trust => "::"
  | mac => "+mac"
  | windows => "+win"

def on : Mark → Interface → Interface
  | trust, i => { i with trusted := true }
  | mac, i => { i with hosts := { i.hosts with mac := true } }
  | windows, i => { i with hosts := { i.hosts with windows := true } }

theorem isBlank_last_text (m : Mark) : ∀ c ∈ m.text.toList.getLast?, isBlank c = false := by
  cases m <;> simp [text, isBlank]

end Mark

theorem before_append_after : before token ++ after token = trim token.toList :=
  List.takeWhile_append_dropWhile

theorem trim_amended (m : Mark) (some_ : before token ≠ []) :
    trim (amended m.text token).toList = before token ++ (m.text.toList ++ after token) := by
  have first : ∀ c ∈ (trim token.toList).head?, isBlank c = false := Text.head?_trimBy
  have final : ∀ c ∈ (trim token.toList).getLast?, isBlank c = false := Text.getLast?_trimBy
  rw [← before_append_after] at first final
  rw [List.head?_append_of_ne_nil _ some_] at first
  rw [amended, String.toList_ofList, List.append_assoc]
  refine Text.trimBy_eq_self ?_ ?_
  · rwa [List.head?_append_of_ne_nil _ some_]
  · intro c hc
    rw [List.getLast?_append] at final
    rw [List.getLast?_append, List.getLast?_append] at hc
    cases behind : (after token).getLast? with
    | some d => exact final c (by simpa [behind] using hc)
    | none =>
        cases here : m.text.toList.getLast? with
        | some d => exact m.isBlank_last_text c (by simpa [behind, here] using hc)
        | none => exact final c (by simpa [behind, here] using hc)

theorem colon_of_mem_head?_after : ∀ c ∈ (after token).head?, c = ':' := by
  intro c hc
  have law := List.head?_dropWhile_not (· ≠ ':') (trim token.toList)
  rw [← after, Option.mem_def.mp hc] at law
  simpa using law

/-- A token is cut before its first colon. -/
theorem cut_eq (trimmed : trim token.toList = head ++ tail) (plain : ∀ c ∈ head, c ≠ ':')
    (colon : ∀ c ∈ tail.head?, c = ':') : before token = head ∧ after token = tail := by
  have plain : ∀ c ∈ head, decide (c ≠ ':') = true := fun c hc => decide_eq_true (plain c hc)
  have none_ : tail.takeWhile (· ≠ ':') = [] ∧ tail.dropWhile (· ≠ ':') = tail := by
    cases tail with
    | nil => exact ⟨rfl, rfl⟩
    | cons c rest =>
        cases colon c rfl
        exact ⟨rfl, rfl⟩
  rw [before, after, trimmed, List.takeWhile_append_of_pos plain,
    List.dropWhile_append_of_pos plain, none_.1, none_.2, List.append_nil]
  exact ⟨rfl, rfl⟩

theorem parse_amended (m : Mark) (parsed : parse token = .ok i) :
    parse (amended m.text token) = .ok (m.on i) := by
  rw [parse_eq_ok_iff] at parsed ⊢
  have some_ := parsed.head_ne_nil
  have plain : ∀ c ∈ before token, c ≠ ':' := by
    intro c hc
    have law := List.all_eq_true.mp List.all_takeWhile c hc
    exact of_decide_eq_true law
  have colon : ∀ c ∈ (after token).head?, c = ':' := colon_of_mem_head?_after
  have trimmed := trim_amended m some_
  cases m with
  | trust =>
      obtain ⟨before_, after_⟩ := cut_eq trimmed plain (by simp [Mark.text])
      rw [before_, after_]
      exact parsed.add_trust colon
  | mac =>
      rw [← List.append_assoc] at trimmed
      obtain ⟨before_, after_⟩ := cut_eq trimmed
        (List.forall_mem_append.mpr ⟨plain, by simp [Mark.text]⟩) colon
      rw [before_, after_]
      simpa [Mark.text, Mark.on] using parsed.add_marker "mac".toList (Or.inl rfl)
  | windows =>
      rw [← List.append_assoc] at trimmed
      obtain ⟨before_, after_⟩ := cut_eq trimmed
        (List.forall_mem_append.mpr ⟨plain, by simp [Mark.text]⟩) colon
      rw [before_, after_]
      simpa [Mark.text, Mark.on] using parsed.add_marker "win".toList (Or.inr rfl)

end Interface

namespace Registry

theorem eq_of_registerAll {r r' : Registry} {is : List Interface}
    (registered : (registerAll r is).2 = .ok r') :
    r' = { r with
      interfaces :=
        r.interfaces ++ is.mapIdx fun k i => { i with index := (r.size + k : Nat) } } := by
  induction is generalizing r with
  | nil =>
      cases registered
      simp
  | cons i rest ih =>
      simp only [registerAll] at registered
      split at registered
      · cases registered
      · rename_i next hnext
        obtain ⟨-, -, rfl⟩ := register_eq_ok_iff.mp hnext
        rw [ih registered]
        simp [size, List.mapIdx_cons, Nat.add_assoc, Nat.add_comm 1]

theorem forall₂_modify {α β : Type} {R : α → β → Prop} {f : α → α} {g : β → β} {xs : List α}
    {ys : List β} (related : List.Forall₂ R xs ys) (kept : ∀ x y, R x y → R (f x) (g y)) (k : Nat) :
    List.Forall₂ R (xs.modify k f) (ys.modify k g) := by
  induction related generalizing k with
  | nil => simp
  | cons here rest ih =>
      cases k with
      | zero => simpa using ⟨kept _ _ here, rest⟩
      | succ k => simpa using ⟨here, ih k⟩

/-- A list of tokens with a mark more declares the same interfaces, and one of them has it. -/
theorem declared_amended {tokens : List String} {r : Registry}
    (declared : (ofTokens tokens).2 = .ok r) (k : Nat) (m : Interface.Mark) :
    (ofTokens (tokens.modify k (Interface.amended m.text))).2 =
      .ok { r with interfaces := r.interfaces.modify k m.on } := by
  obtain ⟨is, open_, parsed, registered, rfl⟩ := declared_iff.mp declared
  have parsed' :
      parseAll (tokens.modify k (Interface.amended m.text)) = .ok (is.modify k m.on) := by
    rw [parseAll_eq_ok_iff] at parsed ⊢
    exact forall₂_modify parsed (fun _ _ => Interface.parse_amended m) k
  have open_eq := eq_of_registerAll registered
  have fits := (indexed_empty.registerAll is registered).size_le
  rw [open_eq] at fits
  obtain ⟨open', registered'⟩ : ∃ open', (registerAll {} (is.modify k m.on)).2 = .ok open' :=
    registerAll_eq_ok rfl (by simpa [size] using fits)
  refine declared_iff.mpr ⟨_, open', parsed', registered', ?_⟩
  have placed : (is.modify k m.on).mapIdx (fun n i => { i with index := (n : Int) }) =
      (is.mapIdx fun n i => { i with index := (n : Int) }).modify k m.on := by
    refine List.ext_getElem? fun n => ?_
    rw [List.getElem?_mapIdx, List.getElem?_modify, List.getElem?_modify, List.getElem?_mapIdx]
    cases is[n]? with
    | none => simp
    | some i => cases m <;> by_cases here : k = n <;> simp [here, Interface.Mark.on]
  rw [eq_of_registerAll registered', open_eq]
  simp [freeze, size, placed]

end Registry
end Firewall

import Firewall.Proofs.Declaring

/-!
Where the interfaces of a registry come from: each stems from the token at its place, and the
registry adds the place and nothing else.
-/

namespace Firewall

namespace Registry

variable {tokens : List String} {r : Registry}

/-- The registry of interfaces in the order in which they were declared. -/
def ofInterfaces (is : List Interface) : Registry :=
  { interfaces := is.mapIdx fun k i => { i with index := k }, frozen := true }

theorem declared_iff_parseAll :
    (ofTokens tokens).2 = .ok r ↔
      ∃ is, parseAll tokens = .ok is ∧ is.length ≤ maxInterfaces ∧ r = ofInterfaces is := by
  rw [declared_iff]
  constructor
  · rintro ⟨is, open_, parsed, registered, rfl⟩
    have fits := (indexed_empty.registerAll is registered).size_le
    rw [eq_of_registerAll registered] at fits ⊢
    exact ⟨is, parsed, by simpa [size] using fits, by simp [freeze, ofInterfaces, size]⟩
  · rintro ⟨is, parsed, fits, rfl⟩
    obtain ⟨open_, registered⟩ : ∃ open_, (registerAll {} is).2 = .ok open_ :=
      registerAll_eq_ok rfl (by simpa [size] using fits)
    refine ⟨is, open_, parsed, registered, ?_⟩
    rw [eq_of_registerAll registered]
    simp [freeze, ofInterfaces, size]

/-- Every interface stems from a token. -/
theorem exists_token {i : Interface} (declared : (ofTokens tokens).2 = .ok r)
    (hi : i ∈ r.interfaces) :
    ∃ token ∈ tokens, ∃ said, Interface.parse token = .ok said ∧
      i = { said with index := i.index } := by
  obtain ⟨is, parsed, -, rfl⟩ := declared_iff_parseAll.mp declared
  obtain ⟨k, within, rfl⟩ := List.mem_mapIdx.mp hi
  have related := parseAll_eq_ok_iff.mp parsed
  have within' : k < tokens.length := related.length_eq ▸ within
  exact ⟨tokens[k], List.getElem_mem _, is[k], related.get within' within, rfl⟩

end Registry

/-! ### The characters of what a token says -/

theorem Text.trimBy_subset (p : Char → Bool) (cs : List Char) : trimBy p cs ⊆ cs := by
  intro c hc
  rw [trimBy, List.mem_reverse] at hc
  exact (List.dropWhile_sublist p).subset
    (List.mem_reverse.mp ((List.dropWhile_sublist p).subset hc))

theorem Address.splitAll_subset {c : Char} {part cs : List Char} (h : part ∈ splitAll c cs) :
    part ⊆ cs := by
  induction cs generalizing part with
  | nil =>
      obtain rfl := List.mem_singleton.mp h
      exact List.nil_subset _
  | cons x rest ih =>
      rw [splitAll] at h
      split at h
      · rcases List.mem_cons.mp h with rfl | later
        · exact List.nil_subset _
        · exact List.subset_cons_of_subset x (ih later)
      · cases parts : splitAll c rest with
        | nil => exact absurd parts (splitAll_ne_nil c rest)
        | cons first more =>
            rw [parts] at h ih
            rcases List.mem_cons.mp h with rfl | later
            · exact List.cons_subset_cons x (ih (List.mem_cons_self ..))
            · exact List.subset_cons_of_subset x (ih (List.mem_cons_of_mem _ later))

namespace Interface

variable {token : String} {cs : List Char} {i : Interface}

theorem before_subset (token : String) : before token ⊆ token.toList :=
  fun _ hc => Text.trimBy_subset _ _ ((List.takeWhile_sublist _).subset hc)

theorem splitRates?_subset {name inText outText : List Char}
    (h : splitRates? cs = some (name, inText, outText)) :
    name ⊆ cs ∧ inText ⊆ cs ∧ outText ⊆ cs := by
  have behind := (List.dropWhile_sublist (!isBrace ·) (l := cs)).subset
  unfold splitRates? at h
  simp only at h
  split at h
  · rename_i rest split_
    rw [split_] at behind
    have inside : rest ⊆ cs := fun c hc => behind (List.mem_cons_of_mem _ hc)
    split at h
    · rename_i more comma
      have later : more ⊆ rest := fun c hc =>
        (List.dropWhile_sublist _).subset (comma ▸ List.mem_cons_of_mem _ hc)
      split at h
      · cases h
        exact ⟨(List.takeWhile_sublist _).subset,
          fun c hc => inside ((List.takeWhile_sublist _).subset hc),
          fun c hc => inside (later ((List.takeWhile_sublist _).subset hc))⟩
      · cases h
    · cases h
  · cases h

theorem parseName_subset {name : List Char} {rates : Option Rates}
    (parsed : parseName token cs = .ok (name, rates)) :
    name ⊆ cs ∧ ∀ said ∈ rates, ∃ inText outText, inText ⊆ cs ∧ outText ⊆ cs ∧
      Rate.parse (String.ofList inText) = .ok said.inbound ∧
      Rate.parse (String.ofList outText) = .ok said.outbound := by
  unfold parseName at parsed
  split at parsed
  · split at parsed
    · cases parsed
    · rename_i name' inText outText parts
      obtain ⟨inbound, inRead, parsed⟩ := bind_eq_ok_iff.mp parsed
      obtain ⟨outbound, outRead, parsed⟩ := bind_eq_ok_iff.mp parsed
      cases parsed
      obtain ⟨named, inside, outside⟩ := splitRates?_subset parts
      refine ⟨named, fun said hsaid => ?_⟩
      cases hsaid
      exact ⟨inText, outText, inside, outside, inRead, outRead⟩
  · cases parsed
    exact ⟨List.Subset.refl _, by simp⟩

/-- The name and the rates of an interface are spelled in its token. -/
theorem parse_subset (parsed : parse token = .ok i) :
    i.name.toList ⊆ token.toList ∧ ∀ said ∈ i.rates, ∃ inText outText,
      inText ⊆ token.toList ∧ outText ⊆ token.toList ∧
      Rate.parse (String.ofList inText) = .ok said.inbound ∧
      Rate.parse (String.ofList outText) = .ok said.outbound := by
  obtain ⟨token', name, named, -, -, -, name_eq, -⟩ := parse_eq_ok_iff.mp parsed
  have first : (Address.splitAll '+' (before token)).headD [] ⊆ token.toList := by
    refine List.Subset.trans ?_ (before_subset token)
    cases parts : Address.splitAll '+' (before token) with
    | nil => exact List.nil_subset _
    | cons part more => exact Address.splitAll_subset (parts ▸ List.mem_cons_self ..)
  obtain ⟨spelled, rated⟩ := parseName_subset named
  refine ⟨by simpa [name_eq] using List.Subset.trans spelled first, fun said hsaid => ?_⟩
  obtain ⟨inText, outText, inside, outside, read⟩ := rated said hsaid
  exact ⟨inText, outText, List.Subset.trans inside first, List.Subset.trans outside first, read⟩

end Interface
end Firewall

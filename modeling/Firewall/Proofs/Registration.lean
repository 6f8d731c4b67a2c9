import Firewall.Registry

/-!
What registration establishes: every interface bears its place in the registry as its index, and
there are no more interfaces than can be declared. Numbers of rules, pipes and queues rest on
both facts.
-/

namespace Firewall.Registry

structure Indexed (r : Registry) : Prop where
  index_eq : ∀ {k : Nat} {i : Interface}, r.interfaces[k]? = some i → i.index = k
  size_le : r.size ≤ maxInterfaces

theorem indexed_empty : Indexed {} where
  index_eq := by simp
  size_le := Nat.zero_le _

theorem Indexed.register {r r' : Registry} (h : r.Indexed) (i : Interface)
    (registered : r.register i = .ok r') : r'.Indexed := by
  unfold Registry.register at registered
  split at registered
  · cases registered
  · split at registered
    · cases registered
    · rename_i notFull
      cases registered
      refine ⟨?_, ?_⟩
      · intro k j hj
        rcases Nat.lt_trichotomy k r.interfaces.length with hk | rfl | hk
        · rw [List.getElem?_append_left hk] at hj
          exact h.index_eq hj
        · rw [List.getElem?_append_right (Nat.le_refl _), Nat.sub_self,
            List.getElem?_cons_zero] at hj
          cases hj
          rfl
        · have beyond : (r.interfaces ++ [{ i with index := r.size }]).length ≤ k := by
            simp only [List.length_append, List.length_cons, List.length_nil]
            omega
          rw [List.getElem?_eq_none beyond] at hj
          cases hj
      · change (r.interfaces ++ [{ i with index := r.size }]).length ≤ maxInterfaces
        simp only [List.length_append, List.length_cons, List.length_nil]
        unfold size at notFull
        omega

theorem Indexed.freeze {r : Registry} (h : r.Indexed) : r.freeze.Indexed :=
  ⟨h.index_eq, h.size_le⟩

theorem Indexed.registerAll {r r' : Registry} (h : r.Indexed) (interfaces : List Interface)
    (registered : (r.registerAll interfaces).2 = .ok r') : r'.Indexed := by
  induction interfaces generalizing r with
  | nil =>
      cases registered
      exact h
  | cons i rest ih =>
      simp only [Registry.registerAll] at registered
      split at registered
      · cases registered
      · rename_i next hnext
        exact ih (h.register i hnext) registered

theorem indexed_of_declared {tokens : List String} {r : Registry}
    (declared : (ofTokens tokens).2 = .ok r) : r.Indexed := by
  unfold ofTokens at declared
  split at declared
  · cases declared
  · rename_i interfaces _
    cases h : (registerAll {} interfaces).2 with
    | error cause => simp [h, Except.map] at declared
    | ok open_ =>
        simp only [h, Except.map, Except.ok.injEq] at declared
        subst declared
        exact (indexed_empty.registerAll interfaces h).freeze

/-- The registry of a host with one interface whose network is not known. -/
def lone : Registry := { interfaces := [{ name := "en0", index := 0 }], frozen := true }

theorem declared_lone : (ofTokens ["en0"]).2 = .ok lone := by rfl

/-- The registry of a host between a trusted network of one kind of hosts and a shaped uplink. -/
def home : Registry :=
  { interfaces :=
      [ { name := "en0", network := .block { address := 3232235520, length := 16 }, trusted := true,
          hosts := { mac := true }, index := 0 },
        { name := "en1", rates := some { inbound := "504", outbound := "120" }, index := 1 } ]
    frozen := true }

theorem declared_home :
    (ofTokens ["en0+mac::192.168.0.0/16", "en1\x7b504,120\x7d"]).2 = .ok home := by rfl

theorem Indexed.bounds {r : Registry} (h : r.Indexed) {i : Interface} (hi : i ∈ r.interfaces) :
    0 ≤ i.index ∧ i.index < maxInterfaces := by
  obtain ⟨k, hk⟩ := List.mem_iff_getElem?.mp hi
  have place := h.index_eq hk
  have bound := (List.getElem?_eq_some_iff.mp hk).1
  have fits := h.size_le
  unfold size at fits
  omega

/-- No two interfaces share an index, whatever they have in common besides. -/
theorem Indexed.pairwise_index {r : Registry} (h : r.Indexed) :
    r.interfaces.Pairwise fun i j => i.index ≠ j.index := by
  rw [List.pairwise_iff_getElem]
  intro k l hk hl less same
  have hi := h.index_eq (List.getElem?_eq_getElem hk)
  have hj := h.index_eq (List.getElem?_eq_getElem hl)
  omega

end Firewall.Registry

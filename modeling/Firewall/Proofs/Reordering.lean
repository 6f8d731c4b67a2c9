import Mathlib.Data.Finset.Insert
import Mathlib.Data.List.Perm.Basic
import Firewall.Proofs.Banding
import Firewall.Proofs.Matching

/-!
Interfaces declared in another order. The indices and all that derives from them change, and so
does the order of the names that a rule is bound to; but every band holds the same matches, and so
the same packets are accepted.
-/

namespace Firewall

theorem mem_firstOccurrences {α : Type} [BEq α] [LawfulBEq α] {x : α} {xs : List α} :
    x ∈ firstOccurrences xs ↔ x ∈ xs := by
  have collected (seen : List α) :
      x ∈ xs.foldl (fun seen y => if seen.contains y then seen else seen ++ [y]) seen ↔
        x ∈ seen ∨ x ∈ xs := by
    induction xs generalizing seen with
    | nil => simp
    | cons y rest ih =>
        rw [List.foldl_cons, ih, List.mem_cons, ← or_assoc]
        split
        · rename_i known
          have known : y ∈ seen := by simpa using known
          constructor
          · exact fun h => h.imp_left Or.inl
          · rintro ((h | rfl) | h)
            · exact Or.inl h
            · exact Or.inl known
            · exact Or.inr h
        · simp
  exact (collected []).trans (by simp)

/-! ### The same declarations in another order -/

/-- An interface as it was declared, without the place that it was given. -/
def Interface.unplaced (i : Interface) : Interface := { i with index := -1 }

/-- The same interfaces, in whatever order. -/
def Rearranged (is js : List Interface) : Prop :=
  (is.map Interface.unplaced).Perm (js.map Interface.unplaced)

namespace Rearranged

variable {is js : List Interface}

theorem length_eq (h : Rearranged is js) : is.length = js.length := by
  simpa using List.Perm.length_eq h

theorem map {β : Type} (h : Rearranged is js) {f : Interface → β}
    (placeless : ∀ i : Interface, f i.unplaced = f i) : (is.map f).Perm (js.map f) := by
  have own (xs : List Interface) : xs.map f = (xs.map Interface.unplaced).map f := by
    simp [Function.comp_def, placeless]
  rw [own is, own js]
  exact List.Perm.map f h

theorem filter (h : Rearranged is js) {p : Interface → Bool}
    (placeless : ∀ i : Interface, p i.unplaced = p i) : Rearranged (is.filter p) (js.filter p) := by
  have own (xs : List Interface) :
      (xs.filter p).map Interface.unplaced = (xs.map Interface.unplaced).filter p := by
    simp [List.filter_map, Function.comp_def, placeless]
  unfold Rearranged
  rw [own is, own js]
  exact List.Perm.filter p h

theorem flatMap {β : Type} (h : Rearranged is js) {f : Interface → List β}
    (placeless : ∀ i : Interface, f i.unplaced = f i) : (is.flatMap f).Perm (js.flatMap f) := by
  have own (xs : List Interface) : xs.flatMap f = (xs.map Interface.unplaced).flatMap f := by
    simp [List.flatMap_map, placeless]
  rw [own is, own js]
  exact List.Perm.flatMap_right f h

end Rearranged

namespace Registry

variable {r r' : Registry} {tokens tokens' : List String} {is : List Interface}

theorem parseAll_eq_ok_iff :
    parseAll tokens = .ok is ↔
      List.Forall₂ (fun token i => Interface.parse token = .ok i) tokens is := by
  induction tokens generalizing is with
  | nil => simp [parseAll, eq_comm]
  | cons token rest ih =>
      rw [List.forall₂_cons_left_iff]
      simp only [parseAll, bind, Except.bind]
      cases parsed : Interface.parse token with
      | error cause => simp
      | ok i =>
          simp only [← ih]
          cases parseAll rest with
          | error cause => simp
          | ok js => simp [eq_comm]

theorem register_eq_ok_iff {i : Interface} :
    r.register i = .ok r' ↔ r.frozen = false ∧ r.size < maxInterfaces ∧
      r' = { r with interfaces := r.interfaces ++ [{ i with index := r.size }] } := by
  unfold register
  cases r.frozen with
  | true => simp
  | false =>
      by_cases full : maxInterfaces ≤ r.size
      · simp [full]
      · simp [full, Nat.lt_of_not_le full, eq_comm]

/-- Registration gives places and leaves the interfaces as they were declared. -/
theorem rearranged_registerAll (registered : (registerAll r is).2 = .ok r') :
    Rearranged (r.interfaces ++ is) r'.interfaces := by
  induction is generalizing r with
  | nil =>
      cases registered
      simp [Rearranged]
  | cons i rest ih =>
      simp only [registerAll] at registered
      split at registered
      · cases registered
      · rename_i next hnext
        obtain ⟨-, -, rfl⟩ := register_eq_ok_iff.mp hnext
        simpa [Rearranged, Interface.unplaced] using ih registered

theorem registerAll_eq_ok (notFrozen : r.frozen = false)
    (fits : r.size + is.length ≤ maxInterfaces) : ∃ r', (registerAll r is).2 = .ok r' := by
  induction is generalizing r with
  | nil => exact ⟨r, rfl⟩
  | cons i rest ih =>
      rw [List.length_cons] at fits
      have registered := (register_eq_ok_iff (i := i)).mpr ⟨notFrozen, by omega, rfl⟩
      simp only [registerAll, registered]
      exact ih notFrozen (by simp only [size, List.length_append, List.length_singleton] at *; omega)

theorem declared_iff :
    (ofTokens tokens).2 = .ok r ↔
      ∃ is open_, parseAll tokens = .ok is ∧ (registerAll {} is).2 = .ok open_ ∧
        r = open_.freeze := by
  unfold ofTokens
  cases parseAll tokens with
  | error cause => simp
  | ok is =>
      cases registered : (registerAll {} is).2 with
      | error cause => simp [registered, Except.map]
      | ok open_ => simp [registered, Except.map, eq_comm]

/-- Declarations are accepted in every order if they are in one. -/
theorem exists_declared_of_perm (declared : (ofTokens tokens).2 = .ok r)
    (perm : tokens.Perm tokens') :
    ∃ r', (ofTokens tokens').2 = .ok r' ∧ Rearranged r.interfaces r'.interfaces := by
  obtain ⟨is, open_, parsed, registered, rfl⟩ := declared_iff.mp declared
  obtain ⟨js, parsed', same⟩ :=
    List.perm_comp_forall₂ perm.symm (parseAll_eq_ok_iff.mp parsed)
  have before := rearranged_registerAll registered
  have fits : js.length ≤ maxInterfaces := by
    have := (indexed_empty.registerAll is registered).size_le
    have := before.length_eq
    have := same.length_eq
    simp only [size, List.nil_append] at *
    omega
  have registers : ∃ open', (registerAll {} js).2 = .ok open' :=
    registerAll_eq_ok rfl (by simpa [size] using fits)
  obtain ⟨open', registered'⟩ := registers
  refine ⟨open'.freeze, declared_iff.mpr
    ⟨js, open', parseAll_eq_ok_iff.mpr parsed', registered', rfl⟩, ?_⟩
  have after := rearranged_registerAll registered'
  have between := List.Perm.map Interface.unplaced same.symm
  exact (List.Perm.symm before).trans (between.trans after)

end Registry

/-! ### The same drafts in another order -/

/-- What counts of a draft for the packets it matches: neither its index nor the order of the names
that it is bound to. -/
def Draft.sketch (d : Draft) : Purpose × Match × Finset String :=
  (d.purpose, { d.what with via := [] }, d.what.via.toFinset)

namespace Ruleset

open Draft (sketch)

variable {r r' : Registry} {o : Options}

theorem toFinset_names (same : Rearranged r.interfaces r'.interfaces) :
    r.names.toFinset = r'.names.toFinset := by
  have perm := same.map (f := (·.name)) fun _ => rfl
  ext name
  simp only [Registry.names, List.mem_toFinset, mem_firstOccurrences, perm.mem_iff]

theorem sketch_baseline (names : r.names.toFinset = r'.names.toFinset) :
    (baseline r o).map sketch = (baseline r' o).map sketch := by
  simp [baseline, deniedOptions, sketch, names]

theorem sketch_serviceRules (same : Rearranged r.interfaces r'.interfaces)
    {wanted : HostKinds → Bool} {f : Interface → List Draft}
    (placeless : ∀ i : Interface, (f i.unplaced).map sketch = (f i).map sketch) :
    ((serviceRules r wanted f).map sketch).Perm ((serviceRules r' wanted f).map sketch) := by
  unfold serviceRules
  rw [List.map_flatMap, List.map_flatMap]
  exact (same.filter fun _ => rfl).flatMap placeless

theorem sketch_trusted (same : Rearranged r.interfaces r'.interfaces) :
    ((trusted r o).map sketch).Perm ((trusted r' o).map sketch) := by
  unfold trusted
  rw [List.map_append, List.map_append, List.map_map, List.map_map]
  exact ((same.filter fun _ => rfl).map fun _ => rfl).append_right _

theorem sketch_bootstrap (names : r.names.toFinset = r'.names.toFinset) :
    (bootstrap r o).map sketch = (bootstrap r' o).map sketch := by
  simp [bootstrap, sketch, names]

theorem toFinset_publicNames (same : Rearranged r.interfaces r'.interfaces) :
    (publicNames r).toFinset = (publicNames r').toFinset := by
  have public_ := same.filter (p := fun i => !i.bounded) fun _ => rfl
  have perm := public_.map (f := (·.name)) fun _ => rfl
  ext name
  simp only [publicNames, Registry.namesWhere, List.mem_toFinset, mem_firstOccurrences, perm.mem_iff]

theorem sketch_forged {names names' : List String} (same : names.toFinset = names'.toFinset) :
    (forged names).map sketch = (forged names').map sketch := by
  have empty : names.isEmpty = names'.isEmpty := by
    rw [Bool.eq_iff_iff, List.isEmpty_iff, List.isEmpty_iff, ← List.toFinset_eq_empty_iff,
      ← List.toFinset_eq_empty_iff, same]
  unfold forged
  rw [empty]
  split
  · rfl
  · simp [forgedSources, sketch, same]

theorem sketch_inboundFilter (same : Rearranged r.interfaces r'.interfaces) :
    ((inboundFilter r o).map sketch).Perm ((inboundFilter r' o).map sketch) := by
  have names := toFinset_names same
  have known := (same.filter (p := (·.bounded)) fun _ => rfl).map
    (f := fun i => sketch (knownNetwork i)) fun _ => rfl
  simp only [inboundFilter, List.map_append, List.map_map]
  refine .append (.append (.append ?_ known) ?_) (.refl _)
  · exact .of_eq (by simp [sketch, names])
  · exact .of_eq (sketch_forged (toFinset_publicNames same))

theorem sketch_shaping (same : Rearranged r.interfaces r'.interfaces) :
    ((shaping r).map sketch).Perm ((shaping r').map sketch) := by
  rw [shaping_eq_flatMap, shaping_eq_flatMap, List.map_flatMap, List.map_flatMap]
  refine same.flatMap fun i => ?_
  obtain ⟨name, network, trusted, hosts, rates, index⟩ := i
  cases rates <;> rfl

theorem sketch_outbound (names : r.names.toFinset = r'.names.toFinset) :
    (outbound r o).map sketch = (outbound r' o).map sketch := by
  simp [outbound, sketch, names]

theorem sketch_openTo (i : Interface) (purpose : Purpose) (proto : String) (ports : List String) :
    (openTo o i.unplaced purpose proto ports).map sketch =
      (openTo o i purpose proto ports).map sketch := by
  unfold openTo
  split <;> rfl

theorem sketch_openPorts (same : Rearranged r.interfaces r'.interfaces) :
    ((openPorts r o).map sketch).Perm ((openPorts r' o).map sketch) := by
  unfold openPorts
  rw [List.map_flatMap, List.map_flatMap]
  refine same.flatMap fun i => ?_
  have trusted : i.unplaced.trusted = i.trusted := rfl
  have bounded : i.unplaced.bounded = i.bounded := rfl
  simp only [openPortsOf, List.map_append, apply_ite (List.map sketch), sketch_openTo, trusted,
    bounded]

theorem sketch_defaultDeny (names : r.names.toFinset = r'.names.toFinset) :
    (defaultDeny r o).map sketch = (defaultDeny r' o).map sketch := by
  simp [defaultDeny, sketch, names]

/-- A policy for the same interfaces in another order has the same rules, up to their order, their
indices and the order of the names that they are bound to. -/
theorem sketch_drafts (same : Rearranged r.interfaces r'.interfaces) :
    ((drafts r o).map sketch).Perm ((drafts r' o).map sketch) := by
  have names := toFinset_names same
  simp only [drafts, List.map_append]
  refine .append (.append (.append (.append (.append (.append (.append (.append (.append (.append
    (.append ?_ ?_) ?_) ?_) ?_) ?_) ?_) ?_) ?_) ?_) ?_) ?_
  · exact .of_eq (sketch_baseline names)
  · exact .refl _
  · exact .refl _
  · exact sketch_serviceRules same fun _ => rfl
  · exact sketch_serviceRules same fun _ => rfl
  · exact sketch_trusted same
  · exact .of_eq (sketch_bootstrap names)
  · exact sketch_inboundFilter same
  · exact sketch_shaping same
  · exact .of_eq (sketch_outbound names)
  · exact sketch_openPorts same
  · exact .of_eq (sketch_defaultDeny names)

end Ruleset

/-! ### The same packets -/

namespace Evaluation

/-- The names that a match is bound to are alternatives: their order does not matter. -/
def ReadsAlternatives (holds : Match → Bool) : Prop :=
  ∀ (m : Match) (via : List String), (∀ name, name ∈ via ↔ name ∈ m.via) →
    holds { m with via } = holds m

variable {holds : Match → Bool} {r r' : Registry} {o : Options}

theorem readsAlternatives_meets (s : Station) (packet : Packet) :
    ReadsAlternatives (packet.meets s) := by
  intro m via same
  have empty : via.isEmpty = m.via.isEmpty := by
    rw [Bool.eq_iff_iff, List.isEmpty_iff, List.isEmpty_iff, List.eq_nil_iff_forall_not_mem,
      List.eq_nil_iff_forall_not_mem]
    simp only [same]
  have bound : via.any (s.bound · packet.interface) = m.via.any (s.bound · packet.interface) := by
    rw [Bool.eq_iff_iff, List.any_eq_true, List.any_eq_true]
    simp only [same]
  simp only [Packet.meets, empty, bound]

theorem ReadsAlternatives.eq_of_sketch (reads : ReadsAlternatives holds) {d e : Draft}
    (same : d.sketch = e.sketch) : holds d.what = holds e.what := by
  obtain ⟨-, rest, names⟩ : _ ∧ { d.what with via := [] } = { e.what with via := [] } ∧
      d.what.via.toFinset = e.what.via.toFinset := by simpa [Draft.sketch] using same
  have alternatives : ∀ name, name ∈ d.what.via ↔ name ∈ e.what.via := by
    intro name
    rw [← List.mem_toFinset, names, List.mem_toFinset]
  have whole : d.what = { e.what with via := d.what.via } := by
    simpa using congrArg (fun m : Match => { m with via := d.what.via }) rest
  rw [whole]
  exact reads e.what _ alternatives

theorem any_of_sketch {ds es : List Draft} (same : (ds.map Draft.sketch).Perm (es.map Draft.sketch))
    (test : Draft → Bool) (sketched : ∀ d e : Draft, d.sketch = e.sketch → test d = test e) :
    ds.any test = es.any test := by
  have carried {ds es : List Draft} (sub : ∀ s ∈ ds.map Draft.sketch, s ∈ es.map Draft.sketch)
      (some_ : ds.any test = true) : es.any test = true := by
    obtain ⟨d, hd, passes⟩ := List.any_eq_true.mp some_
    obtain ⟨e, he, alike⟩ := List.mem_map.mp (sub _ (List.mem_map_of_mem hd))
    exact List.any_eq_true.mpr ⟨e, he, (sketched _ _ alike).trans passes⟩
  rw [Bool.eq_iff_iff]
  exact ⟨carried fun _ => same.mem_iff.mp, carried fun _ => same.mem_iff.mpr⟩

theorem fires_of_rearranged (reads : ReadsAlternatives holds) (on : Int → Bool)
    (same : Rearranged r.interfaces r'.interfaces) :
    fires holds on (Ruleset.drafts r o) = fires holds on (Ruleset.drafts r' o) := by
  funext p
  have fired := any_of_sketch (Ruleset.sketch_drafts (o := o) same)
    (fun d => d.purpose = p && holds d.what) fun d e alike => by
      have purpose : d.purpose = e.purpose := congrArg Prod.fst alike
      rw [purpose, reads.eq_of_sketch alike]
  rw [fires, fires, fired]

theorem accepts_rules_of_rearranged (reads : ReadsAlternatives holds) (on : Int → Bool)
    (h : r.Indexed) (h' : r'.Indexed) (same : Rearranged r.interfaces r'.interfaces) :
    accepts holds on (Policy.rules r o) = accepts holds on (Policy.rules r' o) := by
  rw [accepts_rules_eq_acceptsBy h, accepts_rules_eq_acceptsBy h', fires_of_rearranged reads on same]

/-- The order of the declarations has no effect on the packets that a policy accepts. -/
theorem programAccepts_of_perm {tokens tokens' : List String}
    (declared : (Registry.ofTokens tokens).2 = .ok r) (perm : tokens.Perm tokens') (o : Options)
    (host debugging : Bool) :
    ∃ r' p p', (Registry.ofTokens tokens').2 = .ok r' ∧
      (Policy.compile r o host debugging).result = .ok p ∧
      (Policy.compile r' o host debugging).result = .ok p' ∧
      ∀ holds : Match → Bool, ReadsAlternatives holds →
        programAccepts holds p.program = programAccepts holds p'.program := by
  obtain ⟨r', declared', same⟩ := Registry.exists_declared_of_perm declared perm
  have indexed := Registry.indexed_of_declared declared
  have indexed' := Registry.indexed_of_declared declared'
  refine ⟨r', _, _, declared', Policy.compile_eq_ok indexed o host debugging,
    Policy.compile_eq_ok indexed' o host debugging, fun holds reads => ?_⟩
  have size : r.size = r'.size := same.length_eq
  simp only [programAccepts, Policy.assemble, size]
  exact accepts_rules_of_rearranged reads _ indexed indexed' same

/-- In the other order the uplink has other pipes, and every station lets in the same packets. -/
theorem programAccepts_of_perm_home :
    ∃ r' p p', (Registry.ofTokens ["en1\x7b504,120\x7d", "en0+mac::192.168.0.0/16"]).2 = .ok r' ∧
      (Policy.compile .home {} false false).result = .ok p ∧
      (Policy.compile r' {} false false).result = .ok p' ∧
      p.program.pipes ≠ p'.program.pipes ∧
      ∀ (s : Station) (packet : Packet),
        programAccepts (packet.meets s) p.program = programAccepts (packet.meets s) p'.program := by
  obtain ⟨r', p, p', declared', compiled, compiled', same⟩ :=
    programAccepts_of_perm Registry.declared_home (.swap _ _ []) {} false false
  refine ⟨r', p, p', declared', compiled, compiled', ?_,
    fun s packet => same _ (readsAlternatives_meets s packet)⟩
  obtain rfl := Except.ok.inj declared'
  rw [Policy.eq_of_compiled Registry.declared_home compiled,
    Policy.eq_of_compiled declared' compiled']
  simp only [Policy.assemble]
  decide +kernel

end Evaluation
end Firewall

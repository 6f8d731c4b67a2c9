import Firewall.Proofs.Origins
import Firewall.Proofs.Scopes

/-!
Policies for interfaces that are declared after others. What was compiled for the first ones stays:
the later ones add rules, pipes and queues of their own, and their names to the rules that are
bound to several interfaces.
-/

namespace Firewall

theorem exists_firstOccurrences_append {α : Type} [BEq α] [LawfulBEq α] (xs ys : List α) :
    ∃ more, (∀ y ∈ more, y ∈ ys) ∧ firstOccurrences (xs ++ ys) = firstOccurrences xs ++ more := by
  rw [firstOccurrences, List.foldl_append]
  change ∃ more, _ ∧ ys.foldl _ (firstOccurrences xs) = _
  generalize firstOccurrences xs = seen
  induction ys generalizing seen with
  | nil => exact ⟨[], by simp⟩
  | cons y rest ih =>
      rw [List.foldl_cons]
      split
      · obtain ⟨more, inside, eq⟩ := ih seen
        exact ⟨more, fun z hz => List.mem_cons_of_mem y (inside z hz), eq⟩
      · obtain ⟨more, inside, eq⟩ := ih (seen ++ [y])
        refine ⟨y :: more, ?_, by rw [eq, List.append_assoc, List.singleton_append]⟩
        exact List.forall_mem_cons.mpr
          ⟨List.mem_cons_self .., fun z hz => List.mem_cons_of_mem y (inside z hz)⟩

namespace Registry

variable {ts us : List String} {r r' : Registry}

/-- Whether tokens declare an interface of a name. -/
def Names (tokens : List String) (name : String) : Prop :=
  ∃ token ∈ tokens, ∃ i, Interface.parse token = .ok i ∧ i.name = name

/-- One registry goes on where another one ends, with interfaces of further tokens. -/
def Continues (us : List String) (r r' : Registry) : Prop :=
  ∃ added, r'.interfaces = r.interfaces ++ added ∧ ∀ i ∈ added, Names us i.name

theorem exists_parseAll_append {is : List Interface} (parsed : parseAll (ts ++ us) = .ok is) :
    ∃ js ks, parseAll ts = .ok js ∧ parseAll us = .ok ks ∧ is = js ++ ks := by
  simp only [parseAll_eq_ok_iff] at parsed ⊢
  induction ts generalizing is with
  | nil => exact ⟨[], is, .nil, parsed, rfl⟩
  | cons token rest ih =>
      cases parsed with
      | cons here later =>
          obtain ⟨js, ks, first, second, rfl⟩ := ih later
          exact ⟨_ :: js, ks, .cons here first, second, rfl⟩

/-- The first tokens of an accepted list are accepted, and make the first interfaces. -/
theorem exists_continues (declared : (ofTokens (ts ++ us)).2 = .ok r') :
    ∃ r, (ofTokens ts).2 = .ok r ∧ Continues us r r' := by
  obtain ⟨is, parsed, fits, rfl⟩ := declared_iff_parseAll.mp declared
  obtain ⟨js, ks, first, second, rfl⟩ := exists_parseAll_append parsed
  rw [List.length_append] at fits
  refine ⟨ofInterfaces js, declared_iff_parseAll.mpr ⟨js, first, by omega, rfl⟩, _,
    List.mapIdx_append, fun i hi => ?_⟩
  obtain ⟨k, within, rfl⟩ := List.mem_mapIdx.mp hi
  have related := parseAll_eq_ok_iff.mp second
  have within' : k < us.length := related.length_eq ▸ within
  exact ⟨us[k], List.getElem_mem _, ks[k], related.get within' within, rfl⟩

theorem Continues.mem (h : Continues us r r') {i : Interface} (hi : i ∈ r.interfaces) :
    i ∈ r'.interfaces := by
  obtain ⟨added, eq, -⟩ := h
  rw [eq]
  exact List.mem_append_left added hi

theorem Continues.mem_or_names (h : Continues us r r') {i : Interface} (hi : i ∈ r'.interfaces) :
    i ∈ r.interfaces ∨ Names us i.name := by
  obtain ⟨added, eq, named⟩ := h
  rw [eq] at hi
  exact (List.mem_append.mp hi).imp_right (named i)

theorem Continues.namesWhere (h : Continues us r r') (p : Interface → Bool) :
    ∃ more, (∀ name ∈ more, Names us name) ∧ r'.namesWhere p = r.namesWhere p ++ more := by
  obtain ⟨added, eq, named⟩ := h
  obtain ⟨more, inside, split⟩ := exists_firstOccurrences_append
    ((r.interfaces.filter p).map (·.name)) ((added.filter p).map (·.name))
  refine ⟨more, fun name hname => ?_, ?_⟩
  · obtain ⟨i, hi, rfl⟩ := List.mem_map.mp (inside name hname)
    exact named i (List.mem_filter.mp hi).1
  · rw [Registry.namesWhere, eq, List.filter_append, List.map_append, split, Registry.namesWhere]

theorem names_eq_namesWhere (r : Registry) : r.names = r.namesWhere fun _ => true := by
  rw [names, Registry.namesWhere, List.filter_true]

theorem Continues.names (h : Continues us r r') :
    ∃ more, (∀ name ∈ more, Names us name) ∧ r'.names = r.names ++ more := by
  simpa only [names_eq_namesWhere] using h.namesWhere fun _ => true

end Registry

/-! ### Drafts -/

namespace Ruleset

open Registry (Continues Names)

variable {us : List String} {r r' : Registry} {o : Options} {d : Draft}

/-- No rule of the policy without interfaces is about one. -/
theorem perInterface_shared (hd : d ∈ drafts {} o) : d.purpose.band.perInterface = false := by
  have none_ : d.index = none := by
    cases index : d.index with
    | none => rfl
    | some k =>
        obtain ⟨i, hi, -⟩ := (mem_drafts_iff (by simp [index])).mp hd
        cases hi
  have fits := (conforms_drafts Registry.indexed_empty o d hd).fits
  rwa [Draft.Fits, none_] at fits

theorem perInterface_forged {names : List String} (hd : d ∈ forged names) :
    d.purpose.band.perInterface = false := by
  obtain ⟨-, entry, listed, rfl⟩ := mem_forged_iff.mp hd
  exact (by decide : ∀ entry ∈ forgedSources,
    entry.1.band.perInterface = false) entry listed

/-- Every draft is kept; the names that it is bound to may be followed by those of the further
tokens, unless it is about one interface. -/
theorem exists_bind_of_continues (h : Continues us r r') (hd : d ∈ drafts r o) :
    ∃ more, (∀ name ∈ more, Names us name) ∧ d.bind (d.what.via ++ more) ∈ drafts r' o ∧
      (d.purpose.band.perInterface = true → more = []) := by
  rcases mem_drafts_iff_scope.mp hd with shared | against | ⟨i, hi, own⟩
  · obtain ⟨e, he, rfl⟩ := List.mem_map.mp shared
    have common := perInterface_shared he
    have kept : e.bindKnown r'.names ∈ drafts r' o :=
      mem_drafts_iff_scope.mpr (.inl (List.mem_map_of_mem he))
    unfold Draft.bindKnown at kept ⊢
    split
    · rename_i known
      obtain ⟨more, named, names⟩ := h.names
      rw [if_pos known, names] at kept
      exact ⟨more, named, kept, fun each => by simp [Draft.bind, common] at each⟩
    · rename_i other
      rw [if_neg other] at kept
      exact ⟨[], by simp, by rwa [List.append_nil], fun _ => rfl⟩
  · have common := perInterface_forged against
    obtain ⟨some_, entry, listed, rfl⟩ := mem_forged_iff.mp against
    obtain ⟨more, named, names⟩ := h.namesWhere fun i => !i.bounded
    have some_' : publicNames r' ≠ [] := by
      rw [publicNames, names]
      exact List.append_ne_nil_of_left_ne_nil some_ more
    refine ⟨more, named, mem_drafts_iff_scope.mpr (.inr (.inl ?_)), fun each => ?_⟩
    · exact mem_forged_iff.mpr ⟨some_', entry, listed, by rw [publicNames, names]; rfl⟩
    · rw [common] at each
      cases each
  · refine ⟨[], by simp, mem_drafts_iff_scope.mpr (.inr (.inr ⟨i, h.mem hi, ?_⟩)), fun _ => rfl⟩
    rw [List.append_nil]
    exact own

/-- A draft with a place of its own is bound to names of further tokens, and to no others. -/
theorem names_of_continues (h : Continues us r r') (hd : d ∈ drafts r' o)
    (apart : ∀ e ∈ drafts r o, e.numbered.number ≠ d.numbered.number) :
    d.what.via ≠ [] ∧ ∀ name ∈ d.what.via, Names us name := by
  rcases mem_drafts_iff_scope.mp hd with shared | against | ⟨i, hi, own⟩
  · obtain ⟨e, he, rfl⟩ := List.mem_map.mp shared
    refine absurd ?_ (apart _ (mem_drafts_iff_scope.mpr (.inl (List.mem_map_of_mem he))))
    rw [Draft.numbered_bindKnown, Draft.numbered_bindKnown]
  · obtain ⟨some_, entry, listed, rfl⟩ := mem_forged_iff.mp against
    obtain ⟨more, named, names⟩ := h.namesWhere fun i => !i.bounded
    have first : publicNames r = [] := by
      refine Decidable.byContradiction fun public_ => ?_
      have before : forgedRule (publicNames r) entry ∈ drafts r o :=
        mem_drafts_iff_scope.mpr (.inr (.inl (mem_forged_iff.mpr ⟨public_, entry, listed, rfl⟩)))
      exact apart _ before rfl
    refine ⟨some_, fun name hname => named name ?_⟩
    change name ∈ publicNames r' at hname
    rw [publicNames, names] at hname
    rw [publicNames] at first
    rwa [first] at hname
  · have via := via_portion d own
    rcases h.mem_or_names hi with before | named
    · exact absurd rfl (apart d (mem_drafts_iff_scope.mpr (.inr (.inr ⟨i, before, own⟩))))
    · rw [via]
      exact ⟨List.cons_ne_nil _ _, by simpa using named⟩

end Ruleset

/-! ### Policies -/

namespace Policy

open Registry (Continues Names)

variable {ts us : List String} {r r' : Registry} {o : Options} {rule : Rule}

theorem plan_of_continues (h : Continues us r r') : Shaping.plan r <+: Shaping.plan r' := by
  obtain ⟨added, eq, -⟩ := h
  rw [Shaping.plan, Shaping.plan, eq, List.filterMap_append]
  exact List.prefix_append _ _

theorem exists_bind_of_continues (h : Continues us r r') (hrule : rule ∈ rules r o) :
    ∃ more, (∀ name ∈ more, Names us name) ∧ rule.bind (rule.what.via ++ more) ∈ rules r' o ∧
      ∀ purpose, rule.tag = .known purpose → purpose.band.perInterface = true → more = [] := by
  obtain ⟨d, hd, rfl⟩ := mem_rules.mp hrule
  obtain ⟨more, named, kept, alone⟩ := Ruleset.exists_bind_of_continues h hd
  refine ⟨more, named, mem_rules.mpr ⟨_, kept, ?_⟩, fun purpose tag each => alone ?_⟩
  · rw [Draft.settled_bind, Draft.settled_what]
  · rw [Draft.settled_tag, Tag.known.injEq] at tag
    rwa [tag]

theorem names_of_continues (h : Continues us r r') (hrule : rule ∈ rules r' o)
    (apart : ∀ old ∈ rules r o, old.number ≠ rule.number) :
    rule.what.via ≠ [] ∧ ∀ name ∈ rule.what.via, Names us name := by
  obtain ⟨d, hd, rfl⟩ := mem_rules.mp hrule
  rw [Draft.settled_what]
  refine Ruleset.names_of_continues h hd fun e he => ?_
  simpa using apart _ (mem_rules.mpr ⟨e, he, rfl⟩)

/-- Interfaces that are declared after others do not disturb what was compiled for those. Pipes and
queues stay, rules for one interface stay, and the other rules stay but for further names; a rule
with a new number is bound to further names alone. -/
theorem compile_append (declared : (Registry.ofTokens (ts ++ us)).2 = .ok r') (o : Options)
    (host debugging : Bool) :
    ∃ r p p', (Registry.ofTokens ts).2 = .ok r ∧ (compile r o host debugging).result = .ok p ∧
      (compile r' o host debugging).result = .ok p' ∧
      p.shaping <+: p'.shaping ∧ p.program.pipes <+: p'.program.pipes ∧
      p.program.queues <+: p'.program.queues ∧
      (∀ rule ∈ p.program.rules,
        (∀ purpose, rule.tag = .known purpose → purpose.band.perInterface = true →
          rule ∈ p'.program.rules) ∧
        ∃ more, (∀ name ∈ more, Names us name) ∧
          rule.bind (rule.what.via ++ more) ∈ p'.program.rules) ∧
      ∀ rule ∈ p'.program.rules, (∀ old ∈ p.program.rules, old.number ≠ rule.number) →
        rule.what.via ≠ [] ∧ ∀ name ∈ rule.what.via, Names us name := by
  obtain ⟨r, first, continues⟩ := Registry.exists_continues declared
  have plan := plan_of_continues continues
  refine ⟨r, _, _, first, compile_eq_ok (Registry.indexed_of_declared first) o host debugging,
    compile_eq_ok (Registry.indexed_of_declared declared) o host debugging, plan,
    (List.prefix_append_right_inj _).mpr (plan.flatMap _), plan.flatMap _, fun rule hrule => ?_,
    fun rule hrule apart => names_of_continues continues hrule apart⟩
  obtain ⟨more, named, kept, alone⟩ := exists_bind_of_continues continues hrule
  refine ⟨fun purpose tag each => ?_, more, named, kept⟩
  rw [alone purpose tag each, List.append_nil] at kept
  exact kept

/-- A shaped uplink that is declared after a trusted network: further rules are bound to it. -/
theorem compile_append_home :
    ∃ r p p', (Registry.ofTokens ["en0+mac::192.168.0.0/16"]).2 = .ok r ∧
      (compile r {} false false).result = .ok p ∧
      (compile .home {} false false).result = .ok p' ∧ p.program.pipes <+: p'.program.pipes ∧
      ∀ rule ∈ p'.program.rules, (∀ old ∈ p.program.rules, old.number ≠ rule.number) →
        rule.what.via ≠ [] ∧ ∀ name ∈ rule.what.via, name = "en1" := by
  obtain ⟨r, p, p', first, compiled, compiled', -, pipes, -, -, apart⟩ := compile_append
    (show (Registry.ofTokens (["en0+mac::192.168.0.0/16"] ++ ["en1\x7b504,120\x7d"])).2 = .ok .home
      from Registry.declared_home) {} false false
  refine ⟨r, p, p', first, compiled, compiled', pipes, fun rule hrule new => ?_⟩
  obtain ⟨some_, named⟩ := apart rule hrule new
  refine ⟨some_, fun name hname => ?_⟩
  obtain ⟨token, htoken, i, parsed, rfl⟩ := named name hname
  obtain rfl := List.mem_singleton.mp htoken
  have uplink : Interface.parse "en1\x7b504,120\x7d" =
      .ok { name := "en1", rates := some { inbound := "504", outbound := "120" } } := rfl
  rw [uplink] at parsed
  cases parsed
  rfl

end Policy
end Firewall

import Firewall.Ipfw.Words
import Firewall.Proofs.Registration
import Firewall.Proofs.Selection
import Firewall.Proofs.Settlement

/-!
Policies in stealth. They differ from those that answer in the responses of the rules that reject,
and in nothing that a packet is decided by; no command that installs them makes the host answer.
-/

namespace Firewall

theorem Rule.silenced_response {rule : Rule} (rejects : rule.silenced.action = .reject) :
    rule.silenced.response = some .drop := by
  rw [silenced_action] at rejects
  rw [silenced, if_pos rejects]

namespace Ipfw

/-- The word for the action of a rule: it follows `add`, the number, `set` and the set. -/
def actionWord (r : Rule) : Option String := (ruleWords r)[4]?

theorem actionWord_eq (r : Rule) : actionWord r = (actionWords r).head? := by
  unfold actionWord ruleWords actionWords
  cases r.action with
  | reject => cases r.response.getD .drop <;> rfl
  | _ => rfl

/-- A rule that rejects without an answer is installed as one that denies. -/
theorem actionWord_of_silent {r : Rule} (silent : r.action = .reject → r.response = some .drop) :
    ∃ word, actionWord r = some word ∧ word ≠ "reset" ∧ word ≠ "unreach" := by
  rw [actionWord_eq, actionWords]
  cases action : r.action with
  | reject => exact ⟨"deny", by rw [silent action]; rfl, by decide, by decide⟩
  | _ => exact ⟨_, rfl, by decide, by decide⟩

end Ipfw

namespace Policy

variable {r : Registry}

theorem rules_stealth (r : Registry) (o : Options) :
    rules r { o with stealth := true } =
      (rules r { o with stealth := false }).map Rule.silenced := by
  -- No list of drafts looks at the option.
  have drafted : Ruleset.drafts r { o with stealth := true } =
      (Ruleset.drafts r { o with stealth := false }).map id := (List.map_id _).symm
  exact rules_eq_map Rule.silenced_number drafted fun _ => rfl

/-- Stealth silences the rules that reject and changes nothing else. -/
theorem compile_stealth {tokens : List String} (declared : (Registry.ofTokens tokens).2 = .ok r)
    (o : Options) (host debugging : Bool) :
    ∃ p q, (compile r { o with stealth := false } host debugging).result = .ok p ∧
      (compile r { o with stealth := true } host debugging).result = .ok q ∧
      q = { p with program := { p.program with rules := p.program.rules.map Rule.silenced } } ∧
      (∀ rule ∈ q.program.rules, rule.action = .reject → rule.response = some .drop) ∧
      (∀ rule ∈ q.program.rules, ∃ word, Ipfw.actionWord rule = some word ∧
        word ≠ "reset" ∧ word ≠ "unreach") ∧
      ∀ holds, Evaluation.programAccepts holds q.program =
        Evaluation.programAccepts holds p.program := by
  have indexed := Registry.indexed_of_declared declared
  have silent : ∀ rule ∈ rules r { o with stealth := true }, rule.action = .reject →
      rule.response = some .drop := by
    rw [rules_stealth, List.forall_mem_map]
    exact fun rule _ => Rule.silenced_response
  refine ⟨_, _, compile_eq_ok indexed _ host debugging, compile_eq_ok indexed _ host debugging,
    ?_, silent, fun rule hrule => Ipfw.actionWord_of_silent (silent rule hrule), fun holds => ?_⟩
  · rw [rules_stealth]
    rfl
  · rw [rules_stealth]
    exact Evaluation.accepts_map Rule.silenced_number Rule.silenced_what Rule.effect_silenced
      Rule.silenced_set _ _

/-- The rule against packets of no known connection answers, and does not in stealth. -/
theorem compile_stealth_lone :
    ∃ p q, (compile .lone {} false false).result = .ok p ∧
      (compile .lone { stealth := true } false false).result = .ok q ∧
      (∃ rule ∈ p.program.rules, rule.number = 2110 ∧ Ipfw.actionWord rule = some "reset" ∧
        rule.silenced ∈ q.program.rules ∧ Ipfw.actionWord rule.silenced = some "deny") ∧
      ∀ holds, Evaluation.programAccepts holds q.program =
        Evaluation.programAccepts holds p.program := by
  obtain ⟨p, q, compiled, compiled', silenced, -, -, alike⟩ :=
    compile_stealth Registry.declared_lone {} false false
  have answering : ∃ rule ∈ p.program.rules, rule.number = 2110 ∧
      Ipfw.actionWord rule = some "reset" ∧ Ipfw.actionWord rule.silenced = some "deny" := by
    rw [eq_of_compiled Registry.declared_lone compiled]
    obtain ⟨d, hd, number, words⟩ := (by decide +kernel : ∃ d ∈ Ruleset.drafts .lone {},
      d.numbered.number = 2110 ∧ Ipfw.actionWord d.numbered = some "reset" ∧
        Ipfw.actionWord d.numbered.silenced = some "deny")
    exact ⟨_, mem_rules.mpr ⟨d, hd, rfl⟩, number, words⟩
  obtain ⟨rule, hrule, number, reset, deny⟩ := answering
  refine ⟨p, q, compiled, compiled', ⟨rule, hrule, number, reset, ?_, deny⟩, alike⟩
  rw [silenced]
  exact List.mem_map_of_mem hrule

end Policy
end Firewall

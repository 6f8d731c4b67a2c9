import Firewall.Proofs.Settlement
import Firewall.Proofs.Watching
import Std.Data.String.ToInt

/-!
A filter that does as it is told. It reads the commands that install a program and refuses those
that it is to refuse, whichever they are; so there are runners for all patterns of refusals.
-/

namespace Firewall.Ipfw

def readStep (p : Program) : List String → Step
  | ["-f", "flush"] => .clear
  | ["set", word, set] => .switch (set.toInt?.getD 0) (word = "enable")
  | "add" :: number :: _ =>
    ((p.rules.find? fun r => toString r.number = number).map Step.add).getD .keep
  | _ => .keep

/-- A filter that installs a program and answers some commands with a status other than zero. -/
def simulate (p : Program) (refuses : List String → Filter → Bool) : Runner Filter :=
  fun command f =>
    if refuses command f then (.ok { status := 1 }, f)
    else (.ok {}, f.after (readStep p (command.drop 2)))

theorem find?_number {rules : List Rule}
    (distinct : rules.Pairwise fun a b => a.number ≠ b.number) {r : Rule} (hr : r ∈ rules) :
    rules.find? (fun s => toString s.number = toString r.number) = some r := by
  induction rules with
  | nil => cases hr
  | cons first rest ih =>
      rw [List.pairwise_cons] at distinct
      rcases List.mem_cons.mp hr with rfl | later
      · simp
      · have other : toString first.number ≠ toString r.number :=
          fun same => distinct.1 r later (Int.repr_injective same)
        rw [List.find?_cons_of_neg (by simpa using other)]
        exact ih distinct.2 later

theorem readStep_of_mem {p : Policy}
    (distinct : p.program.rules.Pairwise fun a b => a.number ≠ b.number)
    {entry : List String × Step} (h : entry ∈ installSteps p) :
    readStep p.program entry.1 = entry.2 := by
  obtain ⟨c, hc, h⟩ := List.mem_flatMap.mp h
  cases c with
  | flush =>
      simp only [stepsOf, flushCommands, List.zip_cons_cons, List.zip_nil_right, List.mem_cons,
        List.not_mem_nil, or_false] at h
      rcases h with rfl | rfl <;> rfl
  | configurePipe pipe =>
      rw [List.mem_singleton.mp h]
      rfl
  | configureQueue queue =>
      rw [List.mem_singleton.mp h]
      rfl
  | setEnabled set enabled =>
      rw [List.mem_singleton.mp h]
      cases enabled <;> simp [setWords, readStep]
  | install program =>
      obtain rfl : program = p.program := by simpa [Installation.calls] using hc
      obtain ⟨r, hr, rfl⟩ := List.mem_map.mp h
      have mem : r ∈ p.program.rules := p.program.installOrder_perm.mem_iff.mp hr
      simp only [ruleWords, List.cons_append, readStep, find?_number distinct mem]
      rfl

theorem obeys_simulate {p : Policy}
    (distinct : p.program.rules.Pairwise fun a b => a.number ≠ b.number)
    (refuses : List String → Filter → Bool) (a : Access) :
    Obeys (simulate p.program refuses) a id (installSteps p) := by
  intro entry h f
  have step := readStep_of_mem distinct h
  cases refused : refuses (commandOf a entry.1) f with
  | true => simp [simulate, refused, succeeded]
  | false =>
      simp only [simulate, refused, succeeded]
      simp [commandOf, step]

end Firewall.Ipfw

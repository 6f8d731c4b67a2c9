import Mathlib.Data.List.Flatten
import Firewall.Proofs.Scripting

/-!
The ways in which the commands of a policy are issued. An engine runs them, a dry run prints them,
and a script holds them, the same ones in the same order, as long as all that is written into the
script stands on one line. A text that is broken into lines may add commands of its own.
-/

namespace Firewall

open Text

/-! ### Broken texts -/

namespace Text

theorem lines_of_break {c : Char} (breaks : isLineBreak c = true) (rest : List Char)
    (apart : c = '\x0d' → rest.head? ≠ some '\n') : lines (c :: rest) = [] :: lines rest := by
  have other : ∀ more, c = '\x0d' → rest = '\n' :: more → False := by
    rintro more cr rfl
    exact apart cr rfl
  exact (lines.eq_3 _ _ other).trans (if_pos breaks)

theorem lines_ne_nil {cs : List Char} (some_ : cs ≠ []) : lines cs ≠ [] := by
  unfold lines
  split
  · contradiction
  · exact List.cons_ne_nil _ _
  · split
    · exact List.cons_ne_nil _ _
    · split <;> exact List.cons_ne_nil _ _

/-- Characters without a boundary among them lengthen the first line that follows. -/
theorem lines_append_cons {cs rest first : List Char} {more : List (List Char)}
    (h : ∀ c ∈ cs, isLineBreak c = false) (later : lines rest = first :: more) :
    lines (cs ++ rest) = (cs ++ first) :: more := by
  induction cs with
  | nil => exact later
  | cons c cs ih =>
      rw [List.forall_mem_cons] at h
      rw [List.cons_append, lines_cons h.1, ih h.2]
      rfl

/-- A line feed is a cut: what stands before it is split into lines by itself. -/
theorem lines_cut (cs rest : List Char) :
    lines (cs ++ '\n' :: rest) = lines (cs ++ ['\n']) ++ lines rest := by
  fun_induction lines cs with
  | case1 =>
      rw [List.nil_append, List.nil_append, lines_break, lines_break]
      rfl
  | case2 more ih => simp only [List.cons_append, lines, ih]
  | case3 c more apart breaks ih =>
      cases more with
      | nil =>
          by_cases cr : c = '\x0d'
          · subst cr
            rfl
          · have here (cs : List Char) : lines (c :: cs) = [] :: lines cs :=
              lines_of_break breaks cs (absurd · cr)
            rw [List.singleton_append, List.singleton_append, here, here, lines_break, lines_break]
            rfl
      | cons d more =>
          have here (cs : List Char) :
              lines (c :: d :: (more ++ cs)) = [] :: lines (d :: (more ++ cs)) := by
            refine lines_of_break breaks _ fun cr feed => apart more cr ?_
            rw [Option.some.inj feed]
          simp only [List.cons_append] at ih ⊢
          rw [here, here, ih, List.cons_append]
  | case4 c more apart inside _ ih | case5 c more apart inside _ _ _ ih =>
      have some_ : more ++ ['\n'] ≠ [] := List.append_ne_nil_of_right_ne_nil _ (by simp)
      obtain ⟨first, later, split⟩ := List.exists_cons_of_ne_nil (lines_ne_nil some_)
      have lengthens {rest first : List Char} {later : List (List Char)}
          (split : lines rest = first :: later) : lines (c :: rest) = (c :: first) :: later :=
        lines_append_cons (List.forall_mem_singleton.mpr (Bool.eq_false_iff.mpr inside)) split
      rw [split] at ih
      rw [List.cons_append, lengthens ih, List.cons_append, lengthens split]
      rfl

variable {lead : String} {ls ls' : List String}

theorem linesAfter_unlines_eq_flatMap (lead : String) (ls : List String) :
    linesAfter lead (unlines ls) = ls.flatMap fun l => linesAfter lead (unlines [l]) := by
  induction ls with
  | nil => rfl
  | cons l rest ih =>
      rw [List.flatMap_cons, ← ih]
      simp only [linesAfter, toList_unlines_cons]
      rw [lines_cut, List.filterMap_append]
      rfl

theorem linesAfter_unlines_append (lead : String) (ls ls' : List String) :
    linesAfter lead (unlines (ls ++ ls')) =
      linesAfter lead (unlines ls) ++ linesAfter lead (unlines ls') := by
  simp only [linesAfter_unlines_eq_flatMap lead (_ ++ _), List.flatMap_append,
    ← linesAfter_unlines_eq_flatMap]

theorem sublist_linesAfter (lead : String) (sub : ls.Sublist ls') :
    (linesAfter lead (unlines ls)).Sublist (linesAfter lead (unlines ls')) := by
  rw [linesAfter_unlines_eq_flatMap, linesAfter_unlines_eq_flatMap lead ls']
  exact sub.flatMap _

/-- A line that begins with a lead keeps it, however its rest is broken. -/
theorem linesAfter_lead_ne_nil (plain : Unbroken lead) (s : String) :
    linesAfter lead (unlines [lead ++ s]) ≠ [] := by
  have some_ : s.toList ++ ['\n'] ≠ [] := List.append_ne_nil_of_right_ne_nil _ (by simp)
  obtain ⟨first, later, split⟩ := List.exists_cons_of_ne_nil (lines_ne_nil some_)
  have whole : (unlines [lead ++ s]).toList = lead.toList ++ (s.toList ++ ['\n']) := by
    rw [toList_unlines_cons, String.toList_append, List.append_assoc]
    rfl
  rw [linesAfter, whole, lines_append_cons plain split]
  simp

theorem length_le_linesAfter (plain : Unbroken lead) (ss : List String) :
    ss.length ≤ (linesAfter lead (unlines (ss.map (lead ++ ·)))).length := by
  rw [linesAfter_unlines_eq_flatMap]
  induction ss with
  | nil => exact Nat.zero_le _
  | cons s rest ih =>
      have here := List.length_pos_iff.mpr (linesAfter_lead_ne_nil plain s)
      rw [List.map_cons, List.flatMap_cons, List.length_append, List.length_cons]
      omega

/-- If one of the lines with a lead is broken so that it begins another, more begin with it than
were written. -/
theorem length_lt_linesAfter (plain : Unbroken lead) {ss : List String} {s : String} (hs : s ∈ ss)
    (twice : 1 < (linesAfter lead (unlines [lead ++ s])).length) :
    ss.length < (linesAfter lead (unlines (ss.map (lead ++ ·)))).length := by
  obtain ⟨front, back, rfl⟩ := List.append_of_mem hs
  have before := length_le_linesAfter plain front
  have behind := length_le_linesAfter plain back
  have split : (front ++ s :: back).map (lead ++ ·) =
      front.map (lead ++ ·) ++ ([lead ++ s] ++ back.map (lead ++ ·)) := List.map_append
  rw [split, linesAfter_unlines_append, linesAfter_unlines_append, List.length_append,
    List.length_append, List.length_append, List.length_cons]
  omega

end Text

/-! ### Scripts with broken texts -/

namespace Script

variable {s : Script}

theorem sublist_section (title ls : List String) : ls.Sublist (section? title ls) := by
  unfold section?
  split
  · rename_i empty
    rw [List.isEmpty_iff.mp empty]
  · exact List.sublist_append_right _ _

theorem sublist_bodyLines (s : Script) : (s.commands.map filterLine).Sublist s.bodyLines := by
  simp only [commands, List.map_append]
  -- The body is taken apart from its end.
  refine List.sublist_append_of_sublist_left (List.sublist_append_of_sublist_left ?_)
  refine List.Sublist.append ?_ (sublist_section _ _)
  refine List.Sublist.append (List.sublist_append_of_sublist_left ?_) (List.Sublist.refl _)
  refine List.Sublist.append (List.sublist_append_of_sublist_left ?_) (List.Sublist.refl _)
  refine List.Sublist.append ?_ (sublist_section _ _)
  refine List.Sublist.append (List.sublist_append_of_sublist_left ?_) (List.Sublist.refl _)
  refine List.sublist_append_of_sublist_left (List.sublist_append_of_sublist_left ?_)
  exact List.sublist_append_right _ _

theorem stamp_args_ofPolicy {stamp : Stamp} {p : Policy} {args : List String}
    (made : ofPolicy stamp p args = .ok s) :
    s.stamp = stamp ∧ s.args = ShellWord.join args := by
  obtain ⟨services, -, made⟩ := Interface.bind_eq_ok_iff.mp made
  cases made
  exact ⟨rfl, rfl⟩

/-- A script holds more commands than it was made of if a line of its head is broken so that it
begins one. -/
theorem length_commands_lt_of_line {l : String} (hl : l ∈ s.headLines)
    (breaks : linesAfter lead (unlines [l]) ≠ []) :
    s.commands.length < (linesAfter lead s.render).length := by
  have head := (sublist_linesAfter lead (List.singleton_sublist.mpr hl)).length_le
  have body := (sublist_linesAfter lead s.sublist_bodyLines).length_le
  have all := length_le_linesAfter (by decide : Unbroken lead) s.commands
  have some_ := List.length_pos_iff.mpr breaks
  rw [render, linesAfter_unlines_append, List.length_append]
  exact Nat.lt_of_lt_of_le (Nat.lt_add_of_pos_left some_) (Nat.add_le_add head (all.trans body))

/-- The same if one of its commands is broken into two. -/
theorem length_commands_lt_of_command {c : String} (hc : c ∈ s.commands)
    (breaks : 1 < (linesAfter lead (unlines [filterLine c])).length) :
    s.commands.length < (linesAfter lead s.render).length := by
  have whole : (s.commands.map filterLine).Sublist (s.headLines ++ s.bodyLines) :=
    s.sublist_bodyLines.trans (List.sublist_append_right _ _)
  have more := length_lt_linesAfter (by decide : Unbroken lead) hc breaks
  exact Nat.lt_of_lt_of_le more (sublist_linesAfter lead whole).length_le

end Script

/-! ### Deployments -/

namespace Deployment

variable {τ : Type} {tokens args : List String} {r : Registry} {u : Setup τ}

theorem exists_renderScript {o : Options} {stamp : Stamp}
    (plain : ∀ token ∈ tokens, Unbroken token) (declared : (Registry.ofTokens tokens).2 = .ok r)
    (unbroken : o.Unbroken) (time : Unbroken stamp.time) (user : Unbroken stamp.user)
    (said : ∀ w ∈ args, Unbroken w) (host debugging : Bool) :
    ∃ p, (Policy.compile r o host debugging).result = .ok p ∧
      (∀ words ∈ Installation.commands p, ∀ w ∈ words, Unbroken w) ∧
      ∃ text, renderScript stamp none p args = .ok text ∧
        linesAfter Script.lead text = (Installation.commands p).map ShellWord.join := by
  have spelled := Registry.unbroken_of_declared plain declared
  have worded := Policy.unbroken_commands spelled unbroken (if host then Host.sysctls o else [])
  refine ⟨_, Policy.compile_eq_ok (Registry.indexed_of_declared declared) o host debugging,
    worded, ?_⟩
  obtain ⟨s, made⟩ : ∃ s, Script.ofPolicy stamp
      (Policy.assemble r (if host then Host.sysctls o else []) (Policy.rules r o)) args = .ok s :=
    ⟨_, rfl⟩
  have legible : s.Legible := by
    refine Script.legible_ofPolicy made time user said
      (Policy.unbroken_warnings fun i hi => (spelled i hi).name) worded ?_
    change ∀ s ∈ if host then Host.sysctls o else [], _
    cases host
    · exact List.forall_mem_nil _
    · exact Policy.aside_sysctls o
  refine ⟨s.render, by rw [renderScript, made], ?_⟩
  rw [Script.render, legible.holds.linesAfter_eq, Script.commands_ofPolicy made]

/-- The script of a policy does not hold the commands that its installation runs. -/
def Strays (u : Setup Unit) (tokens args : List String) : Prop :=
  ∃ p text, (compile u tokens { terminal := { world := () } }).1 = .ok p ∧
    renderScript u.stamp none p args = .ok text ∧
    let outcome := install u p { terminal := { world := () } }
    outcome.1 = .ok () ∧
      linesAfter "\"$IPFW\" -q " text ≠
        outcome.2.terminal.commands.map fun command => ShellWord.join (command.drop 2)

/-- A host that carries out every command, with the given options and the given user. -/
def obliging (options : Options) (user : String) : Setup Unit :=
  { gateway with options, stamp := { gateway.stamp with user } }

theorem strays_of_length_lt {o : Options} {user : String}
    (declared : (Registry.ofTokens tokens).2 = .ok r)
    (more : ∀ s, Script.ofPolicy (obliging o user).stamp
        (Policy.assemble r (Host.sysctls o) (Policy.rules r o)) args = .ok s →
      s.commands.length < (linesAfter Script.lead s.render).length) :
    Strays (obliging o user) tokens args := by
  let p := Policy.assemble r (Host.sysctls o) (Policy.rules r o)
  obtain ⟨s, made⟩ : ∃ s, Script.ofPolicy (obliging o user).stamp p args = .ok s := ⟨_, rfl⟩
  have result := Policy.compile_eq_ok (Registry.indexed_of_declared declared) o true false
  have compiled := compile_of_result (u := obliging o user) declared result
    { terminal := { world := () } }
  obtain ⟨t, finished, handed⟩ := Ipfw.commands_of_willing (a := {}) rfl
    (fun _ _ => rfl : ∀ command world,
      Ipfw.succeeded ((obliging o user).runner command world).1 = true)
    (Installation.commands p) { world := () }
  have own : (obliging o user).engine = Ipfw.engine (obliging o user).runner {} := rfl
  have installs : install (obliging o user) p { terminal := { world := () } } =
      (.ok (), { terminal := t }) := by
    rw [install, own, Ipfw.install_of_modifyAll finished]
    rfl
  refine ⟨p, s.render, compiled, by rw [renderScript, made], ?_⟩
  rw [installs]
  refine ⟨rfl, fun same => ?_⟩
  have fewer := more s made
  rw [Script.commands_ofPolicy made, List.length_map] at fewer
  have even := congrArg List.length same
  rw [List.length_map, handed, List.length_append, List.length_map] at even
  exact absurd even (Nat.ne_of_gt (by simpa [Script.lead] using fewer))

end Deployment
end Firewall

import Firewall.CommandLine.Compiler
import Firewall.Proofs.Unbroken

/-!
What is read from texts. An interface stands on one line if its token does; a router and the
ports of a list stand on one line whatever the texts are.
-/

namespace Firewall

open Text
open Interface (bind_eq_ok_iff)

/-! ### Interfaces -/

theorem Rate.parse_subset {text value : String} (parsed : parse text = .ok value) :
    value.toList ⊆ text.toList := by
  unfold parse at parsed
  simp only at parsed
  split at parsed
  · cases parsed
    rw [strip, String.toList_ofList]
    exact trimBy_subset _ _
  · cases parsed

/-- The name and the rates of an interface stand on one line each. -/
structure Interface.Unbroken (i : Interface) : Prop where
  name : Text.Unbroken i.name
  rates : ∀ said ∈ i.rates, Text.Unbroken said.inbound ∧ Text.Unbroken said.outbound

theorem Interface.unbroken_of_parse {token : String} {i : Interface} (plain : Text.Unbroken token)
    (parsed : parse token = .ok i) : i.Unbroken := by
  obtain ⟨named, rated⟩ := parse_subset parsed
  refine ⟨plain.of_subset named, fun said hsaid => ?_⟩
  obtain ⟨inText, outText, inside, outside, inRead, outRead⟩ := rated said hsaid
  have spelled {text value : String} (sub : text.toList ⊆ token.toList)
      (read : Rate.parse text = .ok value) : Text.Unbroken value :=
    plain.of_subset (List.Subset.trans (Rate.parse_subset read) sub)
  exact ⟨spelled (by simpa using inside) inRead, spelled (by simpa using outside) outRead⟩

theorem Registry.unbroken_of_declared {tokens : List String} {r : Registry}
    (plain : ∀ token ∈ tokens, Unbroken token) (declared : (ofTokens tokens).2 = .ok r) :
    ∀ i ∈ r.interfaces, i.Unbroken := by
  intro i hi
  obtain ⟨token, htoken, said, parsed, eq⟩ := exists_token declared hi
  have spelled := Interface.unbroken_of_parse (plain token htoken) parsed
  rw [eq]
  exact ⟨spelled.name, spelled.rates⟩

/-! ### Options -/

/-- The names and the ports in the options stand on one line each. -/
structure Options.Unbroken (o : Options) : Prop where
  router : ∀ router ∈ o.router, Text.Unbroken router.external ∧ Text.Unbroken router.client
  ports : ∀ l, ∀ port ∈ o.ports.get l, Text.Unbroken port

/-- Every port was read from the text of a list. -/
def OpenPorts.Read (p : OpenPorts) : Prop :=
  ∀ l, ∀ port ∈ p.get l, ∃ text ports, Ports.parse text = .ok ports ∧ port ∈ ports

/-- The router and the ports were read from texts. -/
structure Options.Read (o : Options) : Prop where
  router : ∀ router ∈ o.router, ∃ text, Router.parse text = .ok router
  ports : o.ports.Read

theorem Router.unbroken_of_parse {text : String} {router : Router}
    (parsed : parse text = .ok router) : Unbroken router.external ∧ Unbroken router.client := by
  have named (cs : List Char) : Unbroken (String.ofList (cs.takeWhile isNameChar)) := by
    intro c hc
    rw [String.toList_ofList] at hc
    have char := List.all_eq_true.mp List.all_takeWhile c hc
    simp only [isNameChar, Bool.and_eq_true, Bool.not_eq_true'] at char
    exact isLineBreak_of_isBlank char.2
  unfold parse split? at parsed
  simp only at parsed
  split at parsed
  · cases parsed
  · rename_i external client network parts
    obtain ⟨said, -, parsed⟩ := bind_eq_ok_iff.mp parsed
    split at parts
    · split at parts
      · split at parts
        · cases parts
        · cases parts
          cases said with
          | any => cases parsed
          | block _ =>
              cases parsed
              exact ⟨named _, named _⟩
      · cases parts
    · cases parts

theorem Ports.unbroken_of_split? {item first : List Char} {last : Option (List Char)}
    (parts : split? item = some (first, last)) : Unbroken (String.ofList item) := by
  have digits {cs : List Char} (h : cs.all isDigit = true) : ∀ c ∈ cs, isLineBreak c = false :=
    fun c hc => isLineBreak_of_isDigit (List.all_eq_true.mp h c hc)
  rw [← List.takeWhile_append_dropWhile (p := isDigit) (l := item), Unbroken,
    String.toList_ofList, List.forall_mem_append]
  refine ⟨digits List.all_takeWhile, ?_⟩
  unfold split? at parts
  simp only at parts
  split at parts
  · cases parts
  · split at parts
    · rename_i single
      rw [single]
      exact List.forall_mem_nil _
    · rename_i rest range
      split at parts
      · rename_i bounded
        rw [Bool.and_eq_true] at bounded
        rw [range, List.forall_mem_cons]
        exact ⟨rfl, digits bounded.2⟩
      · cases parts
    · cases parts

theorem Ports.unbroken_of_check {text port : String} {item : List Char}
    (checked : check text item = .ok port) : Unbroken port := by
  unfold check at checked
  simp only at checked
  split at checked
  · cases checked
  · rename_i first parts
    obtain ⟨_, -, checked⟩ := bind_eq_ok_iff.mp checked
    cases checked
    exact unbroken_of_split? parts
  · rename_i first last parts
    obtain ⟨_, -, checked⟩ := bind_eq_ok_iff.mp checked
    obtain ⟨_, -, checked⟩ := bind_eq_ok_iff.mp checked
    split at checked
    · cases checked
    · cases checked
      exact unbroken_of_split? parts

theorem exists_of_mem_mapM {ε α β : Type} {f : α → Except ε β} {xs : List α} {ys : List β} {y : β}
    (mapped : xs.mapM f = .ok ys) (hy : y ∈ ys) : ∃ x, f x = .ok y := by
  induction xs generalizing ys with
  | nil =>
      cases mapped
      cases hy
  | cons x rest ih =>
      rw [List.mapM_cons] at mapped
      obtain ⟨first, here, mapped⟩ := bind_eq_ok_iff.mp mapped
      obtain ⟨more, later, mapped⟩ := bind_eq_ok_iff.mp mapped
      cases mapped
      rcases List.mem_cons.mp hy with rfl | hy
      · exact ⟨x, here⟩
      · exact ih later hy

theorem Ports.unbroken_of_parse {text : String} {ports : List String}
    (parsed : parse text = .ok ports) : ∀ port ∈ ports, Unbroken port := by
  intro port hport
  obtain ⟨item, checked⟩ := exists_of_mem_mapM parsed hport
  exact unbroken_of_check checked

/-- Options that were read stand on one line each, whatever they were read from. -/
theorem Options.Read.unbroken {o : Options} (h : o.Read) : o.Unbroken := by
  refine ⟨fun router hrouter => ?_, fun l port hport => ?_⟩
  · obtain ⟨_, parsed⟩ := h.router router hrouter
    exact Router.unbroken_of_parse parsed
  · obtain ⟨_, _, parsed, listed⟩ := h.ports l port hport
    exact Ports.unbroken_of_parse parsed port listed

/-! ### Configurations and command lines -/

theorem Malformed.lift_eq_ok_iff {α : Type} {x : Except Malformed α} {a : α} :
    lift x = .ok a ↔ x = .ok a := by
  cases x <;> simp [lift]

theorem Router.parse_of_map {text : String} {router : Option Router}
    (read : (parse text).map some = .ok router) : ∀ given ∈ router, parse text = .ok given := by
  intro given hgiven
  cases hgiven
  cases parsed : parse text with
  | error cause =>
      rw [parsed] at read
      cases read
  | ok said =>
      rw [parsed] at read
      cases read
      rfl

theorem OpenPorts.read_empty : ({} : OpenPorts).Read := by
  intro l
  cases l <;> exact List.forall_mem_nil _

theorem OpenPorts.Read.addText {p q : OpenPorts} (h : p.Read) {l : PortList} {text : String}
    (added : p.addText l text = .ok q) : q.Read := by
  obtain ⟨ports, parsed, added⟩ := bind_eq_ok_iff.mp added
  cases added
  intro m port hport
  rw [get_append] at hport
  split at hport
  · rcases List.mem_append.mp hport with old | new
    · exact h m port old
    · exact ⟨text, ports, parsed, new⟩
  · exact h m port hport

theorem OpenPorts.Read.readPorts {p q : OpenPorts} (h : p.Read) {source : String}
    {entries : List (String × Data)} (read : Config.readPorts source p entries = .ok q) :
    q.Read := by
  induction entries generalizing p with
  | nil =>
      cases read
      exact h
  | cons entry rest ih =>
      unfold Config.readPorts at read
      split at read
      · cases read
      · obtain ⟨p', added, read⟩ := bind_eq_ok_iff.mp read
        exact ih (h.addText added) read

/-- The options of a configuration were read from texts. -/
theorem Config.read_of_ofEntries {source : String} {entries : List (String × Data)} {c : Config}
    (read : ofEntries source entries = .ok c) : c.options.Read := by
  unfold ofEntries at read
  simp only at read
  split at read
  · simp only [bind_eq_ok_iff, Malformed.lift_eq_ok_iff] at read
    obtain ⟨_, -, router, routed, _, -, ports, listed, _, -, _, -, _, -, _, -, _, -, read⟩ := read
    cases read
    refine ⟨fun given hgiven => ?_, OpenPorts.read_empty.readPorts listed⟩
    unfold readRouter at routed
    split at routed
    · cases routed
      cases hgiven
    · exact ⟨_, Router.parse_of_map routed given hgiven⟩
  · obtain ⟨_, stopped, -⟩ := bind_eq_ok_iff.mp read
    cases stopped

theorem OpenPorts.Read.addPorts {p q : OpenPorts} (h : p.Read)
    {added : List (PortList × Option String)}
    (read : CommandLine.Compiler.addPorts p added = .ok q) : q.Read := by
  induction added generalizing p with
  | nil =>
      cases read
      exact h
  | cons entry rest ih =>
      obtain ⟨l, _ | text⟩ := entry
      · cases read
      · obtain ⟨p', added, read⟩ := bind_eq_ok_iff.mp read
        exact ih (h.addText added) read

/-- The options of a command line were read from texts if those of the configuration were. -/
theorem Options.Read.mergeOptions {base o : Options} (h : base.Read)
    {r : CommandLine.Compiler.Request} (merged : CommandLine.Compiler.mergeOptions r base = .ok o) :
    o.Read := by
  obtain ⟨ports, added, merged⟩ := bind_eq_ok_iff.mp merged
  simp only at merged
  split at merged
  · cases merged
    exact ⟨h.router, h.ports.addPorts added⟩
  · obtain ⟨router, routed, merged⟩ := bind_eq_ok_iff.mp merged
    cases merged
    have parsed := Router.parse_of_map (Malformed.lift_eq_ok_iff.mp routed)
    exact ⟨fun given hgiven => ⟨r.router, parsed given hgiven⟩, h.ports.addPorts added⟩

end Firewall

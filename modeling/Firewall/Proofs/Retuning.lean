import Mathlib.Logic.Function.Basic
import Firewall.Proofs.Portions
import Firewall.Proofs.Unbroken
import Firewall.Proofs.Writing
import Firewall.RateAdjuster

/-!
Adjustment of the rates of a policy that is in force. Compiler and adjuster share the numbers of
pipes and nothing else: over an engine that keeps the bandwidth of every pipe, an adjustment
reaches the two pipes of a shaped interface, and every other index is refused.
-/

namespace Firewall

/-! ### Rates that engines can read -/

theorem Text.isBlank_of_ascii {c : Char} (h : c.isDigit = true) : isBlank c = false := by
  simp only [Char.isDigit, Bool.and_eq_true, decide_eq_true_eq, UInt32.le_iff_toNat_le] at h
  have value : c.toNat = c.val.toNat := rfl
  simp at h
  simp only [isBlank, Bool.or_eq_false_iff, Bool.and_eq_false_iff, decide_eq_false_iff_not,
    beq_eq_false_iff_ne]
  omega

namespace Rate

open Text

variable {text : String}

/-- A rate is small enough if its doubles stay finite. -/
def Small (text : String) : Prop := toBits text ≠ .error .infiniteRate

def Reads (text : String) : Prop := (reading? (strip text).toList).isSome

theorem toBits_eq_ok {bits : Nat} (h : (toBits text).toOption = some bits) :
    toBits text = .ok bits := by
  cases read : toBits text with
  | error cause => simp [read, Except.toOption] at h
  | ok n => simpa [read, Except.toOption] using h

theorem Small.of_toOption (bits : Nat) (h : (toBits text).toOption = some bits) : Small text := by
  rw [Small, toBits_eq_ok h]
  nofun

theorem Reads.exists_bits (h : Reads text) (small : Small text) :
    ∃ bits, toBits text = .ok bits := by
  obtain ⟨r, reading⟩ := Option.isSome_iff_exists.mp h
  rw [Small, toBits] at small
  rw [toBits]
  simp only [reading] at small ⊢
  cases bits : r.bits? with
  | none => simp [bits] at small
  | some n => exact ⟨n, rfl⟩

theorem reads_of_parse {said : String} (parsed : parse said = .ok text) : Reads text := by
  simp only [parse] at parsed
  split at parsed
  · rename_i reads
    cases parsed
    have twice : strip (strip said) = strip said := by
      simp only [strip, trim, String.toList_ofList]
      rw [trimBy_eq_self head?_trimBy getLast?_trimBy]
    rw [Reads, twice]
    exact reads
  · cases parsed

theorem reading?_thousands {digits : List Char} (some_ : digits ≠ [])
    (all : ∀ c ∈ digits, isDigit c = true) : (reading? (digits ++ "Kbit/s".toList)).isSome := by
  have letter : isDigit 'K' = false := by decide
  have blank : isBlank 'K' = false := rfl
  have unit : "Kbit/s".toList = 'K' :: "bit/s".toList := rfl
  have whole : (digits ++ "Kbit/s".toList).takeWhile isDigit = digits := by
    rw [List.takeWhile_append_of_pos all, unit, List.takeWhile_cons_of_neg (by simp [letter]),
      List.append_nil]
  have rest : (digits ++ "Kbit/s".toList).dropWhile isDigit = "Kbit/s".toList := by
    rw [List.dropWhile_append_of_pos all, unit, List.dropWhile_cons_of_neg (by simp [letter])]
  have known : (unit? ['K', 'b', 'i', 't', '/', 's']).isSome := rfl
  simp only [reading?, whole, rest]
  rw [unit]
  simpa [some_, blank] using known

theorem ofKbps_of_short {kbps : Nat} (short : Short kbps) :
    ofKbps kbps = .ok (if kbps = 0 then unlimited else toString (kbps : Int) ++ "Kbit/s") := by
  simp only [ofKbps, decimal?_of_short short]
  rw [if_neg (by omega), ← Int.natCast_zero]
  simp only [Int.natCast_inj, ← apply_ite Except.ok]

/-- The text of a rate in Kbit/s that is not negative. -/
theorem exists_ofKbps {kbps : Nat} (short : Short kbps) :
    ∃ text, ofKbps kbps = .ok text ∧ Reads text := by
  refine ⟨_, ofKbps_of_short short, ?_⟩
  by_cases zero : kbps = 0
  · rw [if_pos zero]
    rfl
  · rw [if_neg zero]
    have digits : (toString (kbps : Int)).toList = Nat.toDigits 10 kbps := String.toList_ofList
    have ascii : ∀ c ∈ Nat.toDigits 10 kbps, c.isDigit = true :=
      fun c hc => Nat.isDigit_of_mem_toDigits (by omega) (by omega) hc
    have trimmed : trim (Nat.toDigits 10 kbps ++ "Kbit/s".toList) =
        Nat.toDigits 10 kbps ++ "Kbit/s".toList := by
      refine trimBy_eq_self (fun c hc => ?_) (fun c hc => ?_)
      · rw [List.head?_append_of_ne_nil _ Nat.toDigits_ne_nil] at hc
        exact isBlank_of_ascii (ascii c (List.mem_of_mem_head? hc))
      · rw [List.getLast?_append_of_ne_nil _ (by decide)] at hc
        cases hc
        rfl
    rw [Reads, strip, String.toList_ofList, String.toList_append, digits, trimmed]
    exact reading?_thousands Nat.toDigits_ne_nil fun c hc => isDigit_of_ascii (ascii c hc)

/-- What a rate in Kbit/s comes to in bits per second. -/
def ComesTo (kbps : Int) (bits : Nat) : Prop :=
  ∃ text, ofKbps kbps = .ok text ∧ toBits text = .ok bits

/-- A rate in Kbit/s is small enough if it can be written and its doubles stay finite. -/
structure Fits (kbps : Nat) : Prop where
  short : Short kbps
  small : ∀ text, ofKbps kbps = .ok text → Small text

theorem Fits.exists_comesTo {kbps : Nat} (h : Fits kbps) : ∃ bits, ComesTo kbps bits := by
  obtain ⟨text, said, reads⟩ := exists_ofKbps h.short
  obtain ⟨bits, bits_eq⟩ := reads.exists_bits (h.small text said)
  exact ⟨bits, text, said, bits_eq⟩

end Rate

/-! ### Engines that keep bandwidths -/

/-- An engine that keeps the bandwidth of every pipe by its number; a pipe without one is not
limited. `store` reads what it keeps. -/
structure Engine.Stores {σ : Type} (e : Engine σ) (store : σ → Int → Option Nat) : Prop where
  configure : ∀ {p : Pipe} {bits : Nat} (s : σ),
    Rate.toBits (p.bandwidth.getD Rate.unlimited) = .ok bits →
      ∃ s', e.perform (.configurePipe p) s = (.ok (), s') ∧
        store s' = Function.update (store s) p.id (some bits)
  bandwidth : ∀ id s, ∃ s', e.bandwidth id s = (.ok (store s id), s') ∧ store s' = store s
  note : ∀ n s, store (e.note n s) = store s

namespace Engine

def keeping : Engine (Int → Option Nat) where
  perform
    | .configurePipe p, s =>
      match Rate.toBits (p.bandwidth.getD Rate.unlimited) with
      | .ok bits => (.ok (), Function.update s p.id (some bits))
      | .error cause => (.error (.unread cause), s)
    | _, s => (.ok (), s)
  bandwidth id s := (.ok (s id), s)
  note _ s := s

theorem stores_keeping : keeping.Stores id where
  configure s read := by simp [keeping, read]
  bandwidth _ s := ⟨s, rfl, rfl⟩
  note _ _ := rfl

variable {σ : Type} {e : Engine σ} {store : σ → Int → Option Nat}

/-- Pipes with rates that can be read are all configured, and no others are. -/
theorem Stores.configureAll (h : e.Stores store) {pipes : List Pipe}
    (read : ∀ p ∈ pipes, ∃ bits, Rate.toBits (p.bandwidth.getD Rate.unlimited) = .ok bits)
    (s : σ) :
    ∃ s', e.performAll (pipes.map .configurePipe) s = (.ok (), s') ∧
      ∀ id, (store s' id).isSome ↔ (store s id).isSome ∨ ∃ p ∈ pipes, p.id = id := by
  induction pipes generalizing s with
  | nil => exact ⟨s, rfl, by simp⟩
  | cons p rest ih =>
      rw [List.forall_mem_cons] at read
      obtain ⟨bits, bits_eq⟩ := read.1
      obtain ⟨next, configured, stored⟩ := h.configure s bits_eq
      obtain ⟨s', performed, kept⟩ := ih read.2 next
      refine ⟨s', by simp only [List.map_cons, performAll, configured, performed], fun id => ?_⟩
      rw [kept, stored]
      by_cases here : id = p.id
      · simp [here]
      · simp [here, Ne.symm here]

end Engine

/-! ### The pipes of a policy -/

namespace Policy

variable {r : Registry}

def pipes (r : Registry) : List Pipe := baselinePipes ++ (Shaping.plan r).flatMap (·.pipes)

theorem mem_pipes_iff {p : Pipe} :
    p ∈ pipes r ↔ p ∈ baselinePipes ∨ ∃ i ∈ r.interfaces, ∃ rates, i.rates = some rates ∧
      p ∈ (Shaping.allocate i rates).pipes := by
  simp only [pipes, Shaping.plan, List.mem_append, List.mem_flatMap, List.mem_filterMap,
    Option.map_eq_some_iff]
  refine or_congr_right ⟨?_, ?_⟩
  · rintro ⟨_, ⟨i, hi, rates, rated, rfl⟩, hp⟩
    exact ⟨i, hi, rates, rated, hp⟩
  · rintro ⟨i, hi, rates, rated, hp⟩
    exact ⟨_, ⟨i, hi, rates, rated, rfl⟩, hp⟩

/-- An index has an inbound pipe if a shaped interface bears it, and only then: the fixed pipes
and the outbound ones have other numbers. -/
theorem exists_inboundPipe_iff (indexed : r.Indexed) {k : Int} (low : 0 ≤ k)
    (high : k < maxInterfaces) :
    (∃ p ∈ pipes r, p.id = inboundPipe k) ↔
      ∃ i ∈ r.interfaces, i.index = k ∧ i.shaped = true := by
  simp only [maxInterfaces] at high
  constructor
  · rintro ⟨p, hp, id_eq⟩
    rcases mem_pipes_iff.mp hp with fixed | ⟨i, hi, rates, rated, hp⟩
    · simp only [baselinePipes, List.mem_cons, List.not_mem_nil, or_false] at fixed
      rcases fixed with rfl | rfl | rfl | rfl <;>
        simp only [inboundPipe, synPipe, rstDelayPipe, icmpInPipe, icmpOutPipe] at id_eq <;> omega
    · have bounds := indexed.bounds hi
      simp only [maxInterfaces] at bounds
      refine ⟨i, hi, ?_, by rw [Interface.shaped, rated]; rfl⟩
      simp only [InterfaceShaping.pipes, Shaping.allocate, List.mem_cons, List.not_mem_nil,
        or_false] at hp
      rcases hp with rfl | rfl <;>
        simp only [inboundPipe, outboundPipe] at id_eq <;> omega
  · rintro ⟨i, hi, rfl, shaped⟩
    obtain ⟨rates, rated⟩ := Option.isSome_iff_exists.mp shaped
    exact ⟨(Shaping.allocate i rates).inbound,
      mem_pipes_iff.mpr (.inr ⟨i, hi, rates, rated, List.mem_cons_self ..⟩), rfl⟩

/-- The plan has the pipes of a shaped interface under its index. -/
theorem forIndex?_plan (indexed : r.Indexed) {i : Interface} (hi : i ∈ r.interfaces)
    {rates : Rates} (rated : i.rates = some rates) :
    Shaping.forIndex? (Shaping.plan r) i.index = some (Shaping.allocate i rates) := by
  have planned : Shaping.allocate i rates ∈ Shaping.plan r :=
    List.mem_filterMap.mpr ⟨i, hi, by rw [rated]; rfl⟩
  have found : (Shaping.forIndex? (Shaping.plan r) i.index).isSome :=
    List.find?_isSome.mpr ⟨_, planned, by simp [Shaping.allocate]⟩
  obtain ⟨shaping, shaping_eq⟩ := Option.isSome_iff_exists.mp found
  obtain ⟨j, hj, allocated⟩ := List.mem_filterMap.mp (List.mem_of_find?_eq_some shaping_eq)
  obtain ⟨rates', rated', rfl⟩ := Option.map_eq_some_iff.mp allocated
  have place : j.index = i.index := by
    have law := List.find?_some shaping_eq
    rwa [decide_eq_true_eq] at law
  obtain rfl := indexed.eq_of_index hj hi place
  rw [shaping_eq, Option.some.inj (rated'.symm.trans rated)]

theorem reads_rates {tokens : List String} (declared : (Registry.ofTokens tokens).2 = .ok r)
    {i : Interface} (hi : i ∈ r.interfaces) {rates : Rates} (rated : i.rates = some rates) :
    Rate.Reads rates.inbound ∧ Rate.Reads rates.outbound := by
  obtain ⟨token, -, said, parsed, stems⟩ := Registry.exists_token declared hi
  have rated' : rates ∈ said.rates := by rw [stems] at rated; exact rated
  obtain ⟨inText, outText, -, -, inRead, outRead⟩ :=
    (Interface.parse_subset parsed).2 rates rated'
  exact ⟨Rate.reads_of_parse inRead, Rate.reads_of_parse outRead⟩

theorem toBits_pipes {tokens : List String} (declared : (Registry.ofTokens tokens).2 = .ok r)
    (small : ∀ i ∈ r.interfaces, ∀ rates, i.rates = some rates →
      Rate.Small rates.inbound ∧ Rate.Small rates.outbound) :
    ∀ p ∈ pipes r, ∃ bits, Rate.toBits (p.bandwidth.getD Rate.unlimited) = .ok bits := by
  intro p hp
  rcases mem_pipes_iff.mp hp with fixed | ⟨i, hi, rates, rated, hp⟩
  · simp only [baselinePipes, List.mem_cons, List.not_mem_nil, or_false] at fixed
    rcases fixed with rfl | rfl | rfl | rfl
    · exact ⟨64000, Rate.toBits_eq_ok (by decide +kernel)⟩
    · exact ⟨0, Rate.toBits_eq_ok (by decide +kernel)⟩
    · exact ⟨16000, Rate.toBits_eq_ok (by decide +kernel)⟩
    · exact ⟨16000, Rate.toBits_eq_ok (by decide +kernel)⟩
  · obtain ⟨inReads, outReads⟩ := reads_rates declared hi rated
    obtain ⟨inSmall, outSmall⟩ := small i hi rates rated
    simp only [InterfaceShaping.pipes, Shaping.allocate, List.mem_cons, List.not_mem_nil,
      or_false] at hp
    rcases hp with rfl | rfl
    · exact inReads.exists_bits inSmall
    · exact outReads.exists_bits outSmall

end Policy

/-! ### Adjustments -/

theorem AdjustFault.outside_eq (index : Int) : outside index =
    if Text.Short index then .indexOutside (toString index) else .unread .longNumber := by
  unfold outside
  split
  · rename_i unwritten
    rw [if_neg (Text.decimal?_eq_none_iff.mp unwritten)]
  · rename_i written said
    have short : Text.Short index := Text.isSome_decimal?_iff.mp (by rw [said]; rfl)
    rw [Text.decimal?_of_short short] at said
    cases said
    rw [if_pos short]

namespace RateAdjuster

variable {σ : Type} {e : Engine σ} {store : σ → Int → Option Nat} {index inKbps outKbps : Int}
  {inBits outBits : Nat}

/-- What is kept once both pipes of an index have new rates. -/
def retuned (kept : Int → Option Nat) (inbound outbound : Pipe) (inBits outBits : Nat) :
    Int → Option Nat :=
  Function.update (Function.update kept inbound.id (some inBits)) outbound.id (some outBits)

theorem reconfigure_of_stores (stores : e.Stores store) (index : Int)
    (inRate : Rate.ComesTo inKbps inBits) (outRate : Rate.ComesTo outKbps outBits) (s : σ) :
    ∃ s', reconfigure e index inKbps outKbps s = (.ok true, s') ∧
      store s' = retuned (store s) { id := inboundPipe index } { id := outboundPipe index }
        inBits outBits := by
  obtain ⟨inbound, inSaid, inRead⟩ := inRate
  obtain ⟨outbound, outSaid, outRead⟩ := outRate
  simp only [reconfigure, inSaid, outSaid]
  obtain ⟨first, configured, stored⟩ := stores.configure
    (p := { id := inboundPipe index, bandwidth := some inbound })
    (e.note (.log .info ("Interface " ++ toString index ++ ": in " ++ inbound ++ ", out "
      ++ outbound)) s) inRead
  obtain ⟨second, configured', stored'⟩ := stores.configure
    (p := { id := outboundPipe index, bandwidth := some outbound }) first outRead
  refine ⟨second, by simp only [Engine.performAll, configured, configured'], ?_⟩
  rw [stored', stored, stores.note]
  rfl

/-- Where an index has an inbound pipe, an adjustment reconfigures both its pipes. -/
theorem adjust_of_pipe (stores : e.Stores store) (a : RateAdjuster) (now : TimeOfDay)
    (low : 0 ≤ index) (high : index < maxInterfaces) (inRate : Rate.ComesTo inKbps inBits)
    (outRate : Rate.ComesTo outKbps outBits) {s : σ}
    (piped : (store s (inboundPipe index)).isSome) :
    ∃ s', a.adjust e now index (some inKbps) (some outKbps) s = (.ok true, s') ∧
      store s' = retuned (store s) { id := inboundPipe index } { id := outboundPipe index }
        inBits outBits := by
  obtain ⟨current, current_eq⟩ := Option.isSome_iff_exists.mp piped
  obtain ⟨asked, answered, same⟩ := stores.bandwidth (inboundPipe index) s
  obtain ⟨s', done, stored⟩ :=
    reconfigure_of_stores stores index inRate outRate asked
  refine ⟨s', ?_, by rw [stored, same]⟩
  rw [current_eq] at answered
  rw [adjust, if_neg (by simp), if_neg (by omega)]
  simp only [answered, done]

/-- An index outside the range, or without an inbound pipe, is refused, and nothing changes. -/
theorem adjust_of_no_pipe (stores : e.Stores store) (a : RateAdjuster) (now : TimeOfDay)
    (inKbps outKbps : Int) {s : σ}
    (unpiped : 0 ≤ index → index < maxInterfaces → store s (inboundPipe index) = none) :
    ∃ s', a.adjust e now index (some inKbps) (some outKbps) s =
        (.error (if 0 ≤ index ∧ index < maxInterfaces then .noPipe index (inboundPipe index)
          else .outside index), s') ∧
      store s' = store s := by
  rw [adjust, if_neg (by simp)]
  by_cases within : 0 ≤ index ∧ index < maxInterfaces
  · obtain ⟨asked, answered, same⟩ := stores.bandwidth (inboundPipe index) s
    rw [unpiped within.1 within.2] at answered
    rw [if_neg (by omega), if_pos within]
    exact ⟨asked, by simp only [answered], same⟩
  · rw [if_pos (by omega), if_neg within]
    exact ⟨s, rfl, rfl⟩

end RateAdjuster
end Firewall

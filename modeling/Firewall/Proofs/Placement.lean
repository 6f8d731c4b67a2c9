import Firewall.Evaluation
import Firewall.Proofs.Registration
import Firewall.Ruleset

/-!
Where the rules of a policy go. Every drafted rule fits the band of its purpose, the purpose
decides its set, its effect and the interfaces that get it, and no two drafted rules take the same
number: the sets follow each other in the order of drafting, and within a set the purposes or the
indices differ.
-/

namespace Firewall

/-- What a rule of a purpose says about the packets it matches, whoever drafted it. -/
def Purpose.effect : Purpose → Effect
  | .loopback | .routeFromClient | .routeToClient | .forwardFromClient | .forwardToClient
  | .clientToRouter | .routerToClient | .macTcp | .macUdp | .macMdns | .macMulticast | .macSsdp
  | .macBroadcast | .winTcp | .winUdp | .winMulticast | .winSsdp | .winBroadcast | .trustedIcmp
  | .bootstrapIcmp | .bootstrapDhcp | .outKnownTcp | .outKnownUdp | .outOtherTcp | .outOtherIp
  | .trustedTcp | .trustedUdp | .localTcp | .localUdp | .publicTcp | .publicUdp => .accept
  | .natd | .synLimit | .rstDelay | .icmpInLimit | .icmpOutLimit | .shapeInTcp | .shapeInUdp
  | .shapeHighAck | .shapeMediumTcp | .shapeMediumUdp | .shapeLowTcp | .shapeLowUdp
  | .checkState => .pass
  | .shapeSkipPrivateOut | .shapeSkipPrivateIn => .skip shapingExit
  | .knownNetwork => .skip knownNetworkExit
  | _ => .drop

def Purpose.acceptingSets : List Int := [0, 1, 3, 4, 5, 6, 11, 20]

def Purpose.droppingSets : List Int := [0, 2, 5, 7, 30]

theorem Purpose.set_of_accept (p : Purpose) (h : p.effect = .accept) :
    p.band.set ∈ acceptingSets :=
  (by decide : ∀ p ∈ all, p.effect = .accept → p.band.set ∈ acceptingSets) p p.mem_all h

theorem Purpose.set_of_drop (p : Purpose) (h : p.effect = .drop) : p.band.set ∈ droppingSets :=
  (by decide : ∀ p ∈ all, p.effect = .drop → p.band.set ∈ droppingSets) p p.mem_all h

theorem Purpose.bands_apart (p q : Purpose) (different : p ≠ q) :
    p.band.last < q.band.base ∨ q.band.last < p.band.base :=
  ((by decide +kernel : ∀ p ∈ all, ∀ q ∈ all,
    p = q ∨ p.band.last < q.band.base ∨ q.band.last < p.band.base)
      p p.mem_all q q.mem_all).resolve_left different

/-- Whether an interface gets a rule of a purpose. -/
def Purpose.gate (o : Options) (i : Interface) : Purpose → Bool
  | .macTcp | .macUdp | .macMdns | .macMulticast | .macSsdp | .macBroadcast =>
    i.hosts.mac && i.bounded
  | .winTcp | .winUdp | .winMulticast | .winSsdp | .winBroadcast => i.hosts.windows && i.bounded
  | .trustedIcmp => i.trusted
  | .knownNetwork => i.bounded
  | .shapeSkipPrivateOut | .shapeSkipPrivateIn | .shapeInTcp | .shapeInUdp | .shapeHighAck
  | .shapeMediumTcp | .shapeMediumUdp | .shapeLowTcp | .shapeLowUdp => i.shaped
  | .trustedTcp => i.trusted && !o.ports.trustedTcp.isEmpty
  | .trustedUdp => i.trusted && !o.ports.trustedUdp.isEmpty
  | .localTcp => (i.bounded || i.trusted) && !o.ports.localTcp.isEmpty
  | .localUdp => (i.bounded || i.trusted) && !o.ports.localUdp.isEmpty
  | .publicTcp => !o.ports.publicTcp.isEmpty
  | .publicUdp => !o.ports.publicUdp.isEmpty
  | _ => false

namespace Band

variable {b : Band} {i j : Option Int} {n : Int}

theorem base_le_last (b : Band) : b.base ≤ b.last := by
  simp only [last, width, maxInterfaces]
  split <;> omega

/-- A band numbers its rules within its range, and no two indices alike. -/
theorem within_of_number (numbered : b.number i = .ok n) : b.base ≤ n ∧ n ≤ b.last := by
  simp only [last, width, maxInterfaces]
  unfold number at numbered
  split at numbered <;> rename_i kind <;> split at numbered
  · split at numbered
    · rename_i inside
      cases numbered
      simp only [kind, maxInterfaces, if_true] at inside ⊢
      omega
    · cases numbered
  · cases numbered
  · cases numbered
    simp [kind]
  · cases numbered

theorem index_eq_of_number (left : b.number i = .ok n) (right : b.number j = .ok n) : i = j := by
  unfold number at left right
  cases kind : b.perInterface <;>
    simp only [kind, if_true, Bool.false_eq_true, if_false] at left right
  · cases i <;> cases j <;> simp_all
  · cases i <;> cases j <;> simp only [reduceCtorEq] at left right
    split at left <;> split at right <;> simp_all
    omega

end Band

/-- No number belongs to two purposes, nor to two indices of one. -/
theorem Purpose.eq_of_number {p q : Purpose} {i j : Option Int} {n : Int}
    (left : p.band.number i = .ok n) (right : q.band.number j = .ok n) : p = q ∧ i = j := by
  have same : p = q := by
    refine Decidable.byContradiction fun different => ?_
    have bands := bands_apart p q different
    have := Band.within_of_number left
    have := Band.within_of_number right
    omega
  subst same
  exact ⟨rfl, Band.index_eq_of_number left right⟩

namespace Draft

/-- An index within bounds where the band asks for one, and none elsewhere. -/
def Fits (d : Draft) : Prop :=
  match d.index with
  | none => d.purpose.band.perInterface = false
  | some i => d.purpose.band.perInterface = true ∧ 0 ≤ i ∧ i < maxInterfaces

def numbered (d : Draft) : Rule :=
  { set := d.purpose.band.set, number := d.purpose.band.base + d.index.getD 0, action := d.action,
    what := d.what, log := d.log, response := d.response, target := d.target,
    tag := .known d.purpose }

@[simp] theorem numbered_what (d : Draft) : d.numbered.what = d.what := rfl

@[simp] theorem numbered_set (d : Draft) : d.numbered.set = d.purpose.band.set := rfl

@[simp] theorem numbered_tag (d : Draft) : d.numbered.tag = .known d.purpose := rfl

theorem Fits.number {d : Draft} (h : d.Fits) :
    d.purpose.band.number d.index = .ok d.numbered.number := by
  unfold Fits at h
  cases index : d.index with
  | none =>
      simp only [index] at h
      simp [Band.number, numbered, index, h]
  | some i =>
      simp only [index] at h
      simp [Band.number, numbered, index, h]

theorem place_of_fits {d : Draft} (h : d.Fits) : d.place = .ok d.numbered := by
  rw [place, h.number]
  rfl

theorem placeAll_of_fits {ds : List Draft} (h : ∀ d ∈ ds, d.Fits) :
    placeAll ds = .ok (ds.map numbered) := by
  induction ds with
  | nil => rfl
  | cons d rest ih =>
      rw [List.forall_mem_cons] at h
      simp [placeAll, place_of_fits h.1, ih h.2, bind, Except.bind]

theorem Fits.within {d : Draft} (h : d.Fits) :
    d.purpose.band.base ≤ d.numbered.number ∧ d.numbered.number ≤ d.purpose.band.last :=
  Band.within_of_number h.number

def Apart (d e : Draft) : Prop := d.purpose ≠ e.purpose ∨ d.index ≠ e.index

theorem Fits.number_ne {d e : Draft} (hd : d.Fits) (he : e.Fits) (apart : d.Apart e) :
    d.numbered.number ≠ e.numbered.number := by
  intro same
  obtain ⟨purpose, index⟩ := Purpose.eq_of_number hd.number (same ▸ he.number)
  exact apart.elim (· purpose) (· index)

structure Conforms (set : Int) (d : Draft) : Prop where
  set_eq : d.purpose.band.set = set
  fits : d.Fits
  effect_eq : d.numbered.effect = d.purpose.effect

theorem Conforms.effect_ne_accept {set : Int} {d : Draft} (h : d.Conforms set)
    (other : set ∉ Purpose.acceptingSets) : d.purpose.effect ≠ .accept :=
  fun accepts => other (h.set_eq ▸ d.purpose.set_of_accept accepts)

theorem Conforms.effect_ne_drop {set : Int} {d : Draft} (h : d.Conforms set)
    (other : set ∉ Purpose.droppingSets) : d.purpose.effect ≠ .drop :=
  fun drops => other (h.set_eq ▸ d.purpose.set_of_drop drops)

theorem Conforms.effect_of_allow {set : Int} {d : Draft} (h : d.Conforms set)
    (allows : d.action = .allow) : d.purpose.effect = .accept := by
  rw [← h.effect_eq]
  simp [Rule.effect, numbered, allows]

structure Serves (i : Interface) (set : Int) (d : Draft) : Prop where
  set_eq : d.purpose.band.set = set
  perInterface : d.purpose.band.perInterface = true
  effect_eq : d.numbered.effect = d.purpose.effect
  index_eq : d.index = some i.index

/-- A draft for the hosts behind an interface, on their own network, and no others. -/
structure Confined (i : Interface) (d : Draft) : Prop where
  src_eq : d.what.src = .network i.network
  via_eq : d.what.via = [i.name]

/-- Whether what the purpose of a draft settles is so: the test that goes over a list of drafts. -/
def accords (set : Int) (each : Bool) (d : Draft) : Bool :=
  d.purpose.band.set == set && d.purpose.band.perInterface == each && d.index.isSome == each &&
    d.numbered.effect == d.purpose.effect

theorem conforms_of_accords {set : Int} {ds : List Draft}
    (h : ds.all (accords set false) = true) : ∀ d ∈ ds, Conforms set d := by
  intro d hd
  have accord := List.all_eq_true.mp h d hd
  simp only [accords, Bool.and_eq_true, beq_iff_eq, Option.isSome_eq_false_iff,
    Option.isNone_iff_eq_none] at accord
  obtain ⟨⟨⟨set_eq, single⟩, index⟩, effect⟩ := accord
  refine ⟨set_eq, ?_, effect⟩
  simp [Fits, index, single]

theorem serves_of_accords {i : Interface} {set : Int} {ds : List Draft}
    (h : ds.all (accords set true) = true) (index : ∀ d ∈ ds, d.index = some i.index) :
    ∀ d ∈ ds, Serves i set d := by
  intro d hd
  have accord := List.all_eq_true.mp h d hd
  simp only [accords, Bool.and_eq_true, beq_iff_eq] at accord
  obtain ⟨⟨⟨set_eq, each⟩, _⟩, effect⟩ := accord
  exact ⟨set_eq, each, effect, index d hd⟩

theorem Serves.conforms {r : Registry} {i : Interface} {set : Int} {d : Draft}
    (h : d.Serves i set) (indexed : r.Indexed) (hi : i ∈ r.interfaces) : d.Conforms set := by
  refine ⟨h.set_eq, ?_, h.effect_eq⟩
  unfold Fits
  rw [h.index_eq]
  exact ⟨h.perInterface, indexed.bounds hi⟩

end Draft
end Firewall

import Firewall.Proofs.Reading
import Firewall.Schedule

/-!
Windows on the clock. A window holds the times that come sooner than its end on the way around the
clock from its start, whether or not midnight lies between them.
-/

namespace Firewall

open Interface (bind_eq_ok_iff)

/-! ### The way around the clock -/

namespace TimeOfDay

variable {s t : TimeOfDay}

/-- The microseconds of a day. -/
def dayLength : Nat := 86400000000

def WithinDay (t : TimeOfDay) : Prop := t.micros < dayLength

instance (t : TimeOfDay) : Decidable t.WithinDay := Nat.decLt _ _

/-- How long it takes from one time to another, forward around the clock. -/
def ahead (s t : TimeOfDay) : Int := ((t.micros : Int) - s.micros) % dayLength

theorem micros_ne (h : s ≠ t) : s.micros ≠ t.micros := by
  intro same
  apply h
  cases s
  cases t
  cases same
  rfl

theorem ahead_of_le (hs : s.WithinDay) (ht : t.WithinDay) (le : s.micros ≤ t.micros) :
    s.ahead t = t.micros - s.micros := by
  simp only [WithinDay, dayLength] at hs ht
  simp only [ahead, dayLength]
  omega

theorem ahead_of_lt (hs : s.WithinDay) (lt : t.micros < s.micros) :
    s.ahead t = t.micros - s.micros + dayLength := by
  simp only [WithinDay, dayLength] at hs
  simp only [ahead, dayLength]
  omega

end TimeOfDay

namespace RateWindow

variable {w v : RateWindow} {t : TimeOfDay}

/-- The time comes sooner than the end of the window, counted from its start. -/
def Covers (w : RateWindow) (t : TimeOfDay) : Prop := w.start.ahead t < w.start.ahead w.stop

instance (w : RateWindow) (t : TimeOfDay) : Decidable (w.Covers t) := Int.decLt _ _

structure WithinDay (w : RateWindow) : Prop where
  start : w.start.WithinDay
  stop : w.stop.WithinDay

theorem contains_iff_covers (window : w.WithinDay) (moment : t.WithinDay) :
    w.contains t = true ↔ w.Covers t := by
  obtain ⟨hstart, hstop⟩ := window
  simp only [TimeOfDay.WithinDay] at hstart hstop moment
  rw [contains, Covers]
  split
  · -- The way to the end does not lead past midnight, but the way to the time may.
    rename_i plain
    rw [TimeOfDay.ahead_of_le hstart hstop plain, Bool.and_eq_true, decide_eq_true_eq,
      decide_eq_true_eq]
    rcases Nat.lt_or_ge t.micros w.start.micros with before | after
    · rw [TimeOfDay.ahead_of_lt hstart before]
      omega
    · rw [TimeOfDay.ahead_of_le hstart moment after]
      omega
  · rename_i wraps
    rw [TimeOfDay.ahead_of_lt hstart (Nat.not_le.mp wraps), Bool.or_eq_true, decide_eq_true_eq,
      decide_eq_true_eq]
    rcases Nat.lt_or_ge t.micros w.start.micros with before | after
    · rw [TimeOfDay.ahead_of_lt hstart before]
      omega
    · rw [TimeOfDay.ahead_of_le hstart moment after]
      omega

/-- Two different times cut the clock in two, wherever a time is. -/
theorem covers_iff_not (window : w.WithinDay) (apart : w.start ≠ w.stop)
    (start : v.start = w.stop) (stop : v.stop = w.start) (t : TimeOfDay) :
    w.Covers t ↔ ¬ v.Covers t := by
  obtain ⟨hstart, hstop⟩ := window
  have other := TimeOfDay.micros_ne apart
  simp only [TimeOfDay.WithinDay, TimeOfDay.dayLength] at hstart hstop
  simp only [Covers, start, stop, TimeOfDay.ahead, TimeOfDay.dayLength]
  omega

end RateWindow

/-! ### Windows that are read -/

namespace Schedule

theorem withinDay_of_readTime {place : String} {value : Data} {t : TimeOfDay}
    (read : readTime place value = .ok t) : t.WithinDay := by
  unfold readTime at read
  extract_lets finish at read
  have checked (clock : Int × Int) (done : finish clock = .ok t) : t.WithinDay := by
    simp only [finish] at done
    split at done
    · rename_i bounds
      cases done
      simp only [TimeOfDay.WithinDay, TimeOfDay.ofMinutes, TimeOfDay.dayLength]
      omega
    · cases done
  split at read
  · obtain ⟨_, -, done⟩ := bind_eq_ok_iff.mp read
    exact checked _ done
  · split at read
    · obtain ⟨_, -, done⟩ := bind_eq_ok_iff.mp read
      exact checked _ done
    · cases read

theorem withinDay_of_readWindow {place : String} {value : Data} {w : RateWindow}
    (read : readWindow place value = .ok w) : w.WithinDay := by
  unfold readWindow at read
  split at read
  · obtain ⟨start, first, read⟩ := bind_eq_ok_iff.mp read
    obtain ⟨stop, last, read⟩ := bind_eq_ok_iff.mp read
    obtain ⟨_, -, read⟩ := bind_eq_ok_iff.mp read
    obtain ⟨_, -, read⟩ := bind_eq_ok_iff.mp read
    cases read
    exact ⟨withinDay_of_readTime first, withinDay_of_readTime last⟩
  · cases read

theorem withinDay_of_readWindows {place : String} {i : Nat} {items : List Data}
    {windows : List RateWindow} (read : readWindows place i items = .ok windows) :
    ∀ w ∈ windows, w.WithinDay := by
  induction items generalizing i windows with
  | nil =>
      cases read
      exact List.forall_mem_nil _
  | cons item rest ih =>
      obtain ⟨w, here, read⟩ := bind_eq_ok_iff.mp read
      obtain ⟨ws, later, read⟩ := bind_eq_ok_iff.mp read
      cases read
      exact List.forall_mem_cons.mpr ⟨withinDay_of_readWindow here, ih later⟩

theorem withinDay_of_readProfile {name : String} {value : Data} {p : Profile}
    (read : readProfile name value = .ok p) : ∀ w ∈ p.windows, w.WithinDay := by
  unfold readProfile at read
  split at read
  · simp only at read
    split at read
    · simp only [bind_eq_ok_iff, Malformed.lift_eq_ok_iff] at read
      obtain ⟨_, -, _, -, windows, listed, read⟩ := read
      cases read
      exact withinDay_of_readWindows listed
    · obtain ⟨_, stopped, -⟩ := bind_eq_ok_iff.mp read
      cases stopped
  · cases read

theorem withinDay_of_readProfiles {entries : List (String × Data)} {profiles : List Profile}
    (read : readProfiles entries = .ok profiles) :
    ∀ p ∈ profiles, ∀ w ∈ p.windows, w.WithinDay := by
  induction entries generalizing profiles with
  | nil =>
      cases read
      exact List.forall_mem_nil _
  | cons entry rest ih =>
      obtain ⟨name, value⟩ := entry
      obtain ⟨p, here, read⟩ := bind_eq_ok_iff.mp read
      obtain ⟨ps, later, read⟩ := bind_eq_ok_iff.mp read
      cases read
      exact List.forall_mem_cons.mpr ⟨withinDay_of_readProfile here, ih later⟩

/-- Whatever a schedule is read from, its windows lie within one day. -/
theorem withinDay_of_ofEntries {entries : List (String × Data)} {s : Schedule}
    (read : ofEntries entries = .ok s) : ∀ p ∈ s.profiles, ∀ w ∈ p.windows, w.WithinDay := by
  unfold ofEntries at read
  split at read
  · cases read
    simp [unlimited]
  · cases profiles : readProfiles entries with
    | error fault =>
        rw [profiles] at read
        cases read
    | ok ps =>
        rw [profiles] at read
        cases read
        exact withinDay_of_readProfiles profiles

end Schedule

/-! ### The rates at a time -/

namespace Profile

variable {p : Profile} {t : TimeOfDay}

/-- The rates are those of the first window that covers the time. -/
theorem ratesAt_of_covers (windows : ∀ w ∈ p.windows, w.WithinDay) (moment : t.WithinDay)
    {before after : List RateWindow} {w : RateWindow} (split : p.windows = before ++ w :: after)
    (earlier : ∀ v ∈ before, ¬ v.Covers t) (covers : w.Covers t) :
    p.ratesAt t = (w.inbound, w.outbound) := by
  simp only [split, List.forall_mem_append, List.forall_mem_cons] at windows
  have found : p.windows.find? (·.contains t) = some w := by
    rw [List.find?_eq_some_iff_append]
    refine ⟨(RateWindow.contains_iff_covers windows.2.1 moment).mpr covers, before, after, split,
      fun v hv => ?_⟩
    rw [Bool.not_eq_true', ← Bool.not_eq_true,
      RateWindow.contains_iff_covers (windows.1 v hv) moment]
    exact earlier v hv
  rw [ratesAt, found]

theorem ratesAt_of_uncovered (windows : ∀ w ∈ p.windows, w.WithinDay) (moment : t.WithinDay)
    (uncovered : ∀ w ∈ p.windows, ¬ w.Covers t) : p.ratesAt t = (p.inbound, p.outbound) := by
  have found : p.windows.find? (·.contains t) = none := by
    rw [List.find?_eq_none]
    intro w hw
    rw [RateWindow.contains_iff_covers (windows w hw) moment]
    exact uncovered w hw
  rw [ratesAt, found]

/-- A window holds a time if it covers it on the clock; so two windows with their ends exchanged
share out the day. At every time of the day the rates are those of the first window that covers it,
or else the profile's own, and so they are for every profile that is read. -/
theorem ratesAt_around_clock (moment : t.WithinDay) :
    (∀ w : RateWindow, w.WithinDay → (w.contains t = true ↔ w.Covers t)) ∧
    (∀ w v : RateWindow, w.WithinDay → w.start ≠ w.stop → v.start = w.stop → v.stop = w.start →
      (w.contains t = true ↔ v.contains t = false)) ∧
    (∀ p : Profile, (∀ w ∈ p.windows, w.WithinDay) →
      (∀ before w after, p.windows = before ++ w :: after → (∀ v ∈ before, ¬ v.Covers t) →
        w.Covers t → p.ratesAt t = (w.inbound, w.outbound)) ∧
      ((∀ w ∈ p.windows, ¬ w.Covers t) → p.ratesAt t = (p.inbound, p.outbound))) ∧
    ∀ entries s, Schedule.ofEntries entries = .ok s →
      ∀ p ∈ s.profiles, ∀ w ∈ p.windows, w.WithinDay := by
  refine ⟨fun w window => RateWindow.contains_iff_covers window moment, ?_, ?_,
    fun entries s read => Schedule.withinDay_of_ofEntries read⟩
  · intro w v window apart start stop
    have window' : v.WithinDay := ⟨start ▸ window.stop, stop ▸ window.start⟩
    rw [← Bool.not_eq_true, RateWindow.contains_iff_covers window moment,
      RateWindow.contains_iff_covers window' moment]
    exact RateWindow.covers_iff_not window apart start stop t
  · intro p windows
    exact ⟨fun before w after split => ratesAt_of_covers windows moment split,
      ratesAt_of_uncovered windows moment⟩

/-- Half an hour before midnight, behind office hours that have ended: the night window has begun,
and the day that it leaves over has not. -/
theorem ratesAt_around_clock_night :
    (RateWindow.mk (.ofMinutes 1320) (.ofMinutes 360) 2048 512).contains (.ofMinutes 1410) = true ∧
    (RateWindow.mk (.ofMinutes 360) (.ofMinutes 1320) 0 0).contains (.ofMinutes 1410) = false ∧
    ratesAt
      { name := "office"
        windows := [⟨.ofMinutes 480, .ofMinutes 1080, 512, 128⟩,
          ⟨.ofMinutes 1320, .ofMinutes 360, 2048, 512⟩] }
      (.ofMinutes 1410) = (2048, 512) := by
  obtain ⟨holds, parted, rates, -⟩ :=
    ratesAt_around_clock (t := .ofMinutes 1410) (by decide)
  have night : (RateWindow.mk (.ofMinutes 1320) (.ofMinutes 360) 2048 512).contains
      (.ofMinutes 1410) = true := (holds _ ⟨by decide, by decide⟩).mpr (by decide)
  refine ⟨night, (parted _ _ ⟨by decide, by decide⟩ (by decide) rfl rfl).mp night, ?_⟩
  refine (rates _ ?_).1 [_] ⟨.ofMinutes 1320, .ofMinutes 360, 2048, 512⟩ [] rfl ?_ (by decide)
  · simp only [List.forall_mem_cons]
    exact ⟨⟨by decide, by decide⟩, ⟨by decide, by decide⟩, List.forall_mem_nil _⟩
  · simp only [List.forall_mem_singleton]
    decide

end Profile
end Firewall

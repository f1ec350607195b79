import Mathlib.Algebra.GroupWithZero.Nat
import Mathlib.Tactic.Common

/-!
# Meters

A meter shows 64 bits of what it has carried. It may wrap around, and it may begin at zero again at
any time; who reads it sees only what it shows.

* `Meter`, `Meter.add`, `Meter.restart`: a meter, with what it really carried.
* `Later`: one meter at two moments.
* **`Later.sub_le`**, `Later.sub_eq`: a difference of two readings is at most what was carried in
  between, and just that where the meter went on.
-/

namespace Meters

/-- `restarts` counts how often the meter has begun at zero. -/
structure Meter where
  shown : UInt64
  carried : ℕ
  restarts : ℕ

namespace Meter

/-- It has just been made. -/
def new : Meter := ⟨0, 0, 0⟩

/-- It wraps around at 64 bits. -/
def add (m : Meter) (n : ℕ) : Meter where
  shown := m.shown + UInt64.ofNat n
  carried := m.carried + n
  restarts := if m.shown.toNat + n < 2 ^ 64 then m.restarts else m.restarts + 1

/-- It starts again from zero. -/
def restart (m : Meter) : Meter := { m with shown := 0, restarts := m.restarts + 1 }

@[simp] theorem restart_shown (m : Meter) : m.restart.shown = 0 := rfl

end Meter

/-- `m'` is the meter `m` at a later moment. -/
structure Later (m m' : Meter) : Prop where
  carried : m.carried ≤ m'.carried
  restarts : m.restarts ≤ m'.restarts
  shown : m'.shown.toNat + m.carried ≤ m.shown.toNat + m'.carried
  steady : m'.restarts = m.restarts →
    m'.shown.toNat + m.carried = m.shown.toNat + m'.carried

variable {m m' m'' : Meter}

theorem Later.refl (m : Meter) : Later m m := ⟨Nat.le_refl _, Nat.le_refl _, Nat.le_refl _, fun _ => rfl⟩

theorem Later.trans (h : Later m m') (h' : Later m' m'') : Later m m'' where
  carried := Nat.le_trans h.carried h'.carried
  restarts := Nat.le_trans h.restarts h'.restarts
  shown := by
    have := h.shown
    have := h'.shown
    omega
  steady heq := by
    have hle := h.restarts
    have hle' := h'.restarts
    have hfirst := h.steady (by omega)
    have hlast := h'.steady (by omega)
    omega

theorem later_add (m : Meter) (n : ℕ) : Later m (m.add n) := by
  have hshown : (m.add n).shown.toNat = (m.shown.toNat + n) % 2 ^ 64 := by
    rw [Meter.add, UInt64.toNat_add, UInt64.toNat_ofNat', Nat.add_mod_mod]
  have hcarried : (m.add n).carried = m.carried + n := rfl
  by_cases hfits : m.shown.toNat + n < 2 ^ 64
  · have hrestarts : (m.add n).restarts = m.restarts := if_pos hfits
    rw [Nat.mod_eq_of_lt hfits] at hshown
    exact ⟨by omega, by omega, by omega, fun _ => by omega⟩
  · have hrestarts : (m.add n).restarts = m.restarts + 1 := if_neg hfits
    have hle := Nat.mod_le (m.shown.toNat + n) (2 ^ 64)
    exact ⟨by omega, by omega, by omega, fun heq => by omega⟩

theorem later_restart (m : Meter) : Later m m.restart := by
  have hcarried : m.restart.carried = m.carried := rfl
  have hrestarts : m.restart.restarts = m.restarts + 1 := rfl
  have hshown : m.restart.shown.toNat = 0 := rfl
  exact ⟨by omega, by omega, by omega, fun heq => by omega⟩

/-- **No difference of two readings is too large.** -/
theorem Later.sub_le (h : Later m m') :
    m'.shown.toNat - m.shown.toNat ≤ m'.carried - m.carried := by
  have := h.shown
  omega

theorem Later.sub_eq (h : Later m m') (hsteady : m'.restarts = m.restarts) :
    m.shown.toNat ≤ m'.shown.toNat ∧
      m'.shown.toNat - m.shown.toNat = m'.carried - m.carried := by
  have := h.steady hsteady
  have := h.carried
  omega

end Meters

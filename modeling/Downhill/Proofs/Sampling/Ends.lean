/-
Grids and the upper ends of their regions.

The ticks of an axis are counted by one formula and placed by another, and at the upper end of
an interval the two can disagree.  In one direction the last tick can lie beyond the end, as
0.30000000000000004 does when tenths are counted up to 0.3; then the points that have it are not
in the region.  All other ticks are (`grid_within`).

In the other direction a tick that falls on the upper end may not be counted.  The quotient that
counts the ticks is computed from the width, which is rounded.  Far from zero, where the ends are
spaced apart by a good part of the spacing, this error outweighs the tolerance.  Where the
multiple of the spacing does not exceed the width the tick is counted, so in particular if it
does not lie beyond the end before it is rounded, and if the interval begins at zero
(`grid_upper`).
-/
import Downhill.Proofs.Sampling.Product

namespace Downhill

open Binary64

namespace Region

variable {r : Region} {spacing : Float} {log : Log Float} {g : Grid}

/-- Only a spacing has a grid. -/
theorem isSpacing_of_grid (h : (r.grid spacing log).1 = .ok g) : IsSpacing spacing := by
  rw [grid] at h
  split at h
  · rename_i accepted
    exact isSpacing_iff.mp accepted
  · cases h

/-- The coordinates of a point of a grid are ticks of the intervals. -/
theorem exists_tick_of_mem_grid (h : (r.grid spacing log).1 = .ok g) {p : Point Float}
    (mem : p ∈ g.points) :
    p.keys = r.keys ∧ ∀ name i, r.get? name = some i →
      ∃ count t, i.tickCount? spacing = some count ∧ t < count ∧
        p.get? name = some (i.lower + Float.ofNat t * spacing) := by
  have hs := isSpacing_of_grid h
  obtain ⟨counted, -, rfl⟩ := (grid_eq_ok_iff hs).mp h
  rw [Grid.points_eq fun n mem => (counted.bounds hs n (counts_axes r spacing ▸ mem)).1] at mem
  obtain ⟨k, inside, rfl⟩ := List.mem_map.mp mem
  rw [List.mem_range, Grid.pointCount_eq, counts_axes] at inside
  refine ⟨by rw [Grid.keys_point, axes, Bindings.keys_map], ?_⟩
  intro name i found
  obtain ⟨j, entry⟩ := List.mem_iff_getElem?.mp (Bindings.get?_eq_some_iff.mp found)
  obtain ⟨count, ticks⟩ := counted name i found
  refine ⟨count, _, ticks, ?_, get?_point_axes entry inside⟩
  rw [Interval.count_eq ticks]
  exact Nat.mod_lt _ (Interval.tickCount?_bounds hs ticks).1

/-- **Every tick lies in its interval, but that the last one can exceed the upper end**, by a
hundred-millionth of the spacing at most, before it is rounded. -/
theorem grid_within (r : Region) (spacing : Float) (log : Log Float) (g : Grid)
    (h : (r.grid spacing log).1 = .ok g) :
    ∀ p ∈ g.points, p.keys = r.keys ∧
      (∀ name i, r.get? name = some i →
        ∃ count t x, i.tickCount? spacing = some count ∧ t < count ∧ p.get? name = some x ∧
          x = i.lower + Float.ofNat t * spacing ∧ x.isNaN = false ∧ i.lower ≤ x ∧
          (t + 1 < count → i.contains x = true) ∧
          (x.isFinite = true → value x ≤ rounded (value i.upper + value spacing / 10 ^ 8))) ∧
      (r.contains p = false →
        ∃ name i last x, r.get? name = some i ∧ i.tickCount? spacing = some (last + 1) ∧
          p.get? name = some x ∧ x = i.lower + Float.ofNat last * spacing ∧ i.upper < x) := by
  intro p mem
  have hs := isSpacing_of_grid h
  obtain ⟨keys_eq, ticks⟩ := exists_tick_of_mem_grid h mem
  refine ⟨keys_eq, ?_, ?_⟩
  · intro name i found
    obtain ⟨count, t, counted, inside, coordinate⟩ := ticks name i found
    have above :=
      Interval.lower_le_tick (i := i) hs (Interval.lt_two_pow_of_lt_count hs counted inside)
    exact ⟨count, t, _, counted, inside, coordinate, rfl, (le_iff.mp above).2.1, above,
      Interval.contains_tick hs counted, Interval.value_tick_le hs counted inside⟩
  · intro outside
    rw [contains, ← Bool.not_eq_true, Bindings.all_eq_true_iff] at outside
    push Not at outside
    obtain ⟨name, i, found, fails⟩ := outside
    obtain ⟨count, t, counted, inside, coordinate⟩ := ticks name i found
    have above :=
      Interval.lower_le_tick (i := i) hs (Interval.lt_two_pow_of_lt_count hs counted inside)
    rw [coordinate] at fails
    have is_last : t + 1 = count := by
      refine le_antisymm inside (not_lt.mp fun earlier => fails ?_)
      exact Interval.contains_tick hs counted earlier
    obtain rfl := is_last.symm
    refine ⟨name, i, t, _, found, counted, coordinate, rfl, ?_⟩
    obtain ⟨-, not_nan, -⟩ := le_iff.mp above
    have not_nan_upper := (isFinite_iff.mp i.finite.2).1
    refine lt_iff.mpr ⟨not_nan_upper, not_nan, not_le.mp fun le => fails ?_⟩
    show i.contains _ = true
    rw [Interval.contains, decide_eq_true above,
      decide_eq_true (le_iff.mpr ⟨not_nan, not_nan_upper, le⟩)]
    rfl

/-- From zero to three tenths. -/
def tenths : Region := .ofList [("x", ⟨0, 0.3, by decide, by decide, by decide⟩)]

theorem exists_outside_tenths :
    ∃ g p, (tenths.grid 0.1 .silent).1 = .ok g ∧ p ∈ g.points ∧ tenths.contains p = false := by
  have outside : (tenths.grid 0.1 .silent).1.toOption.any
      (fun g => g.points.any fun p => !tenths.contains p) = true := by decide +kernel
  rcases ok : (tenths.grid 0.1 .silent).1 with e | g
  · rw [ok] at outside
    cases outside
  · rw [ok] at outside
    obtain ⟨p, mem, not_inside⟩ := List.any_eq_true.mp outside
    exact ⟨g, p, rfl, mem, (Bool.not_eq_true' _).mp not_inside⟩

/-- A point of the tenths that is outside of them, and what is to be known of it. -/
theorem grid_within_tenths :
    ∃ g p, (tenths.grid 0.1 .silent).1 = .ok g ∧ p ∈ g.points ∧ p.keys = ["x"] ∧
      tenths.contains p = false ∧
      ∃ name i last x, tenths.get? name = some i ∧ i.tickCount? 0.1 = some (last + 1) ∧
        p.get? name = some x ∧ x = i.lower + Float.ofNat last * 0.1 ∧ i.upper < x := by
  obtain ⟨g, p, ok, mem, outside⟩ := exists_outside_tenths
  obtain ⟨keys_eq, -, beyond⟩ := grid_within tenths 0.1 .silent g ok p mem
  exact ⟨g, p, ok, mem, keys_eq, outside, beyond outside⟩

/-- **Three tenths, as they are counted, are beyond 0.3.** -/
theorem grid_leaves_tenths :
    ∃ r g p, Region.ofBounds [("x", 0, 0.3)] = .ok r ∧ (r.grid 0.1 .silent).1 = .ok g ∧
      p ∈ g.points ∧ r.contains p = false := by
  obtain ⟨g, p, ok, mem, outside⟩ := exists_outside_tenths
  exact ⟨tenths, g, p, rfl, ok, mem, outside⟩

/-- **A tick that falls on the upper end is counted if it fits**: if the multiple of the spacing
does not exceed the width, as both are computed, so in particular if the tick is not beyond the
end before it is rounded, or the interval begins at zero. -/
theorem grid_upper (r : Region) (spacing : Float) (log : Log Float) (g : Grid)
    (h : (r.grid spacing log).1 = .ok g) (name : String) (i : Interval)
    (found : r.get? name = some i) (n : ℕ)
    (falls : (i.lower + Float.ofNat n * spacing == i.upper) = true)
    (fits : Float.ofNat n * spacing ≤ i.upper - i.lower ∨
      value i.lower + n * value spacing ≤ value i.upper ∨ (i.lower == 0) = true) :
    ∃ a, g.get? name = some a ∧ ∃ x ∈ a.ticks, (x == i.upper) = true := by
  have hs := isSpacing_of_grid h
  obtain ⟨all_counted, -, rfl⟩ := (grid_eq_ok_iff hs).mp h
  obtain ⟨count, counted⟩ := all_counted name i found
  obtain ⟨not_nan_tick, not_nan_upper, tick_eq⟩ := beq_iff.mp falls
  have finite_tick : (i.lower + Float.ofNat n * spacing).isFinite = true :=
    isFinite_iff.mpr ⟨not_nan_tick, tick_eq ▸ (isFinite_iff.mp i.finite.2).2⟩
  obtain ⟨-, finite⟩ := isFinite_of_add finite_tick
  have inside : n < count := by
    rcases fits with fits | le | zero
    · exact Interval.lt_count_of_fits hs counted finite fits
    · exact Interval.lt_count_of_le hs counted le
    · -- Nothing is rounded where zero is added or subtracted.
      have lower_eq : value i.lower = 0 := (beq_iff.mp zero).2.2.trans value_zero
      refine Interval.lt_count_of_fits hs counted finite (le_iff.mpr
        ⟨(isFinite_iff.mp finite).1, i.yields_width.not_nan, ?_⟩)
      rw [i.yields_width.value_eq, lower_eq, sub_zero, rounded_value, ← tick_eq,
        (yields_add i.finite.1 finite).value_eq, lower_eq, zero_add, rounded_value]
  refine ⟨⟨i.lower, spacing, i.count spacing⟩, ?_, i.lower + Float.ofNat n * spacing, ?_, falls⟩
  · rw [axes, Bindings.get?_map, found]
    rfl
  · rw [Interval.count_eq counted]
    exact List.mem_map_of_mem (f := Axis.tick ⟨i.lower, spacing, count⟩) (List.mem_range.mpr inside)

/-- The square has both ends of its axes. -/
theorem grid_upper_square :
    ∃ g a, (square.grid 0.5 .silent).1 = .ok g ∧
      (negativeUnitInterval.lower + Float.ofNat 2 * 0.5 == negativeUnitInterval.upper) = true ∧
      Float.ofNat 2 * 0.5 ≤ negativeUnitInterval.upper - negativeUnitInterval.lower ∧
      g.get? "y" = some a ∧ ∃ x ∈ a.ticks, (x == negativeUnitInterval.upper) = true := by
  have falls : (negativeUnitInterval.lower + Float.ofNat 2 * 0.5 == negativeUnitInterval.upper) =
      true := by decide
  have fits : Float.ofNat 2 * 0.5 ≤ negativeUnitInterval.upper - negativeUnitInterval.lower := by
    decide
  have has_grid : (square.grid 0.5 .silent).1.isOk = true := by decide +kernel
  rcases ok : (square.grid 0.5 .silent).1 with e | g
  · rw [ok] at has_grid
    cases has_grid
  · obtain ⟨a, axis_eq, has_upper⟩ := grid_upper square 0.5 .silent g ok "y" negativeUnitInterval
      rfl 2 falls (.inl fits)
    exact ⟨g, a, rfl, falls, fits, axis_eq, has_upper⟩

/-- From ten million on, a tenth. -/
def farTenth : Interval := ⟨10000000, 10000000.1, by decide, by decide, by decide⟩

/-- **Far from zero, a tenth is not counted**, although it falls on the upper end. -/
theorem grid_misses_farTenth :
    ∃ r g a, Region.ofBounds [("x", 10000000, 10000000.1)] = .ok r ∧
      (r.grid 0.1 .silent).1 = .ok g ∧ r.get? "x" = some farTenth ∧ g.get? "x" = some a ∧
      (farTenth.lower + Float.ofNat 1 * 0.1 == farTenth.upper) = true ∧
      ∀ x ∈ a.ticks, (x == farTenth.upper) = false := by
  have misses : (Region.grid (.ofList [("x", farTenth)]) 0.1 .silent).1.toOption.any (fun g =>
      (g.get? "x").any fun a => a.ticks.all fun x => !(x == farTenth.upper)) = true := by
    decide +kernel
  rcases ok : (Region.grid (.ofList [("x", farTenth)]) 0.1 .silent).1 with e | g
  · rw [ok] at misses
    cases misses
  · rw [ok] at misses
    have any_axis : (g.get? "x").any (fun a => a.ticks.all fun x => !(x == farTenth.upper)) =
        true := misses
    obtain ⟨a, axis_eq, none_falls⟩ := (Option.any_eq_true _ _).mp any_axis
    refine ⟨_, g, a, rfl, ok, rfl, axis_eq, by decide, fun x mem => ?_⟩
    exact (Bool.not_eq_true' _).mp (List.all_eq_true.mp none_falls x mem)

end Region

end Downhill

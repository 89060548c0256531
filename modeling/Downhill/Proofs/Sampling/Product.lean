/-
A grid is the product of its axes.

There are two ways to a point of a grid.  `Grid.points` lists all points, and extends the list
axis by axis; `Grid.point` makes one point of its number, whose digits to the base of the counts
are the numbers of its ticks.  They agree (`points_eq`): adding an axis appends a digit, so a
list of points that is extended by one axis is numbered as before, with one more digit at the end.

Whether there are too many points is decided before any is made, by multiplying up the counts
and giving up early.  No count is zero, so a product that is too large at some point stays so,
and what is decided does not depend on the order of the axes (`total?_eq`).
-/
import Downhill.Proofs.Sampling.Ticks

namespace Downhill

open Binary64

/-! ### Lists that are extended element by element -/

/-- In a list that is made of pieces of one length, the quotient of a place by that length counts
the pieces before it. -/
theorem getElem?_flatMap_of_length {α β : Type} {l : List α} {f : α → List β} {m : ℕ} (hm : 0 < m)
    (each : ∀ a ∈ l, (f a).length = m) (k : ℕ) :
    (l.flatMap f)[k]? = l[k / m]?.bind fun a => (f a)[k % m]? := by
  induction l generalizing k with
  | nil => rfl
  | cons a rest ih =>
      obtain ⟨here, later⟩ := List.forall_mem_cons.mp each
      rw [List.flatMap_cons]
      rcases lt_or_ge k m with inside | beyond
      · rw [List.getElem?_append_left (inside.trans_eq here.symm), Nat.div_eq_of_lt inside,
          Nat.mod_eq_of_lt inside]
        rfl
      · rw [List.getElem?_append_right (here.trans_le beyond), here, ih later,
          Nat.div_eq_sub_div hm beyond, Nat.mod_eq_sub_mod beyond]
        rfl

namespace Grid

/-! ### How many points -/

/-- No product of two counts is too large for a machine word. -/
theorem checkedMul?_eq {total count : ℕ} (ht : total ≤ maxPoints) (hc : count ≤ maxPoints) :
    checkedMul? total count = some (total * count) :=
  if_pos ((Nat.mul_le_mul ht hc).trans_lt (by decide))

/-- **The counts are multiplied up to their product, or given up if it is too large**, in
whatever order they come. -/
theorem total?_eq {counts : List ℕ} (each : ∀ n ∈ counts, 0 < n ∧ n ≤ maxPoints) :
    total? counts = if counts.prod ≤ maxPoints then some counts.prod else none := by
  have fold : ∀ (counts : List ℕ), (∀ n ∈ counts, 0 < n ∧ n ≤ maxPoints) → ∀ total ≤ maxPoints,
      counts.foldlM (fun total count =>
          (checkedMul? total count).filter fun total => decide (total ≤ maxPoints)) total =
        if total * counts.prod ≤ maxPoints then some (total * counts.prod) else none := by
    intro counts
    induction counts with
    | nil =>
        intro _ total few
        rw [List.prod_nil, mul_one, if_pos few]
        rfl
    | cons n rest ih =>
        intro each total few
        obtain ⟨⟨-, n_le⟩, later⟩ := List.forall_mem_cons.mp each
        have rest_pos : 0 < rest.prod := List.prod_pos fun n mem => (later n mem).1
        rw [List.foldlM_cons, checkedMul?_eq few n_le, Option.filter_some, List.prod_cons,
          ← mul_assoc]
        by_cases still : total * n ≤ maxPoints
        · rw [if_pos (decide_eq_true still)]
          exact ih later (total * n) still
        · have too_many : ¬ total * n * rest.prod ≤ maxPoints := fun le =>
            still ((Nat.le_mul_of_pos_right _ rest_pos).trans le)
          rw [if_neg (by rwa [decide_eq_true_iff]), if_neg too_many]
          rfl
  rw [total?, fold counts each 1 (by decide), one_mul]

theorem volume_eq (l : List (String × Axis)) : volume l = (l.map fun e => e.2.count).prod := by
  induction l with
  | nil => rfl
  | cons e rest ih => rw [volume, ih, List.map_cons, List.prod_cons]

theorem pointCount_eq (g : Grid) : g.pointCount = g.counts.prod := volume_eq g.toList

theorem volume_append (l l' : List (String × Axis)) : volume (l ++ l') = volume l * volume l' := by
  rw [volume_eq, volume_eq, volume_eq, List.map_append, List.prod_append]

/-! ### Points and their numbers -/

/-- One more axis appends one more digit. -/
theorem coordinates_append_singleton (l : List (String × Axis)) (name : String) (a : Axis) {k : ℕ}
    (inside : k < volume (l ++ [(name, a)])) :
    coordinates (l ++ [(name, a)]) k =
      coordinates l (k / a.count) ++ [(name, a.tick (k % a.count))] := by
  have one : volume [(name, a)] = a.count := mul_one a.count
  induction l generalizing k with
  | nil =>
      rw [List.nil_append, one] at inside
      rw [Nat.mod_eq_of_lt inside]
      show [(name, a.tick (k / 1))] = [(name, a.tick k)]
      rw [Nat.div_one]
  | cons e rest ih =>
      have rest_pos : 0 < volume (rest ++ [(name, a)]) := by
        refine Nat.pos_of_ne_zero fun zero => ?_
        rw [List.cons_append, volume, zero, mul_zero] at inside
        exact Nat.not_lt_zero k inside
      rw [List.cons_append, coordinates, ih (Nat.mod_lt k rest_pos), volume_append, one,
        coordinates, Nat.div_div_eq_div_mul, mul_comm a.count, Nat.mod_mul_left_div_self,
        Nat.mod_mul_left_mod]
      rfl

/-- The points that extending axis by axis makes, by their numbers.  The induction takes the axes
from the end, where the points were extended last. -/
theorem getElem?_extended {l : List (String × Axis)} (pos : ∀ e ∈ l, 0 < e.2.count) (k : ℕ) :
    (l.foldl (fun (points : List (Point Float)) (e : String × Axis) =>
        points.flatMap fun p => e.2.ticks.map (p.insert e.1)) [∅])[k]? =
      if k < volume l then some (Bindings.ofList (coordinates l k)) else none := by
  induction l using List.reverseRecOn generalizing k with
  | nil => cases k <;> rfl
  | append_singleton rest e ih =>
      obtain ⟨name, a⟩ := e
      have one : volume [(name, a)] = a.count := mul_one a.count
      have pos_a : 0 < a.count := pos (name, a) (by simp)
      have length_eq : ∀ p : Point Float, (a.ticks.map (p.insert name)).length = a.count := by
        intro p
        rw [List.length_map, Axis.ticks, List.length_map, List.length_range]
      rw [List.foldl_append, List.foldl_cons, List.foldl_nil,
        getElem?_flatMap_of_length pos_a fun p _ => length_eq p,
        ih fun e mem => pos e (List.mem_append_left _ mem)]
      by_cases inside : k < volume (rest ++ [(name, a)])
      · have quotient_lt : k / a.count < volume rest := by
          rw [Nat.div_lt_iff_lt_mul pos_a, ← one, ← volume_append]
          exact inside
        have remainder_lt : k % a.count < a.count := Nat.mod_lt k pos_a
        rw [if_pos quotient_lt, if_pos inside, coordinates_append_singleton rest name a inside,
          Option.bind_some, List.getElem?_map, Axis.ticks, List.getElem?_map,
          List.getElem?_range remainder_lt]
        refine congrArg some ?_
        rw [Bindings.ofList, Bindings.ofList, List.foldl_append]
        rfl
      · have not_lt : ¬ k / a.count < volume rest := by
          rw [Nat.div_lt_iff_lt_mul pos_a, ← one, ← volume_append]
          exact inside
        rw [if_neg not_lt, if_neg inside, Option.bind_none]

/-- **Listing the points of a grid lists each point at its number.** -/
theorem points_eq {g : Grid} (pos : ∀ n ∈ g.counts, 0 < n) :
    g.points = (List.range g.pointCount).map g.point := by
  have positive : ∀ e ∈ g.toList, 0 < e.2.count := fun e mem => pos _ (List.mem_map_of_mem mem)
  refine List.ext_getElem? fun k => ?_
  refine (getElem?_extended positive k).trans ?_
  rw [List.getElem?_map]
  by_cases inside : k < g.pointCount
  · rw [List.getElem?_range inside]
    exact if_pos inside
  · rw [List.getElem?_eq_none (by rw [List.length_range]; exact not_lt.mp inside)]
    exact if_neg inside

theorem volume_drop_dvd (l : List (String × Axis)) (j : ℕ) : volume (l.drop j) ∣ volume l := by
  conv_rhs => rw [← List.take_append_drop j l]
  rw [volume_append]
  exact Nat.dvd_mul_left _ _

/-- The number of a tick is a digit of the number of the point. -/
theorem getElem?_coordinates {l : List (String × Axis)} {j : ℕ} {name : String} {a : Axis}
    (entry : l[j]? = some (name, a)) {k : ℕ} (inside : k < volume l) :
    (coordinates l k)[j]? = some (name, a.tick (k / volume (l.drop (j + 1)) % a.count)) := by
  induction l generalizing j k with
  | nil => cases entry
  | cons e rest ih =>
      obtain ⟨other, b⟩ := e
      have rest_pos : 0 < volume rest := by
        refine Nat.pos_of_ne_zero fun zero => ?_
        rw [volume, zero, mul_zero] at inside
        exact Nat.not_lt_zero k inside
      cases j with
      | zero =>
          cases entry
          have digit : k / volume rest < a.count :=
            (Nat.div_lt_iff_lt_mul rest_pos).mpr inside
          rw [List.drop_succ_cons, List.drop_zero, Nat.mod_eq_of_lt digit]
          rfl
      | succ j =>
          rw [List.getElem?_cons_succ] at entry
          have digit_dvd : volume (rest.drop (j + 1)) * a.count ∣ volume rest := by
            have split : volume (rest.drop j) = a.count * volume (rest.drop (j + 1)) := by
              obtain ⟨bound, eq⟩ := List.getElem?_eq_some_iff.mp entry
              rw [List.drop_eq_getElem_cons bound, eq, volume]
            rw [mul_comm, ← split]
            exact volume_drop_dvd rest j
          rw [coordinates, List.getElem?_cons_succ, ih entry (Nat.mod_lt k rest_pos),
            List.drop_succ_cons, ← Nat.mod_mul_right_div_self, Nat.mod_mod_of_dvd k digit_dvd,
            Nat.mod_mul_right_div_self]

theorem map_fst_coordinates (l : List (String × Axis)) (k : ℕ) :
    (coordinates l k).map Prod.fst = l.map Prod.fst := by
  induction l generalizing k with
  | nil => rfl
  | cons e rest ih => rw [coordinates, List.map_cons, List.map_cons, ih]

theorem toList_point (g : Grid) (k : ℕ) : (g.point k).toList = coordinates g.toList k := by
  refine Bindings.toList_ofList ?_
  rw [map_fst_coordinates]
  exact g.ascending

theorem keys_point (g : Grid) (k : ℕ) : (g.point k).keys = g.keys := by
  rw [Bindings.keys, toList_point, map_fst_coordinates, Bindings.keys]

theorem get?_point {g : Grid} {j : ℕ} {name : String} {a : Axis}
    (entry : g.toList[j]? = some (name, a)) {k : ℕ} (inside : k < g.pointCount) :
    (g.point k).get? name = some (a.tick (k / (g.counts.drop (j + 1)).prod % a.count)) := by
  rw [Bindings.get?_eq_some_iff, toList_point, counts, ← List.map_drop, ← volume_eq]
  exact List.mem_of_getElem? (getElem?_coordinates entry inside)

end Grid

/-! ### Grids of regions -/

/-- How many ticks there are along an interval, and none if they are not counted. -/
def Interval.count (i : Interval) (spacing : Float) : ℕ := (i.tickCount? spacing).getD 0

theorem Interval.count_eq {i : Interval} {spacing : Float} {n : ℕ}
    (counted : i.tickCount? spacing = some n) : i.count spacing = n := by
  rw [count, counted, Option.getD_some]

namespace Region

/-- How many ticks there are along each axis, in name order. -/
def counts (r : Region) (spacing : Float) : List ℕ := r.toList.map fun e => e.2.count spacing

/-- The axes along the intervals of a region. -/
def axes (r : Region) (spacing : Float) : Grid :=
  r.map fun _ i => ⟨i.lower, spacing, i.count spacing⟩

/-- The ticks are counted along every axis. -/
def Counted (r : Region) (spacing : Float) : Prop :=
  ∀ name i, r.get? name = some i → ∃ n, i.tickCount? spacing = some n

theorem counts_axes (r : Region) (spacing : Float) :
    (r.axes spacing).counts = r.counts spacing := by
  rw [Grid.counts, axes, Bindings.map, List.map_map]
  rfl

theorem getElem?_axes {r : Region} {j : ℕ} {name : String} {i : Interval}
    (entry : r.toList[j]? = some (name, i)) (spacing : Float) :
    (r.axes spacing).toList[j]? = some (name, ⟨i.lower, spacing, i.count spacing⟩) := by
  show (r.toList.map _)[j]? = _
  rw [List.getElem?_map, entry]
  rfl

section

variable {r : Region} {spacing : Float} (hs : IsSpacing spacing)
include hs

theorem Counted.bounds (counted : r.Counted spacing) :
    ∀ n ∈ r.counts spacing, 0 < n ∧ n ≤ Grid.maxPoints := by
  intro n mem
  obtain ⟨e, mem', rfl⟩ := List.mem_map.mp mem
  obtain ⟨n, found⟩ := counted e.1 e.2 (Bindings.get?_eq_some_iff.mpr mem')
  rw [Interval.count_eq found]
  exact Interval.tickCount?_bounds hs found

/-- **Where all ticks are counted, there is a grid unless their product is too large.** -/
theorem grid_of_counted (counted : r.Counted spacing) (log : Log Float) :
    (r.grid spacing log).1 =
      if (r.counts spacing).prod ≤ Grid.maxPoints then .ok (r.axes spacing)
      else .error .tooManyPoints := by
  have traversed : (r.traverse fun _ i => i.axis spacing) =
      (.ok (r.axes spacing) : Except Grid.Error Grid) := by
    refine Eq.trans (Bindings.traverse_congr ?_) (Bindings.traverse_ok _ r)
    intro name i found
    obtain ⟨n, ticks⟩ := counted name i found
    rw [Interval.axis, ticks, Interval.count_eq ticks]
  rw [grid, if_pos (isSpacing_iff.mpr hs), traversed]
  dsimp only
  rw [counts_axes, Grid.total?_eq (counted.bounds hs)]
  split_ifs <;> rfl

/-- Where the ticks of some axis are not counted, there are too many points. -/
theorem grid_of_not_counted (uncounted : ¬ r.Counted spacing) (log : Log Float) :
    (r.grid spacing log).1 = .error .tooManyPoints := by
  rw [grid, if_pos (isSpacing_iff.mpr hs)]
  split
  · rename_i e failed
    obtain ⟨name, i, -, here⟩ := Bindings.exists_of_traverse_eq_error failed
    rw [Interval.axis] at here
    split at here <;> cases here
    rfl
  · rename_i axes done
    refine absurd ?_ uncounted
    intro name i found
    obtain ⟨a, here, -⟩ := Bindings.exists_of_traverse_eq_ok done found
    rw [Interval.axis] at here
    split at here
    · rename_i n ticks
      exact ⟨n, ticks⟩
    · cases here

/-- **What a grid is, if there is one.** -/
theorem grid_eq_ok_iff {g : Grid} {log : Log Float} :
    (r.grid spacing log).1 = .ok g ↔
      r.Counted spacing ∧ (r.counts spacing).prod ≤ Grid.maxPoints ∧ g = r.axes spacing := by
  by_cases counted : r.Counted spacing
  · rw [grid_of_counted hs counted]
    split_ifs with few
    · simp [counted, few, eq_comm]
    · simp [few]
  · rw [grid_of_not_counted hs counted]
    simp [counted]

theorem grid_eq_error_iff {log : Log Float} :
    (r.grid spacing log).1 = .error .tooManyPoints ↔
      ¬ r.Counted spacing ∨ Grid.maxPoints < (r.counts spacing).prod := by
  by_cases counted : r.Counted spacing
  · rw [grid_of_counted hs counted]
    split_ifs with few
    · simp [counted, few]
    · simp [not_le.mp few]
  · rw [grid_of_not_counted hs counted]
    simp [counted]

omit hs in
theorem not_counted_iff :
    ¬ r.Counted spacing ↔ ∃ name i, r.get? name = some i ∧ i.tickCount? spacing = none := by
  simp only [Counted, not_forall, exists_prop, ← Option.isSome_iff_exists,
    Option.not_isSome_iff_eq_none]

omit hs in
/-- A point of the grid over a region, by its number. -/
theorem get?_point_axes {j : ℕ} {name : String} {i : Interval}
    (entry : r.toList[j]? = some (name, i)) {k : ℕ} (inside : k < (r.counts spacing).prod) :
    ((r.axes spacing).point k).get? name =
      some (i.lower + Float.ofNat (k / ((r.counts spacing).drop (j + 1)).prod % i.count spacing) *
        spacing) := by
  rw [← counts_axes] at inside ⊢
  exact Grid.get?_point (getElem?_axes entry spacing) (inside.trans_eq (Grid.pointCount_eq _).symm)

end

/-- **A grid is the product of its axes, the last one varying fastest, or it has too many
points.** -/
theorem grid_product (r : Region) (spacing : Float) (log : Log Float)
    (finite : spacing.isFinite = true) (positive : 0 < spacing) :
    (∀ name i, r.get? name = some i →
      (i.tickCount? spacing = none ↔ Float.ofNat Grid.maxPoints ≤ i.steps spacing)) ∧
    ((r.grid spacing log).1 = .error .tooManyPoints ↔
      (∃ name i, r.get? name = some i ∧ i.tickCount? spacing = none) ∨
        Grid.maxPoints < (r.counts spacing).prod) ∧
    (r.Counted spacing →
      (∀ order : List ℕ, order.Perm (r.counts spacing) →
        Grid.total? order =
          if (r.counts spacing).prod ≤ Grid.maxPoints then some (r.counts spacing).prod
          else none) ∧
      ∀ total ≤ Grid.maxPoints, ∀ count ∈ r.counts spacing,
        Grid.checkedMul? total count = some (total * count)) ∧
    ((r.grid spacing log).1 ≠ .error .tooManyPoints →
      ∃ g, (r.grid spacing log).1 = .ok g ∧ g.points.length = (r.counts spacing).prod ∧
        ∀ k < (r.counts spacing).prod, ∃ p, g.points[k]? = some p ∧ p.keys = r.keys ∧
          ∀ j name i, r.toList[j]? = some (name, i) →
            ∃ t < i.count spacing,
              t = k / ((r.counts spacing).drop (j + 1)).prod % i.count spacing ∧
              p.get? name = some (i.lower + Float.ofNat t * spacing)) ∧
    (r.keys = [] → ∃ g, (r.grid spacing log).1 = .ok g ∧ g.points = [∅]) := by
  have hs := isSpacing_of_lt finite positive
  refine ⟨fun _ i _ => Interval.tickCount?_eq_none_iff hs i, ?_, ?_, ?_, ?_⟩
  · rw [grid_eq_error_iff hs, not_counted_iff]
  · intro counted
    have bounds := counted.bounds hs
    refine ⟨?_, fun total few count mem => Grid.checkedMul?_eq few (bounds count mem).2⟩
    intro order perm
    rw [Grid.total?_eq fun n mem => bounds n (perm.mem_iff.mp mem), perm.prod_eq]
  · intro not_too_many
    rw [ne_eq, grid_eq_error_iff hs, not_or, not_not, not_lt] at not_too_many
    obtain ⟨counted, few⟩ := not_too_many
    have points_eq : (r.axes spacing).points = _ := Grid.points_eq fun n mem =>
      (counted.bounds hs n (counts_axes r spacing ▸ mem)).1
    rw [Grid.pointCount_eq, counts_axes] at points_eq
    refine ⟨r.axes spacing, (grid_eq_ok_iff hs).mpr ⟨counted, few, rfl⟩, ?_, ?_⟩
    · rw [points_eq, List.length_map, List.length_range]
    · intro k inside
      refine ⟨(r.axes spacing).point k, ?_, ?_, ?_⟩
      · rw [points_eq, List.getElem?_map, List.getElem?_range inside]
        rfl
      · rw [Grid.keys_point, axes, Bindings.keys_map]
      · intro j name i entry
        have mem := List.mem_map_of_mem (f := fun e => e.2.count spacing)
          (List.mem_of_getElem? entry)
        exact ⟨_, Nat.mod_lt _ (counted.bounds hs _ mem).1, rfl, get?_point_axes entry inside⟩
  · intro empty
    have no_entries : r.toList = [] := List.map_eq_nil_iff.mp empty
    have counted : r.Counted spacing := by
      intro name i found
      rw [Bindings.get?_eq_some_iff, no_entries] at found
      cases found
    refine ⟨r.axes spacing, (grid_eq_ok_iff hs).mpr ⟨counted, ?_, rfl⟩, ?_⟩
    · rw [counts, no_entries, List.map_nil, List.prod_nil]
      decide
    · have no_axes : (r.axes spacing).toList = [] := by
        show r.toList.map _ = []
        rw [no_entries, List.map_nil]
      rw [Grid.points, no_axes]
      rfl

/-- From zero to one. -/
def unitInterval : Interval := ⟨0, 1, by decide, by decide, by decide⟩

/-- From minus one to zero. -/
def negativeUnitInterval : Interval := ⟨-1, 0, by decide, by decide, by decide⟩

/-- A square. -/
def square : Region := .ofList [("x", unitInterval), ("y", negativeUnitInterval)]

/-- Nine points of the square, of which the sixth has the second tick of the first axis and the
last of the second one; too many points of it, along an axis and in all; and the one point over
no variables. -/
theorem grid_product_square :
    (∃ g p, (square.grid 0.5 .silent).1 = .ok g ∧ g.points.length = 9 ∧ g.points[5]? = some p ∧
      p.keys = ["x", "y"] ∧ p.get? "x" = some (unitInterval.lower + Float.ofNat 1 * 0.5) ∧
      p.get? "y" = some (negativeUnitInterval.lower + Float.ofNat 2 * 0.5)) ∧
    (square.grid 1e-12 .silent).1 = .error .tooManyPoints ∧
    (square.grid 1e-4 .silent).1 = .error .tooManyPoints ∧
    ∃ g, (Region.grid ∅ 0.5 .silent).1 = .ok g ∧ g.points = [∅] := by
  have first : square.toList[0]? = some ("x", unitInterval) := rfl
  have second : square.toList[1]? = some ("y", negativeUnitInterval) := rfl
  have keys_eq : square.keys = ["x", "y"] := rfl
  have prod_eq : (square.counts 0.5).prod = 9 := by decide +kernel
  obtain ⟨-, -, -, product, -⟩ := grid_product square 0.5 .silent (by decide) (by decide)
  obtain ⟨-, too_fine, -⟩ := grid_product square 1e-12 .silent (by decide) (by decide)
  obtain ⟨-, too_large, -⟩ := grid_product square 1e-4 .silent (by decide) (by decide)
  obtain ⟨-, -, -, -, empty⟩ := grid_product ∅ 0.5 .silent (by decide) (by decide)
  have has_grid : (square.grid 0.5 .silent).1.isOk = true := by decide +kernel
  obtain ⟨g, ok, length_eq, each⟩ := product fun failed => by
    rw [failed] at has_grid
    cases has_grid
  obtain ⟨p, sixth, keys_p, coordinates⟩ := each 5 (by rw [prod_eq]; decide)
  obtain ⟨t, -, t_eq, x_eq⟩ := coordinates 0 "x" unitInterval first
  obtain ⟨t', -, t'_eq, y_eq⟩ := coordinates 1 "y" negativeUnitInterval second
  have one : t = 1 := t_eq.trans (by decide +kernel)
  have two : t' = 2 := t'_eq.trans (by decide +kernel)
  rw [one] at x_eq
  rw [two] at y_eq
  refine ⟨⟨g, p, ok, length_eq.trans prod_eq, sixth, keys_p.trans keys_eq, x_eq, y_eq⟩, ?_, ?_,
    empty rfl⟩
  · exact too_fine.mpr (.inl ⟨"x", unitInterval, rfl, by decide +kernel⟩)
  · exact too_large.mpr (.inr (by decide +kernel))

end Region

end Downhill

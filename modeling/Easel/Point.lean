/-!
# Points

Places on the plane of cells: `x` counts columns to the right and `y` counts rows down, both from
the cell at the top left of a canvas.
-/

namespace Easel

/-- A place on the plane of cells. -/
structure Point where
  x : Int
  y : Int
deriving DecidableEq, Repr, Inhabited

/-- The point at an offset from another. -/
def Point.shift (p : Point) (dx dy : Int) : Point := ⟨p.x + dx, p.y + dy⟩

/-- The integers from `first` to `last`, both included. -/
def between (first last : Int) : List Int :=
  (List.range (last + 1 - first).toNat).map fun k : Nat => first + k

/-- The points of the columns from `left` to `right` in the rows from `top` to `bottom`. -/
def pointsBetween (left right top bottom : Int) : List Point :=
  (between top bottom).flatMap fun y => (between left right).map fun x => ⟨x, y⟩

/-- The integers between two others, with these. -/
@[simp]
theorem mem_between {first last n : Int} : n ∈ between first last ↔ first ≤ n ∧ n ≤ last := by
  simp only [between, List.mem_map, List.mem_range]
  constructor
  · rintro ⟨k, bound, rfl⟩
    omega
  · intro ⟨low, high⟩
    exact ⟨(n - first).toNat, by omega, by omega⟩

/-- A range that is not empty is its first integer and the range after it. -/
theorem between_cons {first last : Int} (le : first ≤ last) :
    between first last = first :: between (first + 1) last := by
  have length : (last + 1 - first).toNat = (last + 1 - (first + 1)).toNat + 1 := by omega
  rw [between, length, List.range_succ_eq_map, List.map_cons, List.map_map, between]
  congr 1
  · exact Int.add_zero first
  · refine List.map_congr_left fun k _ => ?_
    simp only [Function.comp_apply, Nat.succ_eq_add_one]
    omega

/-- A range that ends before it begins is empty. -/
theorem between_of_lt {first last : Int} (less : last < first) : between first last = [] := by
  rw [between, Int.toNat_of_nonpos (by omega)]
  rfl

/-- A range that is not empty ends with its last integer. -/
theorem getLast?_between {first last : Int} (le : first ≤ last) :
    (between first last).getLast? = some last := by
  have length : (last + 1 - first).toNat = (last - first).toNat + 1 := by omega
  rw [between, List.getLast?_map, length, List.getLast?_range, if_neg (by omega), Option.map_some]
  congr 1
  omega

/-- A range lists no integer twice. -/
theorem nodup_between {first last : Int} : (between first last).Nodup := by
  refine List.Pairwise.map _ (fun i j apart same => ?_) List.nodup_range
  omega

/-- The points between two columns and two rows, with these. -/
@[simp]
theorem mem_pointsBetween {left right top bottom : Int} {p : Point} :
    p ∈ pointsBetween left right top bottom ↔
      (left ≤ p.x ∧ p.x ≤ right) ∧ top ≤ p.y ∧ p.y ≤ bottom := by
  simp only [pointsBetween, List.mem_flatMap, List.mem_map, mem_between]
  constructor
  · rintro ⟨y, row, x, column, rfl⟩
    exact ⟨column, row⟩
  · intro ⟨column, row⟩
    exact ⟨p.y, row, p.x, column, rfl⟩

end Easel

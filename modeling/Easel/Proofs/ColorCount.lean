import Easel.Canvas
import Mathlib.Algebra.Order.BigOperators.Group.Finset
import Mathlib.Algebra.Ring.Nat
import Mathlib.Data.Fintype.Prod

/-!
# Counting colors

The points that are counted are those of a rectangle cut off at the edges of the canvas, row by row
and without repetition (`nodup_pointsBetween`). What is cut off has no color, so the count is the
number of cells of the color in the whole rectangle, wherever its corners are
(`Canvas.colorCount_eq_card`). All else about counts follows from this (`Canvas.colorCount_exact`):
the order of the corners does not matter, the counts of all colors add up to the number of cells,
and the counts of two parts to that of the whole.
-/

namespace Easel

/-- No point is listed twice. -/
lemma nodup_pointsBetween (left right top bottom : Int) :
    (pointsBetween left right top bottom).Nodup := by
  rw [pointsBetween, List.nodup_flatMap]
  constructor
  · intro y _
    exact nodup_between.map fun x x' same => congrArg Point.x same
  · refine nodup_between.imp fun {y y'} apart => ?_
    rw [Function.onFun, List.disjoint_left]
    intro p mem mem'
    obtain ⟨x, -, rfl⟩ := List.mem_map.mp mem
    obtain ⟨x', -, same⟩ := List.mem_map.mp mem'
    exact apart (congrArg Point.y same).symm

/-- A point is in the rectangle that two corners span, whichever of them is further to the left and
whichever is further up. -/
def Point.Between (p q r : Point) : Prop :=
  (min p.x q.x ≤ r.x ∧ r.x ≤ max p.x q.x) ∧ min p.y q.y ≤ r.y ∧ r.y ≤ max p.y q.y

instance (p q r : Point) : Decidable (p.Between q r) :=
  inferInstanceAs (Decidable ((_ ∧ _) ∧ _ ∧ _))

namespace Canvas

/-- The point at a column and a row of a canvas. -/
def cell {size : Nat} (i : Fin size × Fin size) : Point := ⟨i.1.val, i.2.val⟩

/-- Each cell has one column and one row. -/
lemma cell_injective {size : Nat} : Function.Injective (@cell size) := by
  intro i j same
  have column : (i.1.val : Int) = j.1.val := congrArg Point.x same
  have row : (i.2.val : Int) = j.2.val := congrArg Point.y same
  exact Prod.ext (Fin.ext (by omega)) (Fin.ext (by omega))

variable (c : Canvas) (color : Color) (p q : Point)

/-- Every point with a color is the point of a cell. -/
lemma exists_cell {c : Canvas} {r : Point} (on : (c.get? r).isSome) :
    ∃ i : Fin c.size × Fin c.size, cell i = r := by
  obtain ⟨x, y⟩ := r
  obtain ⟨⟨left, right⟩, top, bottom⟩ : (0 ≤ x ∧ x < c.size) ∧ 0 ≤ y ∧ y < c.size :=
    isSome_get?.mp on
  refine ⟨(⟨x.toNat, by omega⟩, ⟨y.toNat, by omega⟩), ?_⟩
  simp only [cell, Point.mk.injEq]
  omega

/-- Each column and row of the canvas has a cell. -/
lemma isSome_get?_cell (i : Fin c.size × Fin c.size) : (c.get? (cell i)).isSome := by
  rw [isSome_get?]
  simp only [cell]
  omega

/-- The cells of a canvas in the rectangle of two corners. -/
def cellsBetween : Finset (Fin c.size × Fin c.size) :=
  Finset.univ.filter fun i => p.Between q (cell i)

/-- The cells of a color in the rectangle of two corners. -/
def cellsOf : Finset (Fin c.size × Fin c.size) :=
  (c.cellsBetween p q).filter fun i => c.get? (cell i) = some color

variable {c color p q}

/-- The cells that count are those between the corners that have the color. -/
lemma mem_cellsOf {i : Fin c.size × Fin c.size} :
    i ∈ c.cellsOf color p q ↔ p.Between q (cell i) ∧ c.get? (cell i) = some color := by
  rw [cellsOf, Finset.mem_filter, cellsBetween, Finset.mem_filter]
  exact and_congr_left fun _ => and_iff_right (Finset.mem_univ i)

/-- A color is counted as often as there are cells of it between the corners. -/
lemma colorCount_eq_card (c : Canvas) (color : Color) (p q : Point) :
    c.colorCount color p q = (c.cellsOf color p q).card := by
  rw [colorCount, List.countP_eq_length_filter,
    ← List.toFinset_card_of_nodup ((nodup_pointsBetween ..).filter _),
    ← Finset.card_image_of_injective _ cell_injective]
  congr 1
  ext r
  rw [List.mem_toFinset, List.mem_filter, mem_pointsBetween, isColor, beq_iff_eq, Finset.mem_image]
  constructor
  · rintro ⟨between, here⟩
    obtain ⟨i, rfl⟩ := exists_cell (by rw [here]; rfl : (c.get? r).isSome)
    refine ⟨i, mem_cellsOf.mpr ⟨?_, here⟩, rfl⟩
    unfold Point.Between
    omega
  · rintro ⟨i, mem, rfl⟩
    obtain ⟨between, here⟩ := mem_cellsOf.mp mem
    -- a cell of the canvas is not lost when the rectangle is cut off at the edges
    have inside := isSome_get?.mp (c.isSome_get?_cell i)
    refine ⟨?_, here⟩
    unfold Point.Between at between
    omega

/-- The cells of all colors are the cells of the canvas. -/
lemma sum_card_cellsOf (c : Canvas) (p q : Point) :
    (Color.palette.map fun color => (c.cellsOf color p q).card).sum =
      (c.cellsBetween p q).card := by
  have distinct : Color.palette.Nodup := by decide
  have colored : Set.MapsTo (fun i : Fin c.size × Fin c.size => c.get? (cell i))
      ↑(c.cellsBetween p q) ↑(Color.palette.map some).toFinset := by
    intro i _
    obtain ⟨color, here⟩ := Option.isSome_iff_exists.mp (c.isSome_get?_cell i)
    simp [here, color.mem_palette]
  rw [Finset.card_eq_sum_card_fiberwise colored,
    List.sum_toFinset _ (distinct.map (Option.some_injective _)), List.map_map]
  rfl

/-- Cells that are told apart by a test are counted in two parts. -/
lemma card_cellsOf_add {p' q' p'' q'' : Point} (test : Fin c.size × Fin c.size → Prop)
    [DecidablePred test]
    (first : ∀ i, p'.Between q' (cell i) ↔ p.Between q (cell i) ∧ test i)
    (second : ∀ i, p''.Between q'' (cell i) ↔ p.Between q (cell i) ∧ ¬ test i) :
    (c.cellsOf color p q).card = (c.cellsOf color p' q').card + (c.cellsOf color p'' q'').card := by
  rw [← Finset.card_filter_add_card_filter_not test]
  congr 2
  · ext i
    rw [Finset.mem_filter, mem_cellsOf, mem_cellsOf, first]
    exact and_right_comm
  · ext i
    rw [Finset.mem_filter, mem_cellsOf, mem_cellsOf, second]
    exact and_right_comm

/-- The count of a color in a rectangle is the number of cells of that color in it. It does not
depend on which of the corners is further to the left or further up. The counts of all colors add up
to the number of cells. A rectangle that is cut between two columns or between two rows has as many
cells of a color as both parts together. -/
theorem colorCount_exact (c : Canvas) (color : Color) (p q : Point) :
    c.colorCount color p q = (c.cellsOf color p q).card ∧
      c.colorCount color ⟨q.x, p.y⟩ ⟨p.x, q.y⟩ = c.colorCount color p q ∧
      c.colorCount color ⟨p.x, q.y⟩ ⟨q.x, p.y⟩ = c.colorCount color p q ∧
      (Color.palette.map fun color => c.colorCount color p q).sum = (c.cellsBetween p q).card ∧
      (∀ m, min p.x q.x ≤ m → m < max p.x q.x →
        c.colorCount color p q =
          c.colorCount color ⟨min p.x q.x, p.y⟩ ⟨m, q.y⟩ +
            c.colorCount color ⟨m + 1, p.y⟩ ⟨max p.x q.x, q.y⟩) ∧
      ∀ m, min p.y q.y ≤ m → m < max p.y q.y →
        c.colorCount color p q =
          c.colorCount color ⟨p.x, min p.y q.y⟩ ⟨q.x, m⟩ +
            c.colorCount color ⟨p.x, m + 1⟩ ⟨q.x, max p.y q.y⟩ := by
  refine ⟨colorCount_eq_card .., ?_, ?_, ?_, fun m low high => ?_, fun m low high => ?_⟩ <;>
    simp only [colorCount_eq_card]
  · congr 1
    ext i
    rw [mem_cellsOf, mem_cellsOf, Point.Between, Point.Between, min_comm, max_comm]
  · congr 1
    ext i
    rw [mem_cellsOf, mem_cellsOf, Point.Between, Point.Between, min_comm q.y, max_comm q.y]
  · exact c.sum_card_cellsOf p q
  · refine card_cellsOf_add (fun i => (i.1.val : Int) ≤ m) (fun i => ?_) fun i => ?_ <;>
      (simp only [Point.Between, cell]; omega)
  · refine card_cellsOf_add (fun i => (i.2.val : Int) ≤ m) (fun i => ?_) fun i => ?_ <;>
      (simp only [Point.Between, cell]; omega)

/-- The corners may be off the canvas, and the cut next to its edge. -/
theorem colorCount_exact_edge :
    let c := (blank 3 .white).set ⟨0, 1⟩ .red
    let p : Point := ⟨5, -2⟩
    let q : Point := ⟨-4, 9⟩
    c.colorCount .white p q = 8 ∧
      c.colorCount .white p q = c.colorCount .white ⟨-4, -2⟩ ⟨0, 9⟩ +
        c.colorCount .white ⟨1, -2⟩ ⟨5, 9⟩ := by
  intro c p q
  obtain ⟨-, -, -, -, columns, -⟩ := c.colorCount_exact .white p q
  exact ⟨by decide +kernel, columns 0 (by decide) (by decide)⟩

end Canvas

end Easel
